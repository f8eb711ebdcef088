import ClassFold.Quote

/-!
Nesting in expressions.

An expression is read character by character; `Nesting` records whether the reading stands in
code, with how many brackets open, or inside a literal.  Brackets of different kinds are not told
apart, and a closing bracket without an open one is passed over.  A character is *exposed* when it
stands outside of all brackets and literals and is itself neither a bracket nor a quotation mark.
Expressions are split and cut at exposed characters only.
-/

namespace ClassFold

open Text

/-- Where the reading of an expression stands. -/
inductive Nesting where
  /-- In code, inside `depth` open brackets. -/
  | code (depth : Nat)
  /-- In a literal that ends at the next `mark`. -/
  | literal (mark : Char) (depth : Nat)
  /-- In such a literal, right behind a backslash. -/
  | escaped (mark : Char) (depth : Nat)
  deriving DecidableEq, Repr

namespace Nesting

/-- The marks that start a literal. -/
def isMark (c : Char) : Bool := c == '\'' || c == '"' || c == backtick

/-- The opening brackets. -/
def isOpening (c : Char) : Bool := c == '(' || c == '[' || c == '{'

/-- The closing brackets. -/
def isClosing (c : Char) : Bool := c == ')' || c == ']' || c == '}'

/-- The start of an expression, outside of all brackets and literals. -/
abbrev top : Nesting := code 0

/-- The nesting behind one more character. -/
def next : Nesting → Char → Nesting
  | code d, c =>
    if isMark c then literal c d
    else if isOpening c then code (d + 1)
    else if isClosing c then code (d - 1)
    else code d
  | literal m d, c => if c = '\\' then escaped m d else if c = m then code d else literal m d
  | escaped m d, _ => literal m d

/-- The nesting behind a text. -/
def after (n : Nesting) (s : Text) : Nesting := s.foldl next n

/-- Whether a character read at this nesting is exposed. -/
def exposes : Nesting → Char → Bool
  | code 0, c => !(isMark c || isOpening c || isClosing c)
  | _, _ => false

@[simp] theorem after_nil (n : Nesting) : n.after [] = n := rfl

@[simp] theorem after_cons (n : Nesting) (c : Char) (s : Text) :
    n.after (c :: s) = (n.next c).after s := rfl

@[simp] theorem after_append (n : Nesting) (s t : Text) :
    n.after (s ++ t) = (n.after s).after t :=
  List.foldl_append

/-- An exposed character stands at the top and does not change the nesting. -/
theorem eq_top_of_exposes {n : Nesting} {c : Char} (h : n.exposes c = true) :
    n = top ∧ n.next c = top := by
  match n, h with
  | code 0, h =>
    simp only [exposes, Bool.not_eq_true', Bool.or_eq_false_iff] at h
    simp [next, h]

end Nesting

/-! ### Splitting at exposed characters -/

/-- The parts of a text between the exposed occurrences of `sep`, read from nesting `n`. -/
def splitFrom (sep : Char) : Nesting → Text → List Text
  | _, [] => [[]]
  | n, c :: s =>
    if n.exposes c && c == sep then [] :: splitFrom sep (n.next c) s
    else (splitFrom sep (n.next c) s).modifyHead (c :: ·)

/-- The parts of an expression between the exposed occurrences of `sep`. -/
def splitTop (sep : Char) (s : Text) : List Text := splitFrom sep .top s

theorem splitFrom_ne_nil (sep : Char) (n : Nesting) (s : Text) : splitFrom sep n s ≠ [] := by
  induction s generalizing n with
  | nil => simp [splitFrom]
  | cons c s ih =>
    cases h : splitFrom sep (n.next c) s with
    | nil => exact absurd h (ih _)
    | cons p ps => by_cases hc : (n.exposes c && c == sep) = true <;> simp [splitFrom, h, hc]

theorem length_le_of_mem_splitFrom {sep : Char} {n : Nesting} {s p : Text}
    (h : p ∈ splitFrom sep n s) : p.length ≤ s.length := by
  induction s generalizing n p with
  | nil => simp_all [splitFrom]
  | cons c s ih =>
    rw [splitFrom] at h
    split at h
    · rcases List.mem_cons.1 h with rfl | h
      · simp
      · exact Nat.le_succ_of_le (ih h)
    · cases hs : splitFrom sep (n.next c) s with
      | nil => simp [hs] at h
      | cons q qs =>
        rw [hs, List.modifyHead_cons] at h
        rcases List.mem_cons.1 h with rfl | h
        · have := ih (n := n.next c) (p := q) (by simp [hs])
          simpa using this
        · have := ih (n := n.next c) (p := p) (by simp [hs, h])
          exact Nat.le_succ_of_le this

/-- The parts of a text around the first exposed occurrence of `sep`, read from nesting `n`. -/
def cutFrom (sep : Char) : Nesting → Text → Option (Text × Text)
  | _, [] => none
  | n, c :: s =>
    if n.exposes c && c == sep then some ([], s)
    else (cutFrom sep (n.next c) s).map fun p => (c :: p.1, p.2)

/-- The parts of an expression around its first exposed `sep`. -/
def cutTop (sep : Char) (s : Text) : Option (Text × Text) := cutFrom sep .top s

end ClassFold
