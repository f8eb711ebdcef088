import ClassFold.Proofs.Expr.Items

/-!
Brackets that belong together.

A reading of an expression counts its open brackets and does not tell their kinds apart.  Here it
carries the stack of the open brackets along instead.

* `Nesting.Paired`: each closing bracket of a text belongs to the innermost open one, and the text
  ends outside of all brackets and literals.
* `Nesting.Grouped`: such texts by how they are put together; `Nesting.paired_iff_grouped`.
* `Nesting.Grouped.last`: the last character of such a text, and what it belongs to.
* `Nesting.Paired.trim`: trimming keeps brackets paired.
* `Nesting.Paired.delimited_cases`: a bracket at the front and one at the end belong together, or
  they are the outer ones of two pairs.
-/

namespace ClassFold

open Text

namespace Nesting

/-! ### Reading with the open brackets -/

/-- The closing bracket that belongs to an opening one. -/
def partner (left : Char) : Char := if left = '(' then ')' else if left = '[' then ']' else '}'

/-- The open brackets behind one more character, the innermost one first, or nothing if the
character closes any other bracket than that one. -/
def track : Nesting → List Char → Char → Option (List Char)
  | code _, stack, c =>
    if isOpening c then some (c :: stack)
    else if isClosing c then
      match stack with
      | [] => none
      | left :: rest => if partner left = c then some rest else none
    else some stack
  | _, stack, _ => some stack

/-- The open brackets behind a text. -/
def openBehind : Nesting → List Char → Text → Option (List Char)
  | _, stack, [] => some stack
  | n, stack, c :: s => (n.track stack c).bind fun stack' => openBehind (n.next c) stack' s

/-- In a text with paired brackets each closing bracket belongs to the innermost open one, and all
brackets and literals are closed behind it. -/
structure Paired (s : Text) : Prop where
  matched : top.openBehind [] s = some []
  settled : top.after s = top

instance (s : Text) : Decidable (Paired s) :=
  decidable_of_iff (top.openBehind [] s = some [] ∧ top.after s = top)
    ⟨fun h => ⟨h.1, h.2⟩, fun h => ⟨h.matched, h.settled⟩⟩

lemma openBehind_append (n : Nesting) (stack : List Char) (s t : Text) :
    n.openBehind stack (s ++ t) =
      (n.openBehind stack s).bind fun stack' => (n.after s).openBehind stack' t := by
  induction s generalizing n stack with
  | nil => rfl
  | cons c s ih =>
      rw [List.cons_append, openBehind, openBehind, Option.bind_assoc]
      exact congrArg _ (funext fun stack' => ih (n.next c) stack')

lemma openBehind_cons {n : Nesting} {stack stack' : List Char} {c : Char}
    (h : n.track stack c = some stack') (s : Text) :
    n.openBehind stack (c :: s) = (n.next c).openBehind stack' s := by
  rw [openBehind, h, Option.bind_some]

section Track

variable {c : Char} (stack : List Char) (d : Nat)

lemma track_of_isOpening (hc : isOpening c = true) :
    (code d).track stack c = some (c :: stack) := by
  simp [track, hc]

lemma isOpening_eq_false_of_isClosing (hc : isClosing c = true) : isOpening c = false := by
  simp only [isClosing, Bool.or_eq_true, beq_iff_eq] at hc
  rcases hc with (rfl | rfl) | rfl <;> decide

lemma isClosing_partner (left : Char) : isClosing (partner left) = true := by
  rw [partner]
  split_ifs <;> decide

lemma track_partner (left : Char) : (code d).track (left :: stack) (partner left) = some stack := by
  have hclosing := isClosing_partner left
  simp [track, hclosing, isOpening_eq_false_of_isClosing hclosing]

lemma isBracket_eq_false_of_isMark (hc : isMark c = true) :
    isOpening c = false ∧ isClosing c = false := by
  simp only [isMark, Bool.or_eq_true, beq_iff_eq] at hc
  rcases hc with (rfl | rfl) | rfl <;> decide

/-- Only brackets in code change which brackets are open. -/
lemma track_of_not_isBracket (hopen : isOpening c = false) (hclose : isClosing c = false)
    (n : Nesting) : n.track stack c = some stack := by
  cases n with
  | code d => simp [track, hopen, hclose]
  | literal m d => rfl
  | escaped m d => rfl

end Track

lemma partner_inj {left left' : Char} (h : isOpening left = true) (h' : isOpening left' = true)
    (heq : partner left = partner left') : left = left' := by
  simp only [isOpening, Bool.or_eq_true, beq_iff_eq] at h h'
  rcases h with (rfl | rfl) | rfl <;> rcases h' with (rfl | rfl) | rfl <;>
    first | rfl | exact absurd heq (by decide)

/-! ### Texts with paired brackets by how they are put together -/

/-- What may stand in a literal between its marks. -/
inductive LiteralBody (mark : Char) : Text → Prop where
  | nil : LiteralBody mark []
  | plain {c : Char} {s : Text} (hc : c ≠ mark ∧ c ≠ '\\') (hs : LiteralBody mark s) :
      LiteralBody mark (c :: s)
  | escape {c : Char} {s : Text} (hs : LiteralBody mark s) : LiteralBody mark ('\\' :: c :: s)

/-- A text is grouped when it is made of plain characters, literals and pairs of brackets around
grouped texts. -/
inductive Grouped : Text → Prop where
  | nil : Grouped []
  | plain {c : Char} {s : Text} (hc : isPlain c = true) (hs : Grouped s) : Grouped (c :: s)
  | quoted {m : Char} {body s : Text} (hm : isMark m = true) (hbody : LiteralBody m body)
      (hs : Grouped s) : Grouped (m :: (body ++ m :: s))
  | brackets {left : Char} {s t : Text} (hl : isOpening left = true) (hs : Grouped s)
      (ht : Grouped t) : Grouped (left :: (s ++ partner left :: t))

section Literals

variable {m : Char} {body : Text}

/-- A literal goes on behind what may stand in it, and no bracket in it counts. -/
lemma LiteralBody.reading (h : LiteralBody m body) (d : Nat) :
    (literal m d).after body = literal m d ∧ (literal m d).overcloses body = false ∧
      ∀ stack, (literal m d).openBehind stack body = some stack := by
  induction h with
  | nil => exact ⟨rfl, rfl, fun _ => rfl⟩
  | @plain c s hc _ ih =>
      have hnext : (literal m d).next c = literal m d := by simp [next, hc]
      refine ⟨by rw [after_cons, hnext, ih.1], ?_, fun stack => ?_⟩
      · exact overcloses_cons.2 ⟨by simp, by rw [hnext]; exact ih.2.1⟩
      · rw [openBehind_cons rfl, hnext, ih.2.2]
  | @escape c s _ ih =>
      have hnext : (literal m d).next '\\' = escaped m d := by simp [next]
      have hback : (escaped m d).next c = literal m d := rfl
      refine ⟨by rw [after_cons, hnext, after_cons, hback, ih.1], ?_, fun stack => ?_⟩
      · refine overcloses_cons.2 ⟨by simp, ?_⟩
        rw [hnext]
        exact overcloses_cons.2 ⟨by simp, by rw [hback]; exact ih.2.1⟩
      · rw [openBehind_cons rfl, hnext, openBehind_cons rfl, hback, ih.2.2]

lemma next_mark (hm : isMark m = true) (d : Nat) :
    (code d).next m = literal m d ∧ (literal m d).next m = code d := by
  have hslash : m ≠ '\\' := by
    rintro rfl
    exact absurd hm (by decide)
  exact ⟨by simp [next, hm], by simp [next, hslash]⟩

lemma Closed.quoted {s : Text} (hm : isMark m = true) (hbody : LiteralBody m body)
    (hs : Closed s) : Closed (m :: (body ++ m :: s)) := by
  obtain ⟨hopen, hclose⟩ := next_mark hm 0
  obtain ⟨hafter, hover, -⟩ := hbody.reading 0
  constructor
  · refine overcloses_cons.2 ⟨by simp [(isBracket_eq_false_of_isMark hm).2], ?_⟩
    rw [hopen]
    refine overcloses_append.2 ⟨hover, ?_⟩
    rw [hafter]
    exact overcloses_cons.2 ⟨by simp, by rw [hclose]; exact hs.opened⟩
  · rw [after_cons, hopen, after_append, hafter, after_cons, hclose, hs.settled]

end Literals

namespace Grouped

variable {s t : Text}

lemma append (hs : Grouped s) (ht : Grouped t) : Grouped (s ++ t) := by
  induction hs with
  | nil => exact ht
  | plain hc _ ih => exact .plain hc ih
  | quoted hm hbody _ ih => simpa using Grouped.quoted hm hbody ih
  | brackets hl hs _ _ ih => simpa using Grouped.brackets hl hs ih

lemma closed (h : Grouped s) : Closed s := by
  induction h with
  | nil => exact .nil
  | plain hc _ ih => exact (Closed.plain_cons_iff hc).2 ih
  | quoted hm hbody _ ih => exact ih.quoted hm hbody
  | @brackets left s t hl _ _ ihs iht => exact ihs.brackets hl (isClosing_partner left) iht

/-- Behind a grouped text the same brackets are open as in front of it. -/
lemma openBehind_eq (h : Grouped s) (d : Nat) (stack : List Char) :
    (code d).openBehind stack s = some stack := by
  induction h generalizing d stack with
  | nil => rfl
  | @plain c s hc _ ih =>
      have hbracket : isOpening c = false ∧ isClosing c = false := by
        simp only [isPlain, Bool.not_eq_true', Bool.or_eq_false_iff] at hc
        exact ⟨hc.1.2, hc.2⟩
      rw [openBehind_cons (track_of_not_isBracket stack hbracket.1 hbracket.2 _),
        next_of_isPlain hc, ih]
  | @quoted m body s hm hbody _ ih =>
      obtain ⟨hopen, hclose⟩ := next_mark hm d
      obtain ⟨hafter, -, hstack⟩ := hbody.reading d
      have hbracket := isBracket_eq_false_of_isMark hm
      rw [openBehind_cons (track_of_not_isBracket stack hbracket.1 hbracket.2 _), hopen,
        openBehind_append, hstack, Option.bind_some, hafter, openBehind_cons rfl, hclose, ih]
  | @brackets left s t hl hs _ ihs iht =>
      rw [openBehind_cons (track_of_isOpening stack d hl), next_of_isOpening hl,
        openBehind_append, ihs, Option.bind_some, hs.closed.after_eq,
        openBehind_cons (track_partner stack (d + 1) left),
        next_of_isClosing (isClosing_partner left), iht]

end Grouped

/-- The text `s` closes the open brackets of a stack one after the other, with grouped texts in
front of each closing bracket and at the end. -/
def Unwinds : List Char → Text → Prop
  | [], s => Grouped s
  | left :: stack, s => ∃ a t, s = a ++ partner left :: t ∧ Grouped a ∧ Unwinds stack t

lemma Unwinds.append_left {stack : List Char} {a s : Text} (ha : Grouped a)
    (h : Unwinds stack s) : Unwinds stack (a ++ s) := by
  cases stack with
  | nil => exact ha.append h
  | cons left stack =>
      obtain ⟨b, t, rfl, hb, ht⟩ := h
      exact ⟨a ++ b, t, by simp, ha.append hb, ht⟩

/-- The same for a text that is read from any nesting: an open literal ends first. -/
def UnwindsFrom : Nesting → List Char → Text → Prop
  | code _, stack, s => Unwinds stack s
  | literal m _, stack, s => ∃ body t, s = body ++ m :: t ∧ LiteralBody m body ∧ Unwinds stack t
  | escaped m _, stack, s =>
    ∃ c body t, s = c :: (body ++ m :: t) ∧ LiteralBody m body ∧ Unwinds stack t

/-- **Step.** What unwinds the brackets behind a character does so with the character in front. -/
lemma UnwindsFrom.cons {n : Nesting} {stack stack' : List Char} {c : Char} {s : Text}
    (htrack : n.track stack c = some stack') (h : UnwindsFrom (n.next c) stack' s) :
    UnwindsFrom n stack (c :: s) := by
  cases n with
  | code d =>
      by_cases hm : isMark c = true
      · have hbracket := isBracket_eq_false_of_isMark hm
        rw [track_of_not_isBracket stack hbracket.1 hbracket.2] at htrack
        obtain rfl := Option.some.inj htrack
        rw [(next_mark hm d).1] at h
        obtain ⟨body, t, rfl, hbody, ht⟩ := h
        have hquoted : Grouped (c :: (body ++ [c])) := .quoted hm hbody .nil
        show Unwinds stack (c :: (body ++ c :: t))
        simpa using ht.append_left hquoted
      · by_cases ho : isOpening c = true
        · rw [track_of_isOpening stack d ho] at htrack
          obtain rfl := Option.some.inj htrack
          rw [next_of_isOpening ho] at h
          obtain ⟨a, t, rfl, ha, ht⟩ := h
          have hgroup : Grouped (c :: (a ++ [partner c])) := .brackets ho ha .nil
          show Unwinds stack (c :: (a ++ partner c :: t))
          simpa using ht.append_left hgroup
        · by_cases hc : isClosing c = true
          · have hnext : (code d).next c = code (d - 1) := by simp [next, hm, ho, hc]
            rw [hnext] at h
            simp only [track, ho, hc, Bool.false_eq_true, if_false, if_true] at htrack
            split at htrack
            · simp at htrack
            · rename_i left rest
              split at htrack
              · rename_i hpartner
                obtain rfl := Option.some.inj htrack
                exact ⟨[], s, by rw [hpartner, List.nil_append], .nil, h⟩
              · simp at htrack
          · have hplain : isPlain c = true := by simp [isPlain, hm, ho, hc]
            rw [track_of_not_isBracket stack (by simpa using ho) (by simpa using hc)] at htrack
            obtain rfl := Option.some.inj htrack
            rw [next_of_isPlain hplain] at h
            exact Unwinds.append_left (.plain hplain .nil) h
  | literal m d =>
      obtain rfl : stack = stack' := Option.some.inj htrack
      rw [next] at h
      split at h
      · rename_i hslash
        obtain ⟨x, body, t, rfl, hbody, ht⟩ := h
        exact ⟨'\\' :: x :: body, t, by rw [hslash]; rfl, .escape hbody, ht⟩
      · rename_i hslash
        split at h
        · rename_i hm
          exact ⟨[], s, by rw [hm, List.nil_append], .nil, h⟩
        · rename_i hm
          obtain ⟨body, t, rfl, hbody, ht⟩ := h
          exact ⟨c :: body, t, rfl, .plain ⟨hm, hslash⟩ hbody, ht⟩
  | escaped m d =>
      obtain rfl : stack = stack' := Option.some.inj htrack
      obtain ⟨body, t, rfl, hbody, ht⟩ := h
      exact ⟨c, body, t, rfl, hbody, ht⟩

/-- **Run.** A text behind which no bracket and no literal is open unwinds the brackets that are
open in front of it. -/
lemma unwindsFrom_of_openBehind {n : Nesting} {stack : List Char} {s : Text}
    (h : n.openBehind stack s = some []) (hend : ∃ d, n.after s = code d) :
    UnwindsFrom n stack s := by
  induction s generalizing n stack with
  | nil =>
      obtain ⟨d, rfl⟩ := hend
      obtain rfl := Option.some.inj h
      exact Grouped.nil
  | cons c s ih =>
      obtain ⟨stack', htrack, hrest⟩ := Option.bind_eq_some_iff.1 h
      exact .cons htrack (ih hrest hend)

/-- **Texts with paired brackets are the grouped ones.** -/
theorem paired_iff_grouped {s : Text} : Paired s ↔ Grouped s :=
  ⟨fun h => unwindsFrom_of_openBehind h.matched ⟨0, h.settled⟩,
    fun h => ⟨h.openBehind_eq 0 [], h.closed.settled⟩⟩

/-! ### The first and the last character -/

namespace Grouped

variable {s : Text}

/-- An opening bracket at the front has its partner, with grouped texts between and behind them. -/
lemma exists_of_isOpening {left : Char} (hl : isOpening left = true) (h : Grouped (left :: s)) :
    ∃ a t, s = a ++ partner left :: t ∧ Grouped a ∧ Grouped t := by
  generalize hx : left :: s = x at h
  cases h with
  | nil => cases hx
  | plain hc _ =>
      obtain ⟨rfl, -⟩ := List.cons.inj hx
      simp [isPlain, hl] at hc
  | quoted hm _ _ =>
      obtain ⟨rfl, -⟩ := List.cons.inj hx
      simp [(isBracket_eq_false_of_isMark hm).1] at hl
  | brackets _ ha ht =>
      obtain ⟨rfl, rfl⟩ := List.cons.inj hx
      exact ⟨_, _, rfl, ha, ht⟩

lemma of_plain_cons {c : Char} (hc : isPlain c = true) (h : Grouped (c :: s)) : Grouped s := by
  generalize hx : c :: s = x at h
  cases h with
  | nil => cases hx
  | plain _ hs =>
      obtain ⟨-, rfl⟩ := List.cons.inj hx
      exact hs
  | quoted hm _ _ =>
      obtain ⟨rfl, -⟩ := List.cons.inj hx
      simp [isPlain, hm] at hc
  | brackets hl _ _ =>
      obtain ⟨rfl, -⟩ := List.cons.inj hx
      simp [isPlain, hl] at hc

end Grouped

/-- What may be said of a text and the character behind it when both together are grouped. -/
inductive Last : Text → Char → Prop where
  | plain {s : Text} {c : Char} (hc : isPlain c = true) (hs : Grouped s) : Last s c
  | mark {s : Text} {c : Char} (hc : isMark c = true) : Last s c
  | partner {left : Char} {a b : Text} (hl : isOpening left = true) (ha : Grouped a)
      (hb : Grouped b) : Last (a ++ left :: b) (partner left)

lemma Last.append_left {front s : Text} {c : Char} (hfront : Grouped front) (h : Last s c) :
    Last (front ++ s) c := by
  cases h with
  | plain hc hs => exact .plain hc (hfront.append hs)
  | mark hc => exact .mark hc
  | partner hl ha hb =>
      rw [← List.append_assoc]
      exact .partner hl (hfront.append ha) hb

lemma Last.grouped {s : Text} {c : Char} (hc : isPlain c = true) (h : Last s c) : Grouped s := by
  cases h with
  | plain _ hs => exact hs
  | mark hm => simp [isPlain, hm] at hc
  | @partner left a b hl ha hb => simp [isPlain, isClosing_partner left] at hc

lemma Last.exists_of_partner {s : Text} {left : Char} (hl : isOpening left = true)
    (h : Last s (Nesting.partner left)) : ∃ a b, s = a ++ left :: b ∧ Grouped a ∧ Grouped b := by
  have hclosing := isClosing_partner left
  generalize hc : Nesting.partner left = c at h hclosing
  cases h with
  | plain hplain _ => simp [isClosing_of_isPlain hplain] at hclosing
  | mark hm => simp [(isBracket_eq_false_of_isMark hm).2] at hclosing
  | partner hl' ha hb =>
      obtain rfl := partner_inj hl hl' hc
      exact ⟨_, _, rfl, ha, hb⟩

/-- The last of two parts of a text is empty or has the last character. -/
lemma eq_nil_or_concat_of_append {front t s : Text} {c : Char} (h : front ++ t = s ++ [c]) :
    (t = [] ∧ front = s ++ [c]) ∨ ∃ r, t = r ++ [c] ∧ s = front ++ r := by
  rcases List.eq_nil_or_concat' t with rfl | ⟨r, d, rfl⟩
  · exact .inl ⟨rfl, by simpa using h⟩
  · rw [← List.append_assoc] at h
    obtain ⟨rfl, hd⟩ := List.append_inj' h rfl
    obtain rfl : d = c := by simpa using hd
    exact .inr ⟨r, rfl, rfl⟩

/-- **The last character** of a grouped text is plain, ends a literal or closes a bracket that is
opened in the text in front of it. -/
lemma Grouped.last {x s : Text} {c : Char} (h : Grouped x) (hx : x = s ++ [c]) : Last s c := by
  induction h generalizing s with
  | nil => simp at hx
  | @plain d t hd ht ih =>
      have hfront : Grouped [d] := .plain hd .nil
      have hparts : [d] ++ t = s ++ [c] := hx
      rcases eq_nil_or_concat_of_append hparts with ⟨rfl, hone⟩ | ⟨r, rfl, rfl⟩
      · have hone : [] ++ [d] = s ++ [c] := hone
        obtain ⟨rfl, hdc⟩ := List.append_inj' hone rfl
        obtain rfl : d = c := by simpa using hdc
        exact .plain hd .nil
      · exact .append_left hfront (ih rfl)
  | @quoted m body t hm hbody ht ih =>
      have hfront : Grouped (m :: (body ++ [m])) := .quoted hm hbody .nil
      have hparts : (m :: (body ++ [m])) ++ t = s ++ [c] := by simpa using hx
      rcases eq_nil_or_concat_of_append hparts with ⟨rfl, hone⟩ | ⟨r, rfl, rfl⟩
      · have hone : (m :: body) ++ [m] = s ++ [c] := hone
        obtain ⟨-, hmc⟩ := List.append_inj' hone rfl
        obtain rfl : m = c := by simpa using hmc
        exact .mark hm
      · exact .append_left hfront (ih rfl)
  | @brackets left a t hl ha ht iha iht =>
      have hfront : Grouped (left :: (a ++ [partner left])) := .brackets hl ha .nil
      have hparts : (left :: (a ++ [partner left])) ++ t = s ++ [c] := by simpa using hx
      rcases eq_nil_or_concat_of_append hparts with ⟨rfl, hone⟩ | ⟨r, rfl, rfl⟩
      · have hone : (left :: a) ++ [partner left] = s ++ [c] := hone
        obtain ⟨rfl, hlc⟩ := List.append_inj' hone rfl
        obtain rfl : partner left = c := by simpa using hlc
        exact .partner (a := []) hl .nil ha
      · exact .append_left hfront (iht rfl)

/-! ### Trimming and delimiters -/

namespace Paired

variable {s : Text}

lemma closed (h : Paired s) : Closed s := (paired_iff_grouped.1 h).closed

lemma of_plain_append {front : Text} (hfront : ∀ c ∈ front, isPlain c = true)
    (h : Paired (front ++ s)) : Paired s := by
  rw [paired_iff_grouped] at h ⊢
  induction front with
  | nil => exact h
  | cons c front ih =>
      exact ih (fun d hd => hfront d (by simp [hd])) (h.of_plain_cons (hfront c (by simp)))

lemma of_append_plain {back : Text} (hback : ∀ c ∈ back, isPlain c = true)
    (h : Paired (s ++ back)) : Paired s := by
  rw [paired_iff_grouped] at h ⊢
  induction back using List.reverseRecOn with
  | nil => simpa using h
  | append_singleton back c ih =>
      have hlast : Last (s ++ back) c := h.last (by simp)
      exact ih (fun d hd => hback d (by simp [hd])) (hlast.grouped (hback c (by simp)))

/-- Trimming keeps brackets paired. -/
lemma trim (h : Paired s) : Paired (Text.trim s) := by
  obtain ⟨front, back, hs, hfront, hback⟩ := exists_trim s
  rw [hs] at h
  exact (h.of_plain_append fun c hc => isPlain_of_isBlank (hfront c hc)).of_append_plain
    fun c hc => isPlain_of_isBlank (hback c hc)

/-- Delimiters around a text belong together, or they are the outer ones of two pairs. -/
lemma delimited_cases {left : Char} (hl : isOpening left = true)
    (h : Paired (left :: (s ++ [partner left]))) :
    Paired s ∨ ∃ a mid b, s = a ++ partner left :: (mid ++ left :: b) ∧
      Paired a ∧ Paired mid ∧ Paired b := by
  simp only [paired_iff_grouped] at h ⊢
  obtain ⟨a, t, hparts, ha, ht⟩ := h.exists_of_isOpening hl
  have hparts : (a ++ [partner left]) ++ t = s ++ [partner left] := by simpa using hparts.symm
  rcases eq_nil_or_concat_of_append hparts with ⟨rfl, hone⟩ | ⟨r, rfl, rfl⟩
  · -- the partner of the first delimiter is the last one
    obtain ⟨rfl, -⟩ := List.append_inj' hone rfl
    exact .inl ha
  · -- another group ends with the last delimiter
    obtain ⟨mid, b, rfl, hmid, hb⟩ := (ht.last rfl).exists_of_partner hl
    exact .inr ⟨a, mid, b, by simp, ha, hmid, hb⟩

end Paired

/-- No text goes on behind a closed one with a closing bracket. -/
lemma Closed.not_closed_append {a : Text} (ha : Closed a) {right : Char}
    (hr : isClosing right = true) (s : Text) : ¬ Closed (a ++ right :: s) := by
  intro h
  have hover := (overcloses_append.1 h.opened).2
  rw [ha.settled] at hover
  exact (overcloses_cons.1 hover).1 ⟨rfl, hr⟩

end Nesting

end ClassFold
