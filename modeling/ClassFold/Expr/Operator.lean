import ClassFold.Expr.Nesting

/-!
Operators between class values.

Two kinds of operators are looked for at exposed places of an expression: the conditional
`test ? yes : no`, and the logical operators, each of which is its mark written twice.  A logical
expression is split at its last operator; a conditional at its first question mark and the colon
that belongs to it.  Nothing is lost: the parts with the operator between them are the expression
again.
-/

namespace ClassFold

open Text

/-! ### Logical operators -/

/-- The logical operators. -/
inductive Operator where
  | or
  | nullish
  | and
  deriving DecidableEq, Repr

namespace Operator

/-- The character that an operator consists of. -/
def mark : Operator → Char
  | or => '|'
  | nullish => '?'
  | and => '&'

/-- An operator is its mark written twice. -/
def text (o : Operator) : Text := [o.mark, o.mark]

/-- The operator among `ops` that the characters `c` and `d` form. -/
def find? (ops : List Operator) (c d : Char) : Option Operator :=
  ops.find? fun o => c == o.mark && d == o.mark

theorem eq_mark_of_find? {ops : List Operator} {c d : Char} {o : Operator}
    (h : find? ops c d = some o) : c = o.mark ∧ d = o.mark := by
  have := List.find?_some h
  simpa using this

end Operator

/-- The parts of a text around the last exposed operator among `ops`, read from nesting `n`.
Operators are met from left to right and do not overlap. -/
def lastOperatorFrom (ops : List Operator) : Nesting → Text → Option (Text × Operator × Text)
  | n, c :: d :: s =>
    match if n.exposes c then Operator.find? ops c d else none with
    | some o =>
      match lastOperatorFrom ops ((n.next c).next d) s with
      | some (l, o', r) => some (c :: d :: l, o', r)
      | none => some ([], o, s)
    | none => (lastOperatorFrom ops (n.next c) (d :: s)).map fun p => (c :: p.1, p.2)
  | _, _ => none

/-- The trimmed operands around the last exposed operator among `ops`.  Both have to be there. -/
def splitLast (ops : List Operator) (s : Text) : Option (Text × Operator × Text) :=
  match lastOperatorFrom ops .top s with
  | some (l, o, r) =>
    if (trim l).isEmpty || (trim r).isEmpty then none else some (trim l, o, trim r)
  | none => none

theorem eq_of_lastOperatorFrom {ops : List Operator} {n : Nesting} {s l r : Text} {o : Operator}
    (h : lastOperatorFrom ops n s = some (l, o, r)) : s = l ++ o.text ++ r := by
  fun_induction lastOperatorFrom ops n s generalizing l o r with
  | case1 n c d s o' hf l' p r' hl ih =>
    obtain ⟨rfl, rfl, rfl⟩ : c :: d :: l' = l ∧ p = o ∧ r' = r := by simpa using h
    rw [ih hl]
    simp
  | case2 n c d s o' hf hl =>
    obtain ⟨rfl, rfl, rfl⟩ : [] = l ∧ o' = o ∧ s = r := by simpa using h
    have hm : Operator.find? ops c d = some o' := by
      split at hf
      · exact hf
      · simp at hf
    obtain ⟨rfl, rfl⟩ := Operator.eq_mark_of_find? hm
    rfl
  | case3 n c d s hf ih =>
    obtain ⟨⟨l', p, r'⟩, hp, he⟩ := Option.map_eq_some_iff.1 h
    obtain ⟨rfl, rfl, rfl⟩ : c :: l' = l ∧ p = o ∧ r' = r := by simpa using he
    rw [ih hp]
    simp
  | case4 => simp at h

theorem length_lt_of_splitLast {ops : List Operator} {s l r : Text} {o : Operator}
    (h : splitLast ops s = some (l, o, r)) : l.length < s.length ∧ r.length < s.length := by
  unfold splitLast at h
  split at h
  · rename_i l' o' r' hs
    split at h
    · simp at h
    · obtain ⟨rfl, rfl, rfl⟩ : trim l' = l ∧ o' = o ∧ trim r' = r := by simpa using h
      have hl := length_trim_le l'
      have hr := length_trim_le r'
      rw [eq_of_lastOperatorFrom hs]
      simp only [List.length_append, Operator.text, List.length_cons, List.length_nil]
      omega
  · simp at h

/-! ### Conditionals -/

/-- Whether a question mark between `prev` and `rest` asks for a conditional.  It does not when it
is half of `??`, or when it starts an optional access such as `a?.b`; in `a?.5:b` the point belongs
to a number. -/
def asks (prev : Option Char) (rest : Text) : Bool :=
  let access := rest.head? == some '.' && !(rest.drop 1).head?.any Char.isDigit
  !(access || rest.head? == some '?' || prev == some '?')

/-- The parts of a text around the first question mark that asks, read from nesting `n` behind the
character `prev`. -/
def questionFrom : Nesting → (prev : Option Char) → Text → Option (Text × Text)
  | _, _, [] => none
  | n, prev, c :: s =>
    if n.exposes c && c == '?' && asks prev s then some ([], s)
    else (questionFrom (n.next c) (some c) s).map fun p => (c :: p.1, p.2)

/-- The number of conditionals open inside a conditional behind the character `c`, which stands
between `prev` and `rest` and has `inner` of them in front. -/
def innerBehind (n : Nesting) (prev : Option Char) (inner : Nat) (c : Char) (rest : Text) : Nat :=
  if n.exposes c && c == ':' then inner - 1
  else if n.exposes c && c == '?' && asks prev rest then inner + 1
  else inner

/-- The parts of a text around the colon that ends the open conditional, read from nesting `n`
behind the character `prev`, with `inner` further conditionals open. -/
def colonFrom : Nesting → (prev : Option Char) → (inner : Nat) → Text → Option (Text × Text)
  | _, _, _, [] => none
  | n, prev, inner, c :: s =>
    if n.exposes c && c == ':' && inner == 0 then some ([], s)
    else (colonFrom (n.next c) (some c) (innerBehind n prev inner c s) s).map
      fun p => (c :: p.1, p.2)

/-- The three parts of a conditional `test ? yes : no`, as they stand. -/
def splitConditional (s : Text) : Option (Text × Text × Text) :=
  match questionFrom .top none s with
  | some (test, rest) =>
    (colonFrom .top (some '?') 0 rest).map fun p => (test, p.1, p.2)
  | none => none

theorem eq_of_questionFrom {n : Nesting} {prev : Option Char} {s a b : Text}
    (h : questionFrom n prev s = some (a, b)) : s = a ++ '?' :: b := by
  fun_induction questionFrom n prev s generalizing a b with
  | case1 => simp at h
  | case2 n prev c s hc =>
    obtain ⟨rfl, rfl⟩ : [] = a ∧ s = b := by simpa using h
    simp only [Bool.and_eq_true, beq_iff_eq] at hc
    simp [hc]
  | case3 n prev c s hc ih =>
    obtain ⟨⟨a', b'⟩, hp, he⟩ := Option.map_eq_some_iff.1 h
    obtain ⟨rfl, rfl⟩ : c :: a' = a ∧ b' = b := by simpa using he
    rw [ih hp]
    simp

theorem eq_of_colonFrom {n : Nesting} {prev : Option Char} {inner : Nat} {s a b : Text}
    (h : colonFrom n prev inner s = some (a, b)) : s = a ++ ':' :: b := by
  fun_induction colonFrom n prev inner s generalizing a b with
  | case1 => simp at h
  | case2 n prev inner c s hc =>
    obtain ⟨rfl, rfl⟩ : [] = a ∧ s = b := by simpa using h
    simp only [Bool.and_eq_true, beq_iff_eq] at hc
    simp [hc]
  | case3 n prev inner c s hc ih =>
    obtain ⟨⟨a', b'⟩, hp, he⟩ := Option.map_eq_some_iff.1 h
    obtain ⟨rfl, rfl⟩ : c :: a' = a ∧ b' = b := by simpa using he
    rw [ih hp]
    simp

theorem eq_of_splitConditional {s test yes no : Text}
    (h : splitConditional s = some (test, yes, no)) :
    s = test ++ '?' :: yes ++ ':' :: no := by
  unfold splitConditional at h
  split at h
  · rename_i t rest hq
    obtain ⟨⟨a, b⟩, hc, he⟩ := Option.map_eq_some_iff.1 h
    obtain ⟨rfl, rfl, rfl⟩ : t = test ∧ a = yes ∧ b = no := by simpa using he
    rw [eq_of_questionFrom hq, eq_of_colonFrom hc]
    simp
  · simp at h

end ClassFold
