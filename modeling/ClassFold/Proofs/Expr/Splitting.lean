import ClassFold.Expr.Operator
import ClassFold.Proofs.Expr.Exposed

/-!
Where expressions are split at operators.

A logical expression is split at the last operator of a kind, wherever its right operand exposes
none (`splitLast_eq`).  For conditionals, what matters about a part is whether a question mark in it
asks (`Nesting.Unasking`) and whether each question in it has its colon (`Nesting.Even`).  Parts
with these properties can be put together, and a conditional made of them is split at its own
question mark and colon (`Nesting.splitConditional_eq`).
-/

namespace ClassFold

open Text Nesting

/-! ### Logical operators -/

section Operators

variable {ops : List Operator} {n : Nesting}

lemma find?_eq_none_of_exposed {c d : Char} (h : ∀ o ∈ ops, (n.exposes c && c == o.mark) = false) :
    (if n.exposes c then Operator.find? ops c d else none) = none := by
  split
  · rename_i hc
    rw [Operator.find?, List.find?_eq_none]
    intro o ho hmark
    have := h o ho
    simp_all
  · rfl

/-- Without an exposed mark there is no operator. -/
lemma lastOperatorFrom_eq_none {s : Text} (h : ∀ o ∈ ops, o.mark ∉ n.exposed s) :
    lastOperatorFrom ops n s = none := by
  induction s generalizing n with
  | nil => rfl
  | cons c s ih =>
      cases s with
      | nil => rfl
      | cons d s =>
          have hcons (o : Operator) (ho : o ∈ ops) := notMem_exposed_cons.1 (h o ho)
          rw [lastOperatorFrom, find?_eq_none_of_exposed fun o ho => (hcons o ho).1]
          simp only
          rw [ih fun o ho => (hcons o ho).2]
          rfl

lemma Operator.mark_ne_space (o : Operator) : o.mark ≠ ' ' := by
  cases o <;> decide

/-- An operator behind a space is the last one, whatever stands in front of the space. -/
lemma lastOperatorFrom_append {a b l r : Text} {o : Operator}
    (h : lastOperatorFrom ops (n.after a) (' ' :: b) = some (l, o, r)) :
    lastOperatorFrom ops n (a ++ ' ' :: b) = some (a ++ l, o, r) := by
  fun_induction lastOperatorFrom ops n a with
  | case1 n c d s o' hf l' p r' hl ih =>
      rw [List.cons_append, List.cons_append, lastOperatorFrom, hf]
      simp only
      rw [ih h]
      rfl
  | case2 n c d s o' hf hl ih =>
      rw [List.cons_append, List.cons_append, lastOperatorFrom, hf]
      simp only
      rw [ih h]
      rfl
  | case3 n c d s hf ih =>
      rw [List.cons_append, List.cons_append, lastOperatorFrom, hf]
      simp only
      rw [← List.cons_append, ih h]
      rfl
  | case4 a n hshort =>
      cases a with
      | nil => exact h
      | cons c s =>
          cases s with
          | nil =>
              have hf : (if n.exposes c then Operator.find? ops c ' ' else none) = none := by
                split
                · rw [Operator.find?, List.find?_eq_none]
                  intro o _
                  simp [Ne.symm o.mark_ne_space]
                · rfl
              rw [List.singleton_append, lastOperatorFrom, hf]
              simp only
              rw [after_cons, after_nil] at h
              rw [h]
              rfl
          | cons d s => exact absurd rfl (hshort c d s)

lemma Operator.find?_mark {o : Operator} (ho : o ∈ ops) :
    find? ops o.mark o.mark = some o := by
  obtain ⟨o', ho'⟩ : ∃ o', find? ops o.mark o.mark = some o' := by
    rw [← Option.isSome_iff_exists, find?, List.find?_isSome]
    exact ⟨o, ho, by simp⟩
  have hmark := (eq_mark_of_find? ho').1
  have : o = o' := by cases o <;> cases o' <;> simp_all [mark]
  rw [ho', this]

/-- **An expression is split** at the operator behind which no other one of its kind is exposed. -/
theorem splitLast_eq {l r : Text} {o : Operator} (ho : o ∈ ops) (hl : Solid l) (hbal : Balanced l)
    (hr : Solid r) (hlast : ∀ o' ∈ ops, o'.mark ∉ top.exposed r) :
    splitLast ops (l ++ ' ' :: (o.text ++ ' ' :: r)) = some (l, o, r) := by
  have hspace : Nesting.isPlain ' ' = true := by decide
  have hmark : Nesting.isPlain o.mark = true := by cases o <;> decide
  have hnone : lastOperatorFrom ops top (' ' :: r) = none := by
    refine lastOperatorFrom_eq_none fun o' ho' => notMem_exposed_cons.2 ⟨?_, ?_⟩
    · simp [Ne.symm o'.mark_ne_space]
    · rw [next_of_isPlain hspace]
      exact hlast o' ho'
  have hhere : lastOperatorFrom ops top (' ' :: (o.text ++ ' ' :: r)) =
      some ([' '], o, ' ' :: r) := by
    have hfirst : (if top.exposes ' ' then Operator.find? ops ' ' o.mark else none) = none := by
      refine find?_eq_none_of_exposed fun o' _ => ?_
      simp [Ne.symm o'.mark_ne_space]
    rw [Operator.text, List.cons_append, List.cons_append, List.nil_append, lastOperatorFrom,
      hfirst]
    simp only
    rw [next_of_isPlain hspace, lastOperatorFrom, if_pos (exposes_of_isPlain hmark),
      Operator.find?_mark ho]
    simp only
    rw [next_of_isPlain hmark, next_of_isPlain hmark, hnone]
    rfl
  have hall := @lastOperatorFrom_append ops top l _ _ _ _ (by rw [hbal.after_eq]; exact hhere)
  have hblank : ∀ c ∈ [' '], isBlank c = true := List.forall_mem_singleton.2 rfl
  have htriml : trim (l ++ [' ']) = l := @Solid.trim_eq l [] [' '] hl (by simp) hblank
  have htrimr : trim (' ' :: r) = r := by
    simpa using @Solid.trim_eq r [' '] [] hr hblank (by simp)
  rw [splitLast, hall]
  simp only [htriml, htrimr]
  simp [hl.ne_nil, hr.ne_nil]

lemma splitLast_eq_none {s : Text} (h : ∀ o ∈ ops, o.mark ∉ top.exposed s) :
    splitLast ops s = none := by
  rw [splitLast, lastOperatorFrom_eq_none h]

end Operators

/-! ### Conditionals -/

/-- A space behind a text does not change whether a question mark in front of it asks. -/
lemma asks_append (prev : Option Char) (s t : Text) : asks prev (s ++ ' ' :: t) = asks prev s := by
  match s with
  | [] => simp [asks]
  | [c] => simp [asks]
  | c :: d :: s => simp [asks]

lemma questionFrom_append {n : Nesting} {prev : Option Char} {a : Text}
    (h : questionFrom n prev a = none) (b : Text) :
    questionFrom n prev (a ++ ' ' :: b) =
      (questionFrom ((n.after a).next ' ') (some ' ') b).map fun p => (a ++ ' ' :: p.1, p.2) := by
  induction a generalizing n prev with
  | nil => rw [List.nil_append, questionFrom]; simp
  | cons c a ih =>
      rw [questionFrom] at h
      split at h
      · simp at h
      · rename_i hc
        rw [Option.map_eq_none_iff] at h
        rw [List.cons_append, questionFrom, asks_append, if_neg hc, ih h, after_cons]
        simp [Function.comp_def]

/-- The number of conditionals open behind a text that is read from a nesting behind the character
`prev`, with `inner` of them open in front. -/
def innerAfter : Nesting → (prev : Option Char) → (inner : Nat) → Text → Nat
  | _, _, inner, [] => inner
  | n, prev, inner, c :: s => innerAfter (n.next c) (some c) (innerBehind n prev inner c s) s

lemma innerBehind_append (n : Nesting) (prev : Option Char) (inner : Nat) (c : Char) (s t : Text) :
    innerBehind n prev inner c (s ++ ' ' :: t) = innerBehind n prev inner c s := by
  rw [innerBehind, innerBehind, asks_append]

lemma innerAfter_append (n : Nesting) (prev : Option Char) (inner : Nat) (a b : Text) :
    innerAfter n prev inner (a ++ ' ' :: b) =
      innerAfter ((n.after a).next ' ') (some ' ') (innerAfter n prev inner a) b := by
  induction a generalizing n prev inner with
  | nil => simp [innerAfter, innerBehind]
  | cons c a ih => rw [List.cons_append, innerAfter, innerBehind_append, ih, innerAfter, after_cons]

lemma colonFrom_append {n : Nesting} {prev : Option Char} {inner : Nat} {a : Text}
    (h : colonFrom n prev inner a = none) (b : Text) :
    colonFrom n prev inner (a ++ ' ' :: b) =
      (colonFrom ((n.after a).next ' ') (some ' ') (innerAfter n prev inner a) b).map
        fun p => (a ++ ' ' :: p.1, p.2) := by
  induction a generalizing n prev inner with
  | nil => rw [List.nil_append, colonFrom]; simp [innerAfter, innerBehind]
  | cons c a ih =>
      rw [colonFrom] at h
      split at h
      · simp at h
      · rename_i hc
        rw [Option.map_eq_none_iff] at h
        rw [List.cons_append, colonFrom, innerBehind_append, if_neg hc, ih h, after_cons]
        simp [Function.comp_def, innerAfter]

namespace Nesting

/-- A text asks nothing when no question mark in it starts a conditional. -/
def Unasking (s : Text) : Prop := ∀ prev, questionFrom top prev s = none

/-- A text is even when every conditional that starts in it also has its colon there, and no other
colon is exposed. -/
structure Even (s : Text) : Prop where
  colon : ∀ prev inner, colonFrom top prev inner s = none
  inner : ∀ prev inner, innerAfter top prev inner s = inner

lemma next_space : top.next ' ' = top := by decide

variable {a b : Text}

lemma Unasking.append (ha : Unasking a) (hbal : Balanced a) (hb : Unasking b) :
    Unasking (a ++ ' ' :: b) := by
  intro prev
  rw [questionFrom_append (ha prev), hbal.after_eq, next_space, hb]
  rfl

lemma Even.append (ha : Even a) (hbal : Balanced a) (hb : Even b) : Even (a ++ ' ' :: b) := by
  constructor
  · intro prev inner
    rw [colonFrom_append (ha.colon prev inner), hbal.after_eq, next_space, hb.colon]
    rfl
  · intro prev inner
    rw [innerAfter_append, ha.inner, hbal.after_eq, next_space, hb.inner]

lemma questionFrom_eq_none {n : Nesting} (h : '?' ∉ n.exposed a) (prev : Option Char) :
    questionFrom n prev a = none := by
  induction a generalizing n prev with
  | nil => rfl
  | cons c a ih =>
      obtain ⟨hc, hmore⟩ := notMem_exposed_cons.1 h
      rw [questionFrom, hc, Bool.false_and, if_neg Bool.false_ne_true, ih hmore]
      rfl

/-- A text that exposes no question mark asks nothing. -/
lemma unasking_of_notMem (h : '?' ∉ top.exposed a) : Unasking a := questionFrom_eq_none h

lemma even_from_of_notMem {n : Nesting} (hq : '?' ∉ n.exposed a) (hc : ':' ∉ n.exposed a)
    (prev : Option Char) (inner : Nat) :
    colonFrom n prev inner a = none ∧ innerAfter n prev inner a = inner := by
  induction a generalizing n prev with
  | nil => exact ⟨rfl, rfl⟩
  | cons c a ih =>
      obtain ⟨hq, hqmore⟩ := notMem_exposed_cons.1 hq
      obtain ⟨hc, hcmore⟩ := notMem_exposed_cons.1 hc
      have hbehind : innerBehind n prev inner c a = inner := by
        rw [innerBehind, hc, hq, Bool.false_and]
        rfl
      rw [colonFrom, hc, Bool.false_and, if_neg Bool.false_ne_true, innerAfter, hbehind,
        (ih hqmore hcmore (some c)).1, (ih hqmore hcmore (some c)).2]
      exact ⟨rfl, rfl⟩

/-- A text that exposes neither question marks nor colons is even. -/
lemma even_of_notMem (hq : '?' ∉ top.exposed a) (hc : ':' ∉ top.exposed a) : Even a :=
  ⟨fun prev inner => (even_from_of_notMem hq hc prev inner).1,
    fun prev inner => (even_from_of_notMem hq hc prev inner).2⟩

/-- An operator is no question. -/
lemma unasking_operator (o : Operator) : Unasking o.text := by
  intro prev
  cases o <;> simp [Operator.text, Operator.mark, questionFrom, asks]

lemma even_operator (o : Operator) : Even o.text := by
  constructor <;> intro prev inner <;> cases o <;>
    simp [Operator.text, Operator.mark, colonFrom, innerAfter, innerBehind, asks]

lemma balanced_operator (o : Operator) : Balanced o.text := by
  refine balanced_of_forall fun c hc => ?_
  obtain rfl : c = o.mark := by simpa [Operator.text] using hc
  cases o <;> decide

section Ternary

variable {test yes no : Text}

lemma next_question : top.next '?' = top := by decide

lemma next_colon : top.next ':' = top := by decide

lemma exposes_question : top.exposes '?' = true := by decide

lemma exposes_colon : top.exposes ':' = true := by decide

lemma innerBehind_question (inner : Nat) (s : Text) :
    innerBehind top (some ' ') inner '?' (' ' :: s) = inner + 1 := by
  simp [innerBehind, asks, exposes_question]

lemma innerBehind_colon (prev : Option Char) (inner : Nat) (s : Text) :
    innerBehind top prev inner ':' s = inner - 1 := by
  simp [innerBehind, exposes_colon]

lemma innerBehind_space (prev : Option Char) (inner : Nat) (s : Text) :
    innerBehind top prev inner ' ' s = inner := by
  simp [innerBehind]

/-- A question mark between spaces opens one more conditional. -/
lemma colonFrom_question (inner : Nat) (s : Text) :
    colonFrom top (some ' ') inner ('?' :: ' ' :: s) =
      (colonFrom top (some ' ') (inner + 1) s).map fun p => ('?' :: ' ' :: p.1, p.2) := by
  rw [colonFrom, colonFrom, innerBehind_question, next_question, innerBehind_space, next_space]
  simp [Function.comp_def]

/-- A colon between spaces closes a conditional that was opened inside. -/
lemma colonFrom_colon (inner : Nat) (s : Text) :
    colonFrom top (some ' ') (inner + 1) (':' :: ' ' :: s) =
      (colonFrom top (some ' ') inner s).map fun p => (':' :: ' ' :: p.1, p.2) := by
  rw [colonFrom, colonFrom, innerBehind_colon, next_colon, innerBehind_space, next_space]
  simp [Function.comp_def]

/-- A conditional between even parts is even. -/
lemma Even.conditional (htest : Even test) (hbtest : Balanced test) (hyes : Even yes)
    (hbyes : Balanced yes) (hno : Even no) :
    Even (test ++ ' ' :: '?' :: ' ' :: (yes ++ ' ' :: ':' :: ' ' :: no)) := by
  constructor
  · intro prev inner
    rw [colonFrom_append (htest.colon prev inner), htest.inner, hbtest.after_eq, next_space,
      colonFrom_question, colonFrom_append (hyes.colon _ _), hyes.inner, hbyes.after_eq,
      next_space, colonFrom_colon, hno.colon]
    rfl
  · intro prev inner
    rw [innerAfter_append, htest.inner, hbtest.after_eq, next_space, innerAfter, innerAfter,
      innerBehind_question, next_question, next_space, innerBehind_space, innerAfter_append,
      hyes.inner, hbyes.after_eq, next_space, innerAfter, innerAfter, innerBehind_colon, next_colon,
      next_space, innerBehind_space, hno.inner, Nat.add_sub_cancel]

/-- **A conditional is split** at its own question mark and colon. -/
theorem splitConditional_eq (htest : Unasking test) (hbtest : Balanced test) (hyes : Even yes)
    (hbyes : Balanced yes) (no : Text) :
    splitConditional (test ++ ' ' :: '?' :: ' ' :: (yes ++ ' ' :: ':' :: ' ' :: no)) =
      some (test ++ [' '], ' ' :: (yes ++ [' ']), ' ' :: no) := by
  have hquestion : questionFrom top none
      (test ++ ' ' :: '?' :: ' ' :: (yes ++ ' ' :: ':' :: ' ' :: no)) =
      some (test ++ [' '], ' ' :: (yes ++ ' ' :: ':' :: ' ' :: no)) := by
    rw [questionFrom_append (htest none), hbtest.after_eq, next_space, questionFrom]
    simp [exposes_question, asks]
  have hcolon : colonFrom top (some '?') 0 (' ' :: (yes ++ ' ' :: ':' :: ' ' :: no)) =
      some (' ' :: (yes ++ [' ']), ' ' :: no) := by
    rw [colonFrom, innerBehind_space, next_space, colonFrom_append (hyes.colon _ _), hyes.inner,
      hbyes.after_eq, next_space, colonFrom]
    simp [exposes_colon]
  rw [splitConditional, hquestion]
  simp only [hcolon, Option.map_some]

/-- Without a question there is no conditional. -/
lemma splitConditional_eq_none {s : Text} (h : Unasking s) : splitConditional s = none := by
  rw [splitConditional, h]

end Ternary

end Nesting

end ClassFold
