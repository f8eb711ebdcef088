import Mathlib.Data.List.TakeWhile
import ClassFold.Expr.Items
import ClassFold.Proofs.Expr.Closed
import ClassFold.Proofs.Text.Words

/-!
Reading over parts of an expression.

Expressions are taken apart by readers that go through them from left to right and act on exposed
characters only.  When a part of an expression is balanced and exposes nothing that a reader acts
on, the reader passes over it.

* `Text.Solid`: texts that trimming leaves alone.
* `Nesting.Balanced`: the closed texts whose literals have no escapes, by how they are put together.
* `splitFrom_append`, `cutFrom_append`: a part without an exposed separator stays in one piece.
* `topItems_append_comma`, `topItems_of_solid`: the items of two texts, and of one that is an item.
* `topItems_listing`: the items of a list are found again.
-/

namespace ClassFold

open Text

/-! ### Trimming -/

namespace Text

/-- A text is solid when it starts and ends with characters other than blanks. -/
structure Solid (s : Text) : Prop where
  head : ∃ c ∈ s.head?, isBlank c = false
  last : ∃ c ∈ s.getLast?, isBlank c = false

variable {s t front back : Text}

lemma Solid.ne_nil (h : Solid s) : s ≠ [] := by
  rintro rfl
  simpa using h.head

lemma Solid.append (hs : Solid s) (ht : Solid t) (mid : Text) : Solid (s ++ (mid ++ t)) := by
  obtain ⟨c, hc, hcb⟩ := hs.head
  obtain ⟨d, hd, hdb⟩ := ht.last
  exact ⟨⟨c, by simp_all, hcb⟩, ⟨d, by simp_all, hdb⟩⟩

lemma solid_of_forall (hne : s ≠ []) (h : ∀ c ∈ s, isBlank c = false) : Solid s :=
  ⟨⟨s.head hne, by simp [List.head?_eq_some_head hne], h _ (List.head_mem hne)⟩,
    ⟨s.getLast hne, by simp [List.getLast?_eq_some_getLast hne], h _ (List.getLast_mem hne)⟩⟩

lemma solid_wrap {c d : Char} (hc : isBlank c = false) (hd : isBlank d = false) (s : Text) :
    Solid (c :: (s ++ [d])) :=
  ⟨⟨c, by simp, hc⟩, ⟨d, List.getLast?_concat (l := c :: s), hd⟩⟩

/-- Blanks around a solid text are trimmed. -/
lemma Solid.trim_eq (hs : Solid s) (hfront : ∀ c ∈ front, isBlank c = true)
    (hback : ∀ c ∈ back, isBlank c = true) : trim (front ++ (s ++ back)) = s := by
  obtain ⟨c, hc, hcb⟩ := hs.head
  obtain ⟨d, hd, hdb⟩ := hs.last
  have hstart : trimStart (front ++ (s ++ back)) = s ++ back :=
    dropWhile_append_stop hfront (by simp_all)
  have hend : (s ++ back).reverse.dropWhile isBlank = s.reverse := by
    rw [List.reverse_append]
    exact dropWhile_append_stop (by simpa using hback) (by simp_all)
  rw [trim, hstart, trimEnd, hend, List.reverse_reverse]

lemma Solid.trim_self (hs : Solid s) : trim s = s := by
  have h : trim ([] ++ (s ++ [])) = s := hs.trim_eq (by simp) (by simp)
  simpa using h

lemma trim_eq_nil (h : ∀ c ∈ s, isBlank c = true) : trim s = [] := by
  have hnil : s.dropWhile isBlank = [] := List.dropWhile_eq_nil_iff.2 h
  simp [trim, trimStart, trimEnd, hnil]

end Text

/-! ### Balanced texts -/

namespace Nesting

/-- A text is balanced when it closes all brackets and literals that it opens. -/
inductive Balanced : Text → Prop where
  | nil : Balanced []
  | plain {c : Char} {s : Text} (hc : isPlain c = true) (hs : Balanced s) : Balanced (c :: s)
  | quoted {m : Char} {body s : Text} (hm : isMark m = true)
      (hbody : ∀ c ∈ body, c ≠ m ∧ c ≠ '\\') (hs : Balanced s) :
      Balanced (m :: (body ++ m :: s))
  | brackets {left right : Char} {s t : Text} (hl : isOpening left = true)
      (hr : isClosing right = true) (hs : Balanced s) (ht : Balanced t) :
      Balanced (left :: (s ++ right :: t))

lemma Balanced.append {s t : Text} (hs : Balanced s) (ht : Balanced t) : Balanced (s ++ t) := by
  induction hs with
  | nil => exact ht
  | plain hc _ ih => exact .plain hc ih
  | quoted hm hbody _ ih => simpa using Balanced.quoted hm hbody ih
  | brackets hl hr hs _ _ ih => simpa using Balanced.brackets hl hr hs ih

lemma balanced_of_forall {s : Text} (h : ∀ c ∈ s, isPlain c = true) : Balanced s := by
  induction s with
  | nil => exact .nil
  | cons c s ih => exact .plain (h c (by simp)) (ih fun d hd => h d (by simp [hd]))

section Inside

variable {m : Char} {d : Nat} {body : Text}

lemma after_literal (h : ∀ c ∈ body, c ≠ m ∧ c ≠ '\\') :
    (literal m d).after body = literal m d := by
  induction body with
  | nil => rfl
  | cons c body ih =>
      have hc := h c (by simp)
      rw [after_cons, next, if_neg hc.2, if_neg hc.1, ih fun e he => h e (by simp [he])]

lemma overcloses_literal (h : ∀ c ∈ body, c ≠ m ∧ c ≠ '\\') :
    (literal m d).overcloses body = false := by
  induction body with
  | nil => rfl
  | cons c body ih =>
      have hc := h c (by simp)
      refine overcloses_cons.2 ⟨by simp, ?_⟩
      rw [next, if_neg hc.2, if_neg hc.1, ih fun e he => h e (by simp [he])]

lemma exposed_literal (h : ∀ c ∈ body, c ≠ m ∧ c ≠ '\\') : (literal m d).exposed body = [] := by
  induction body with
  | nil => rfl
  | cons c body ih =>
      have hc := h c (by simp)
      have hnext : (literal m d).next c = literal m d := by rw [next, if_neg hc.2, if_neg hc.1]
      rw [exposed, hnext, ih fun e he => h e (by simp [he])]
      rfl

end Inside

/-- Balanced texts are closed. -/
lemma Balanced.closed {s : Text} (h : Balanced s) : Closed s := by
  induction h with
  | nil => exact .nil
  | plain hc _ ih => exact (Closed.plain_cons_iff hc).2 ih
  | @quoted m body s hm hbody _ ih =>
      have hopen : top.next m = literal m 0 := by simp [next, hm]
      have hslash : m ≠ '\\' := by rintro rfl; exact absurd hm (by decide)
      have hclose : (literal m 0).next m = top := by simp [next, hslash]
      have hmark : isClosing m = false := by
        simp only [isMark, Bool.or_eq_true, beq_iff_eq] at hm
        rcases hm with (rfl | rfl) | rfl <;> decide
      constructor
      · refine overcloses_cons.2 ⟨by simp [hmark], ?_⟩
        rw [hopen]
        refine overcloses_append.2 ⟨overcloses_literal hbody, ?_⟩
        rw [after_literal hbody]
        exact overcloses_cons.2 ⟨by simp, by rw [hclose]; exact ih.opened⟩
      · rw [after_cons, hopen, after_append, after_literal hbody, after_cons, hclose, ih.settled]
  | brackets hl hr _ _ ihs iht => exact ihs.brackets hl hr iht

/-- A balanced text ends at the depth where it starts. -/
lemma Balanced.after_eq {s : Text} (h : Balanced s) (d : Nat) : (code d).after s = code d :=
  h.closed.after_eq d

/-- A literal exposes nothing. -/
lemma exposed_quoted {m : Char} {body : Text} (hm : isMark m = true)
    (hbody : ∀ c ∈ body, c ≠ m ∧ c ≠ '\\') : top.exposed (m :: (body ++ [m])) = [] := by
  have hopen : top.next m = literal m 0 := by simp [next, hm]
  have hhidden : top.exposes m = false := by simp [exposes, hm]
  rw [exposed, hhidden, hopen, exposed_append, exposed_literal hbody, after_literal hbody]
  rfl

/-- What stands in brackets is not exposed. -/
lemma Balanced.exposed_brackets {left right : Char} {s : Text} (hl : isOpening left = true)
    (hr : isClosing right = true) (hs : Balanced s) :
    top.exposed (left :: (s ++ [right])) = [] :=
  hs.closed.exposed_brackets hl hr

end Nesting

open Nesting

/-! ### Items -/

section Split

variable {sep : Char} {n : Nesting} {a : Text}

/-- A part that does not expose the separator stays in one piece. -/
lemma splitFrom_append (h : sep ∉ n.exposed a) (b : Text) :
    splitFrom sep n (a ++ b) = (splitFrom sep (n.after a) b).modifyHead (a ++ ·) := by
  induction a generalizing n with
  | nil => cases hs : splitFrom sep n b <;> simp [hs]
  | cons c a ih =>
      obtain ⟨hc, hmore⟩ := notMem_exposed_cons.1 h
      rw [List.cons_append, splitFrom, hc, after_cons, ih hmore]
      simp [Function.comp_def]

lemma splitTop_eq_singleton (h : sep ∉ top.exposed a) : splitTop sep a = [a] := by
  have hsplit := splitFrom_append h []
  simpa [splitFrom, splitTop] using hsplit

/-- A part that does not expose the separator stands before the cut. -/
lemma cutFrom_append (h : sep ∉ n.exposed a) (b : Text) :
    cutFrom sep n (a ++ b) = (cutFrom sep (n.after a) b).map fun p => (a ++ p.1, p.2) := by
  induction a generalizing n with
  | nil => cases hs : cutFrom sep n b <;> simp [hs]
  | cons c a ih =>
      obtain ⟨hc, hmore⟩ := notMem_exposed_cons.1 h
      rw [List.cons_append, cutFrom, hc, after_cons, ih hmore]
      simp [Function.comp_def]

lemma cutFrom_eq_none (h : sep ∉ n.exposed a) : cutFrom sep n a = none := by
  have hcut := cutFrom_append h []
  rw [List.append_nil] at hcut
  rw [hcut]
  rfl

end Split

lemma isPlain_of_isBlank {c : Char} (h : isBlank c = true) : isPlain c = true := by
  by_contra hc
  simp only [isPlain, isMark, isOpening, isClosing, Bool.not_eq_true, Bool.not_eq_false',
    Bool.or_eq_true, beq_iff_eq] at hc
  rcases hc with (((rfl | rfl) | rfl) | (rfl | rfl) | rfl) | (rfl | rfl) | rfl <;>
    exact absurd h (by decide)

/-- Blanks do not change the nesting, and expose no comma. -/
lemma after_of_isBlank {s : Text} (h : ∀ c ∈ s, isBlank c = true) : top.after s = top :=
  (Closed.of_forall fun c hc => isPlain_of_isBlank (h c hc)).settled

lemma comma_notMem_of_isBlank {s : Text} (h : ∀ c ∈ s, isBlank c = true) (n : Nesting) :
    ',' ∉ n.exposed s := by
  intro hmem
  exact absurd (h ',' (mem_of_mem_exposed hmem)) (by decide)

/-- The items on both sides of a comma, behind a text that ends outside of all brackets and
literals, are the items of the whole. -/
lemma topItems_append_comma {a : Text} (h : top.after a = top) (b : Text) :
    topItems (a ++ ',' :: b) = topItems a ++ topItems b := by
  have hcomma : isPlain ',' = true := by decide
  rw [topItems, splitTop, splitFrom_append_sep hcomma h, List.map_append, List.filter_append]
  rfl

/-- Blanks hold no items. -/
lemma topItems_of_isBlank {s : Text} (h : ∀ c ∈ s, isBlank c = true) : topItems s = [] := by
  simp [topItems, splitTop_eq_singleton (comma_notMem_of_isBlank h top), trim_eq_nil h]

/-- A solid text that exposes no comma is one item, with or without blanks around it. -/
lemma topItems_of_solid {s front back : Text} (hs : Solid s) (hhidden : ',' ∉ top.exposed s)
    (hfront : ∀ c ∈ front, isBlank c = true) (hback : ∀ c ∈ back, isBlank c = true) :
    topItems (front ++ (s ++ back)) = [s] := by
  have hall : ',' ∉ top.exposed (front ++ (s ++ back)) := by
    rw [exposed_append, exposed_append, after_of_isBlank hfront, List.mem_append, List.mem_append,
      not_or, not_or]
    exact ⟨comma_notMem_of_isBlank hfront _, hhidden, comma_notMem_of_isBlank hback _⟩
  simp [topItems, splitTop_eq_singleton hall, hs.trim_eq hfront hback, hs.ne_nil]

/-- Texts one after the other with a comma and a gap between them. -/
def commaGap (gap : Text) : List Text → Text
  | [] => []
  | [s] => s
  | s :: t :: rest => s ++ ',' :: (gap ++ commaGap gap (t :: rest))

lemma commaGap_nil (parts : List Text) : commaGap [] parts = commaJoin parts := by
  rw [commaJoin]
  fun_induction commaGap [] parts with
  | case1 => rfl
  | case2 s => rfl
  | case3 s t rest ih => rw [ih]; rfl

/-- A text that can be an item of a list. -/
structure IsItem (s : Text) : Prop where
  solid : Solid s
  balanced : Balanced s
  hidden : ',' ∉ top.exposed s

lemma exposed_blanks {s : Text} (h : ∀ c ∈ s, c = ' ') :
    Balanced s ∧ ',' ∉ top.exposed s := by
  have hplain : ∀ c ∈ s, isPlain c = true := by
    intro c hc
    rw [h c hc]
    decide
  refine ⟨balanced_of_forall hplain, ?_⟩
  rw [exposed_of_forall hplain]
  intro hmem
  exact absurd (h ',' hmem) (by decide)

/-- **The items of a list** are found again, with spaces around them. -/
theorem topItems_listing {parts : List Text} (h : ∀ p ∈ parts, IsItem p) {front gap back : Text}
    (hfront : ∀ c ∈ front, c = ' ') (hgap : ∀ c ∈ gap, c = ' ') (hback : ∀ c ∈ back, c = ' ') :
    topItems (front ++ (commaGap gap parts ++ back)) = parts := by
  have hblank {t : Text} (ht : ∀ c ∈ t, c = ' ') : ∀ c ∈ t, isBlank c = true := by
    intro c hc
    rw [ht c hc]
    decide
  induction parts generalizing front with
  | nil =>
      refine topItems_of_isBlank fun c hc => ?_
      rcases List.mem_append.1 hc with hc | hc
      · exact hblank hfront c hc
      · exact hblank hback c hc
  | cons p parts ih =>
      have hp := h p (by simp)
      cases parts with
      | nil => exact topItems_of_solid hp.solid hp.hidden (hblank hfront) (hblank hback)
      | cons q parts =>
          have hend : top.after (front ++ p) = top := by
            rw [after_append, (exposed_blanks hfront).1.after_eq, hp.balanced.after_eq]
          have hitem : topItems (front ++ p) = [p] := by
            simpa using topItems_of_solid hp.solid hp.hidden (hblank hfront)
              (List.forall_mem_nil _)
          calc topItems (front ++ (commaGap gap (p :: q :: parts) ++ back))
              = topItems ((front ++ p) ++ ',' :: (gap ++ (commaGap gap (q :: parts) ++ back))) := by
                simp [commaGap]
            _ = topItems (front ++ p) ++ topItems (gap ++ (commaGap gap (q :: parts) ++ back)) :=
                topItems_append_comma hend _
            _ = p :: q :: parts := by
                rw [hitem, ih (fun r hr => h r (by simp [hr])) hgap, List.singleton_append]

end ClassFold
