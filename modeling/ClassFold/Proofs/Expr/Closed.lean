import Mathlib.Tactic.Lemma
import ClassFold.Expr.Nesting

/-!
Exposed characters and closed texts.

A reading of an expression carries a nesting along.  What matters about a part of an expression is
which of its characters are exposed (`Nesting.exposed`) and whether it is *closed*
(`Nesting.Closed`): it closes no bracket that it has not opened, and behind it all brackets and
literals are closed again.  A closed text can be put inside of brackets, where it is read in the
same way and exposes nothing.

* `Nesting.after_deeper`, `Nesting.exposed_deeper`: a text that closes only what it has opened is
  read inside further brackets as outside of them.
* `Nesting.Closed.append`, `Nesting.Closed.plain_cons_iff`, `Nesting.Closed.brackets`: how closed
  texts are put together.
* `splitFrom_append_sep`: a separator behind a text that ends outside of all brackets splits it off.
* `Nesting.Closed.of_mem_splitTop`: the parts of a closed text are closed.
-/

namespace ClassFold

namespace Nesting

/-! ### Exposed characters -/

/-- The exposed characters of a text that is read from a nesting. -/
def exposed : Nesting → Text → Text
  | _, [] => []
  | n, c :: s => if n.exposes c then c :: exposed (n.next c) s else exposed (n.next c) s

lemma exposed_append (n : Nesting) (s t : Text) :
    n.exposed (s ++ t) = n.exposed s ++ (n.after s).exposed t := by
  induction s generalizing n with
  | nil => rfl
  | cons c s ih =>
      by_cases h : n.exposes c = true
      · simp [exposed, h, ih]
      · simp [exposed, h, ih]

lemma mem_of_mem_exposed {n : Nesting} {x : Char} {s : Text} (h : x ∈ n.exposed s) : x ∈ s := by
  induction s generalizing n with
  | nil => exact h
  | cons c s ih =>
      rw [exposed] at h
      split at h
      · rcases List.mem_cons.1 h with rfl | h
        · exact List.mem_cons_self
        · exact List.mem_cons_of_mem c (ih h)
      · exact List.mem_cons_of_mem c (ih h)

lemma notMem_exposed_cons {n : Nesting} {x c : Char} {s : Text} :
    x ∉ n.exposed (c :: s) ↔ (n.exposes c && c == x) = false ∧ x ∉ (n.next c).exposed s := by
  rw [exposed]
  cases n.exposes c <;> simp [@eq_comm Char x c]

/-- Whether a character neither opens nor closes anything. -/
def isPlain (c : Char) : Bool := !(isMark c || isOpening c || isClosing c)

lemma next_of_isPlain {c : Char} (hc : isPlain c = true) (d : Nat) : (code d).next c = code d := by
  simp only [isPlain, Bool.not_eq_true', Bool.or_eq_false_iff] at hc
  simp [next, hc]

lemma next_of_isOpening {c : Char} (hc : isOpening c = true) (d : Nat) :
    (code d).next c = code (d + 1) := by
  have hmark : isMark c = false := by
    simp only [isOpening, Bool.or_eq_true, beq_iff_eq] at hc
    rcases hc with (rfl | rfl) | rfl <;> decide
  simp [next, hc, hmark]

lemma next_closing {c : Char} (hc : isClosing c = true) (d : Nat) :
    (code d).next c = code (d - 1) := by
  have hmark : isMark c = false ∧ isOpening c = false := by
    simp only [isClosing, Bool.or_eq_true, beq_iff_eq] at hc
    rcases hc with (rfl | rfl) | rfl <;> decide
  simp [next, hc, hmark]

lemma next_of_isClosing {c : Char} (hc : isClosing c = true) (d : Nat) :
    (code (d + 1)).next c = code d :=
  next_closing hc (d + 1)

lemma exposes_of_isPlain {c : Char} (hc : isPlain c = true) : top.exposes c = true := hc

lemma isClosing_of_isPlain {c : Char} (hc : isPlain c = true) : isClosing c = false := by
  simp only [isPlain, Bool.not_eq_true', Bool.or_eq_false_iff] at hc
  exact hc.2

lemma exposed_of_forall {s : Text} (h : ∀ c ∈ s, isPlain c = true) : top.exposed s = s := by
  induction s with
  | nil => rfl
  | cons c s ih =>
      have hc := h c (by simp)
      rw [exposed, if_pos (exposes_of_isPlain hc), next_of_isPlain hc,
        ih fun d hd => h d (by simp [hd])]

/-! ### Closing what has been opened -/

/-- Whether the reading of a text meets a closing bracket where none is open. -/
def overcloses : Nesting → Text → Bool
  | _, [] => false
  | n, c :: s => (decide (n = top) && isClosing c) || overcloses (n.next c) s

@[simp] lemma overcloses_nil (n : Nesting) : n.overcloses [] = false := rfl

lemma overcloses_cons {n : Nesting} {c : Char} {s : Text} :
    n.overcloses (c :: s) = false ↔
      ¬ (n = top ∧ isClosing c = true) ∧ (n.next c).overcloses s = false := by
  simp [overcloses]

lemma overcloses_append {n : Nesting} {s t : Text} :
    n.overcloses (s ++ t) = false ↔
      n.overcloses s = false ∧ (n.after s).overcloses t = false := by
  induction s generalizing n with
  | nil => simp
  | cons c s ih =>
      rw [List.cons_append, overcloses_cons, overcloses_cons, ih, after_cons, and_assoc]

/-- The same place inside of `k` more brackets. -/
def deeper (k : Nat) : Nesting → Nesting
  | code d => code (d + k)
  | literal m d => literal m (d + k)
  | escaped m d => escaped m (d + k)

/-- **Step.** A character is read inside further brackets as outside of them, unless it closes one
of those. -/
lemma next_deeper {n : Nesting} {c : Char} (h : ¬ (n = top ∧ isClosing c = true)) (k : Nat) :
    (n.deeper k).next c = (n.next c).deeper k := by
  cases n with
  | code d =>
      by_cases hm : isMark c = true
      · simp [deeper, next, hm]
      · by_cases ho : isOpening c = true
        · simp [deeper, next, hm, ho, Nat.add_right_comm]
        · by_cases hc : isClosing c = true
          · have hd : d ≠ 0 := by
              rintro rfl
              exact h ⟨rfl, hc⟩
            simp only [deeper, next, hm, ho, hc, if_true, Bool.false_eq_true, if_false,
              code.injEq]
            omega
          · simp [deeper, next, hm, ho, hc]
  | literal m d =>
      simp only [deeper, next]
      split
      · rfl
      · split <;> rfl
  | escaped m d => rfl

/-- **Run.** A text that closes only what it has opened is read inside further brackets as outside
of them. -/
lemma after_deeper {n : Nesting} {s : Text} (h : n.overcloses s = false) (k : Nat) :
    (n.deeper k).after s = (n.after s).deeper k := by
  induction s generalizing n with
  | nil => rfl
  | cons c s ih =>
      obtain ⟨hc, hs⟩ := overcloses_cons.1 h
      rw [after_cons, next_deeper hc, ih hs, after_cons]

lemma exposes_deeper (n : Nesting) (k : Nat) (c : Char) : (n.deeper (k + 1)).exposes c = false := by
  cases n <;> rfl

/-- Inside of brackets such a text exposes nothing. -/
lemma exposed_deeper {n : Nesting} {s : Text} (h : n.overcloses s = false) (k : Nat) :
    (n.deeper (k + 1)).exposed s = [] := by
  induction s generalizing n with
  | nil => rfl
  | cons c s ih =>
      obtain ⟨hc, hs⟩ := overcloses_cons.1 h
      rw [exposed, exposes_deeper, if_neg Bool.false_ne_true, next_deeper hc, ih hs]

lemma overcloses_deeper {n : Nesting} {s : Text} (h : n.overcloses s = false) (k : Nat) :
    (n.deeper k).overcloses s = false := by
  induction s generalizing n with
  | nil => rfl
  | cons c s ih =>
      obtain ⟨hc, hs⟩ := overcloses_cons.1 h
      refine overcloses_cons.2 ⟨?_, by rw [next_deeper hc]; exact ih hs⟩
      rintro ⟨htop, hclosing⟩
      refine hc ⟨?_, hclosing⟩
      cases n with
      | code d =>
          have hd : d + k = 0 := code.inj htop
          rw [Nat.eq_zero_of_add_eq_zero_right hd]
      | literal m d => cases htop
      | escaped m d => cases htop

/-! ### Closed texts -/

/-- A text is closed when it closes no bracket that it has not opened and when all brackets and
literals are closed behind it. -/
structure Closed (s : Text) : Prop where
  opened : top.overcloses s = false
  settled : top.after s = top

instance (s : Text) : Decidable (Closed s) :=
  decidable_of_iff (top.overcloses s = false ∧ top.after s = top)
    ⟨fun h => ⟨h.1, h.2⟩, fun h => ⟨h.1, h.2⟩⟩

namespace Closed

variable {s t : Text}

/-- A closed text ends at the depth where it starts. -/
lemma after_eq (h : Closed s) (d : Nat) : (code d).after s = code d := by
  have hdeep := after_deeper h.opened d
  rw [h.settled] at hdeep
  simpa [deeper] using hdeep

/-- Inside of brackets a closed text exposes nothing. -/
lemma exposed_succ (h : Closed s) (d : Nat) : (code (d + 1)).exposed s = [] := by
  simpa [deeper] using exposed_deeper h.opened d

lemma overcloses_eq (h : Closed s) (d : Nat) : (code d).overcloses s = false := by
  simpa [deeper] using overcloses_deeper h.opened d

lemma nil : Closed [] := ⟨rfl, rfl⟩

lemma append (hs : Closed s) (ht : Closed t) : Closed (s ++ t) :=
  ⟨overcloses_append.2 ⟨hs.opened, by rw [hs.settled]; exact ht.opened⟩,
    by rw [after_append, hs.settled, ht.settled]⟩

/-- A character that neither opens nor closes anything makes no difference in front of a text. -/
lemma plain_cons_iff {c : Char} (hc : isPlain c = true) : Closed (c :: s) ↔ Closed s := by
  have hnext := next_of_isPlain hc 0
  have hnot : ¬ (top = top ∧ isClosing c = true) := by simp [isClosing_of_isPlain hc]
  constructor
  · intro h
    have hopen := (overcloses_cons.1 h.opened).2
    have hend := h.settled
    rw [after_cons] at hend
    rw [hnext] at hopen hend
    exact ⟨hopen, hend⟩
  · intro h
    refine ⟨overcloses_cons.2 ⟨hnot, by rw [hnext]; exact h.opened⟩, ?_⟩
    rw [after_cons, hnext, h.settled]

lemma of_forall (h : ∀ c ∈ s, isPlain c = true) : Closed s := by
  induction s with
  | nil => exact nil
  | cons c s ih => exact (plain_cons_iff (h c (by simp))).2 (ih fun d hd => h d (by simp [hd]))

/-- Brackets around a closed text close again. -/
lemma brackets {left right : Char} (hl : isOpening left = true) (hr : isClosing right = true)
    (hs : Closed s) (ht : Closed t) : Closed (left :: (s ++ right :: t)) := by
  have hopen : top.next left = code 1 := next_of_isOpening hl 0
  have hclose : (code 1).next right = top := next_of_isClosing hr 0
  have hleft : isClosing left = false := by
    simp only [isOpening, Bool.or_eq_true, beq_iff_eq] at hl
    rcases hl with (rfl | rfl) | rfl <;> decide
  constructor
  · refine overcloses_cons.2 ⟨by simp [hleft], ?_⟩
    rw [hopen]
    refine overcloses_append.2 ⟨hs.overcloses_eq 1, ?_⟩
    rw [hs.after_eq 1]
    exact overcloses_cons.2 ⟨by simp, by rw [hclose]; exact ht.opened⟩
  · rw [after_cons, hopen, after_append, hs.after_eq 1, after_cons, hclose, ht.settled]

/-- What stands in brackets is not exposed. -/
lemma exposed_brackets {left right : Char} (hl : isOpening left = true)
    (hr : isClosing right = true) (hs : Closed s) :
    top.exposed (left :: (s ++ right :: t)) = top.exposed t := by
  have hhidden : top.exposes left = false := by simp [exposes, hl]
  have hclose : (code 1).next right = top := next_of_isClosing hr 0
  have hinside : (code 1).exposes right = false := rfl
  rw [exposed, hhidden, if_neg Bool.false_ne_true, next_of_isOpening hl, exposed_append,
    hs.exposed_succ 0, hs.after_eq 1, exposed, hinside, if_neg Bool.false_ne_true, hclose,
    List.nil_append]

end Closed

end Nesting

/-! ### Parts of closed texts -/

section Parts

open Nesting

variable {sep : Char}

/-- Behind a text that ends outside of all brackets and literals, a separator starts the splitting
anew. -/
lemma splitFrom_append_sep (hsep : isPlain sep = true) {n : Nesting} {a : Text}
    (h : n.after a = top) (b : Text) :
    splitFrom sep n (a ++ sep :: b) = splitFrom sep n a ++ splitTop sep b := by
  induction a generalizing n with
  | nil =>
      obtain rfl : n = top := h
      simp [splitFrom, exposes_of_isPlain hsep, next_of_isPlain hsep, splitTop]
  | cons c a ih =>
      rw [List.cons_append, splitFrom, splitFrom, ih h]
      split
      · rfl
      · cases hparts : splitFrom sep (n.next c) a with
        | nil => exact absurd hparts (splitFrom_ne_nil sep _ a)
        | cons p ps => rfl

/-- The parts of a closed text are closed and do not expose the separator.  For a text that is read
from another nesting, the first part takes over the nesting from which it is read. -/
lemma splitFrom_closed {n : Nesting} {s : Text} (hopen : n.overcloses s = false)
    (hend : n.after s = top) :
    ∃ p ps, splitFrom sep n s = p :: ps ∧
      (n.overcloses p = false ∧ n.after p = top ∧ sep ∉ n.exposed p) ∧
      ∀ q ∈ ps, Closed q ∧ sep ∉ top.exposed q := by
  induction s generalizing n with
  | nil => exact ⟨[], [], rfl, ⟨rfl, hend, by simp [exposed]⟩, by simp⟩
  | cons c s ih =>
      obtain ⟨hc, hs⟩ := overcloses_cons.1 hopen
      obtain ⟨p, ps, hsplit, ⟨hopen', hend', hhidden⟩, hall⟩ := ih hs hend
      by_cases hsep : (n.exposes c && c == sep) = true
      · obtain ⟨rfl, hnext⟩ := eq_top_of_exposes (Bool.and_eq_true_iff.1 hsep).1
        rw [hnext] at hopen' hend' hhidden
        refine ⟨[], p :: ps, ?_, ⟨rfl, rfl, by simp [exposed]⟩, ?_⟩
        · rw [splitFrom, if_pos hsep, hsplit]
        · exact List.forall_mem_cons.2 ⟨⟨⟨hopen', hend'⟩, hhidden⟩, hall⟩
      · refine ⟨c :: p, ps, ?_, ⟨?_, hend', ?_⟩, hall⟩
        · rw [splitFrom, if_neg hsep, hsplit, List.modifyHead_cons]
        · exact overcloses_cons.2 ⟨hc, hopen'⟩
        · exact notMem_exposed_cons.2 ⟨Bool.eq_false_iff.2 hsep, hhidden⟩

lemma Nesting.Closed.of_mem_splitTop {s p : Text} (hs : Closed s) (hp : p ∈ splitTop sep s) :
    Closed p ∧ sep ∉ top.exposed p := by
  obtain ⟨q, qs, hsplit, ⟨hopen, hend, hhidden⟩, hall⟩ :=
    @splitFrom_closed sep top s hs.opened hs.settled
  rw [splitTop, hsplit] at hp
  rcases List.mem_cons.1 hp with rfl | hp
  · exact ⟨⟨hopen, hend⟩, hhidden⟩
  · exact hall p hp

end Parts

end ClassFold
