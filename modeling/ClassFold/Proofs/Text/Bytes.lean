import Mathlib.Tactic.Lemma
import ClassFold.Text.Basic
import ClassFold.Text.Span

/-!
Cutting texts at byte positions.

A text that is put together from parts is cut between two of them by cutting it at the sizes of the
parts in front: `takeBytes_byteSize_append` and `dropBytes_byteSize_append` give the two sides of
such a cut and `slice_append` the part in the middle.  Every boundary arises in this way
(`isBoundary_iff_exists`), so a span of which both ends are boundaries is the place of a part
(`Span.Fits`, `Span.fits_iff_exists`).
-/

namespace ClassFold

namespace Text

@[simp] lemma utf8Size_space : ' '.utf8Size = 1 := rfl

lemma byteSize_pos {s : Text} (hs : s ≠ []) : 0 < byteSize s := by
  cases s with
  | nil => exact absurd rfl hs
  | cons c s =>
      have := Char.utf8Size_pos c
      rw [byteSize_cons]
      omega

/-- A cut behind the first part of a text takes from the rest what is left of its size. -/
lemma takeBytes_append (s t : Text) (n : Nat) :
    takeBytes (byteSize s + n) (s ++ t) = s ++ takeBytes n t := by
  induction s with
  | nil => simp
  | cons c s ih =>
      have hc : c.utf8Size ≤ byteSize (c :: s) + n := by rw [byteSize_cons]; omega
      have hn : byteSize (c :: s) + n - c.utf8Size = byteSize s + n := by rw [byteSize_cons]; omega
      rw [List.cons_append, takeBytes, if_pos hc, hn, ih, List.cons_append]

lemma dropBytes_append (s t : Text) (n : Nat) :
    dropBytes (byteSize s + n) (s ++ t) = dropBytes n t := by
  induction s with
  | nil => simp
  | cons c s ih =>
      have hc : c.utf8Size ≤ byteSize (c :: s) + n := by rw [byteSize_cons]; omega
      have hn : byteSize (c :: s) + n - c.utf8Size = byteSize s + n := by rw [byteSize_cons]; omega
      rw [List.cons_append, dropBytes, if_pos hc, hn, ih]

@[simp] lemma takeBytes_zero (s : Text) : takeBytes 0 s = [] := by
  cases s with
  | nil => rfl
  | cons c s => simp [takeBytes, Nat.ne_of_gt (Char.utf8Size_pos c)]

@[simp] lemma dropBytes_zero (s : Text) : dropBytes 0 s = s := by
  cases s with
  | nil => rfl
  | cons c s => simp [dropBytes, Nat.ne_of_gt (Char.utf8Size_pos c)]

@[simp] lemma takeBytes_byteSize_append (s t : Text) : takeBytes (byteSize s) (s ++ t) = s := by
  simpa using takeBytes_append s t 0

@[simp] lemma dropBytes_byteSize_append (s t : Text) : dropBytes (byteSize s) (s ++ t) = t := by
  simpa using dropBytes_append s t 0

/-- The parts of a text are determined by the size of the first one. -/
lemma append_inj_of_byteSize {a b a' b' : Text} (h : a ++ b = a' ++ b')
    (hs : byteSize a = byteSize a') : a = a' ∧ b = b' := by
  have ha : a = a' := by
    rw [← takeBytes_byteSize_append a b, h, hs, takeBytes_byteSize_append]
  subst ha
  exact ⟨rfl, List.append_cancel_left h⟩

/-- The middle one of three parts of a text is the slice between its two ends. -/
lemma slice_append (a b c : Text) :
    slice (a ++ b ++ c) (byteSize a) (byteSize a + byteSize b) = b := by
  rw [slice, List.append_assoc, dropBytes_byteSize_append, Nat.add_sub_cancel_left,
    takeBytes_byteSize_append]

/-- The boundaries of a text are the sizes of its beginnings. -/
lemma isBoundary_iff_exists {s : Text} {n : Nat} :
    isBoundary s n = true ↔ ∃ a b, s = a ++ b ∧ byteSize a = n := by
  rw [isBoundary_iff]
  constructor
  · intro h
    exact ⟨takeBytes n s, dropBytes n s, (takeBytes_append_dropBytes n s).symm, h⟩
  · rintro ⟨a, b, rfl, rfl⟩
    rw [takeBytes_byteSize_append]

end Text

open Text

namespace Span

/-- A span fits a text when it lies inside it and starts and ends between two characters. -/
structure Fits (source : Text) (s : Span) : Prop where
  start_le_stop : s.start ≤ s.stop
  stop_le : s.stop ≤ byteSize source
  start_boundary : isBoundary source s.start = true
  stop_boundary : isBoundary source s.stop = true

/-- The spans that fit a text are the places of its parts. -/
lemma fits_iff_exists {source : Text} {s : Span} :
    s.Fits source ↔
      ∃ a b c, source = a ++ b ++ c ∧ s = ⟨byteSize a, byteSize a + byteSize b⟩ := by
  constructor
  · intro h
    obtain ⟨a, t, hat, ha⟩ := isBoundary_iff_exists.1 h.start_boundary
    obtain ⟨u, c, huc, hu⟩ := isBoundary_iff_exists.1 h.stop_boundary
    have hle := h.start_le_stop
    -- the text up to the end of the span starts with the text in front of the span
    have hua : u = a ++ takeBytes (s.stop - s.start) t := by
      have hn : byteSize a + (s.stop - s.start) = byteSize u := by omega
      rw [← takeBytes_append, hn, ← hat, huc, takeBytes_byteSize_append]
    refine ⟨a, takeBytes (s.stop - s.start) t, c, by rw [huc, hua], ?_⟩
    rw [← byteSize_append, ← hua, ha, hu]
  · rintro ⟨a, b, c, rfl, rfl⟩
    refine ⟨Nat.le_add_right _ _, by simp, ?_, ?_⟩
    · exact isBoundary_iff_exists.2 ⟨a, b ++ c, by simp, rfl⟩
    · exact isBoundary_iff_exists.2 ⟨a ++ b, c, rfl, byteSize_append a b⟩

lemma eq_of_ends {s t : Span} (hstart : s.start = t.start) (hstop : s.stop = t.stop) : s = t := by
  obtain ⟨a, b⟩ := s
  obtain ⟨c, d⟩ := t
  exact Span.mk.injEq a b c d ▸ ⟨hstart, hstop⟩

/-- Two spans lie apart when one of them ends before the other one starts. -/
def Apart (s t : Span) : Prop := s.stop ≤ t.start ∨ t.stop ≤ s.start

lemma Apart.symm {s t : Span} (h : s.Apart t) : t.Apart s := Or.symm h

end Span

end ClassFold
