import ClassFold.Proofs.Text.Bytes
import ClassFold.Text.Cursor

/-!
What stands between two cursors.

`Cursor.Reads c t d` says that the text `t` stands between the cursors `c` and `d`: it is what a
reader consumes when it moves from `c` to `d`, and the offset grows by its size.  Each move of a
cursor has one lemma that names this text.  `Cursor.Reaches` forgets the text, and
`Cursor.Inside source c` says that `c` is a place of `source`, with possibly more of `source` behind
the text that follows the cursor; moves stay inside.
-/

namespace ClassFold

open Text

namespace Text

/-- Characters in front of the first suffix with a property start a suffix without it. -/
lemma exists_of_mem_takeUntil {p : Text → Bool} {s : Text} {c : Char} (h : c ∈ takeUntil p s) :
    ∃ t, p (c :: t) = false := by
  induction s with
  | nil => simp [takeUntil] at h
  | cons a s ih =>
      rw [takeUntil] at h
      split at h
      · simp at h
      · rename_i hp
        rcases List.mem_cons.1 h with rfl | h
        · exact ⟨s, by simpa using hp⟩
        · exact ih h

/-- The text in front of the first occurrence of a character is free of it. -/
lemma notMem_of_cut? {m : Char} {s a b : Text} (h : cut? [m] s = some (a, b)) : m ∉ a := by
  intro hm
  obtain ⟨r, -, he⟩ := Option.map_eq_some_iff.1 h
  obtain ⟨rfl, rfl⟩ := Prod.mk.inj he
  obtain ⟨t, ht⟩ := exists_of_mem_takeUntil hm
  simp [startsWith, strip?] at ht

/-- A text is cut at a character behind any text free of it. -/
lemma cut?_append {m : Char} {a : Text} (ha : m ∉ a) (b : Text) :
    cut? [m] (a ++ m :: b) = some (a, b) := by
  have key : takeUntil (startsWith [m]) (a ++ m :: b) = a ∧
      dropUntil (startsWith [m]) (a ++ m :: b) = m :: b := by
    induction a with
    | nil => simp [takeUntil, dropUntil, startsWith, strip?]
    | cons c a ih =>
        obtain ⟨hc, ha⟩ : m ≠ c ∧ m ∉ a := by simpa using ha
        simpa [takeUntil, dropUntil, startsWith, strip?, hc] using ih ha
  rw [cut?, key.1, key.2]
  simp [strip?]

end Text

namespace Cursor

/-- The text `t` stands between the cursors `c` and `d`. -/
structure Reads (c : Cursor) (t : Text) (d : Cursor) : Prop where
  rest_eq : c.rest = t ++ d.rest
  offset_eq : d.offset = c.offset + byteSize t

lemma Reads.refl (c : Cursor) : c.Reads [] c := ⟨rfl, rfl⟩

lemma Reads.trans {c d e : Cursor} {s t : Text} (h : c.Reads s d) (h' : d.Reads t e) :
    c.Reads (s ++ t) e := by
  refine ⟨by rw [h.rest_eq, h'.rest_eq, List.append_assoc], ?_⟩
  rw [h'.offset_eq, h.offset_eq, byteSize_append, Nat.add_assoc]

lemma Reads.exists_between {c d : Cursor} {s t : Text} (h : c.Reads (s ++ t) d) :
    ∃ e, c.Reads s e ∧ e.Reads t d := by
  refine ⟨⟨c.offset + byteSize s, t ++ d.rest⟩, ⟨?_, rfl⟩, rfl, ?_⟩
  · rw [h.rest_eq, List.append_assoc]
  · rw [h.offset_eq, byteSize_append, Nat.add_assoc]

/-- What stands between two cursors can be cut out of the text behind the first one. -/
lemma Reads.takeBytes_eq {c d : Cursor} {t : Text} (h : c.Reads t d) :
    takeBytes (d.offset - c.offset) c.rest = t := by
  rw [h.rest_eq, h.offset_eq, Nat.add_sub_cancel_left, takeBytes_byteSize_append]

/-! ### Moves -/

lemma reads_advance (n : Nat) (c : Cursor) : c.Reads (c.rest.take n) (c.advance n) :=
  ⟨(List.take_append_drop n c.rest).symm, rfl⟩

lemma reads_skipWhile (p : Char → Bool) (c : Cursor) :
    c.Reads (c.rest.takeWhile p) (c.skipWhile p) :=
  ⟨List.takeWhile_append_dropWhile.symm, rfl⟩

lemma reads_skipUntil (p : Text → Bool) (c : Cursor) :
    c.Reads (takeUntil p c.rest) (c.skipUntil p) :=
  ⟨(takeUntil_append_dropUntil p c.rest).symm, rfl⟩

lemma reads_of_skip? {w : Text} {c d : Cursor} (h : c.skip? w = some d) : c.Reads w d := by
  refine ⟨rest_of_skip? h, ?_⟩
  obtain ⟨r, -, rfl⟩ := Option.map_eq_some_iff.1 h
  rfl

lemma skip?_of_reads {w : Text} {c d : Cursor} (h : c.Reads w d) : c.skip? w = some d := by
  rw [skip?, strip?_eq_some.2 h.rest_eq, Option.map_some, ← h.offset_eq]

lemma reads_of_cut? {w t : Text} {c d : Cursor} (h : c.cut? w = some (t, d)) :
    c.Reads (t ++ w) d := by
  refine ⟨rest_of_cut? h, ?_⟩
  obtain ⟨⟨a, b⟩, -, he⟩ := Option.map_eq_some_iff.1 h
  obtain ⟨rfl, rfl⟩ := Prod.mk.inj he
  rw [byteSize_append, Nat.add_assoc]

/-! ### Reaching -/

/-- The cursor `d` lies at or behind the cursor `c`, in the same text. -/
def Reaches (c d : Cursor) : Prop := ∃ t, c.Reads t d

lemma Reads.reaches {c d : Cursor} {t : Text} (h : c.Reads t d) : c.Reaches d := ⟨t, h⟩

lemma Reaches.refl (c : Cursor) : c.Reaches c := ⟨[], Reads.refl c⟩

lemma Reaches.trans {c d e : Cursor} (h : c.Reaches d) (h' : d.Reaches e) : c.Reaches e := by
  obtain ⟨s, hs⟩ := h
  obtain ⟨t, ht⟩ := h'
  exact ⟨s ++ t, hs.trans ht⟩

lemma Reaches.offset_le {c d : Cursor} (h : c.Reaches d) : c.offset ≤ d.offset := by
  obtain ⟨t, ht⟩ := h
  rw [ht.offset_eq]
  exact Nat.le_add_right _ _

/-- The end of the text has the same offset when it is counted from a later cursor. -/
lemma Reaches.offset_add {c d : Cursor} (h : c.Reaches d) :
    d.offset + byteSize d.rest = c.offset + byteSize c.rest := by
  obtain ⟨t, ht⟩ := h
  rw [ht.offset_eq, ht.rest_eq, byteSize_append, Nat.add_assoc]

/-- A cursor with less text behind it lies further on. -/
lemma Reaches.offset_lt {c d : Cursor} (h : c.Reaches d) (hlt : d.rest.length < c.rest.length) :
    c.offset < d.offset := by
  obtain ⟨t, ht⟩ := h
  have hne : t ≠ [] := by
    rintro rfl
    rw [ht.rest_eq, List.nil_append] at hlt
    exact Nat.lt_irrefl _ hlt
  have := byteSize_pos hne
  rw [ht.offset_eq]
  omega

lemma reaches_advance (n : Nat) (c : Cursor) : c.Reaches (c.advance n) :=
  (reads_advance n c).reaches

lemma reaches_skipWhile (p : Char → Bool) (c : Cursor) : c.Reaches (c.skipWhile p) :=
  (reads_skipWhile p c).reaches

lemma reaches_skipUntil (p : Text → Bool) (c : Cursor) : c.Reaches (c.skipUntil p) :=
  (reads_skipUntil p c).reaches

lemma reaches_skipOptional (w : Text) (c : Cursor) : c.Reaches (c.skipOptional w) := by
  rw [skipOptional]
  cases h : c.skip? w with
  | none => exact Reaches.refl c
  | some d => exact (reads_of_skip? h).reaches

/-! ### Places inside a text -/

/-- The cursor stands inside `source`: the text that follows it starts at its offset, and more of
`source` may come behind that text. -/
def Inside (source : Text) (c : Cursor) : Prop :=
  ∃ front back, source = front ++ c.rest ++ back ∧ byteSize front = c.offset

lemma Inside.of_reads {source t : Text} {c d : Cursor} (h : c.Inside source) (ht : c.Reads t d) :
    d.Inside source := by
  obtain ⟨front, back, hs, hf⟩ := h
  refine ⟨front ++ t, back, by rw [hs, ht.rest_eq]; simp, ?_⟩
  rw [byteSize_append, hf, ht.offset_eq]

lemma Inside.of_reaches {source : Text} {c d : Cursor} (h : c.Inside source) (hd : c.Reaches d) :
    d.Inside source := by
  obtain ⟨t, ht⟩ := hd
  exact h.of_reads ht

end Cursor

end ClassFold
