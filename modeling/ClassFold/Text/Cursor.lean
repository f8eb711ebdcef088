import ClassFold.Text.Basic

/-!
Cursors: a place inside a text, given by its byte offset and the text that follows it.

Every move of a cursor consumes a beginning of the text that follows and adds its size to the
offset, so offsets stay true positions.  A reader that makes progress leaves a shorter text
behind; this is the measure by which the readers of markup and of component files end.
-/

namespace ClassFold

open Text

/-- A place inside a text: its byte offset and the text that follows it. -/
structure Cursor where
  offset : Nat
  rest : Text
  deriving DecidableEq, Repr

namespace Cursor

/-- The cursor `n` characters further on. -/
def advance (n : Nat) (c : Cursor) : Cursor :=
  ⟨c.offset + byteSize (c.rest.take n), c.rest.drop n⟩

/-- The cursor behind the characters that satisfy `p`. -/
def skipWhile (p : Char → Bool) (c : Cursor) : Cursor :=
  ⟨c.offset + byteSize (c.rest.takeWhile p), c.rest.dropWhile p⟩

/-- The cursor in front of the first non-empty suffix that satisfies `p`, or at the end. -/
def skipUntil (p : Text → Bool) (c : Cursor) : Cursor :=
  ⟨c.offset + byteSize (takeUntil p c.rest), dropUntil p c.rest⟩

/-- The cursor behind the word `w`, if that word comes next. -/
def skip? (w : Text) (c : Cursor) : Option Cursor :=
  (strip? w c.rest).map fun r => ⟨c.offset + byteSize w, r⟩

/-- The cursor behind the word `w` if that word comes next, and the same cursor otherwise. -/
def skipOptional (w : Text) (c : Cursor) : Cursor := (c.skip? w).getD c

/-- The text in front of the next occurrence of the word `w`, and the cursor behind that word. -/
def cut? (w : Text) (c : Cursor) : Option (Text × Cursor) :=
  (Text.cut? w c.rest).map fun p => (p.1, ⟨c.offset + byteSize p.1 + byteSize w, p.2⟩)

@[simp] theorem rest_advance (n : Nat) (c : Cursor) : (c.advance n).rest = c.rest.drop n := rfl

theorem length_rest_advance_le (n : Nat) (c : Cursor) :
    (c.advance n).rest.length ≤ c.rest.length := by
  simp

theorem length_rest_advance_lt {n : Nat} {c : Cursor} (hn : 0 < n) (hc : c.rest ≠ []) :
    (c.advance n).rest.length < c.rest.length := by
  have := List.length_pos_iff.2 hc
  simp only [rest_advance, List.length_drop]
  omega

theorem length_rest_skipWhile_le (p : Char → Bool) (c : Cursor) :
    (c.skipWhile p).rest.length ≤ c.rest.length :=
  (List.dropWhile_sublist _).length_le

theorem length_rest_skipWhile_lt {p : Char → Bool} {c : Cursor}
    (h : (c.rest.takeWhile p).isEmpty = false) :
    (c.skipWhile p).rest.length < c.rest.length := by
  have hs := congrArg List.length (List.takeWhile_append_dropWhile (p := p) (l := c.rest))
  have hp : 0 < (c.rest.takeWhile p).length := List.length_pos_iff.2 (by simpa using h)
  rw [List.length_append] at hs
  simp only [skipWhile]
  omega

theorem length_rest_skipUntil_le (p : Text → Bool) (c : Cursor) :
    (c.skipUntil p).rest.length ≤ c.rest.length :=
  length_dropUntil_le p c.rest

theorem rest_of_skip? {w : Text} {c d : Cursor} (h : c.skip? w = some d) :
    c.rest = w ++ d.rest := by
  obtain ⟨r, hr, rfl⟩ := Option.map_eq_some_iff.1 h
  exact strip?_eq_some.1 hr

theorem length_rest_of_skip? {w : Text} {c d : Cursor} (h : c.skip? w = some d) :
    c.rest.length = w.length + d.rest.length := by
  rw [rest_of_skip? h, List.length_append]

theorem rest_of_cut? {w t : Text} {c d : Cursor} (h : c.cut? w = some (t, d)) :
    c.rest = t ++ w ++ d.rest := by
  obtain ⟨⟨a, b⟩, hp, he⟩ := Option.map_eq_some_iff.1 h
  obtain ⟨rfl, rfl⟩ := Prod.mk.inj he
  exact eq_of_cut? hp

theorem length_rest_le_of_cut? {w t : Text} {c d : Cursor} (h : c.cut? w = some (t, d)) :
    d.rest.length ≤ c.rest.length := by
  rw [rest_of_cut? h]
  simp only [List.length_append]
  omega

theorem length_rest_skipOptional_le (w : Text) (c : Cursor) :
    (c.skipOptional w).rest.length ≤ c.rest.length := by
  unfold skipOptional
  cases h : c.skip? w with
  | none => simp
  | some d => simp [length_rest_of_skip? h]

end Cursor

end ClassFold
