import ClassFold.Text.Basic

/-!
White space.

Three classes of blank characters occur.  `isBlank` is the Unicode property `White_Space`; it
governs trimming and class lists.  `isSpace` is the white space of markup, which separates the
attributes of a tag, and all of it is blank.  `isLayout` is the white space between the blocks of a
component file.
-/

namespace ClassFold.Text

/-- The characters with the Unicode property `White_Space`. -/
def isBlank (c : Char) : Bool :=
  let n := c.toNat
  (0x09 ≤ n && n ≤ 0x0d) || n == 0x20 || n == 0x85 || n == 0xa0 || n == 0x1680 ||
    (0x2000 ≤ n && n ≤ 0x200a) || n == 0x2028 || n == 0x2029 || n == 0x202f || n == 0x205f ||
    n == 0x3000

/-- The white space of markup: space, tab, line feed, form feed and carriage return. -/
def isSpace (c : Char) : Bool :=
  c == ' ' || c == '\t' || c == '\n' || c == '\x0c' || c == '\r'

/-- The white space between blocks: space, tab, carriage return and line feed. -/
def isLayout (c : Char) : Bool :=
  c == ' ' || c == '\t' || c == '\r' || c == '\n'

theorem isBlank_of_isSpace {c : Char} (h : isSpace c = true) : isBlank c = true := by
  simp only [isSpace, Bool.or_eq_true, beq_iff_eq] at h
  rcases h with (((rfl | rfl) | rfl) | rfl) | rfl <;> decide

/-- A text is blank when it has no other characters than blanks. -/
def allBlank (s : Text) : Bool := s.all isBlank

/-- A text without its leading blanks. -/
def trimStart (s : Text) : Text := s.dropWhile isBlank

/-- A text without its trailing blanks. -/
def trimEnd (s : Text) : Text := (s.reverse.dropWhile isBlank).reverse

/-- A text without its leading and trailing blanks. -/
def trim (s : Text) : Text := trimEnd (trimStart s)

theorem length_trimStart_le (s : Text) : (trimStart s).length ≤ s.length :=
  (List.dropWhile_sublist _).length_le

theorem length_trimEnd_le (s : Text) : (trimEnd s).length ≤ s.length := by
  have h := (List.dropWhile_sublist (l := s.reverse) isBlank).length_le
  simpa [trimEnd] using h

theorem length_trim_le (s : Text) : (trim s).length ≤ s.length :=
  Nat.le_trans (length_trimEnd_le _) (length_trimStart_le s)

end ClassFold.Text
