import ClassFold.Text.Basic

/-!
Paths of files.

A path is a list of names with slashes between them.  Empty names mean nothing, `.` stands for the
same directory and `..` for the one above.  No path holds the character NUL, and both paths and
names have a greatest size.
-/

namespace ClassFold

open Text

/-- A path by its names. -/
structure Path where
  /-- Whether the path starts at the root. -/
  absolute : Bool
  /-- The names between the slashes, without empty ones. -/
  names : List Text
  /-- Whether a slash ends the path, so that it can only lead to a directory. -/
  slash : Bool
  deriving DecidableEq, Repr

namespace Path

/-- The name of the same directory. -/
def here : Text := ".".toList

/-- The name of the directory above. -/
def up : Text := "..".toList

/-- The path that a text stands for. -/
def ofText (s : Text) : Path where
  absolute := s.head? == some '/'
  names := (s.splitOnP (· == '/')).filter (!·.isEmpty)
  slash := s.getLast? == some '/'

/-- The greatest number of bytes in a path. -/
def sizeLimit : Nat := 4095

/-- The greatest number of bytes in a name. -/
def nameLimit : Nat := 255

/-- Whether a text can be used as a path at all. -/
def isUsable (s : Text) : Bool := !s.contains '\x00' && byteSize s ≤ sizeLimit

/-- Whether a name is short enough for a directory. -/
def nameFits (name : Text) : Bool := byteSize name ≤ nameLimit

/-- Names without `.` at the end. -/
def trimHere (names : List Text) : List Text := (names.reverse.dropWhile (· == here)).reverse

/-- The names of the enclosing directory, without `.` at the end. -/
def parentNames (names : List Text) : List Text := trimHere (trimHere names).dropLast

theorem length_trimHere_le (names : List Text) : (trimHere names).length ≤ names.length := by
  have h := (List.dropWhile_sublist (l := names.reverse) (· == here)).length_le
  simpa [trimHere] using h

theorem length_parentNames_lt {names : List Text} (h : names ≠ []) :
    (parentNames names).length < names.length := by
  have h1 := length_trimHere_le (trimHere names).dropLast
  have h2 := length_trimHere_le names
  have h3 := List.length_pos_iff.2 h
  rw [List.length_dropLast] at h1
  unfold parentNames
  omega

/-- The last name of a path, if it is a name of its own. -/
def fileName? (s : Text) : Option Text :=
  ((ofText s).names.filter (· != here)).getLast?.filter (· != up)

/-- What follows the last point of a file name.  A point at the front starts no extension. -/
def extension? (name : Text) : Option Text :=
  let ext := (name.reverse.takeWhile (· != '.')).reverse
  if ext.length + 1 < name.length then some ext else none

/-- The path of the file `name` in the directory `dir`. -/
def join (dir name : Text) : Text :=
  if dir.isEmpty || dir.getLast? == some '/' then dir ++ name else dir ++ '/' :: name

end Path

end ClassFold
