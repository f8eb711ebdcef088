import ClassFold.Expr.Nesting

/-!
Items, class names and entries.

The content of an array or an object is a list of items, separated by exposed commas.  A class
list, as in a plain attribute value, is a list of names separated by blanks or commas.
-/

namespace ClassFold

open Text

/-- The items of a text between its exposed commas, trimmed, without the empty ones. -/
def topItems (s : Text) : List Text :=
  ((splitTop ',' s).map trim).filter (!·.isEmpty)

theorem length_le_of_mem_topItems {s i : Text} (h : i ∈ topItems s) : i.length ≤ s.length := by
  obtain ⟨hi, -⟩ := List.mem_filter.1 h
  obtain ⟨p, hp, rfl⟩ := List.mem_map.1 hi
  exact Nat.le_trans (length_trim_le p) (length_le_of_mem_splitFrom hp)

/-- Texts one after the other with commas between them. -/
def commaJoin (parts : List Text) : Text := joinWith ',' parts

/-- The characters between two class names. -/
def isNameSeparator (c : Char) : Bool := isBlank c || c == ','

/-- The class names in a class list. -/
def classNames (s : Text) : List Text :=
  (s.splitOnP isNameSeparator).filter (!·.isEmpty)

/-- The object entry that switches the class value of an expression on. -/
def booleanEntry (expr : Text) : Text := '[' :: expr ++ "]:true".toList

/-- The items of a text as object content, each switched on. -/
def entriesOfItems (s : Text) : Text := commaJoin ((topItems s).map booleanEntry)

end ClassFold
