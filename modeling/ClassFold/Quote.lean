import ClassFold.Text.Blank

/-!
Quotation marks around attribute values and inside expressions.

An attribute value stands between double or single quotes, and an expression inside it uses the
other kind for its own literals.  `Quote.ofAttribute` reads the kind off an attribute as written,
and `swapQuotes` exchanges the two kinds throughout an expression.
-/

namespace ClassFold

open Text

/-- The two kinds of quotation marks around attribute values. -/
inductive Quote where
  | double
  | single
  deriving DecidableEq, Repr

namespace Quote

/-- The character of a quotation mark. -/
def mark : Quote → Char
  | double => '"'
  | single => '\''

/-- The other quotation mark. -/
def opposite : Quote → Quote
  | double => single
  | single => double

@[simp] theorem opposite_opposite (q : Quote) : q.opposite.opposite = q := by
  cases q <;> rfl

/-- A text between two marks. -/
def wrap (q : Quote) (s : Text) : Text := q.mark :: s ++ [q.mark]

/-- The quotation mark around the value of an attribute as written, such as `:class='x'`.  An
attribute without quotes or without a value counts as double-quoted. -/
def ofAttribute (raw : Text) : Quote :=
  match trimStart ((raw.dropWhile (· != '=')).drop 1) with
  | '\'' :: _ => single
  | _ => double

end Quote

/-- The mark around a template literal. -/
def backtick : Char := '\x60'

/-- The exchange of single and double quotation marks, on one character. -/
def swapMark (c : Char) : Char :=
  if c = '\'' then '"' else if c = '"' then '\'' else c

/-- The exchange of quotation marks from the middle of an expression: `template` says whether a
template literal is open and `escaped` whether a backslash has just been read. -/
def swapQuotesFrom : (template escaped : Bool) → Text → Text
  | _, _, [] => []
  | t, true, c :: s => c :: swapQuotesFrom t false s
  | t, false, c :: s =>
    if c = '\\' then c :: swapQuotesFrom t true s
    else if c = backtick then c :: swapQuotesFrom (!t) false s
    else (if t then c else swapMark c) :: swapQuotesFrom t false s

/-- An expression with single and double quotation marks exchanged.  Escaped characters and
template literals stay as they are. -/
def swapQuotes (s : Text) : Text := swapQuotesFrom false false s

end ClassFold
