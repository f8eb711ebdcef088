import ClassFold.Expr.Lookup
import ClassFold.Proofs.Expr.Splitting

/-!
Class expressions in source form.

`ClassSource` is the language of class expressions: names, string literals, arrays, objects, values
behind `&&`, choices by `||` and `??`, and conditionals.

* `ClassSource.print` writes an expression, with single spaces around operators and any number of
  spaces inside delimiters and behind commas and colons.
* `ClassSource.isWellFormed`: what stands on either side of an operator binds at least as tightly,
  and no choice starts with a bare array or object.
* `ClassSource.rewritten`: the expression with its class names as lookups, by recursion on its
  structure.
* `ClassSource.value`: the class value that it stands for.
-/

namespace ClassFold

open Text

/-! ### Names -/

/-- The characters of identifiers: all those that do not take an expression apart.  Letters, digits,
`_`, `$` and the point of `a.b` are among them. -/
def isIdentChar (c : Char) : Bool :=
  Nesting.isPlain c && !(isBlank c || c == ',' || c == ':' || c == '?' || c == '&' || c == '|')

/-- An identifier, or a path of identifiers such as `a.b`. -/
structure Ident where
  text : Text
  isIdent : (text.head?.any (· != '.') && text.all isIdentChar) = true

/-- The characters of class names in literals: no blanks, commas, quotation marks or backslashes. -/
def isTokenChar (c : Char) : Bool :=
  !(isNameSeparator c || Nesting.isMark c || c == '\\')

/-- A class name in a literal. -/
structure ClassToken where
  text : Text
  isToken : (!text.isEmpty && text.all isTokenChar) = true

/-- A string literal with the given class names. -/
def printLiteral (q : Quote) (names : List ClassToken) : Text :=
  q.wrap (joinWith ' ' (names.map ClassToken.text))

/-- How many spaces stand inside delimiters, behind commas and behind the colons of entries. -/
structure Layout where
  inside : Nat
  afterComma : Nat
  afterColon : Nat

/-- A number of spaces. -/
def spaces (n : Nat) : Text := List.replicate n ' '

/-- The content of an array or an object with the given items. -/
def Layout.list (layout : Layout) (parts : List Text) : Text :=
  spaces layout.inside ++ (commaGap (spaces layout.afterComma) parts ++ spaces layout.inside)

/-- `test ? yes : no`. -/
def printConditional (test yes no : Text) : Text :=
  test ++ ' ' :: '?' :: ' ' :: (yes ++ ' ' :: ':' :: ' ' :: no)

/-- Two operands with an operator between them. -/
def printBinary (left : Text) (op : Operator) (right : Text) : Text :=
  left ++ ' ' :: (op.text ++ ' ' :: right)

/-! ### Entries of objects -/

/-- The value of an entry: a name, or a conditional of names. -/
inductive EntryValue where
  | ident (x : Ident)
  | conditional (test yes no : Ident)

/-- The value of an entry as written. -/
def EntryValue.print : EntryValue → Text
  | ident x => x.text
  | conditional test yes no => printConditional test.text yes.text no.text

/-- An entry of an object in source form. -/
inductive EntrySource where
  /-- `name: value`. -/
  | named (key : Ident) (value : EntryValue)
  /-- `'one two': value`. -/
  | quoted (q : Quote) (names : List ClassToken) (value : EntryValue)
  /-- `[key]: value`. -/
  | computed (key : Ident) (value : EntryValue)
  /-- `name`. -/
  | shorthand (name : Ident)
  /-- `...rest`. -/
  | spread (rest : Ident)

namespace EntrySource

/-- A key and a value as written. -/
def printKeyed (layout : Layout) (key : Text) (value : EntryValue) : Text :=
  key ++ ':' :: (spaces layout.afterColon ++ value.print)

/-- An entry as written. -/
def print (layout : Layout) : EntrySource → Text
  | named key value => printKeyed layout key.text value
  | quoted q names value => printKeyed layout (printLiteral q names) value
  | computed key value => printKeyed layout (bracketed key.text) value
  | shorthand name => name.text
  | spread rest => "...".toList ++ rest.text

/-- The entries that an entry becomes: one for each class name in its key, each with the same
value. -/
def rewritten (style : LookupStyle) : EntrySource → List Text
  | named key value => [Entry.keyed (style.named key.text) value.print]
  | quoted _ names value => names.map fun name => Entry.keyed (style.named name.text) value.print
  | computed key value => [Entry.keyed (style.dynamic key.text) value.print]
  | shorthand name => [Entry.keyed (style.named name.text) name.text]
  | spread rest => ["...".toList ++ rest.text]

/-- The entry that is written. -/
def entry : EntrySource → Entry
  | named key value => .named key.text value.print
  | quoted _ names value => .quoted (names.map ClassToken.text) value.print
  | computed key value => .computed key.text value.print
  | shorthand name => .shorthand name.text
  | spread rest => .spread ("...".toList ++ rest.text)

end EntrySource

/-! ### Expressions -/

/-- The test of a conditional: names with operators between them. -/
structure Test where
  first : Ident
  more : List (Operator × Ident)

/-- A test as written. -/
def Test.print (t : Test) : Text :=
  t.more.foldl (fun s p => printBinary s p.1 p.2.text) t.first.text

/-- The test `first && …` of names alone. -/
def Test.all (first : Ident) (more : List Ident) : Test := ⟨first, more.map fun x => (.and, x)⟩

/-- A class expression in source form. -/
inductive ClassSource where
  | ident (x : Ident)
  | literal (q : Quote) (names : List ClassToken)
  | array (items : List ClassSource)
  | object (entries : List EntrySource)
  /-- `first && … && value`. -/
  | guarded (first : Ident) (more : List Ident) (value : ClassSource)
  /-- `left || right` or `left ?? right`. -/
  | choice (left : ClassSource) (op : Operator) (right : ClassSource)
  | conditional (test : Test) (yes no : ClassSource)

namespace ClassSource

mutual

/-- An expression as written. -/
def print (layout : Layout) : ClassSource → Text
  | ident x => x.text
  | literal q names => printLiteral q names
  | array items => bracketed (layout.list (printAll layout items))
  | object entries => braced (layout.list (entries.map (EntrySource.print layout)))
  | guarded first more value => printBinary (Test.all first more).print .and (print layout value)
  | choice left op right => printBinary (print layout left) op (print layout right)
  | conditional test yes no =>
    printConditional test.print (print layout yes) (print layout no)

/-- Several expressions as written. -/
def printAll (layout : Layout) : List ClassSource → List Text
  | [] => []
  | v :: vs => print layout v :: printAll layout vs

end

/-- Whether an expression is an array or an object. -/
def isDelimited : ClassSource → Bool
  | array _ => true
  | object _ => true
  | _ => false

/-- Whether an expression has no operators outside of delimiters. -/
def isAtom : ClassSource → Bool
  | ident _ => true
  | literal _ _ => true
  | v => v.isDelimited

/-- Whether an expression can be an operand of a choice. -/
def isOperand : ClassSource → Bool
  | guarded _ _ _ => true
  | v => v.isAtom

/-- Whether an expression can be the left operand of a choice. -/
def isLeftOperand : ClassSource → Bool
  | choice _ _ _ => true
  | v => v.isOperand && !v.isDelimited

mutual

/-- Whether operators stand between expressions that bind more tightly, choices from left to right,
and no choice starts with a bare array or object. -/
def isWellFormed : ClassSource → Bool
  | ident _ => true
  | literal _ _ => true
  | array items => areWellFormed items
  | object _ => true
  | guarded _ _ value => value.isAtom && isWellFormed value
  | choice left op right =>
    left.isLeftOperand && op != .and && right.isOperand && isWellFormed left && isWellFormed right
  | conditional _ yes no => isWellFormed yes && isWellFormed no

/-- Whether this is so for several expressions. -/
def areWellFormed : List ClassSource → Bool
  | [] => true
  | v :: vs => isWellFormed v && areWellFormed vs

end

/-! ### Rewriting -/

/-- The lookups of the class names in a literal. -/
def lookups (style : LookupStyle) (names : List ClassToken) : List Text :=
  names.map fun name => style.named name.text

/-- The lookups of a literal in a place for one expression. -/
def oneOf : List Text → Text
  | [] => "''".toList
  | [lookup] => lookup
  | several => bracketed (commaJoin several)

mutual

/-- An expression with its class names as lookups, in a place for one expression.  Conditions,
values of entries and spreads stay as they are. -/
def operand (style : LookupStyle) : ClassSource → Text
  | ident x => style.dynamic x.text
  | literal _ names => oneOf (lookups style names)
  | array items => bracketed (commaJoin (itemsOf style items))
  | object entries => braced (commaJoin (entries.flatMap (EntrySource.rewritten style)))
  | guarded first more value => printBinary (Test.all first more).print .and (operand style value)
  | choice left op right => printBinary (operand style left) op (operand style right)
  | conditional test yes no => printConditional test.print (operand style yes) (operand style no)

/-- The items that the items of an array become: several for a literal, and one for everything
else. -/
def itemsOf (style : LookupStyle) : List ClassSource → List Text
  | [] => []
  | literal _ names :: vs => lookups style names ++ itemsOf style vs
  | v :: vs => operand style v :: itemsOf style vs

end

/-- What an expression becomes, without the delimiters of an outer array or object. -/
def content (style : LookupStyle) : ClassSource → Text
  | literal _ names => commaJoin (lookups style names)
  | array items => commaJoin (itemsOf style items)
  | object entries => commaJoin (entries.flatMap (EntrySource.rewritten style))
  | v => operand style v

/-- **The rewriting of an expression**, or nothing when no class is left. -/
def rewritten (style : LookupStyle) (v : ClassSource) : Option Text :=
  if (v.content style).isEmpty then none else some (v.content style)

mutual

/-- The class value that an expression stands for. -/
def value : ClassSource → ClassValue
  | ident x => .dynamic x.text
  | literal _ names => .literal (names.map ClassToken.text)
  | array items => .array (valuesOf items)
  | object entries => .object (entries.map EntrySource.entry)
  | guarded first more v => .guarded (Test.all first more).print (value v)
  | choice left op right => .choice (value left) op (value right)
  | conditional test yes no => .conditional test.print (value yes) (value no)

/-- The class values that several expressions stand for. -/
def valuesOf : List ClassSource → List ClassValue
  | [] => []
  | v :: vs => value v :: valuesOf vs

end

end ClassSource

end ClassFold
