import ClassFold.Text.Blank
import ClassFold.Text.Span

/-!
Attributes of template elements.

The name of an attribute as written says what kind it is: `:name`, `v-bind:name` and `.name` bind a
value, `@name` and `v-on:name` listen to an event, any other `v-name` is a directive, and all the
rest is static.  The names of directives are brought to a normal form in lower case, with single
dashes between the words.
-/

namespace ClassFold

open Text

/-- The kinds of attributes. -/
inductive AttrKind where
  | static
  | bind
  | on
  | directive
  deriving DecidableEq, Repr

/-- An attribute of an element. -/
structure Attr where
  kind : AttrKind
  /-- The name, or the argument of a binding. -/
  name : Text
  /-- The value, if the attribute has one. -/
  value : Option Text
  /-- Where the attribute stands. -/
  span : Span
  /-- The attribute as written. -/
  raw : Text
  deriving DecidableEq, Repr

namespace Attr

/-- Whether an attribute binds the given argument. -/
def binds (a : Attr) (argument : Text) : Bool := a.kind == .bind && a.name == argument

/-- Whether an attribute is static and has the given name. -/
def isStatic (a : Attr) (name : Text) : Bool := a.kind == .static && a.name == name

/-- The value of an attribute, empty if it has none. -/
def valueText (a : Attr) : Text := a.value.getD []

/-- The attribute with the offsets of its span changed. -/
def relocate (f : Nat → Nat) (a : Attr) : Attr := { a with span := a.span.relocate f }

end Attr

/-! ### Names of directives -/

/-- One character of a directive name in lower case, with a dash at the start of a word. -/
def dashedChar (c : Char) : Text :=
  if c = '_' then ['-'] else if c.isUpper then ['-', c.toLower] else [c]

/-- A text with each run of dashes made a single one; `dash` says whether a dash has just been
read. -/
def singleDashesFrom : (dash : Bool) → Text → Text
  | _, [] => []
  | dash, c :: s =>
    if c = '-' then (if dash then [] else ['-']) ++ singleDashesFrom true s
    else c :: singleDashesFrom false s

/-- A text without dashes at its ends. -/
def trimDashes (s : Text) : Text :=
  ((s.dropWhile (· == '-')).reverse.dropWhile (· == '-')).reverse

/-- The normal form of the name of a directive. -/
def directiveName (s : Text) : Text := trimDashes (singleDashesFrom false (s.flatMap dashedChar))

/-! ### Names of attributes -/

/-- The marks in front of an argument, in the order in which they are tried. -/
def argumentMarks : List (Text × AttrKind) :=
  [(":".toList, .bind), ("v-bind:".toList, .bind), (".".toList, .bind), ("@".toList, .on),
    ("v-on:".toList, .on)]

/-- The kind of an attribute and its name, read off the name as written.  What follows a point in
an argument is a modifier and is left out. -/
def kindAndName (raw : Text) : AttrKind × Text :=
  match argumentMarks.findSome? fun m => (strip? m.1 raw).map fun r => (m.2, r) with
  | some (kind, argument) => (kind, argument.takeWhile (· != '.'))
  | none =>
    match strip? "v-".toList raw with
    | some name => (.directive, directiveName name)
    | none => (.static, raw)

end ClassFold
