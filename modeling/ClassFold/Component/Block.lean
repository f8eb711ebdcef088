import ClassFold.Text.Basic
import ClassFold.Text.Span

/-!
Blocks of a component file.

A component file holds its template, its scripts and its style sheets in blocks, each between an
opening and a closing tag.
-/

namespace ClassFold

/-- The kinds of blocks with a meaning of their own. -/
inductive BlockKind where
  | template
  | script
  | style
  deriving DecidableEq, Repr

/-- The tag name of a block. -/
def BlockKind.tag : BlockKind → Text
  | template => "template".toList
  | script => "script".toList
  | style => "style".toList

/-- An attribute in the opening tag of a block. -/
structure BlockAttr where
  name : Text
  /-- The value, if the attribute has one. -/
  value : Option Text
  deriving DecidableEq, Repr

/-- A block of a component file. -/
structure Block where
  kind : BlockKind
  attrs : List BlockAttr
  /-- The text between the tags. -/
  content : Text
  /-- Where that text stands. -/
  span : Span
  deriving DecidableEq, Repr

namespace Block

/-- The first attribute of a block with the given name. -/
def attr? (b : Block) (name : Text) : Option BlockAttr := b.attrs.find? (·.name == name)

/-- Whether a block has an attribute with the given name. -/
def hasAttr (b : Block) (name : Text) : Bool := (b.attr? name).isSome

/-- The language that a block says it is written in. -/
def lang? (b : Block) : Option Text := (b.attr? "lang".toList).bind BlockAttr.value

/-- Whether a script is a setup script. -/
def isSetup (b : Block) : Bool := b.hasAttr "setup".toList

end Block

end ClassFold
