import ClassFold.Template.Attr

/-!
Trees of template markup.

A template is a list of nodes.  `Node.attrLists` lists the attributes of all elements in document
order, that is, each element before its children.
-/

namespace ClassFold

open Text

/-- A node of a template. -/
inductive Node where
  | element (tag : Text) (attrs : List Attr) (children : List Node) (selfClosing : Bool)
      (span : Span)
  | text (content : Text)
  /-- An expression between double braces. -/
  | interpolation (expr : Text)
  | comment (content : Text)
  deriving Repr, BEq

namespace Node

/-- Whether a node is a text of blanks only. -/
def isBlankText : Node → Bool
  | text content => allBlank content
  | _ => false

mutual

/-- The attribute lists of the elements in a node, in document order. -/
def attrLists : Node → List (List Attr)
  | element _ attrs children _ _ => attrs :: attrListsOf children
  | _ => []

/-- The attribute lists of the elements in a list of nodes, in document order. -/
def attrListsOf : List Node → List (List Attr)
  | [] => []
  | n :: ns => attrLists n ++ attrListsOf ns

end

mutual

/-- The node with the offsets of all elements and attributes changed. -/
def relocate (f : Nat → Nat) : Node → Node
  | element tag attrs children selfClosing span =>
    element tag (attrs.map (Attr.relocate f)) (relocateAll f children) selfClosing (span.relocate f)
  | text content => text content
  | interpolation expr => interpolation expr
  | comment content => comment content

/-- The nodes with the offsets of all elements and attributes changed. -/
def relocateAll (f : Nat → Nat) : List Node → List Node
  | [] => []
  | n :: ns => n.relocate f :: relocateAll f ns

end

end Node

/-- The elements that never have children. -/
def voidTags : List Text :=
  ["area", "base", "br", "col", "embed", "hr", "img", "input", "link", "meta", "param", "source",
    "track", "wbr"].map String.toList

/-- Whether an element never has children.  Upper and lower case are not told apart. -/
def isVoid (tag : Text) : Bool := voidTags.contains (tag.map Char.toLower)

end ClassFold
