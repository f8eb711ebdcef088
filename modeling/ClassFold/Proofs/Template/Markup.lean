import ClassFold.Proofs.Template.Quoted
import ClassFold.Proofs.Text.Words
import ClassFold.Template.Forest

/-!
Markup in source form.

`Markup` is the tree of a template as an author writes it down in the plainest way: closing tags are
there, every attribute has one space in front, and values stand in quotes.

* `Markup.print` writes a tree, and `Markup.isCanonical` says which trees can be told from what is
  written.
* `Markup.nodeAt`: the node that a tree stands for, with the span that it has when it is written at
  a given place.
* `Markup.tokensAt`: the tokens of which the written tree consists.

An attribute may be missing from the place where it stood.  Its space is then left behind, which is
how a tag looks when one of its attributes has been removed from the text.
-/

namespace ClassFold

open Text

/-! ### Attributes -/

/-- An attribute in source form. -/
structure AttrSource where
  /-- The name as written. -/
  name : Text
  /-- The value, if there is one, and the marks around it. -/
  value : Option (Quote × Text)
  deriving DecidableEq, Repr

namespace AttrSource

/-- The attribute as written. -/
def print (a : AttrSource) : Text := a.name ++ a.value.elim [] fun v => '=' :: v.1.wrap v.2

/-- An attribute can be told from what is written when its name has no characters that end a name,
and its value is free of the mark around it. -/
def isCanonical (a : AttrSource) : Bool :=
  !a.name.isEmpty && a.name.all isAttrNameChar && a.value.all fun v => !v.2.contains v.1.mark

/-- The attribute that is written at a place. -/
def attrAt (offset : Nat) (a : AttrSource) : Attr where
  kind := (kindAndName a.name).1
  name := (kindAndName a.name).2
  value := a.value.map Prod.snd
  span := ⟨offset, offset + byteSize a.print⟩
  raw := a.print

lemma isCanonical_iff {a : AttrSource} :
    a.isCanonical = true ↔ (a.name ≠ [] ∧ ∀ c ∈ a.name, isAttrNameChar c = true) ∧
      ∀ v ∈ a.value, v.1.mark ∉ v.2 := by
  obtain ⟨name, value⟩ := a
  cases value <;> simp [isCanonical]

/-- The places for attributes in a tag as written: a space each, with an attribute behind it unless
the place is empty. -/
def printAll (as : List (Option AttrSource)) : Text :=
  as.flatMap fun a => ' ' :: a.elim [] print

/-- The attributes that are written from a place on. -/
def attrsAt : Nat → List (Option AttrSource) → List Attr
  | _, [] => []
  | offset, none :: as => attrsAt (offset + 1) as
  | offset, some a :: as => a.attrAt (offset + 1) :: attrsAt (offset + 1 + byteSize a.print) as

@[simp] lemma printAll_nil : printAll [] = [] := rfl

@[simp] lemma printAll_cons (a : Option AttrSource) (as : List (Option AttrSource)) :
    printAll (a :: as) = ' ' :: (a.elim [] print ++ printAll as) := rfl

@[simp] lemma printAll_append (as bs : List (Option AttrSource)) :
    printAll (as ++ bs) = printAll as ++ printAll bs :=
  List.flatMap_append

end AttrSource

/-! ### Trees -/

/-- A piece of markup in source form. -/
inductive Markup where
  /-- `<tag …>children</tag>`. -/
  | element (tag : Text) (attrs : List (Option AttrSource)) (children : List Markup)
  /-- `<tag …/>`. -/
  | selfClosing (tag : Text) (attrs : List (Option AttrSource))
  /-- `<tag …>`, for an element that never has children. -/
  | void (tag : Text) (attrs : List (Option AttrSource))
  | text (content : Text)
  /-- An expression between double braces. -/
  | interpolation (expr : Text)
  | comment (content : Text)
  deriving Repr

namespace Markup

/-- An opening tag as written, up to what ends it. -/
def openTag (tag : Text) (attrs : List (Option AttrSource)) (stop : Text) : Text :=
  '<' :: (tag ++ (AttrSource.printAll attrs ++ stop))

/-- A closing tag as written. -/
def closeTag (tag : Text) : Text := "</".toList ++ (tag ++ ['>'])

mutual

/-- A piece of markup as written. -/
def print : Markup → Text
  | element tag attrs children => openTag tag attrs ['>'] ++ (printAll children ++ closeTag tag)
  | selfClosing tag attrs => openTag tag attrs "/>".toList
  | void tag attrs => openTag tag attrs ['>']
  | text content => content
  | interpolation expr => ['{', '{'] ++ (expr ++ ['}', '}'])
  | comment content => "<!--".toList ++ (content ++ "-->".toList)

/-- Several pieces of markup as written, one after the other. -/
def printAll : List Markup → Text
  | [] => []
  | m :: ms => print m ++ printAll ms

end

/-- A tag name is a letter and further characters of tag names. -/
def isTagName (tag : Text) : Bool := tag.head?.any Char.isAlpha && tag.all isTagChar

/-- Whether all places for attributes that are not empty hold attributes in canonical form. -/
def areCanonicalAttrs (attrs : List (Option AttrSource)) : Bool :=
  attrs.all fun a => a.all AttrSource.isCanonical

@[simp] lemma areCanonicalAttrs_cons (a : Option AttrSource) (as : List (Option AttrSource)) :
    areCanonicalAttrs (a :: as) = (a.all AttrSource.isCanonical && areCanonicalAttrs as) := rfl

/-- Whether a piece of markup is text. -/
def isText : Markup → Bool
  | text _ => true
  | _ => false

mutual

/-- Whether a piece of markup can be told from what is written: nothing in it looks like the end of
what it stands in. -/
def isCanonical : Markup → Bool
  | element tag attrs children =>
    isTagName tag && !isVoid tag && areCanonicalAttrs attrs && areCanonical children
  | selfClosing tag attrs => isTagName tag && areCanonicalAttrs attrs
  | void tag attrs => isTagName tag && isVoid tag && areCanonicalAttrs attrs
  | text content => !allBlank content && content.all fun c => c != '<' && c != '{'
  | interpolation expr =>
    trim expr == expr && decide (Free ['}', '}'] expr) && expr.getLast? != some '}'
  | comment content => decide (Free "-->".toList content)

/-- Whether this is so for several pieces of markup of which no two texts stand side by side. -/
def areCanonical : List Markup → Bool
  | [] => true
  | m :: ms => isCanonical m && !(m.isText && ms.head?.any isText) && areCanonical ms

end

/-! ### What a tree stands for -/

mutual

/-- The node that a piece of markup stands for when it is written at a place. -/
def nodeAt (offset : Nat) : Markup → Node
  | element tag attrs children =>
    .element tag (AttrSource.attrsAt (offset + byteSize ('<' :: tag)) attrs)
      (nodesAt (offset + byteSize (openTag tag attrs ['>'])) children) false
      ⟨offset, offset + byteSize (print (element tag attrs children))⟩
  | selfClosing tag attrs =>
    .element tag (AttrSource.attrsAt (offset + byteSize ('<' :: tag)) attrs) [] true
      ⟨offset, offset + byteSize (print (selfClosing tag attrs))⟩
  | void tag attrs =>
    .element tag (AttrSource.attrsAt (offset + byteSize ('<' :: tag)) attrs) [] false
      ⟨offset, offset + byteSize (print (void tag attrs))⟩
  | text content => .text content
  | interpolation expr => .interpolation expr
  | comment content => .comment content

/-- The nodes that several pieces of markup stand for when they are written from a place on. -/
def nodesAt (offset : Nat) : List Markup → List Node
  | [] => []
  | m :: ms => nodeAt offset m :: nodesAt (offset + byteSize (print m)) ms

end

mutual

/-- The tokens of a piece of markup that is written at a place. -/
def tokensAt (offset : Nat) : Markup → List Token
  | element tag attrs children =>
    .opening tag (AttrSource.attrsAt (offset + byteSize ('<' :: tag)) attrs) false
        ⟨offset, offset + byteSize (openTag tag attrs ['>'])⟩ ::
      (tokensAll (offset + byteSize (openTag tag attrs ['>'])) children ++
        [.closing tag (offset + byteSize (print (element tag attrs children)))])
  | selfClosing tag attrs =>
    [.opening tag (AttrSource.attrsAt (offset + byteSize ('<' :: tag)) attrs) true
      ⟨offset, offset + byteSize (print (selfClosing tag attrs))⟩]
  | void tag attrs =>
    [.opening tag (AttrSource.attrsAt (offset + byteSize ('<' :: tag)) attrs) false
      ⟨offset, offset + byteSize (print (void tag attrs))⟩]
  | text content => [.text content]
  | interpolation expr => [.interpolation expr]
  | comment content => [.comment content]

/-- The tokens of several pieces of markup that are written from a place on. -/
def tokensAll (offset : Nat) : List Markup → List Token
  | [] => []
  | m :: ms => tokensAt offset m ++ tokensAll (offset + byteSize (print m)) ms

end

end Markup

end ClassFold
