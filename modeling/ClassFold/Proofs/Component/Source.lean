import ClassFold.Component.Basic
import ClassFold.Proofs.Text.Words

/-!
Component files in source form.

A component file is a list of pieces: white space, comments, templates, scripts, style sheets and
blocks that mean nothing here.  The content of a template is itself made of parts, since it may hold
further templates.

* `Piece.print` writes a piece, and `Piece.isCanonical` says which pieces can be told from what is
  written.
* `Piece.block?` is the block that a piece stands for when it is written at a given place, and
  `Piece.blocksAt` lists the blocks of a file.
-/

namespace ClassFold

open Text

/-! ### Attributes -/

namespace BlockAttr

/-- An attribute as written, with its value between double quotes. -/
def print (a : BlockAttr) : Text := a.name ++ a.value.elim [] fun v => '=' :: '"' :: (v ++ ['"'])

/-- The attributes of a tag as written, each with a space in front. -/
def printAll (as : List BlockAttr) : Text := as.flatMap fun a => ' ' :: a.print

/-- An attribute can be told from what is written when all characters of its name belong there, and
its value is free of double quotes. -/
def isCanonical (a : BlockAttr) : Bool :=
  !a.name.isEmpty && a.name.all isBlockAttrChar && a.value.all fun v => !v.contains '"'

/-- Whether this is so for all attributes of a tag. -/
def areCanonical (as : List BlockAttr) : Bool := as.all isCanonical

lemma isCanonical_iff {a : BlockAttr} :
    a.isCanonical = true ↔ (a.name ≠ [] ∧ ∀ c ∈ a.name, isBlockAttrChar c = true) ∧
      ∀ v ∈ a.value, '"' ∉ v := by
  obtain ⟨name, value⟩ := a
  cases value <;> simp [isCanonical]

@[simp] lemma printAll_nil : printAll [] = [] := rfl

@[simp] lemma printAll_cons (a : BlockAttr) (as : List BlockAttr) :
    printAll (a :: as) = ' ' :: (a.print ++ printAll as) := rfl

@[simp] lemma areCanonical_cons (a : BlockAttr) (as : List BlockAttr) :
    areCanonical (a :: as) = (a.isCanonical && areCanonical as) := rfl

end BlockAttr

/-! ### Tags -/

namespace BlockTag

/-- The opening tag of a block as written, up to what ends it. -/
def opening (name : Text) (attrs : List BlockAttr) (stop : Text) : Text :=
  '<' :: (name ++ (BlockAttr.printAll attrs ++ stop))

/-- The closing tag of a block as written. -/
def closing (name : Text) : Text := "</".toList ++ (name ++ ['>'])

/-- A block as written. -/
def around (name : Text) (attrs : List BlockAttr) (body : Text) : Text :=
  opening name attrs ['>'] ++ (body ++ closing name)

/-- A name of blocks is a letter and further characters of such names. -/
def isName (name : Text) : Bool := name.head?.any Char.isAlpha && name.all isBlockTagChar

lemma isName_tag (kind : BlockKind) : isName kind.tag = true := by cases kind <;> decide

end BlockTag

/-! ### Templates -/

/-- A part of the content of a template. -/
inductive TemplatePart where
  | text (content : Text)
  /-- `<template …>parts</template>`. -/
  | nested (attrs : List BlockAttr) (parts : List TemplatePart)
  /-- `<template …/>`. -/
  | selfClosing (attrs : List BlockAttr)
  deriving Repr

namespace TemplatePart

mutual

/-- A part of a template as written. -/
def print : TemplatePart → Text
  | text content => content
  | nested attrs parts => BlockTag.around BlockKind.template.tag attrs (printAll parts)
  | selfClosing attrs => BlockTag.opening BlockKind.template.tag attrs "/>".toList

/-- The content of a template as written. -/
def printAll : List TemplatePart → Text
  | [] => []
  | p :: ps => print p ++ printAll ps

end

/-- Whether a part of a template is text. -/
def isText : TemplatePart → Bool
  | text _ => true
  | _ => false

mutual

/-- Whether a part of a template can be told from what is written: no tag of a template starts
inside of its texts. -/
def isCanonical : TemplatePart → Bool
  | text content =>
    decide (Free ('<' :: BlockKind.template.tag) content) &&
      decide (Free ("</".toList ++ BlockKind.template.tag) content)
  | nested attrs parts => BlockAttr.areCanonical attrs && areCanonical parts
  | selfClosing attrs => BlockAttr.areCanonical attrs

/-- Whether this is so for all parts of a template of which no two texts stand side by side. -/
def areCanonical : List TemplatePart → Bool
  | [] => true
  | p :: ps => isCanonical p && !(p.isText && ps.head?.any isText) && areCanonical ps

end

end TemplatePart

/-! ### Files -/

/-- A piece of a component file. -/
inductive Piece where
  /-- White space. -/
  | layout (blanks : Text)
  | comment (content : Text)
  | template (attrs : List BlockAttr) (parts : List TemplatePart)
  | script (attrs : List BlockAttr) (body : Text)
  | style (attrs : List BlockAttr) (body : Text)
  /-- A block with any other name. -/
  | other (name : Text) (attrs : List BlockAttr) (body : Text)
  deriving Repr

namespace Piece

/-- A comment as written. -/
def printComment (content : Text) : Text := "<!--".toList ++ (content ++ "-->".toList)

/-- A piece of a file as written. -/
def print : Piece → Text
  | layout blanks => blanks
  | comment content => printComment content
  | template attrs parts =>
    BlockTag.around BlockKind.template.tag attrs (TemplatePart.printAll parts)
  | script attrs body => BlockTag.around BlockKind.script.tag attrs body
  | style attrs body => BlockTag.around BlockKind.style.tag attrs body
  | other name attrs body => BlockTag.around name attrs body

/-- A file as written. -/
def printAll (ps : List Piece) : Text := ps.flatMap print

/-- Whether a piece can be told from what is written: nothing in it looks like its end. -/
def isCanonical : Piece → Bool
  | layout blanks => blanks.all isLayout
  | comment content => decide (Free "-->".toList content)
  | template attrs parts => BlockAttr.areCanonical attrs && TemplatePart.areCanonical parts
  | script attrs body =>
    BlockAttr.areCanonical attrs && decide (Free ("</".toList ++ BlockKind.script.tag) body)
  | style attrs body =>
    BlockAttr.areCanonical attrs && decide (Free ("</".toList ++ BlockKind.style.tag) body)
  | other name attrs body =>
    (BlockTag.isName name && [BlockKind.template, .script, .style].all (name != ·.tag)) &&
      BlockAttr.areCanonical attrs && decide (Free (BlockTag.closing name) body)

/-- Whether this is so for all pieces of a file. -/
def areCanonical (ps : List Piece) : Bool := ps.all isCanonical

@[simp] lemma printAll_nil : printAll [] = [] := rfl

@[simp] lemma printAll_cons (p : Piece) (ps : List Piece) :
    printAll (p :: ps) = p.print ++ printAll ps := rfl

@[simp] lemma areCanonical_cons (p : Piece) (ps : List Piece) :
    areCanonical (p :: ps) = (p.isCanonical && areCanonical ps) := rfl

end Piece

/-- The block that is written at a place. -/
def Block.writtenAt (offset : Nat) (kind : BlockKind) (attrs : List BlockAttr) (body : Text) :
    Block :=
  let start := offset + byteSize (BlockTag.opening kind.tag attrs ['>'])
  ⟨kind, attrs, body, ⟨start, start + byteSize body⟩⟩

namespace Piece

/-- The block that a piece stands for when it is written at a place. -/
def block? (offset : Nat) : Piece → Option Block
  | layout _ | comment _ | other _ _ _ => none
  | template attrs parts =>
    some (Block.writtenAt offset .template attrs (TemplatePart.printAll parts))
  | script attrs body => some (Block.writtenAt offset .script attrs body)
  | style attrs body => some (Block.writtenAt offset .style attrs body)

/-- The blocks of a file that is written from a place on. -/
def blocksAt (offset : Nat) : List Piece → List Block
  | [] => []
  | p :: ps => (p.block? offset).toList ++ blocksAt (offset + byteSize p.print) ps

end Piece

end ClassFold
