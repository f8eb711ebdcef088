import ClassFold.Template.Node
import ClassFold.Template.Token

/-!
From tokens to trees.

The elements that are open at some place of a template form a stack, innermost first.  An opening
tag opens an element, any other content goes into the innermost one, and a closing tag closes the
elements up to the innermost one with its name, or nothing if there is none.  At the end of the
template the elements that are still open are closed, and blank texts between the outermost nodes
are left out.

The offsets of a tree are exact (`readTemplate`) or kept in words (`parseTemplate`).  A template that
is a part of a file ends inside it, so that words hold all of its offsets and both are the same.
-/

namespace ClassFold

open Text

/-- An element that is still open, with the nodes read inside it so far. -/
structure OpenElement where
  tag : Text
  attrs : List Attr
  start : Nat
  children : List Node
  deriving Repr

/-- The node that an open element becomes when it is closed at `stop`, with `more` as its last
children. -/
def OpenElement.close (stop : Nat) (more : List Node) (e : OpenElement) : Node :=
  .element e.tag e.attrs (e.children ++ more) false ⟨e.start, stop⟩

/-- A partly read template: the open elements, innermost first, and the finished outermost nodes. -/
structure Builder where
  stack : List OpenElement
  roots : List Node
  deriving Repr

namespace Builder

/-- The start of a template. -/
def empty : Builder := ⟨[], []⟩

/-- Adds nodes to the innermost open element. -/
def attach (nodes : List Node) : Builder → Builder
  | ⟨[], roots⟩ => ⟨[], roots ++ nodes⟩
  | ⟨e :: es, roots⟩ => ⟨{ e with children := e.children ++ nodes } :: es, roots⟩

/-- Closes open elements at `stop`, from the inside out, through the first whose tag satisfies `p`.
The nodes `more` go into the innermost one. -/
def closeThrough (p : Text → Bool) (stop : Nat) (roots : List Node) :
    List OpenElement → (more : List Node) → Builder
  | [], more => ⟨[], roots ++ more⟩
  | e :: es, more =>
    if p e.tag then attach [e.close stop more] ⟨es, roots⟩
    else closeThrough p stop roots es [e.close stop more]

/-- Reads one token. -/
def step (b : Builder) : Token → Builder
  | .comment content => b.attach [.comment content]
  | .declaration => b
  | .closing tag stop =>
    if b.stack.any (·.tag == tag) then closeThrough (· == tag) stop b.roots b.stack [] else b
  | .opening tag attrs selfClosing span =>
    if selfClosing || isVoid tag then b.attach [.element tag attrs [] selfClosing span]
    else ⟨⟨tag, attrs, span.start, []⟩ :: b.stack, b.roots⟩
  | .interpolation expr => b.attach [.interpolation expr]
  | .text content => b.attach [.text content]

/-- The nodes of a template that ends at `stop`. -/
def finish (stop : Nat) (b : Builder) : List Node :=
  (closeThrough (fun _ => false) stop b.roots b.stack []).roots.filter (!·.isBlankText)

end Builder

/-- The nodes that a list of tokens stands for, in a template that ends at `stop`. -/
def forestOfTokens (stop : Nat) (tokens : List Token) : List Node :=
  (tokens.foldl Builder.step .empty).finish stop

/-- The nodes of a template that starts at byte `base` of a file, however large its offsets get. -/
def readTemplate (base : Nat) (source : Text) : Except TemplateError (List Node) :=
  match scan ⟨base, source⟩ with
  | .error e => .error e
  | .ok tokens => .ok (forestOfTokens (base + byteSize source) tokens)

/-! ### Offsets in words -/

/-- The number of values of a machine word. -/
def wordSize : Nat := UInt64.size

/-- The nodes of a template that starts at byte `base`, with offsets in words.  An offset is the sum
of `base` and a position in the template, which wraps around when no word holds it.  What is read
depends on the positions alone, so that the sums may wrap at the end. -/
def parseTemplate (base : Nat) (source : Text) : Except TemplateError (List Node) :=
  relocated (· % wordSize) (List.map (Node.relocate (· % wordSize))) (readTemplate base source)

end ClassFold
