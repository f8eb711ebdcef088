import Mathlib.Tactic.Lemma
import ClassFold.Template.Forest

/-!
Trees with other offsets.

A tree is built from its tokens without a look at the offsets in them: changing all offsets of the
tokens by a function changes those of the tree by the same function.  There is one lemma for each
step of building the tree, `Builder.step_relocate` for a token and `Builder.finish_relocate` for the
end of the template.  Moving a template and wrapping offsets around are the two uses of this.

* `Node.attrListsOf_map_relocate`: the attributes of a tree with other offsets.
* `relocated_id`: an outcome whose offsets stay as they are.
-/

namespace ClassFold

open Text

variable {α β : Type} (f : Nat → Nat)

@[simp] lemma relocated_ok (g : α → β) (a : α) : relocated f g (.ok a) = .ok (g a) := rfl

@[simp] lemma relocated_error (g : α → β) (e : TemplateError) :
    relocated f g (.error e) = .error (e.relocate f) := rfl

/-! ### Nodes -/

namespace Node

lemma relocateAll_eq_map (ns : List Node) : relocateAll f ns = ns.map (relocate f) := by
  induction ns with
  | nil => simp [relocateAll]
  | cons n ns ih => simp [relocateAll, ih]

lemma isBlankText_relocate (n : Node) : (n.relocate f).isBlankText = n.isBlankText := by
  cases n with
  | element tag attrs children selfClosing span => simp [relocate, isBlankText]
  | text content => simp [relocate]
  | interpolation expr => simp [relocate]
  | comment content => simp [relocate]

mutual

lemma attrLists_relocate (n : Node) :
    attrLists (n.relocate f) = (attrLists n).map (List.map (Attr.relocate f)) := by
  cases n with
  | element tag attrs children selfClosing span =>
      simp [relocate, attrLists, attrListsOf_relocateAll children]
  | text content => simp [relocate, attrLists]
  | interpolation expr => simp [relocate, attrLists]
  | comment content => simp [relocate, attrLists]

lemma attrListsOf_relocateAll (ns : List Node) :
    attrListsOf (relocateAll f ns) = (attrListsOf ns).map (List.map (Attr.relocate f)) := by
  cases ns with
  | nil => simp [relocateAll, attrListsOf]
  | cons n ns =>
      simp [relocateAll, attrListsOf, attrLists_relocate n, attrListsOf_relocateAll ns]

end

/-- The attributes of a tree are found in the same order, whatever its offsets are. -/
lemma attrListsOf_map_relocate (ns : List Node) :
    attrListsOf (ns.map (relocate f)) = (attrListsOf ns).map (List.map (Attr.relocate f)) := by
  rw [← relocateAll_eq_map, attrListsOf_relocateAll]

end Node

/-! ### Tokens -/

/-- The rest of a tag with the offsets of its attributes changed. -/
def TagTail.relocate (t : TagTail) : TagTail := { t with attrs := t.attrs.map (Attr.relocate f) }

/-- The token with its offsets changed. -/
def Token.relocate : Token → Token
  | .closing tag stop => .closing tag (f stop)
  | .opening tag attrs selfClosing span =>
    .opening tag (attrs.map (Attr.relocate f)) selfClosing (span.relocate f)
  | t => t

/-! ### Trees -/

/-- The open element with its offsets changed. -/
def OpenElement.relocate (e : OpenElement) : OpenElement :=
  ⟨e.tag, e.attrs.map (Attr.relocate f), f e.start, e.children.map (Node.relocate f)⟩

lemma OpenElement.close_relocate (stop : Nat) (more : List Node) (e : OpenElement) :
    (e.relocate f).close (f stop) (more.map (Node.relocate f)) =
      (e.close stop more).relocate f := by
  simp [close, relocate, Node.relocate, Node.relocateAll_eq_map, Span.relocate]

namespace Builder

/-- The partly read template with its offsets changed. -/
def relocate (b : Builder) : Builder :=
  ⟨b.stack.map (OpenElement.relocate f), b.roots.map (Node.relocate f)⟩

lemma attach_relocate (nodes : List Node) (b : Builder) :
    (b.relocate f).attach (nodes.map (Node.relocate f)) = (b.attach nodes).relocate f := by
  obtain ⟨stack, roots⟩ := b
  cases stack with
  | nil => simp [attach, relocate]
  | cons e es => simp [attach, relocate, OpenElement.relocate]

lemma closeThrough_relocate (p : Text → Bool) (stop : Nat) (roots : List Node)
    (stack : List OpenElement) (more : List Node) :
    closeThrough p (f stop) (roots.map (Node.relocate f)) (stack.map (OpenElement.relocate f))
        (more.map (Node.relocate f)) =
      (closeThrough p stop roots stack more).relocate f := by
  induction stack generalizing more with
  | nil => simp [closeThrough, relocate]
  | cons e es ih =>
      have hclose := e.close_relocate f stop more
      rw [List.map_cons, closeThrough, closeThrough, hclose]
      have htag : (e.relocate f).tag = e.tag := rfl
      rw [htag]
      split
      · exact attach_relocate f [e.close stop more] ⟨es, roots⟩
      · exact ih [e.close stop more]

lemma any_stack_relocate (p : Text → Bool) (b : Builder) :
    ((b.relocate f).stack.any fun e => p e.tag) = b.stack.any fun e => p e.tag := by
  rw [relocate, List.any_map]
  rfl

/-- **One token**: the offsets of the tree are changed as those of the token are. -/
lemma step_relocate (b : Builder) (t : Token) :
    (b.relocate f).step (t.relocate f) = (b.step t).relocate f := by
  cases t with
  | comment content =>
      simpa [step, Token.relocate, Node.relocate] using attach_relocate f [.comment content] b
  | declaration => rfl
  | closing tag stop =>
      rw [Token.relocate, step, step, any_stack_relocate f (· == tag)]
      split
      · exact closeThrough_relocate f _ stop b.roots b.stack []
      · rfl
  | opening tag attrs selfClosing span =>
      rw [Token.relocate, step, step]
      split
      · simpa [Node.relocate, Node.relocateAll] using
          attach_relocate f [.element tag attrs [] selfClosing span] b
      · simp [relocate, OpenElement.relocate, Span.relocate]
  | interpolation expr =>
      simpa [step, Token.relocate, Node.relocate] using attach_relocate f [.interpolation expr] b
  | text content =>
      simpa [step, Token.relocate, Node.relocate] using attach_relocate f [.text content] b

lemma foldl_step_relocate (ts : List Token) (b : Builder) :
    (ts.map (Token.relocate f)).foldl step (b.relocate f) = (ts.foldl step b).relocate f := by
  induction ts generalizing b with
  | nil => rfl
  | cons t ts ih => rw [List.map_cons, List.foldl_cons, step_relocate, ih, List.foldl_cons]

lemma finish_relocate (stop : Nat) (b : Builder) :
    (b.relocate f).finish (f stop) = (b.finish stop).map (Node.relocate f) := by
  have hclose := closeThrough_relocate f (fun _ => false) stop b.roots b.stack []
  have hblank : (fun n : Node => !n.isBlankText) ∘ Node.relocate f = fun n => !n.isBlankText := by
    funext n
    simp [Node.isBlankText_relocate]
  rw [finish, finish, relocate]
  rw [List.map_nil] at hclose
  rw [hclose, relocate, List.filter_map, hblank]

end Builder

lemma forestOfTokens_relocate (stop : Nat) (ts : List Token) :
    forestOfTokens (f stop) (ts.map (Token.relocate f)) =
      (forestOfTokens stop ts).map (Node.relocate f) := by
  rw [forestOfTokens, forestOfTokens, ← Builder.finish_relocate, ← Builder.foldl_step_relocate]
  rfl

/-! ### Offsets that stay -/

lemma Attr.relocate_id : Attr.relocate id = id := rfl

namespace Node

mutual

lemma relocate_id (n : Node) : n.relocate id = n := by
  cases n with
  | element tag attrs children selfClosing span =>
      simp [relocate, relocateAll_id children, Attr.relocate_id, Span.relocate]
  | text content => simp [relocate]
  | interpolation expr => simp [relocate]
  | comment content => simp [relocate]

lemma relocateAll_id (ns : List Node) : relocateAll id ns = ns := by
  cases ns with
  | nil => simp [relocateAll]
  | cons n ns => simp [relocateAll, relocate_id n, relocateAll_id ns]

end

end Node

lemma relocated_id (r : Except TemplateError (List Node)) :
    relocated id (List.map (Node.relocate id)) r = r := by
  cases r with
  | ok nodes =>
      have hnodes := Node.relocateAll_id nodes
      rw [Node.relocateAll_eq_map] at hnodes
      rw [relocated_ok, hnodes]
  | error e => cases e <;> rfl

end ClassFold
