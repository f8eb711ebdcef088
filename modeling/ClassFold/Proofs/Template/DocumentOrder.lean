import ClassFold.Proofs.Template.Written
import ClassFold.Template.Forest

/-!
The elements of a tree in document order.

However tags are nested, misnested or left open, the elements of the tree in document order are the
opening tags of the template from left to right.  The invariant is stated for a partly read
template: `Builder.attrLists` lists the elements that have been read, the finished ones first and
then the open ones from the outside in, and each token adds its own element at the end
(`Builder.attrLists_step`).  With the layout of the tokens this gives the layout of all attributes
of a template in document order (`laid_of_readTemplate`).
-/

namespace ClassFold

open Text

namespace Node

@[simp] lemma attrLists_element (tag : Text) (attrs : List Attr) (children : List Node)
    (selfClosing : Bool) (span : Span) :
    attrLists (.element tag attrs children selfClosing span) = attrs :: attrListsOf children := by
  rw [attrLists]

lemma attrLists_of_isBlankText {n : Node} (h : n.isBlankText = true) : attrLists n = [] := by
  cases n with
  | text content => simp [attrLists]
  | element tag attrs children selfClosing span => simp [isBlankText] at h
  | interpolation expr => simp [attrLists]
  | comment content => simp [attrLists]

@[simp] lemma attrListsOf_nil : attrListsOf [] = [] := by rw [attrListsOf]

@[simp] lemma attrListsOf_cons (n : Node) (ns : List Node) :
    attrListsOf (n :: ns) = attrLists n ++ attrListsOf ns := by
  rw [attrListsOf]

@[simp] lemma attrListsOf_append (ns ms : List Node) :
    attrListsOf (ns ++ ms) = attrListsOf ns ++ attrListsOf ms := by
  induction ns with
  | nil => simp
  | cons n ns ih => simp [ih]

/-- Blank texts hold no elements. -/
lemma attrListsOf_filter (ns : List Node) :
    attrListsOf (ns.filter (!·.isBlankText)) = attrListsOf ns := by
  induction ns with
  | nil => rfl
  | cons n ns ih =>
      by_cases hn : n.isBlankText = true
      · simp [hn, ih, attrLists_of_isBlankText]
      · simp [hn, ih]

end Node

namespace Builder

/-- The elements that have been opened and not yet closed, from the outside in, each with the
finished elements inside it behind it. -/
def openLists : List OpenElement → List (List Attr)
  | [] => []
  | e :: es => openLists es ++ e.attrs :: Node.attrListsOf e.children

/-- The elements of a partly read template in document order. -/
def attrLists (b : Builder) : List (List Attr) := Node.attrListsOf b.roots ++ openLists b.stack

@[simp] lemma attach_nil (b : Builder) : b.attach [] = b := by
  obtain ⟨stack, roots⟩ := b
  cases stack <;> simp [attach]

lemma attrLists_attach (nodes : List Node) (b : Builder) :
    (b.attach nodes).attrLists = b.attrLists ++ Node.attrListsOf nodes := by
  obtain ⟨stack, roots⟩ := b
  cases stack with
  | nil => simp [attach, attrLists, openLists]
  | cons e es => simp [attach, attrLists, openLists]

/-- Closing elements leaves the document order as it is. -/
lemma attrLists_closeThrough (p : Text → Bool) (stop : Nat) (roots : List Node)
    (stack : List OpenElement) (more : List Node) :
    (closeThrough p stop roots stack more).attrLists =
      Node.attrListsOf roots ++ openLists stack ++ Node.attrListsOf more := by
  induction stack generalizing more with
  | nil => simp [closeThrough, attrLists, openLists]
  | cons e es ih =>
      rw [closeThrough]
      split
      · rw [attrLists_attach]
        simp [attrLists, openLists, OpenElement.close]
      · simp [ih, openLists, OpenElement.close]

/-- **One token** adds its own element behind all others, if it opens one. -/
lemma attrLists_step (b : Builder) (t : Token) :
    (b.step t).attrLists = b.attrLists ++ t.attrs?.toList := by
  cases t with
  | comment content => simp [step, attrLists_attach, Token.attrs?, Node.attrLists]
  | declaration => simp [step, Token.attrs?]
  | closing tag stop =>
      rw [step]
      split
      · rw [attrLists_closeThrough, attrLists]
        simp [Token.attrs?]
      · simp [Token.attrs?]
  | opening tag attrs selfClosing span =>
      rw [step]
      split
      · simp [attrLists_attach, Token.attrs?]
      · simp [attrLists, openLists, Token.attrs?]
  | interpolation expr => simp [step, attrLists_attach, Token.attrs?, Node.attrLists]
  | text content => simp [step, attrLists_attach, Token.attrs?, Node.attrLists]

lemma attrLists_foldl_step (ts : List Token) (b : Builder) :
    (ts.foldl step b).attrLists = b.attrLists ++ ts.filterMap Token.attrs? := by
  induction ts generalizing b with
  | nil => simp
  | cons t ts ih =>
      rw [List.foldl_cons, ih, attrLists_step, List.filterMap_cons]
      cases t.attrs? <;> simp

lemma stack_closeThrough_false (stop : Nat) (roots : List Node) (stack : List OpenElement)
    (more : List Node) : (closeThrough (fun _ => false) stop roots stack more).stack = [] := by
  induction stack generalizing more with
  | nil => rfl
  | cons e es ih => simpa [closeThrough] using ih _

/-- At the end of the template every element is closed, so the tree holds them all. -/
lemma attrListsOf_finish (stop : Nat) (b : Builder) :
    Node.attrListsOf (b.finish stop) = b.attrLists := by
  have hall := attrLists_closeThrough (fun _ => false) stop b.roots b.stack []
  rw [attrLists, stack_closeThrough_false, openLists, List.append_nil] at hall
  rw [finish, Node.attrListsOf_filter, hall, Node.attrListsOf_nil, List.append_nil, attrLists]

end Builder

/-- **Document order**: the elements of the tree are the opening tags from left to right. -/
theorem attrListsOf_forestOfTokens (stop : Nat) (ts : List Token) :
    Node.attrListsOf (forestOfTokens stop ts) = ts.filterMap Token.attrs? := by
  rw [forestOfTokens, Builder.attrListsOf_finish, Builder.attrLists_foldl_step]
  simp [Builder.attrLists, Builder.empty, Builder.openLists]

/-- A template of which something can be computed from its tree is one that can be read. -/
lemma exists_nodes_of_map {α : Type} {f : List Node → α} {x : α}
    {r : Except TemplateError (List Node)} (h : r.toOption.map f = some x) :
    ∃ nodes, r = .ok nodes ∧ f nodes = x := by
  cases r with
  | error e => simp [Except.toOption] at h
  | ok nodes => exact ⟨nodes, rfl, Option.some.inj h⟩

/-- **The layout of a tree**: its attributes in document order stand one after the other in the
template. -/
theorem laid_of_readTemplate {base : Nat} {template : Text} {nodes : List Node}
    (h : readTemplate base template = .ok nodes) :
    ∃ d, Laid ⟨base, template⟩ (Node.attrListsOf nodes).flatten d := by
  rw [readTemplate] at h
  split at h
  · simp at h
  · rename_i ts hscan
    obtain rfl := Except.ok.inj h
    rw [attrListsOf_forestOfTokens]
    exact laid_of_scan hscan

end ClassFold
