import ClassFold.Proofs.Template.Agreement
import ClassFold.Proofs.Template.DocumentOrder
import ClassFold.Proofs.Text.Words

/-!
Trees of templates are well formed.

* `Node.WellFormed`: an element starts with its tag, its attributes and the elements inside it lie
  between its two ends, these elements follow one another, and void and self-closing elements hold
  nothing; texts are not empty and interpolations are trimmed.
* `Node.Row lo ns hi`: well-formed nodes whose elements follow one another between two offsets.
* `Builder.Upto`: the invariant of a partly read template.  The children of an open element lie
  between its start and the start of the next open element inside it, or the place that has been
  reached; an element gets its end only when it is closed, and by then all of this lies in front of
  that end.  `Builder.upto_step` is the step lemma.
* `wellFormed_of_parseTemplate`: the tree of a template is well formed, whatever its tags look
  like, if the template ends below the word size.
-/

namespace ClassFold

open Text

/-- The span lies inside another one. -/
def Span.Within (s t : Span) : Prop := t.start ≤ s.start ∧ s.stop ≤ t.stop

/-- The opening bracket and the name of a tag stand at the offset `start` of a template that starts
at `base`. -/
def TagAt (base : Nat) (source tag : Text) (start : Nat) : Prop :=
  ∃ front back, source = front ++ '<' :: (tag ++ back) ∧ start = base + byteSize front

namespace Node

/-- The span of an element. -/
def span? : Node → Option Span
  | element _ _ _ _ span => some span
  | _ => none

/-- The spans of the elements in a list of nodes. -/
def spans (ns : List Node) : List Span := ns.filterMap span?

@[simp] lemma spans_append (ns ms : List Node) : spans (ns ++ ms) = spans ns ++ spans ms :=
  List.filterMap_append

/-- A node is well formed in a template that starts at `base`. -/
inductive WellFormed (base : Nat) (source : Text) : Node → Prop where
  | element {tag : Text} {attrs : List Attr} {children : List Node} {selfClosing : Bool}
      {span : Span} (inside : base ≤ span.start ∧ span.stop ≤ base + byteSize source)
      (nonempty : span.start < span.stop) (tagged : TagAt base source tag span.start)
      (attrs_within : ∀ a ∈ attrs, a.span.Within span)
      (children_within : ∀ s ∈ spans children, s.Within span)
      (children_apart : (spans children).Pairwise fun s t => s.stop ≤ t.start)
      (childless : selfClosing = true ∨ isVoid tag = true → children = [])
      (wellFormed : ∀ n ∈ children, WellFormed base source n) :
      WellFormed base source (.element tag attrs children selfClosing span)
  | text {content : Text} (ne_nil : content ≠ [])
      (blank : allBlank content = true → content = [' ']) :
      WellFormed base source (.text content)
  | interpolation {expr : Text} (trimmed : trim expr = expr) :
      WellFormed base source (.interpolation expr)
  | comment (content : Text) : WellFormed base source (.comment content)

/-- Well-formed nodes whose elements follow one another between two offsets. -/
structure Row (base : Nat) (source : Text) (lo : Nat) (ns : List Node) (hi : Nat) : Prop where
  le : lo ≤ hi
  wellFormed : ∀ n ∈ ns, n.WellFormed base source
  bounds : ∀ s ∈ spans ns, lo ≤ s.start ∧ s.stop ≤ hi
  apart : (spans ns).Pairwise fun s t => s.stop ≤ t.start

namespace Row

variable {base lo mid hi : Nat} {source : Text} {ns ms : List Node}

lemma nil (h : lo ≤ hi) : Row base source lo [] hi := ⟨h, by simp, by simp [spans], .nil⟩

lemma single {n : Node} (h : lo ≤ hi) (hn : n.WellFormed base source)
    (hspan : ∀ s ∈ n.span?, lo ≤ s.start ∧ s.stop ≤ hi) : Row base source lo [n] hi := by
  cases hs : n.span? with
  | none => exact ⟨h, by simpa using hn, by simp [spans, hs], by simp [spans, hs]⟩
  | some s => exact ⟨h, by simpa using hn, by simpa [spans, hs] using hspan, by simp [spans, hs]⟩

lemma append (h : Row base source lo ns mid) (h' : Row base source mid ms hi) :
    Row base source lo (ns ++ ms) hi := by
  have hle := h.le
  have hle' := h'.le
  refine ⟨by omega, ?_, ?_, ?_⟩
  · intro n hn
    rcases List.mem_append.1 hn with hn | hn
    · exact h.wellFormed n hn
    · exact h'.wellFormed n hn
  · intro s hs
    rw [spans_append] at hs
    rcases List.mem_append.1 hs with hs | hs
    · have := h.bounds s hs
      omega
    · have := h'.bounds s hs
      omega
  · -- the elements of the first list end where those of the second one may start
    rw [spans_append, List.pairwise_append]
    refine ⟨h.apart, h'.apart, fun s hs t ht => ?_⟩
    have := h.bounds s hs
    have := h'.bounds t ht
    omega

end Row

end Node

open Node

/-! ### Open elements -/

/-- An open element has been read up to an offset: its tag and its attributes stand in front of it,
and the nodes inside it lie between its start and that offset. -/
structure OpenElement.Upto (base : Nat) (source : Text) (e : OpenElement) (pos : Nat) : Prop where
  base_le : base ≤ e.start
  start_lt : e.start < pos
  tagged : TagAt base source e.tag e.start
  attrs : ∀ a ∈ e.attrs, e.start ≤ a.span.start ∧ a.span.stop ≤ pos
  not_void : isVoid e.tag = false
  children : Row base source e.start e.children pos

namespace Builder

/-- A template has been read up to an offset: the finished nodes lie in front of the outermost open
element, and each open element has been read up to the next one inside it. -/
def Upto (base : Nat) (source : Text) (roots : List Node) : List OpenElement → Nat → Prop
  | [], pos => Row base source base roots pos
  | e :: es, pos => e.Upto base source pos ∧ Upto base source roots es e.start

section Steps

variable {base pos stop : Nat} {source : Text} {roots : List Node} {stack : List OpenElement}
  {nodes : List Node}

/-- Nodes behind the place that has been reached go into the innermost open element. -/
lemma upto_attach (h : Upto base source roots stack pos) (hn : Row base source pos nodes stop) :
    Upto base source (attach nodes ⟨stack, roots⟩).roots (attach nodes ⟨stack, roots⟩).stack
      stop := by
  cases stack with
  | nil => exact h.append hn
  | cons e es =>
      obtain ⟨he, hes⟩ := h
      have hlt := he.start_lt
      have hle := hn.le
      refine ⟨⟨he.base_le, by simp only; omega, he.tagged, fun a ha => ?_, he.not_void,
        he.children.append hn⟩, hes⟩
      have := he.attrs a ha
      simp only
      omega

/-- A closed element holds what lies between its start and the place where it is closed. -/
lemma row_close {e : OpenElement} (he : e.Upto base source pos)
    (hn : Row base source pos nodes stop) (hstop : stop ≤ base + byteSize source) :
    Row base source e.start [e.close stop nodes] stop := by
  have hbase := he.base_le
  have hlt := he.start_lt
  have hle := hn.le
  have hall := he.children.append hn
  refine .single (by omega) ?_ (by simp [OpenElement.close, span?])
  refine .element ⟨hbase, hstop⟩ (by simp only; omega) he.tagged (fun a ha => ?_)
    hall.bounds hall.apart (by simp [he.not_void]) hall.wellFormed
  have := he.attrs a ha
  exact ⟨this.1, by simp only; omega⟩

/-- Closing elements from the inside out: each one becomes the last node of the next one. -/
lemma upto_closeThrough (p : Text → Bool) (h : Upto base source roots stack pos)
    (hn : Row base source pos nodes stop) (hstop : stop ≤ base + byteSize source) :
    Upto base source (closeThrough p stop roots stack nodes).roots
      (closeThrough p stop roots stack nodes).stack stop := by
  induction stack generalizing pos nodes with
  | nil => exact h.append hn
  | cons e es ih =>
      obtain ⟨he, hes⟩ := h
      have hclosed := row_close he hn hstop
      rw [closeThrough]
      split
      · exact upto_attach hes hclosed
      · exact ih hes hclosed

end Steps

end Builder

/-! ### Tokens -/

/-- What a token says about a template when it is read between the offsets `pos` and `stop`. -/
def Token.Between (base : Nat) (source : Text) (pos stop : Nat) : Token → Prop
  | .comment _ | .declaration => True
  | .closing _ n => n = stop
  | .opening tag attrs _ span =>
    span = ⟨pos, stop⟩ ∧ pos < stop ∧ TagAt base source tag pos ∧ ∀ a ∈ attrs, a.span.Within span
  | .interpolation expr => trim expr = expr
  | .text content => content ≠ [] ∧ (allBlank content = true → content = [' '])

lemma between_of_readOpening {base : Nat} {source : Text} {c d : Cursor} {t : Token}
    (hc : Cursor.Reaches ⟨base, source⟩ c) (hlead : Lead.of c.rest = .opening)
    (hlt : d.rest.length < c.rest.length) (h : readOpening c = .ok (t, d)) :
    t.Between base source c.offset d.offset := by
  have hlaid := laid_of_readOpening h
  have hoffset := hlaid.reaches.offset_lt hlt
  obtain ⟨front, hfront⟩ := hc
  obtain ⟨s, hs⟩ : ∃ s, c.rest = '<' :: s := Lead.exists_of_eq hlead
  rw [readOpening] at h
  split at h
  · simp at h
  · rename_i tail stop htail
    obtain ⟨rfl, rfl⟩ := Prod.mk.inj (Except.ok.inj h)
    have hname : (c.advance 1).rest = s := by simp [hs]
    simp only [Token.attrsOf, Token.attrs?, List.filterMap_cons, List.filterMap_nil,
      List.flatten_cons, List.flatten_nil, List.append_nil] at hlaid
    refine ⟨rfl, hoffset, ⟨front, s.dropWhile isTagChar, ?_, hfront.offset_eq⟩, fun a ha => ?_⟩
    · rw [hname, List.takeWhile_append_dropWhile, ← hs]
      exact hfront.rest_eq
    · exact ⟨(hlaid.start_bounds a ha).1, hlaid.stop_le a ha⟩

lemma between_of_readInterpolation {base : Nat} {source : Text} {c d : Cursor} {t : Token}
    (h : readInterpolation c = .ok (t, d)) : t.Between base source c.offset d.offset := by
  rw [readInterpolation] at h
  simp only at h
  split at h
  · obtain ⟨rfl, rfl⟩ := Prod.mk.inj (Except.ok.inj h)
    exact trim_trim _
  · split at h
    · obtain ⟨rfl, rfl⟩ := Prod.mk.inj (Except.ok.inj h)
      exact rfl
    · split at h
      · obtain ⟨rfl, rfl⟩ := Prod.mk.inj (Except.ok.inj h)
        exact trim_trim _
      · simp at h

/-- The text of a node is not empty, and it is a single space if it is blank. -/
lemma nodeText_facts {s : Text} (hs : s ≠ []) :
    nodeText s ≠ [] ∧ (allBlank (nodeText s) = true → nodeText s = [' ']) := by
  by_cases hblank : allBlank s = true
  · simp [nodeText, hblank]
  · simp [nodeText, hblank, hs]

lemma between_of_nextToken {base : Nat} {source : Text} {c d : Cursor} {t : Token}
    (hc : Cursor.Reaches ⟨base, source⟩ c) (hne : c.rest ≠ [])
    (h : nextToken c = .ok (t, d)) : t.Between base source c.offset d.offset := by
  have hlt := length_rest_lt_of_nextToken hne h
  rw [nextToken] at h
  split at h
  · rw [readComment] at h
    split at h
    · simp at h
    · obtain ⟨rfl, rfl⟩ := Prod.mk.inj (Except.ok.inj h)
      trivial
  · obtain ⟨rfl, rfl⟩ := Prod.mk.inj (Except.ok.inj h)
    trivial
  · obtain ⟨rfl, rfl⟩ := Prod.mk.inj (Except.ok.inj h)
    exact rfl
  · exact between_of_readOpening hc (by assumption) hlt h
  · exact between_of_readInterpolation h
  · rename_i hlead
    obtain ⟨rfl, rfl⟩ := Prod.mk.inj (Except.ok.inj h)
    refine nodeText_facts ?_
    obtain ⟨x, s, hs⟩ := List.exists_cons_of_ne_nil hne
    have hplain : startsMarkup (x :: s) = false := by rw [← hs]; simp [startsMarkup, hlead]
    simp [hs, takeUntil, hplain]

/-- **One token** keeps the partly read template well formed, up to the end of the token. -/
lemma Builder.upto_step {base pos stop : Nat} {source : Text} {b : Builder} {t : Token}
    (h : Upto base source b.roots b.stack pos) (hbase : base ≤ pos) (hle : pos ≤ stop)
    (hstop : stop ≤ base + byteSize source) (ht : t.Between base source pos stop) :
    Upto base source (b.step t).roots (b.step t).stack stop := by
  have hmono := upto_attach h (.nil hle)
  rw [attach_nil] at hmono
  cases t with
  | comment content => exact upto_attach h (.single hle (.comment content) (by simp [span?]))
  | declaration => exact hmono
  | closing tag n =>
      obtain rfl : n = stop := ht
      rw [step]
      split
      · exact upto_closeThrough _ h (.nil hle) hstop
      · exact hmono
  | opening tag attrs selfClosing span =>
      obtain ⟨rfl, hlt, htag, hattrs⟩ := ht
      rw [step]
      split
      · refine upto_attach h (.single hle ?_ (by simp [span?]))
        exact .element ⟨hbase, hstop⟩ hlt htag hattrs (by simp [spans]) .nil (by simp) (by simp)
      · rename_i hopen
        have hvoid : isVoid tag = false := by simp_all
        exact ⟨⟨hbase, hlt, htag, hattrs, hvoid, .nil hle⟩, h⟩
  | interpolation expr => exact upto_attach h (.single hle (.interpolation ht) (by simp [span?]))
  | text content => exact upto_attach h (.single hle (.text ht.1 ht.2) (by simp [span?]))

/-- Reading all tokens keeps the template well formed up to its end. -/
lemma Builder.upto_foldl_step {base : Nat} {source : Text} {c : Cursor} {ts : List Token}
    (hc : Cursor.Reaches ⟨base, source⟩ c) (h : scan c = .ok ts) (b : Builder)
    (hb : Upto base source b.roots b.stack c.offset) :
    Upto base source (ts.foldl step b).roots (ts.foldl step b).stack
      (base + byteSize source) := by
  fun_induction scan c generalizing ts b with
  | case1 c hnil =>
      obtain rfl := Except.ok.inj h
      have hend : c.offset + byteSize c.rest = base + byteSize source := hc.offset_add
      rw [hnil, byteSize_nil, Nat.add_zero] at hend
      rwa [hend] at hb
  | case2 => simp at h
  | case3 => simp at h
  | case4 c hne t d ht ts' hts ih =>
      obtain rfl := Except.ok.inj h
      have hcd := (laid_of_nextToken ht).reaches
      have hd := hc.trans hcd
      have hend : d.offset + byteSize d.rest = base + byteSize source := hd.offset_add
      have hstep := upto_step hb hc.offset_le hcd.offset_le (by omega)
        (between_of_nextToken hc hne ht)
      exact ih hd hts (b.step t) hstep

end ClassFold
