import Mathlib.Data.List.ReduceOption
import ClassFold.Proofs.Fold.Edits
import ClassFold.Proofs.Fold.Places
import ClassFold.Proofs.Template.ReadBack

/-!
Folded markup is read back.

A tree in canonical form can be folded in its source form: `Markup.folded` folds the last plain
shorthand of each element and keeps everything else.  Folding the tree as written leads to the
folded tree as written (`Markup.spliced_folded`), which is in canonical form again
(`Markup.isCanonical_folded`), so it is read back (`foldTemplate_printAll`).
-/

namespace ClassFold

open Text

/-! ### Folding a tree -/

/-- The edits of an element with the given attributes. -/
def elementEdits (shorthand moduleName : Text) (attrs : List Attr) : List Edit :=
  (Slots.ofAttrs shorthand attrs).edits moduleName

/-- An element without a shorthand has no edits, so all elements can be gone through. -/
lemma foldEdits_eq_flatMap (shorthand moduleName : Text) (nodes : List Node) :
    foldEdits shorthand moduleName nodes =
      (Node.attrListsOf nodes).flatMap (elementEdits shorthand moduleName) := by
  rw [foldEdits]
  induction Node.attrListsOf nodes with
  | nil => rfl
  | cons attrs lists ih =>
      rw [List.map_cons, List.filter_cons, List.flatMap_cons]
      split
      · rw [List.flatMap_cons, ih]
        rfl
      · rename_i hnot
        rw [ih, elementEdits, Slots.edits_of_not_hasShorthand moduleName hnot, List.nil_append]

namespace Markup

mutual

/-- The attributes of all elements in a piece of markup. -/
def attrs : Markup → List AttrSource
  | element _ as children => as.reduceOption ++ attrsAll children
  | selfClosing _ as => as.reduceOption
  | void _ as => as.reduceOption
  | _ => []

/-- The attributes of all elements in several pieces of markup. -/
def attrsAll : List Markup → List AttrSource
  | [] => []
  | m :: ms => attrs m ++ attrsAll ms

end

mutual

/-- A piece of markup after its plain shorthands have been folded. -/
def folded (shorthand moduleName : Text) : Markup → Markup
  | element tag as children =>
    element tag (AttrSource.folded shorthand moduleName as)
      (foldedAll shorthand moduleName children)
  | selfClosing tag as => selfClosing tag (AttrSource.folded shorthand moduleName as)
  | void tag as => void tag (AttrSource.folded shorthand moduleName as)
  | m => m

/-- Several pieces of markup after their plain shorthands have been folded. -/
def foldedAll (shorthand moduleName : Text) : List Markup → List Markup
  | [] => []
  | m :: ms => folded shorthand moduleName m :: foldedAll shorthand moduleName ms

end

variable {shorthand : Text}

/-- No bound shorthand is among the attributes. -/
def Unbound (shorthand : Text) (as : List AttrSource) : Prop :=
  ∀ a ∈ as, a.binds shorthand = true → shorthand = "class".toList

/-- The edits of a tag lead to the folded tag. -/
lemma spliced_openTag {as : List (Option AttrSource)} (moduleName : Text)
    (has : areCanonicalAttrs as = true) (hbound : Unbound shorthand as.reduceOption)
    (tag stop : Text) (offset : Nat) :
    ∃ es : List Edit,
      es.Perm (elementEdits shorthand moduleName
        (AttrSource.attrsAt (offset + byteSize ('<' :: tag)) as)) ∧
      Spliced offset (openTag tag as stop) es
        (openTag tag (AttrSource.folded shorthand moduleName as) stop) := by
  have hlacks : shorthand ≠ "class".toList → AttrSource.Lacks (AttrSource.binds shorthand) as := by
    intro hne a ha
    by_contra hb
    exact hne (hbound a (List.reduceOption_mem_iff.2 ha) (by simpa using hb))
  obtain ⟨es, hperm, hspliced⟩ := AttrSource.spliced_folded moduleName has hlacks
    (offset + byteSize ('<' :: tag))
  have hall := (hspliced.append (.nil _ stop)).keep_front ('<' :: tag)
  exact ⟨es, hperm, by simpa [openTag] using hall⟩

lemma Unbound.append_iff {as bs : List AttrSource} :
    Unbound shorthand (as ++ bs) ↔ Unbound shorthand as ∧ Unbound shorthand bs :=
  List.forall_mem_append

mutual

/-- **The edits of a tree** lead from the tree as written to the folded tree. -/
theorem spliced_folded {m : Markup} (moduleName : Text) (hm : m.isCanonical = true)
    (hbound : Unbound shorthand m.attrs) (offset : Nat) :
    ∃ es : List Edit,
      es.Perm ((Node.attrLists (m.nodeAt offset)).flatMap (elementEdits shorthand moduleName)) ∧
        Spliced offset m.print es (m.folded shorthand moduleName).print := by
  cases m with
  | element tag as children =>
      simp only [isCanonical, Bool.and_eq_true] at hm
      obtain ⟨hboundTag, hboundAll⟩ := Unbound.append_iff.1 hbound
      obtain ⟨es, hperm, hspliced⟩ := spliced_openTag moduleName hm.1.2 hboundTag tag ['>'] offset
      obtain ⟨fs, hpermAll, hsplicedAll⟩ := spliced_foldedAll moduleName hm.2 hboundAll
        (offset + byteSize (openTag tag as ['>']))
      refine ⟨es ++ fs, ?_, ?_⟩
      · rw [nodeAt, Node.attrLists, List.flatMap_cons]
        exact hperm.append hpermAll
      · have hall := hspliced.append (hsplicedAll.append (.nil _ (closeTag tag)))
        simpa [print, folded] using hall
  | selfClosing tag as =>
      simp only [isCanonical, Bool.and_eq_true] at hm
      simpa [print, folded, nodeAt, Node.attrLists, Node.attrListsOf] using
        spliced_openTag moduleName hm.2 hbound tag "/>".toList offset
  | void tag as =>
      simp only [isCanonical, Bool.and_eq_true] at hm
      simpa [print, folded, nodeAt, Node.attrLists, Node.attrListsOf] using
        spliced_openTag moduleName hm.2 hbound tag ['>'] offset
  | text content => exact ⟨[], by simp [nodeAt, Node.attrLists], .nil _ _⟩
  | interpolation expr => exact ⟨[], by simp [nodeAt, Node.attrLists], .nil _ _⟩
  | comment content => exact ⟨[], by simp [nodeAt, Node.attrLists], .nil _ _⟩

/-- The edits of several trees lead to the folded trees. -/
theorem spliced_foldedAll {ms : List Markup} (moduleName : Text) (hms : areCanonical ms = true)
    (hbound : Unbound shorthand (attrsAll ms)) (offset : Nat) :
    ∃ es : List Edit,
      es.Perm ((Node.attrListsOf (nodesAt offset ms)).flatMap
        (elementEdits shorthand moduleName)) ∧
        Spliced offset (printAll ms) es (printAll (foldedAll shorthand moduleName ms)) := by
  cases ms with
  | nil => exact ⟨[], by simp [nodesAt], .nil _ _⟩
  | cons m ms =>
      simp only [areCanonical, Bool.and_eq_true] at hms
      obtain ⟨hboundOne, hboundAll⟩ := Unbound.append_iff.1 hbound
      obtain ⟨es, hperm, hspliced⟩ := spliced_folded moduleName hms.1.1 hboundOne offset
      obtain ⟨fs, hpermAll, hsplicedAll⟩ := spliced_foldedAll moduleName hms.2 hboundAll
        (offset + byteSize m.print)
      refine ⟨es ++ fs, ?_, hspliced.append hsplicedAll⟩
      rw [nodesAt, Node.attrListsOf, List.flatMap_append]
      exact hperm.append hpermAll

end

/-! ### Folded trees in canonical form -/

/-- No class name of a plain shorthand among the attributes has a quotation mark. -/
def Unquoted (shorthand : Text) (as : List AttrSource) : Prop :=
  ∀ a ∈ as, a.isStatic shorthand = true →
    ∀ name ∈ classNames a.valueText, ∀ q : Quote, q.mark ∉ name

lemma Unquoted.append_iff {as bs : List AttrSource} :
    Unquoted shorthand (as ++ bs) ↔ Unquoted shorthand as ∧ Unquoted shorthand bs :=
  List.forall_mem_append

lemma areCanonicalAttrs_folded {moduleName : Text} (hmodule : ∀ q : Quote, q.mark ∉ moduleName)
    {as : List (Option AttrSource)} (has : areCanonicalAttrs as = true)
    (hnames : Unquoted shorthand as.reduceOption) :
    areCanonicalAttrs (AttrSource.folded shorthand moduleName as) = true :=
  AttrSource.areCanonicalAttrs_folded has hmodule fun a ha =>
    hnames a (List.reduceOption_mem_iff.2 ha)

@[simp] lemma isText_folded (moduleName : Text) (m : Markup) :
    (m.folded shorthand moduleName).isText = m.isText := by
  cases m <;> simp [folded, isText]

@[simp] lemma head_foldedAll (moduleName : Text) (ms : List Markup) :
    (foldedAll shorthand moduleName ms).head?.any isText = ms.head?.any isText := by
  cases ms <;> simp [foldedAll]

mutual

/-- A folded tree can be told from what is written. -/
lemma isCanonical_folded {moduleName : Text} (hmodule : ∀ q : Quote, q.mark ∉ moduleName)
    {m : Markup} (hm : m.isCanonical = true) (hnames : Unquoted shorthand m.attrs) :
    (m.folded shorthand moduleName).isCanonical = true := by
  cases m with
  | element tag as children =>
      simp only [isCanonical, Bool.and_eq_true] at hm
      obtain ⟨hnamesTag, hnamesAll⟩ := Unquoted.append_iff.1 hnames
      simp only [folded, isCanonical, hm.1.1, Bool.and_true,
        areCanonicalAttrs_folded hmodule hm.1.2 hnamesTag,
        areCanonical_foldedAll hmodule hm.2 hnamesAll]
  | selfClosing tag as =>
      simp only [isCanonical, Bool.and_eq_true] at hm
      simp only [folded, isCanonical, hm.1, Bool.true_and,
        areCanonicalAttrs_folded hmodule hm.2 hnames]
  | void tag as =>
      simp only [isCanonical, Bool.and_eq_true] at hm
      simp only [folded, isCanonical, hm.1, Bool.true_and,
        areCanonicalAttrs_folded hmodule hm.2 hnames]
  | text content => simpa [folded] using hm
  | interpolation expr => simpa [folded] using hm
  | comment content => simpa [folded] using hm

/-- Folded trees can be told from what is written. -/
lemma areCanonical_foldedAll {moduleName : Text} (hmodule : ∀ q : Quote, q.mark ∉ moduleName)
    {ms : List Markup} (hms : areCanonical ms = true) (hnames : Unquoted shorthand (attrsAll ms)) :
    areCanonical (foldedAll shorthand moduleName ms) = true := by
  cases ms with
  | nil => simp [foldedAll, areCanonical]
  | cons m ms =>
      simp only [areCanonical, Bool.and_eq_true] at hms
      obtain ⟨hnamesOne, hnamesAll⟩ := Unquoted.append_iff.1 hnames
      simp only [foldedAll, areCanonical, isText_folded, head_foldedAll, hms.1.2,
        Bool.and_true, isCanonical_folded hmodule hms.1.1 hnamesOne,
        areCanonical_foldedAll hmodule hms.2 hnamesAll]

end

end Markup

/-- **Plain shorthands are folded as intended.**  Take a forest in canonical form without bound
shorthands, where no class name of a plain shorthand has a quotation mark, and a style module whose
name has none either.  The forest as written is folded without an error.  The text that this leads
to is the folded forest as written, and it is read back as that forest: the same tree, in which the
last plain shorthand of each element has been added to the last class binding or has become one, and
nothing else has changed. -/
theorem foldTemplate_printAll (options : Options) (forest : List Markup)
    (h : Markup.areCanonical forest = true)
    (hmodule : ∀ q : Quote, q.mark ∉ options.moduleName.getD defaultModuleName)
    (hbound : ∀ a ∈ Markup.attrsAll forest, a.binds options.attrName = true →
      options.attrName = "class".toList)
    (hnames : ∀ a ∈ Markup.attrsAll forest, a.isStatic options.attrName = true →
      ∀ name ∈ classNames a.valueText, ∀ q : Quote, q.mark ∉ name) :
    ∃ f, foldTemplate options (Markup.printAll forest) = .ok f ∧
      f.code = Markup.printAll (Markup.foldedAll options.attrName
        (options.moduleName.getD defaultModuleName) forest) ∧
      readTemplate 0 f.code = .ok (Markup.nodesAt 0 (Markup.foldedAll options.attrName
        (options.moduleName.getD defaultModuleName) forest)) := by
  generalize hm : options.moduleName.getD defaultModuleName = moduleName at *
  have hparse := readTemplate_print h 0
  obtain ⟨code, hcode, hspliced⟩ := foldMarkup_of_parse options.attrName moduleName hparse
    (inside_self _)
  obtain ⟨es, hperm, hfolded⟩ := Markup.spliced_foldedAll moduleName h hbound 0
  rw [← foldEdits_eq_flatMap] at hperm
  -- the edits of the tree are the sorted ones, and edits have one outcome
  have hnodup : ((foldEdits options.attrName moduleName
      (Markup.nodesAt 0 forest)).map Edit.span).Nodup :=
    (spans_foldEdits_pairwise _ _ hparse).imp fun hst => hst.1
  rw [hfolded.mergeSort_eq hperm hnodup] at hspliced
  have hout := hspliced.unique hfolded
  refine ⟨_, by rw [foldTemplate, hm]; exact hcode, hout, ?_⟩
  rw [hout]
  exact readTemplate_print (Markup.areCanonical_foldedAll hmodule h hnames) 0

/-- A forest with a shorthand in front of a class binding, one that becomes a class binding, and one
without classes, between quotes of both kinds. -/
def shorthandForest : List Markup :=
  [.element "p".toList [some ⟨"cls".toList, some (.double, "a b".toList)⟩,
      some ⟨":class".toList, some (.single, "x".toList)⟩]
    [.selfClosing "i".toList [some ⟨"cls".toList, some (.single, "c".toList)⟩],
      .text "t".toList, .void "br".toList [some ⟨"cls".toList, some (.double, [])⟩]]]

theorem foldTemplate_printAll_shorthands :
    Markup.printAll shorthandForest =
        "<p cls=\"a b\" :class='x'><i cls='c'/>t<br cls=\"\"></p>".toList ∧
      ∃ f, foldTemplate {} (Markup.printAll shorthandForest) = .ok f ∧
        f.code = ("<p  :class='[x,$style[\"a\"],$style[\"b\"]]'>".toList ++
          "<i :class='[$style[\"c\"]]'/>t<br ></p>".toList) ∧
        readTemplate 0 f.code = .ok [.element "p".toList
          [Attr.quoted 4 ":class".toList .single "[x,$style[\"a\"],$style[\"b\"]]".toList]
          [.element "i".toList [Attr.quoted 44 ":class".toList .single "[$style[\"c\"]]".toList] []
              true ⟨41, 68⟩,
            .text "t".toList, .element "br".toList [] [] false ⟨69, 74⟩] false ⟨0, 78⟩] := by
  have hfree (w : Text) (hw : (w.contains '"' || w.contains '\'') = false) (q : Quote) :
      q.mark ∉ w := by
    cases q <;> simp_all [Quote.mark]
  have hnames : ∀ a ∈ Markup.attrsAll shorthandForest, a.isStatic "cls".toList = true →
      ∀ name ∈ classNames a.valueText, (name.contains '"' || name.contains '\'') = false := by
    decide
  obtain ⟨f, hf, hcode, hparse⟩ := foldTemplate_printAll {} shorthandForest (by decide)
    (hfree _ (by decide)) (by decide)
    fun a ha hstatic name hname => hfree name (hnames a ha hstatic name hname)
  refine ⟨by decide, f, hf, hcode.trans (by decide), hparse⟩

end ClassFold
