import ClassFold.Fold.Transform
import ClassFold.Proofs.Component.Position
import ClassFold.Proofs.Edit.Splicing
import ClassFold.Proofs.Fold.Plan
import ClassFold.Proofs.Template.DocumentOrder

/-!
The edits of a template.

The attributes of a template stand apart from each other, and the edits that fold its shorthands
touch each attribute at most once.  So the edits fit the text that the template stands in
(`fits_foldList`), none takes the place of another one (`edits_foldList`), and they are carried out
without an error (`foldMarkup_of_parse`).

* `fold_ne_edit_error`: folding a template or a component never fails because of its edits.
* `foldTemplate_edits_eq`: the edits of a template, element by element, and what they leave alone.
-/

namespace ClassFold

open Text

/-! ### Spans of attributes and of edits -/

lemma pairwise_of_subperm {α : Type} {R : α → α → Prop} (hR : ∀ {x y : α}, R x y → R y x)
    {l l' : List α} (h : l.Subperm l') (h' : l'.Pairwise R) : l.Pairwise R := by
  obtain ⟨m, hm, hsub⟩ := h
  exact (hm.pairwise_iff hR).1 (h'.sublist hsub)

lemma map_subperm {α β : Type} (f : α → β) {l l' : List α} (h : l.Subperm l') :
    (l.map f).Subperm (l'.map f) := by
  obtain ⟨m, hm, hsub⟩ := h
  exact ⟨m.map f, hm.map f, hsub.map f⟩

/-- Attributes between two cursors have spans that differ and lie apart. -/
lemma Laid.spans_pairwise {c d : Cursor} {as : List Attr} (h : Laid c as d) :
    (as.map Attr.span).Pairwise fun s t => s ≠ t ∧ s.Apart t := by
  rw [List.pairwise_map]
  refine h.pairwise.imp_of_mem fun {a b} ha hb hab => ⟨fun heq => ?_, Or.inl hab⟩
  have hlt := (h.start_bounds a ha).2
  rw [heq] at hab hlt
  omega

/-- **The edits of a template touch different attributes.** -/
theorem spans_foldEdits_subperm (shorthand moduleName : Text) (nodes : List Node) :
    ((foldEdits shorthand moduleName nodes).map Edit.span).Subperm
      ((Node.attrListsOf nodes).flatten.map Attr.span) := by
  rw [foldEdits]
  induction Node.attrListsOf nodes with
  | nil => exact List.Subperm.refl _
  | cons attrs lists ih =>
      have hone : (((Slots.ofAttrs shorthand attrs).edits moduleName).map Edit.span).Subperm
          (attrs.map Attr.span) :=
        (Slots.spans_edits_subperm moduleName _).trans
          (map_subperm Attr.span (Slots.attrs_ofAttrs_subperm shorthand attrs))
      rw [List.flatten_cons, List.map_append, List.map_cons, List.filter_cons]
      split
      · rw [List.flatMap_cons, List.map_append]
        exact hone.append ih
      · exact ih.trans (List.sublist_append_right _ _).subperm

/-- The edits registered for the nodes of a template. -/
def foldList (shorthand moduleName : Text) (nodes : List Node) : EditList :=
  EditList.empty.updateAll (foldEdits shorthand moduleName nodes)

section Parsed

variable {base : Nat} {template : Text} {nodes : List Node}

lemma spans_foldEdits_pairwise (shorthand moduleName : Text)
    (h : readTemplate base template = .ok nodes) :
    ((foldEdits shorthand moduleName nodes).map Edit.span).Pairwise
      fun s t => s ≠ t ∧ s.Apart t := by
  obtain ⟨d, hlaid⟩ := laid_of_readTemplate h
  exact pairwise_of_subperm (fun hst => ⟨hst.1.symm, hst.2.symm⟩)
    (spans_foldEdits_subperm shorthand moduleName nodes) hlaid.spans_pairwise

/-- No edit of a template takes the place of another one. -/
lemma edits_foldList (shorthand moduleName : Text) (h : readTemplate base template = .ok nodes) :
    (foldList shorthand moduleName nodes).edits = foldEdits shorthand moduleName nodes := by
  have hnodup : ((foldEdits shorthand moduleName nodes).map Edit.span).Nodup :=
    (spans_foldEdits_pairwise shorthand moduleName h).imp fun hst => hst.1
  rw [foldList, EditList.edits_updateAll hnodup]
  rfl

/-- **The edits of a template fit** every text that the template stands in. -/
theorem fits_foldList {source : Text} (shorthand moduleName : Text)
    (h : readTemplate base template = .ok nodes) (hin : Cursor.Inside source ⟨base, template⟩) :
    (foldList shorthand moduleName nodes).Fits source := by
  constructor
  · intro e he
    rw [edits_foldList shorthand moduleName h] at he
    obtain ⟨d, hlaid⟩ := laid_of_readTemplate h
    have hmem := (spans_foldEdits_subperm shorthand moduleName nodes).subset
      (List.mem_map_of_mem he)
    obtain ⟨a, ha, hspan⟩ := List.mem_map.1 hmem
    rw [← hspan]
    exact hlaid.fits hin a ha
  · rw [edits_foldList shorthand moduleName h, ← List.pairwise_map]
    exact (spans_foldEdits_pairwise shorthand moduleName h).imp fun hst => hst.2

end Parsed

/-! ### Folding succeeds -/

/-- Without edits a text stays as it is, so folding nodes is carrying out their edits. -/
lemma foldNodes_eq (shorthand moduleName source : Text) (nodes : List Node) :
    foldNodes shorthand moduleName source nodes =
      match (foldList shorthand moduleName nodes).apply source with
      | .error e => .error (.edit e)
      | .ok code => .ok ⟨code, (foldList shorthand moduleName nodes).edits⟩ := by
  rw [foldNodes, ← foldList]
  generalize foldList shorthand moduleName nodes = l
  obtain ⟨edits⟩ := l
  cases edits with
  | nil => simp [EditList.isEmpty, EditList.apply, applyOrdered, resumeAt, Folded.unchanged]
  | cons e es => rfl

/-- Folding succeeds whenever the template can be read. -/
lemma foldMarkup_of_parse {base : Nat} {source template : Text} {nodes : List Node}
    (shorthand moduleName : Text) (h : readTemplate base template = .ok nodes)
    (hin : Cursor.Inside source ⟨base, template⟩) :
    ∃ code, foldMarkup shorthand moduleName source base template =
        .ok ⟨code, foldEdits shorthand moduleName nodes⟩ ∧
      Spliced 0 source ((foldEdits shorthand moduleName nodes).mergeSort Edit.precedes) code := by
  obtain ⟨code, hcode⟩ := (fits_foldList shorthand moduleName h hin).exists_apply
  refine ⟨code, ?_, ?_⟩
  · rw [foldMarkup, h]
    simp only
    rw [foldNodes_eq, hcode, edits_foldList shorthand moduleName h]
  · rw [← edits_foldList shorthand moduleName h]
    exact EditList.spliced_of_apply hcode

lemma foldMarkup_ne_edit_error {base : Nat} {source template : Text} (shorthand moduleName : Text)
    (hin : Cursor.Inside source ⟨base, template⟩) (e : EditError) :
    foldMarkup shorthand moduleName source base template ≠ .error (.edit e) := by
  cases h : readTemplate base template with
  | error err => simp [foldMarkup, h]
  | ok nodes =>
      obtain ⟨code, hcode, -⟩ := foldMarkup_of_parse shorthand moduleName h hin
      simp [hcode]

lemma inside_self (source : Text) : Cursor.Inside source ⟨0, source⟩ := ⟨[], [], by simp, rfl⟩

lemma Block.StandsIn.inside {source : Text} {b : Block} (h : b.StandsIn source) :
    Cursor.Inside source ⟨b.span.start, b.content⟩ := by
  obtain ⟨front, back, hs, hspan⟩ := h
  exact ⟨front, back, hs, by rw [hspan]⟩

lemma foldComponent_of_template {options : Options} {source : Text} {component : Component}
    {template : Block} (h : Component.ofText source = some component)
    (ht : component.template = some template) (hplain : isPlainMarkup template = true) :
    foldComponent options source = foldMarkup options.attrName (styleModuleFor options component)
      source template.span.start template.content := by
  rw [foldComponent, h]
  simp only [ht, Option.filter_some, hplain, if_true]

/-- **Folding never fails because of its edits.**  Whenever a template, or the template of a
component, can be read, the edits that are registered for it all lie inside the text, start and end
between characters and do not overlap, and folding succeeds.  So neither folding a template nor
folding a component ever reports an error in an edit. -/
theorem fold_ne_edit_error (options : Options) (source : Text) :
    (∀ nodes, readTemplate 0 source = .ok nodes →
      (foldList options.attrName (options.moduleName.getD defaultModuleName) nodes).Fits source ∧
        ∃ f, foldTemplate options source = .ok f) ∧
    (∀ component, Component.ofText source = some component →
      (component.template.filter isPlainMarkup = none →
        foldComponent options source = .ok (.unchanged source)) ∧
      ∀ template, component.template = some template → isPlainMarkup template = true →
        ∀ nodes, readTemplate template.span.start template.content = .ok nodes →
          (foldList options.attrName (styleModuleFor options component) nodes).Fits source ∧
            ∃ f, foldComponent options source = .ok f) ∧
    ∀ e, foldTemplate options source ≠ .error (.edit e) ∧
      foldComponent options source ≠ .error (.edit e) := by
  refine ⟨fun nodes h => ?_, fun component hc => ⟨fun hnone => ?_, ?_⟩, fun e => ⟨?_, ?_⟩⟩
  · obtain ⟨code, hcode, -⟩ := foldMarkup_of_parse options.attrName
      (options.moduleName.getD defaultModuleName) h (inside_self source)
    exact ⟨fits_foldList _ _ h (inside_self source), _, hcode⟩
  · rw [foldComponent, hc]
    simp only [hnone]
  · intro template ht hplain nodes h
    have hin := (Component.template_standsIn hc ht).inside
    obtain ⟨code, hcode, -⟩ := foldMarkup_of_parse options.attrName
      (styleModuleFor options component) h hin
    rw [foldComponent_of_template hc ht hplain]
    exact ⟨fits_foldList _ _ h hin, _, hcode⟩
  · exact foldMarkup_ne_edit_error _ _ (inside_self source) e
  · -- a component that is not split, or has no template to fold, reports no such error either
    rw [foldComponent]
    cases hc : Component.ofText source with
    | none => simp
    | some component =>
        cases ht : component.template.filter isPlainMarkup with
        | none => simp [ht]
        | some template =>
            have hin := (Component.template_standsIn hc (Option.filter_eq_some_iff.1 ht).1).inside
            simpa [ht] using foldMarkup_ne_edit_error _ _ hin e

/-- The edits fit in a component with repeated shorthands, text beyond ASCII, an element that is
never closed and a closing tag out of order. -/
theorem fold_ne_edit_error_misnested :
    ∃ template nodes f,
      Component.ofText "<template>é<p cls=\"é\" cls='b'><b :cls=x></p></template>".toList =
        some ⟨some template, none, none, []⟩ ∧
      readTemplate template.span.start template.content = .ok nodes ∧
      (foldList "cls".toList "$style".toList nodes).Fits
        "<template>é<p cls=\"é\" cls='b'><b :cls=x></p></template>".toList ∧
      foldComponent {} "<template>é<p cls=\"é\" cls='b'><b :cls=x></p></template>".toList =
        .ok f := by
  have hc : Component.ofText "<template>é<p cls=\"é\" cls='b'><b :cls=x></p></template>".toList =
      some ⟨some ⟨.template, [], "é<p cls=\"é\" cls='b'><b :cls=x></p>".toList, ⟨10, 46⟩⟩, none,
        none, []⟩ := by
    decide +kernel
  have hparse : (readTemplate 10 "é<p cls=\"é\" cls='b'><b :cls=x></p>".toList).toOption.map
      List.length = some 2 := by
    decide +kernel
  obtain ⟨nodes, hnodes, -⟩ := exists_nodes_of_map hparse
  obtain ⟨hfits, f, hf⟩ :=
    ((fold_ne_edit_error {} _).2.1 _ hc).2 _ rfl (by decide +kernel) nodes hnodes
  exact ⟨_, nodes, f, hc, hnodes, hfits, hf⟩

/-! ### The edits, element by element -/

/-- The attributes that take part in folding have different spans, at each element. -/
lemma nodup_slots_of_parse {base : Nat} {template : Text} {nodes : List Node} {attrs : List Attr}
    (shorthand : Text) (h : readTemplate base template = .ok nodes)
    (hattrs : attrs ∈ Node.attrListsOf nodes) :
    ((Slots.ofAttrs shorthand attrs).attrs.map Attr.span).Nodup := by
  obtain ⟨d, hlaid⟩ := laid_of_readTemplate h
  have hsub : (attrs.map Attr.span).Sublist ((Node.attrListsOf nodes).flatten.map Attr.span) :=
    (List.sublist_flatten_of_mem hattrs).map Attr.span
  have hall : (attrs.map Attr.span).Nodup :=
    (hlaid.spans_pairwise.sublist hsub).imp fun hst => hst.1
  exact pairwise_of_subperm Ne.symm
    (map_subperm Attr.span (Slots.attrs_ofAttrs_subperm shorthand attrs)) hall

/-- The edits of a template, read off the attributes of its elements. -/
lemma foldEdits_eq {base : Nat} {template : Text} {nodes : List Node} (shorthand moduleName : Text)
    (h : readTemplate base template = .ok nodes) :
    foldEdits shorthand moduleName nodes =
      ((Node.attrListsOf nodes).filter (HasShorthand shorthand ·)).flatMap fun attrs =>
        (Slots.lastOf shorthand attrs).editsWith moduleName
          ((Slots.lastOf shorthand attrs).fold moduleName).expr := by
  have hfilter : (Node.attrListsOf nodes).filter (Slots.hasShorthand ∘ Slots.ofAttrs shorthand) =
      (Node.attrListsOf nodes).filter (HasShorthand shorthand ·) := by
    refine List.filter_congr fun attrs _ => ?_
    rw [Bool.eq_iff_iff, decide_eq_true_eq]
    exact Slots.hasShorthand_ofAttrs shorthand attrs
  rw [foldEdits, List.filter_map, List.flatMap_map, hfilter]
  refine List.flatMap_congr fun attrs hattrs => ?_
  have hnodup := nodup_slots_of_parse shorthand h (List.mem_of_mem_filter hattrs)
  rw [Slots.edits_eq moduleName hnodup, Slots.ofAttrs_eq]

/-- **The edits of a template.**  Folding a template that can be read makes the edits of its
elements with a shorthand, in document order, and nothing else.  At each of them, if any class comes
in, the class binding is written first: to the last binding of `class`, or else to the last bound
shorthand if it holds classes, or else to the last plain one; then each of the two shorthands that
the binding is not written to is removed.  So all edits lie apart from each other, something is
edited exactly when an element has a shorthand, and what lies outside the edited attributes stays
as it is and in its order. -/
theorem foldTemplate_edits_eq (options : Options) (source : Text) (nodes : List Node)
    (h : readTemplate 0 source = .ok nodes) :
    ∃ f, foldTemplate options source = .ok f ∧
      (f.edits = ((Node.attrListsOf nodes).filter (HasShorthand options.attrName ·)).flatMap
        fun attrs => (Slots.lastOf options.attrName attrs).editsWith
          (options.moduleName.getD defaultModuleName)
          ((Slots.lastOf options.attrName attrs).fold
            (options.moduleName.getD defaultModuleName)).expr) ∧
      (f.edits.Pairwise fun e e' => e.span ≠ e'.span ∧ e.span.Apart e'.span) ∧
      (f.changed = true ↔ ∃ attrs ∈ Node.attrListsOf nodes, HasShorthand options.attrName attrs) ∧
      ∃ es : List Edit, es.Perm f.edits ∧ Spliced 0 source es f.code := by
  obtain ⟨code, hcode, hspliced⟩ := foldMarkup_of_parse options.attrName
    (options.moduleName.getD defaultModuleName) h (inside_self source)
  have hedits := foldEdits_eq options.attrName (options.moduleName.getD defaultModuleName) h
  refine ⟨_, hcode, hedits, ?_, ?_, _, List.mergeSort_perm _ _, hspliced⟩
  · exact List.pairwise_map.1 (spans_foldEdits_pairwise _ _ h)
  · -- an element with a shorthand has at least one edit
    rw [Folded.changed, Bool.not_eq_true', List.isEmpty_eq_false_iff, hedits]
    constructor
    · intro hne
      obtain ⟨e, he⟩ := List.exists_mem_of_ne_nil _ hne
      obtain ⟨attrs, hattrs, -⟩ := List.mem_flatMap.1 he
      obtain ⟨hmem, hshort⟩ := List.mem_filter.1 hattrs
      exact ⟨attrs, hmem, by simpa using hshort⟩
    · rintro ⟨attrs, hmem, hshort⟩ hnil
      have hone := List.flatMap_eq_nil_iff.1 hnil attrs (List.mem_filter.2 ⟨hmem, by simpa⟩)
      refine Slots.editsWith_ne_nil _ _ ?_ hone
      rw [← Slots.ofAttrs_eq]
      exact (Slots.hasShorthand_ofAttrs _ _).2 hshort

/-- A template with a nested element, in which a shorthand of each sort is folded into a class
binding. -/
theorem foldTemplate_edits_eq_nested :
    ∃ nodes, readTemplate 0 "<p :cls='a' cls=b><i :class=\"c\" cls=d>".toList = .ok nodes ∧
      ∃ f, foldTemplate {} "<p :cls='a' cls=b><i :class=\"c\" cls=d>".toList = .ok f ∧
        f.changed = true ∧
        f.edits = [⟨⟨3, 11⟩, ":class='[$style[a],$style[\"b\"]]'".toList⟩, ⟨⟨12, 17⟩, []⟩,
          ⟨⟨21, 31⟩, ":class=\"[c,$style['d']]\"".toList⟩, ⟨⟨32, 37⟩, []⟩] := by
  have hrun : ((readTemplate 0 "<p :cls='a' cls=b><i :class=\"c\" cls=d>".toList).toOption.map
      fun nodes => ((Node.attrListsOf nodes).filter (HasShorthand "cls".toList ·)).flatMap
        fun attrs => (Slots.lastOf "cls".toList attrs).editsWith "$style".toList
          ((Slots.lastOf "cls".toList attrs).fold "$style".toList).expr) =
      some [⟨⟨3, 11⟩, ":class='[$style[a],$style[\"b\"]]'".toList⟩, ⟨⟨12, 17⟩, []⟩,
        ⟨⟨21, 31⟩, ":class=\"[c,$style['d']]\"".toList⟩, ⟨⟨32, 37⟩, []⟩] := by
    decide +kernel
  obtain ⟨nodes, hnodes, hrun⟩ := exists_nodes_of_map hrun
  obtain ⟨f, hf, hedits, -⟩ := foldTemplate_edits_eq {} _ nodes hnodes
  have hedits := hedits.trans hrun
  exact ⟨nodes, hnodes, f, hf, by rw [Folded.changed, hedits]; rfl, hedits⟩

end ClassFold
