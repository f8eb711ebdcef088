import ClassFold.Proofs.Fold.Edits
import ClassFold.Proofs.Template.Shift

/-!
Templates inside components.

The expressions that folding writes do not depend on where an element stands, so the edits of a tree
that lies `n` bytes further on are the same edits `n` bytes further on (`foldEdits_shift`).  Edits
of a part of a text change that part only, so folding the template of a component is folding the
template on its own, with the rest of the file around it.

* `foldMarkup_embed`: folding a template inside a larger text.
* `foldComponent_eq_foldTemplate`: folding a component, in terms of its template alone.
-/

namespace ClassFold

open Text

/-! ### The edits of a tree at another place -/

namespace Attr

@[simp] lemma span_shift (n : Nat) (a : Attr) : (a.shift n).span = a.span.shift n := rfl

@[simp] lemma raw_shift (n : Nat) (a : Attr) : (a.shift n).raw = a.raw := rfl

@[simp] lemma valueText_shift (n : Nat) (a : Attr) : (a.shift n).valueText = a.valueText := rfl

@[simp] lemma binds_shift (n : Nat) (a : Attr) (argument : Text) :
    (a.shift n).binds argument = a.binds argument := rfl

@[simp] lemma isStatic_shift (n : Nat) (a : Attr) (name : Text) :
    (a.shift n).isStatic name = a.isStatic name := rfl

end Attr

/-- The same class binding `n` bytes further on. -/
def Target.shift (n : Nat) (t : Target) : Target := { t with span := t.span.shift n }

lemma Target.edit_shift (n : Nat) (t : Target) : (t.shift n).edit = t.edit.shift n := rfl

namespace Folding

/-- The same state of folding `n` bytes further on. -/
def shift (n : Nat) (f : Folding) : Folding :=
  ⟨f.target.map (Target.shift n), f.removed.map (Span.shift n)⟩

lemma drop_shift (n : Nat) (f : Folding) (a : Attr) :
    (f.shift n).drop (a.shift n) = (f.drop a).shift n := by
  simp [drop, shift]

lemma addBound_shift (moduleName : Text) (n : Nat) (f : Folding) (a : Attr) :
    (f.shift n).addBound moduleName (a.shift n) = (f.addBound moduleName a).shift n := by
  rw [addBound, addBound, Attr.raw_shift, Attr.valueText_shift]
  cases resolveExpression ⟨moduleName, (Quote.ofAttribute a.raw).opposite⟩ a.valueText with
  | none => exact drop_shift n f a
  | some resolved =>
      obtain ⟨target, removed⟩ := f
      cases target with
      | none => rfl
      | some t => simp [shift, drop, Target.shift, Target.absorb]

lemma addPlain_shift (moduleName : Text) (n : Nat) (f : Folding) (a : Attr) :
    (f.shift n).addPlain moduleName (a.shift n) = (f.addPlain moduleName a).shift n := by
  rw [addPlain, addPlain, Attr.raw_shift, Attr.valueText_shift]
  split
  · exact drop_shift n f a
  · obtain ⟨target, removed⟩ := f
    cases target with
    | none => rfl
    | some t => simp [shift, drop, Target.shift, Target.absorb]

lemma edits_shift (n : Nat) (f : Folding) : (f.shift n).edits = f.edits.map (Edit.shift n) := by
  obtain ⟨target, removed⟩ := f
  have hremoved : ((removed.map (Span.shift n)).map fun s => (⟨s, []⟩ : Edit)) =
      (removed.map fun s => (⟨s, []⟩ : Edit)).map (Edit.shift n) := by
    rw [List.map_map, List.map_map]
    rfl
  rw [edits, edits, shift, List.map_append, ← hremoved]
  congr 1
  cases target with
  | none => rfl
  | some t =>
      have hchanged : (t.shift n).changed = t.changed := rfl
      cases hc : t.changed with
      | true => simp [Option.filter_some, hchanged, hc, Target.edit_shift]
      | false => simp [Option.filter_some, hchanged, hc]

end Folding

namespace Slots

/-- The same slots `n` bytes further on. -/
def shift (n : Nat) (s : Slots) : Slots where
  boundClass := s.boundClass.map (Attr.shift n)
  plainShorthand := s.plainShorthand.map (Attr.shift n)
  boundShorthand := s.boundShorthand.map (Attr.shift n)

lemma add_shift (shorthand : Text) (n : Nat) (s : Slots) (a : Attr) :
    (s.shift n).add shorthand (a.shift n) = (s.add shorthand a).shift n := by
  rw [add, add, Attr.binds_shift, Attr.isStatic_shift, Attr.binds_shift]
  split
  · rfl
  · split
    · rfl
    · split <;> rfl

lemma ofAttrs_shift (shorthand : Text) (n : Nat) (attrs : List Attr) :
    ofAttrs shorthand (attrs.map (Attr.shift n)) = (ofAttrs shorthand attrs).shift n := by
  induction attrs using List.reverseRecOn with
  | nil => rfl
  | append_singleton attrs a ih =>
      rw [List.map_append, List.map_singleton, ofAttrs, ofAttrs, List.foldl_append,
        List.foldl_append, ← ofAttrs, ← ofAttrs, ih]
      exact add_shift shorthand n _ a

lemma hasShorthand_shift (n : Nat) (s : Slots) : (s.shift n).hasShorthand = s.hasShorthand := by
  simp [hasShorthand, shift]

lemma fold_shift (moduleName : Text) (n : Nat) (s : Slots) :
    (s.shift n).fold moduleName = (s.fold moduleName).shift n := by
  obtain ⟨c, p, b⟩ := s
  have hstart : (⟨(c.map (Attr.shift n)).map Target.ofAttr, []⟩ : Folding) =
      Folding.shift n ⟨c.map Target.ofAttr, []⟩ := by
    cases c <;> rfl
  have hbound : (b.map (Attr.shift n)).elim
      ⟨(c.map (Attr.shift n)).map Target.ofAttr, []⟩
      (Folding.addBound moduleName ⟨(c.map (Attr.shift n)).map Target.ofAttr, []⟩) =
      (b.elim ⟨c.map Target.ofAttr, []⟩
        (Folding.addBound moduleName ⟨c.map Target.ofAttr, []⟩)).shift n := by
    rw [hstart]
    cases b with
    | none => rfl
    | some a => exact Folding.addBound_shift moduleName n _ a
  rw [fold, fold, shift]
  simp only [hbound]
  cases p with
  | none => rfl
  | some a => exact Folding.addPlain_shift moduleName n _ a

end Slots

/-- **The edits of a tree move with it.** -/
theorem foldEdits_shift (shorthand moduleName : Text) (n : Nat) (nodes : List Node) :
    foldEdits shorthand moduleName (nodes.map (Node.shift n)) =
      (foldEdits shorthand moduleName nodes).map (Edit.shift n) := by
  rw [foldEdits, foldEdits, Node.attrListsOf_map_shift]
  induction Node.attrListsOf nodes with
  | nil => rfl
  | cons attrs lists ih =>
      simp only [List.map_cons, Slots.ofAttrs_shift, List.filter_cons, Slots.hasShorthand_shift]
      split
      · rw [List.flatMap_cons, List.flatMap_cons, List.map_append, ih, Slots.edits, Slots.edits,
          Slots.fold_shift, Folding.edits_shift]
      · exact ih

/-! ### Folding a template inside a larger text -/

/-- Edits are sorted in the same way at another place. -/
lemma map_shift_mergeSort (n : Nat) (es : List Edit) :
    (es.mergeSort Edit.precedes).map (Edit.shift n) =
      (es.map (Edit.shift n)).mergeSort Edit.precedes := by
  refine List.map_mergeSort fun e _ f _ => ?_
  rw [Bool.eq_iff_iff, Edit.precedes_iff, Edit.precedes_iff]
  simp only [Edit.span_shift, Span.shift]
  omega

/-- The outcome of folding a text, in a text that has `front` before it and `back` behind it. -/
def Folded.embed (front back : Text) (f : Folded) : Folded :=
  ⟨front ++ f.code ++ back, f.edits.map (Edit.shift (byteSize front))⟩

/-- The error of folding a template, in a text where the template starts at byte `n`. -/
def FoldError.shift (n : Nat) : FoldError → FoldError
  | template e => template (e.shift n)
  | e => e

/-- **Folding a template inside a larger text** is folding it on its own. -/
theorem foldMarkup_embed (shorthand moduleName front template back : Text) :
    foldMarkup shorthand moduleName (front ++ template ++ back) (byteSize front) template =
      match foldMarkup shorthand moduleName template 0 template with
      | .ok f => .ok (f.embed front back)
      | .error e => .error (e.shift (byteSize front)) := by
  have hparse := readTemplate_add (byteSize front) 0 template
  rw [Nat.add_zero] at hparse
  cases h : readTemplate 0 template with
  | error e =>
      rw [h, moved_error] at hparse
      simp only [foldMarkup, h, hparse]
      rfl
  | ok nodes =>
      rw [h, moved_ok] at hparse
      have hin : Cursor.Inside (front ++ template ++ back) ⟨byteSize front, template⟩ :=
        ⟨front, back, rfl, rfl⟩
      obtain ⟨code, hcode, hspliced⟩ := foldMarkup_of_parse shorthand moduleName h
        (inside_self template)
      obtain ⟨code', hcode', hspliced'⟩ := foldMarkup_of_parse shorthand moduleName hparse hin
      -- both runs make the same edits, and edits have one outcome
      have hembed := hspliced.embed (byteSize front) 0 front back (by simp)
      rw [foldEdits_shift] at hcode' hspliced'
      rw [map_shift_mergeSort] at hembed
      rw [hcode, hcode', hspliced'.unique hembed]
      rfl

/-! ### Folding a component -/

/-- The options for the template of a component on its own: the style module is the one of the
component. -/
def Options.within (options : Options) (component : Component) : Options :=
  { options with moduleName := some (styleModuleFor options component) }

lemma foldTemplate_within (options : Options) (component : Component) (template : Text) :
    foldTemplate (options.within component) template =
      foldMarkup options.attrName (styleModuleFor options component) template 0 template := rfl

/-- **Folding a component is folding its template.**  When a component has a template in plain
markup, it is folded to the file with that template folded on its own, by the same edits moved to
where the template stands.  An attribute or a comment without an end is reported at its place in
the file, and an interpolation cut inside a character is met in both or in none. -/
theorem foldComponent_eq_foldTemplate (options : Options) (source : Text) (component : Component)
    (template : Block) (hc : Component.ofText source = some component)
    (ht : component.template = some template) (hplain : isPlainMarkup template = true) :
    (∀ r, foldTemplate (options.within component) template.content = .ok r →
      foldComponent options source =
        .ok ⟨takeBytes template.span.start source ++ r.code ++ dropBytes template.span.stop source,
          r.edits.map (Edit.shift template.span.start)⟩) ∧
    (∀ o, foldTemplate (options.within component) template.content =
        .error (.template (.unterminatedAttribute o)) →
      foldComponent options source =
        .error (.template (.unterminatedAttribute (template.span.start + o)))) ∧
    (∀ o, foldTemplate (options.within component) template.content =
        .error (.template (.unterminatedComment o)) →
      foldComponent options source =
        .error (.template (.unterminatedComment (template.span.start + o)))) ∧
    (foldComponent options source = .error (.template .danglingInterpolation) ↔
      foldTemplate (options.within component) template.content =
        .error (.template .danglingInterpolation)) := by
  obtain ⟨front, back, hsource, hspan⟩ := Component.template_standsIn hc ht
  have hstart : template.span.start = byteSize front := by rw [hspan]
  have hfront : takeBytes template.span.start source = front := by
    rw [hstart, hsource, List.append_assoc, takeBytes_byteSize_append]
  have hback : dropBytes template.span.stop source = back := by
    rw [hspan, hsource, ← byteSize_append, dropBytes_byteSize_append]
  have hfold : foldComponent options source =
      match foldTemplate (options.within component) template.content with
      | .ok r => .ok (r.embed front back)
      | .error e => .error (e.shift (byteSize front)) := by
    rw [foldComponent_of_template hc ht hplain, foldTemplate_within, hstart, hsource]
    exact foldMarkup_embed _ _ _ _ _
  rw [hfold, hfront, hback, hstart]
  refine ⟨?_, ?_, ?_, ?_⟩
  · intro r hr
    rw [hr]
    rfl
  · intro o ho
    rw [ho]
    rfl
  · intro o ho
    rw [ho]
    rfl
  · cases foldTemplate (options.within component) template.content with
    | ok r => simp
    | error e =>
        cases e with
        | malformedComponent => simp [FoldError.shift]
        | edit e => simp [FoldError.shift]
        | template e => cases e <;> simp [FoldError.shift, TemplateError.shift, TemplateError.relocate]

/-- A template behind text beyond ASCII, in a file that names its style module. -/
theorem foldComponent_eq_foldTemplate_behind_comment :
    foldComponent {}
        "<!--é--><template><p cls=a></template><style module=\"m\"></style>".toList =
      .ok ⟨"<!--é--><template>".toList ++ "<p :class=\"[m['a']]\">".toList ++
          "</template><style module=\"m\"></style>".toList,
        [⟨⟨22, 27⟩, ":class=\"[m['a']]\"".toList⟩]⟩ := by
  have hc : Component.ofText
      "<!--é--><template><p cls=a></template><style module=\"m\"></style>".toList =
      some ⟨some ⟨.template, [], "<p cls=a>".toList, ⟨19, 28⟩⟩, none, none,
        [⟨.style, [⟨"module".toList, some "m".toList⟩], [], ⟨57, 57⟩⟩]⟩ := by
    decide +kernel
  have hfold : foldTemplate (Options.within {} ⟨some ⟨.template, [], "<p cls=a>".toList, ⟨19, 28⟩⟩,
      none, none, [⟨.style, [⟨"module".toList, some "m".toList⟩], [], ⟨57, 57⟩⟩]⟩)
      "<p cls=a>".toList =
      .ok ⟨"<p :class=\"[m['a']]\">".toList, [⟨⟨3, 8⟩, ":class=\"[m['a']]\"".toList⟩]⟩ := by
    decide +kernel
  refine ((foldComponent_eq_foldTemplate {} _ _ _ hc rfl (by decide +kernel)).1 _ hfold).trans ?_
  decide +kernel

end ClassFold
