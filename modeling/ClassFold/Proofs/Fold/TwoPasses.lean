import ClassFold.Proofs.Edit.Registration
import ClassFold.Proofs.Expr.Items
import ClassFold.Proofs.Fold.Delimited

/-!
Folding both shorthands at once, or one after the other.

An element with a bound and a plain shorthand is folded in one pass: the plain shorthand is folded
into the class binding that the bound one has led to, which is only kept in memory.  The outcome is
that of two passes, where the second one reads the class binding back from what the first one has
written.

* `combine_trim`: blanks around a class binding make no difference to what is folded into it.
* `Quote.ofAttribute_bindingText`: the marks of a class binding are read off what is written.
* `Folding.expr_addPlain`: what a plain shorthand makes of the expression.
* `Slots.edits_register`: the edits that an element registers.
* `Slots.register_both`: one pass is two passes, and a bound shorthand without classes only adds its
  removal.
-/

namespace ClassFold

open Text

/-! ### Reading a class binding back -/

lemma combine_trim (destination : Text) (incoming : Incoming) :
    combine (trim destination) incoming = combine destination incoming := by
  rw [combine, combine, Binding.ofText, Binding.ofText, trim_trim]

/-- A class binding as it is written. -/
def bindingText (q : Quote) (expr : Text) : Text := ":class=".toList ++ q.wrap expr

lemma bindingText_ne_nil (q : Quote) (expr : Text) : bindingText q expr ≠ [] :=
  List.cons_ne_nil _ _

lemma bindingText_inj {q q' : Quote} {expr expr' : Text}
    (h : bindingText q expr = bindingText q' expr') : q = q' ∧ expr = expr' := by
  have hwrap : q.wrap expr = q'.wrap expr' := List.append_cancel_left h
  obtain rfl : q = q' := Quote.mark_inj (List.cons.inj hwrap).1
  exact ⟨rfl, Quote.wrap_inj hwrap⟩

/-- The marks of a class binding are read off what is written. -/
lemma Quote.ofAttribute_bindingText (q : Quote) (expr : Text) :
    Quote.ofAttribute (bindingText q expr) = q := by
  cases q <;> rfl

/-- The class binding that is read back from what has been written at a place. -/
def Attr.rebound (span : Span) (q : Quote) (expr : Text) : Attr :=
  ⟨.bind, "class".toList, some expr, span, bindingText q expr⟩

/-! ### The plain shorthand -/

namespace Folding

/-- A plain shorthand is folded into the class binding that there is by now. -/
lemma expr_addPlain (moduleName : Text) {f : Folding} {t : Target} (ht : f.target = some t)
    (a : Attr) :
    (f.addPlain moduleName a).expr =
      if classNames a.valueText = [] then t.expr
      else combine t.expr (.items ((classNames a.valueText).map
        (LookupStyle.named ⟨moduleName, t.quote.opposite⟩))) := by
  rw [addPlain, ht]
  by_cases hnames : classNames a.valueText = []
  · simp [hnames, drop, expr, ht]
  · simp [hnames, expr, Target.absorb]

/-- What has been removed before does not matter to the expression. -/
lemma expr_addPlain_congr (moduleName : Text) {f g : Folding} (h : f.target = g.target) (a : Attr) :
    (f.addPlain moduleName a).expr = (g.addPlain moduleName a).expr := by
  rw [addPlain, addPlain, h]
  by_cases hnames : classNames a.valueText = []
  · simp [hnames, drop, expr, h]
  · cases g.target <;> simp [hnames, expr]

end Folding

namespace Slots

variable (moduleName : Text)

/-! ### What is registered -/

/-- The edits that folding an element registers, from nothing. -/
def register (moduleName : Text) (s : Slots) : EditList :=
  EditList.empty.updateAll (s.edits moduleName)

section Registered

variable {s : Slots} (h : (s.attrs.map Attr.span).Nodup)

include h

lemma nodup_edits : ((s.edits moduleName).map Edit.span).Nodup := by
  obtain ⟨spans, hperm, hsub⟩ := s.spans_edits_subperm moduleName
  exact hperm.nodup_iff.1 (h.sublist hsub)

/-- When its attributes have different spans, an element registers all its edits. -/
lemma edits_register :
    (s.register moduleName).edits = s.editsWith moduleName (s.fold moduleName).expr := by
  rw [← edits_eq moduleName h]
  exact EditList.edits_updateAll (nodup_edits moduleName h)

lemma text?_register_iff (span : Span) (text : Text) :
    (s.register moduleName).text? span = some text ↔ ⟨span, text⟩ ∈ s.edits moduleName := by
  have hall : (s.register moduleName).edits = s.edits moduleName :=
    EditList.edits_updateAll (nodup_edits moduleName h)
  have hnodup : ((s.register moduleName).edits.map Edit.span).Nodup := by
    rw [hall]
    exact nodup_edits moduleName h
  rw [← hall, EditList.mem_edits_iff hnodup]

end Registered

/-! ### Two passes -/

variable {c : Option Attr} {b p : Attr}

/-- The first pass writes a class binding only if the bound shorthand holds classes. -/
lemma bringsBound_of_text? {span : Span} {q : Quote} {expr : Text}
    (h : ((Slots.mk c none (some b)).attrs.map Attr.span).Nodup)
    (ht : (register moduleName ⟨c, none, some b⟩).text? span = some (bindingText q expr)) :
    b.bringsBound moduleName = true ∧ span = (c.getD b).span ∧
      q = Quote.ofAttribute (c.getD b).raw ∧ expr = (fold moduleName ⟨c, none, some b⟩).expr := by
  rw [text?_register_iff moduleName h] at ht
  obtain ⟨hbrings, he⟩ := @eq_rebind_of_mem_edits moduleName ⟨c, none, some b⟩ b rfl rfl _ ht
    (bindingText_ne_nil q expr)
  obtain ⟨hspan, htext⟩ := Edit.mk.inj he
  obtain ⟨hq, hexpr⟩ := bindingText_inj htext
  exact ⟨hbrings, hspan, hq, hexpr⟩

/-- A bound shorthand with classes goes to the class binding, or becomes one. -/
lemma holder?_of_bringsBound (plain : Option Attr) (hbrings : b.bringsBound moduleName = true) :
    holder? moduleName ⟨c, plain, some b⟩ = some (c.getD b) := by
  cases c <;> simp [holder?, brings, hbrings, Option.filter_some]

lemma exists_text?_of_bringsBound (h : ((Slots.mk c none (some b)).attrs.map Attr.span).Nodup)
    (hbrings : b.bringsBound moduleName = true) :
    ∃ span q expr,
      (register moduleName ⟨c, none, some b⟩).text? span = some (bindingText q expr) := by
  refine ⟨(c.getD b).span, Quote.ofAttribute (c.getD b).raw,
    (fold moduleName ⟨c, none, some b⟩).expr, ?_⟩
  rw [text?_register_iff moduleName h, edits_eq moduleName h, editsWith,
    holder?_of_bringsBound moduleName none hbrings]
  exact List.mem_append_left _ (List.mem_singleton_self _)

/-- The class binding that the first pass leads to. -/
lemma exists_target_of_bringsBound (hbrings : b.bringsBound moduleName = true) :
    ∃ t, (fold moduleName ⟨c, none, some b⟩).target = some t ∧ t.StandsFor (c.getD b) := by
  have hholder : (plan moduleName ⟨c, none, some b⟩).holder = some (c.getD b) := by
    cases c <;> simp [plan, Plan.add, hbrings]
  obtain ⟨t, ht, hstands, -⟩ :=
    (follows_plan moduleName ⟨c, none, some b⟩).target_some _ hholder
  exact ⟨t, ht, hstands⟩

/-- The edits of both shorthands, when the bound one holds classes. -/
lemma editsWith_of_bringsBound (hbrings : b.bringsBound moduleName = true) (expr : Text) :
    editsWith moduleName expr ⟨c, some p, some b⟩ =
      (c.getD b).rebind expr ::
        ([b, p].filter fun a => a.span != (c.getD b).span).map Attr.removal := by
  have hspan : (fun a : Attr => some (c.getD b).span != some a.span) =
      fun a => a.span != (c.getD b).span := by
    funext a
    rw [bne_comm]
    rfl
  rw [editsWith, holder?_of_bringsBound moduleName (some p) hbrings, Option.map_some,
    Option.map_some, hspan]
  rfl

/-- The edits of both shorthands, when the bound one holds no classes: its removal comes in. -/
lemma editsWith_perm (h : ((Slots.mk c (some p) (some b)).attrs.map Attr.span).Nodup)
    (hbrings : b.bringsBound moduleName = false) (expr : Text) :
    (editsWith moduleName expr ⟨c, some p, some b⟩).Perm
      (b.removal :: editsWith moduleName expr ⟨c, some p, none⟩) := by
  have hholder : holder? moduleName ⟨c, some p, some b⟩ = holder? moduleName ⟨c, some p, none⟩ := by
    simp [holder?, brings, hbrings, Option.filter_some]
  have hother : ((holder? moduleName ⟨c, some p, none⟩).map Attr.span != some b.span) = true := by
    cases c with
    | none =>
        have hbp : b.span ≠ p.span := by simpa [attrs] using h
        cases hp : p.bringsPlain <;> simp [holder?, brings, hp, Ne.symm hbp]
    | some d =>
        obtain ⟨⟨hdb, -⟩, -⟩ : (d.span ≠ b.span ∧ d.span ≠ p.span) ∧ b.span ≠ p.span := by
          simpa [attrs] using h
        cases hp : p.bringsPlain <;> simp [holder?, brings, hp, hdb]
  rw [editsWith, editsWith, hholder]
  simp only [Option.toList_some, Option.toList_none, List.nil_append, List.singleton_append,
    List.filter_cons, hother, if_true, List.map_cons]
  exact List.perm_middle

/-- Both shorthands in one pass, when the bound one holds classes: the plain one is folded into the
expression of the first pass. -/
lemma edits_register_of_bringsBound
    (h : ((Slots.mk c (some p) (some b)).attrs.map Attr.span).Nodup)
    (hbrings : b.bringsBound moduleName = true) :
    (register moduleName ⟨c, some p, some b⟩).edits =
      (c.getD b).rebind (if classNames p.valueText = [] then
          (fold moduleName ⟨c, none, some b⟩).expr
        else combine (fold moduleName ⟨c, none, some b⟩).expr
          (.items ((classNames p.valueText).map (LookupStyle.named
            ⟨moduleName, (Quote.ofAttribute (c.getD b).raw).opposite⟩)))) ::
        ([b, p].filter fun a => a.span != (c.getD b).span).map Attr.removal := by
  obtain ⟨t, ht, hstands⟩ := exists_target_of_bringsBound (c := c) moduleName hbrings
  have hfold : fold moduleName ⟨c, some p, some b⟩ =
      (fold moduleName ⟨c, none, some b⟩).addPlain moduleName p := rfl
  have hexpr : (fold moduleName ⟨c, none, some b⟩).expr = t.expr := by rw [Folding.expr, ht]; rfl
  rw [edits_register moduleName h, editsWith_of_bringsBound moduleName hbrings, hfold,
    Folding.expr_addPlain moduleName ht, hexpr, hstands.quote_eq]

/-- The second pass: a plain shorthand with classes is folded into what has been written. -/
lemma text?_register_rebound {span : Span} (hspan : span ≠ p.span) (q : Quote) (expr : Text)
    (hnames : classNames p.valueText ≠ []) :
    (register moduleName ⟨some (.rebound span q expr), some p, none⟩).text? span =
      some (bindingText q (combine expr (.items ((classNames p.valueText).map
        (LookupStyle.named ⟨moduleName, q.opposite⟩))))) := by
  have hnodup : ((Slots.mk (some (.rebound span q expr)) (some p) none).attrs.map
      Attr.span).Nodup := by
    simpa [attrs, Attr.rebound] using hspan
  have hbrings : p.bringsPlain = true := by simpa [Attr.bringsPlain] using hnames
  have hholder : holder? moduleName ⟨some (.rebound span q expr), some p, none⟩ =
      some (.rebound span q expr) := by
    simp [holder?, brings, hbrings]
  have hexpr : (fold moduleName ⟨some (.rebound span q expr), some p, none⟩).expr =
      combine expr (.items ((classNames p.valueText).map
        (LookupStyle.named ⟨moduleName, q.opposite⟩))) := by
    have hfold : fold moduleName ⟨some (.rebound span q expr), some p, none⟩ =
        Folding.addPlain moduleName ⟨some (.ofAttr (.rebound span q expr)), []⟩ p := rfl
    have hquote : (Target.ofAttr (.rebound span q expr)).quote = q :=
      Quote.ofAttribute_bindingText q expr
    rw [hfold, Folding.expr_addPlain moduleName rfl, if_neg hnames, hquote]
    exact combine_trim expr _
  rw [text?_register_iff moduleName hnodup, edits_eq moduleName hnodup, editsWith, hholder, hexpr]
  refine List.mem_append_left _ (List.mem_singleton.2 ?_)
  rw [Attr.rebind, show Quote.ofAttribute (Attr.rebound span q expr).raw = q from
    Quote.ofAttribute_bindingText q expr]
  rfl

/-- **One pass is two passes.**  Take an element with a bound and a plain shorthand and perhaps a
class binding, at different places.  If folding the bound shorthand alone writes a class binding,
then folding both writes to the same place what folding the plain shorthand into that binding, as
it has been written, would write; a plain shorthand without class names leaves it as it is.  The
other shorthands are removed.  If folding the bound shorthand alone writes no class binding, then
folding both is folding the plain one, with the removal of the bound one besides. -/
theorem register_both (c : Option Attr) (b p : Attr)
    (h : ((Slots.mk c (some p) (some b)).attrs.map Attr.span).Nodup) :
    (∀ span q expr,
      (register moduleName ⟨c, none, some b⟩).text? span = some (bindingText q expr) →
      ∃ text,
        (register moduleName ⟨c, some p, some b⟩).edits =
          ⟨span, text⟩ :: ([b, p].filter fun a => a.span != span).map Attr.removal ∧
        (classNames p.valueText = [] → text = bindingText q expr) ∧
        (classNames p.valueText ≠ [] →
          (register moduleName ⟨some (.rebound span q expr), some p, none⟩).text? span =
            some text)) ∧
    ((∀ span q expr,
      (register moduleName ⟨c, none, some b⟩).text? span ≠ some (bindingText q expr)) →
      (register moduleName ⟨c, some p, some b⟩).edits.Perm
        (b.removal :: (register moduleName ⟨c, some p, none⟩).edits)) := by
  have hbound : ((Slots.mk c none (some b)).attrs.map Attr.span).Nodup := by
    refine h.sublist (List.Sublist.map _ ?_)
    simp [attrs]
  constructor
  · intro span q expr hfirst
    obtain ⟨hbrings, rfl, rfl, rfl⟩ := bringsBound_of_text? moduleName hbound hfirst
    have hother : (c.getD b).span ≠ p.span := by
      cases c with
      | none => simpa [attrs] using h
      | some d =>
          obtain ⟨⟨-, hdp⟩, -⟩ : (d.span ≠ b.span ∧ d.span ≠ p.span) ∧ b.span ≠ p.span := by
            simpa [attrs] using h
          exact hdp
    refine ⟨_, edits_register_of_bringsBound moduleName h hbrings, ?_, ?_⟩
    · intro hnames
      rw [if_pos hnames]
      rfl
    · intro hnames
      rw [if_neg hnames]
      exact text?_register_rebound moduleName hother _ _ hnames
  · intro hnone
    have hbrings : b.bringsBound moduleName = false := by
      by_contra hbrings
      obtain ⟨span, q, expr, hsome⟩ :=
        exists_text?_of_bringsBound moduleName hbound (by simpa using hbrings)
      exact hnone span q expr hsome
    have hplain : ((Slots.mk c (some p) none).attrs.map Attr.span).Nodup := by
      refine h.sublist (List.Sublist.map _ ?_)
      simp [attrs]
    have hexpr : (fold moduleName ⟨c, some p, some b⟩).expr =
        (fold moduleName ⟨c, some p, none⟩).expr := by
      refine Folding.expr_addPlain_congr moduleName ?_ p
      have hresolve : resolveExpression ⟨moduleName, (Quote.ofAttribute b.raw).opposite⟩
          b.valueText = none := by simpa [Attr.bringsBound] using hbrings
      simp only [Option.elim, Folding.addBound, hresolve, Folding.drop]
    rw [edits_register moduleName h, edits_register moduleName hplain, hexpr]
    exact editsWith_perm moduleName h hbrings _

/-- A shorthand in double quotes is folded into a class binding in single quotes, and a plain one
on top of it; a bound shorthand without class names leaves only the plain one. -/
theorem register_both_exchanged :
    let m := "m".toList
    let c := Attr.quoted 3 ":class".toList .single "x".toList
    let b := Attr.quoted 14 ":cls".toList .double "ok ? 'a' : b".toList
    let e := Attr.quoted 14 ":cls".toList .double "[' ,']".toList
    let p := Attr.quoted 34 "cls".toList .double "d e".toList
    (register m ⟨some c, some p, some b⟩).edits =
        [⟨c.span, bindingText .single "[x,ok ? m[\"a\"] : m[b],m[\"d\"],m[\"e\"]]".toList⟩,
          b.removal, p.removal] ∧
      (register m ⟨some c, some p, some e⟩).edits.Perm
        [e.removal, ⟨c.span, bindingText .single "[x,m[\"d\"],m[\"e\"]]".toList⟩, p.removal] := by
  intro m c b e p
  constructor
  · have hfirst : (register m ⟨some c, none, some b⟩).text? c.span =
        some (bindingText .single "[x,ok ? m[\"a\"] : m[b]]".toList) := by decide +kernel
    obtain ⟨text, hedits, -, htext⟩ :=
      (register_both m (some c) b p (by decide +kernel)).1 _ _ _ hfirst
    have hsecond : (register m ⟨some (.rebound c.span .single "[x,ok ? m[\"a\"] : m[b]]".toList),
        some p, none⟩).text? c.span =
        some (bindingText .single "[x,ok ? m[\"a\"] : m[b],m[\"d\"],m[\"e\"]]".toList) := by
      decide +kernel
    obtain rfl := Option.some.inj (hsecond.symm.trans (htext (by decide +kernel)))
    rw [hedits]
    decide +kernel
  · have hnone : (register m ⟨some c, none, some e⟩).edits = [e.removal] := by decide +kernel
    have hplain : (register m ⟨some c, some p, none⟩).edits =
        [⟨c.span, bindingText .single "[x,m[\"d\"],m[\"e\"]]".toList⟩, p.removal] := by
      decide +kernel
    rw [← hplain]
    refine (register_both m (some c) e p (by decide +kernel)).2 fun span q expr htext => ?_
    rw [EditList.text?, hnone, Option.map_eq_some_iff] at htext
    obtain ⟨edit, hedit, hbinding⟩ := htext
    obtain rfl := List.mem_singleton.1 (List.mem_of_find?_eq_some hedit)
    exact bindingText_ne_nil q expr hbinding.symm

end Slots

end ClassFold
