import ClassFold.Fold.Element
import ClassFold.Proofs.Fold.Slots

/-!
Which attributes folding touches.

A `Plan` is what folding does at an element, apart from the expressions: which attribute holds the
class binding, whether that binding changes, and which shorthands are removed.  Each shorthand
takes one step of the plan (`Plan.add`), and the folding of an element follows its plan
(`Slots.follows_plan`), so that its edits are those of the plan, with the expression that folding
leads to (`Slots.edits_eq_plan`).

From the plan alone follow the two facts about edits.  They touch different attributes of the
element (`Slots.spans_edits_subperm`), and when these have different spans, the edits are the ones
that can be read off the slots (`Slots.edits_eq`): one that writes the class binding, if any class
comes in, and one removal for each other shorthand.
-/

namespace ClassFold

open Text

namespace Attr

/-- Whether a bound shorthand holds classes. -/
def bringsBound (moduleName : Text) (a : Attr) : Bool :=
  (resolveExpression ⟨moduleName, (Quote.ofAttribute a.raw).opposite⟩ a.valueText).isSome

/-- Whether a plain shorthand holds classes. -/
def bringsPlain (a : Attr) : Bool := !(classNames a.valueText).isEmpty

/-- The edit that writes a class binding in place of an attribute, between the marks that stand
there. -/
def rebind (expr : Text) (a : Attr) : Edit :=
  ⟨a.span, ":class=".toList ++ (Quote.ofAttribute a.raw).wrap expr⟩

/-- The edit that removes an attribute. -/
def removal (a : Attr) : Edit := ⟨a.span, []⟩

end Attr

/-! ### Plans -/

/-- What folding does to the attributes of an element. -/
structure Plan where
  /-- The attribute that holds the class binding. -/
  holder : Option Attr
  /-- Whether the binding changes. -/
  changed : Bool
  /-- The shorthands that are removed. -/
  dropped : List Attr

namespace Plan

/-- The plan after one more shorthand, which may bring classes.  If it does and there is no class
binding yet, it becomes the class binding; otherwise it is removed. -/
def add (brings : Bool) (p : Plan) (a : Attr) : Plan :=
  if brings then
    ⟨p.holder.or (some a), true, if p.holder.isSome then p.dropped ++ [a] else p.dropped⟩
  else { p with dropped := p.dropped ++ [a] }

/-- The attributes that a plan speaks of. -/
def attrs (p : Plan) : List Attr := p.holder.toList ++ p.dropped

/-- The edits of a plan, where the class binding becomes `expr`. -/
def edits (expr : Text) (p : Plan) : List Edit :=
  (if p.changed then (p.holder.map (Attr.rebind expr)).toList else []) ++ p.dropped.map Attr.removal

lemma attrs_add_perm (brings : Bool) (p : Plan) (a : Attr) :
    (p.add brings a).attrs.Perm (p.attrs ++ [a]) := by
  obtain ⟨holder, changed, dropped⟩ := p
  cases brings with
  | false => simp [add, attrs]
  | true =>
      cases holder with
      | none => simpa [add, attrs] using (List.perm_append_singleton a dropped).symm
      | some h => simp [add, attrs]

/-- The edits of a plan touch attributes that the plan speaks of. -/
lemma spans_edits_sublist (expr : Text) (p : Plan) :
    ((p.edits expr).map Edit.span).Sublist (p.attrs.map Attr.span) := by
  have hdropped : (p.dropped.map Attr.removal).map Edit.span = p.dropped.map Attr.span := by
    rw [List.map_map]
    rfl
  rw [edits, attrs, List.map_append, List.map_append, hdropped]
  refine List.Sublist.append ?_ (List.Sublist.refl _)
  split
  · cases p.holder <;> simp [Attr.rebind]
  · simp

/-- An edit of a plan that writes something writes the class binding. -/
lemma eq_rebind_of_text_ne_nil {expr : Text} {p : Plan} {e : Edit} (he : e ∈ p.edits expr)
    (ht : e.text ≠ []) : p.changed = true ∧ ∃ a, p.holder = some a ∧ e = a.rebind expr := by
  rw [edits, List.mem_append] at he
  rcases he with he | he
  · split at he
    · rename_i hchanged
      rw [Option.mem_toList, Option.map_eq_some_iff] at he
      obtain ⟨a, ha, rfl⟩ := he
      exact ⟨hchanged, a, ha, rfl⟩
    · simp at he
  · obtain ⟨a, -, rfl⟩ := List.mem_map.1 he
    exact absurd rfl ht

end Plan

/-! ### Folding follows the plan -/

/-- A class binding stands in place of an attribute, between its marks. -/
structure Target.StandsFor (t : Target) (a : Attr) : Prop where
  span_eq : t.span = a.span
  quote_eq : t.quote = Quote.ofAttribute a.raw

/-- A state of folding is one that a plan describes. -/
structure Folding.Follows (f : Folding) (p : Plan) : Prop where
  target_none : p.holder = none → f.target = none ∧ p.changed = false
  target_some : ∀ a, p.holder = some a → ∃ t, f.target = some t ∧ t.StandsFor a ∧
    t.changed = p.changed
  removed_eq : f.removed = p.dropped.map Attr.span

namespace Folding

/-- The expression of the class binding, empty if there is none. -/
def expr (f : Folding) : Text := f.target.elim [] Target.expr

variable {f : Folding} {p : Plan}

lemma Follows.drop (h : f.Follows p) (a : Attr) : (f.drop a).Follows (p.add false a) :=
  ⟨h.target_none, h.target_some, by simp [Folding.drop, Plan.add, h.removed_eq]⟩

lemma Follows.absorb (h : f.Follows p) {t : Target} (ht : f.target = some t) (a : Attr)
    (incoming : Incoming) :
    Folding.Follows { f.drop a with target := some (t.absorb incoming) } (p.add true a) := by
  cases hh : p.holder with
  | none =>
      rw [(h.target_none hh).1] at ht
      simp at ht
  | some holder =>
      obtain ⟨t', ht', hstands, -⟩ := h.target_some holder hh
      obtain rfl : t = t' := Option.some.inj (ht.symm.trans ht')
      refine ⟨by simp [Plan.add, hh], fun a' ha' => ?_, ?_⟩
      · obtain rfl : holder = a' := by simpa [Plan.add, hh] using ha'
        exact ⟨_, rfl, ⟨hstands.span_eq, hstands.quote_eq⟩, rfl⟩
      · simp [Folding.drop, Plan.add, hh, h.removed_eq]

lemma Follows.replace (h : f.Follows p) (ht : f.target = none) (a : Attr) (expr : Text) :
    Folding.Follows { f with target := some (.inPlaceOf a expr) } (p.add true a) := by
  cases hh : p.holder with
  | some holder =>
      obtain ⟨t, ht', -⟩ := h.target_some holder hh
      rw [ht] at ht'
      simp at ht'
  | none =>
      refine ⟨by simp [Plan.add, hh], fun a' ha' => ?_, ?_⟩
      · obtain rfl : a = a' := by simpa [Plan.add, hh] using ha'
        exact ⟨_, rfl, ⟨rfl, rfl⟩, rfl⟩
      · simp [Plan.add, hh, h.removed_eq]

/-- A bound shorthand takes one step of the plan. -/
lemma Follows.addBound (h : f.Follows p) (moduleName : Text) (a : Attr) :
    (f.addBound moduleName a).Follows (p.add (a.bringsBound moduleName) a) := by
  rw [Folding.addBound, Attr.bringsBound]
  cases resolveExpression ⟨moduleName, (Quote.ofAttribute a.raw).opposite⟩ a.valueText with
  | none => exact h.drop a
  | some resolved =>
      cases ht : f.target with
      | none => exact h.replace ht a _
      | some t => exact h.absorb ht a _

/-- A plain shorthand takes one step of the plan. -/
lemma Follows.addPlain (h : f.Follows p) (moduleName : Text) (a : Attr) :
    (f.addPlain moduleName a).Follows (p.add a.bringsPlain a) := by
  rw [Folding.addPlain, Attr.bringsPlain]
  cases hnames : (classNames a.valueText).isEmpty with
  | true => simpa using h.drop a
  | false =>
      cases ht : f.target with
      | none => simpa using h.replace ht a _
      | some t => simpa using h.absorb ht a _

/-- The edits of a state of folding are those of the plan that it follows. -/
lemma Follows.edits_eq (h : f.Follows p) : f.edits = p.edits f.expr := by
  have hremoved : (f.removed.map fun s => (⟨s, []⟩ : Edit)) = p.dropped.map Attr.removal := by
    rw [h.removed_eq, List.map_map]
    rfl
  rw [Folding.edits, hremoved, Folding.expr, Plan.edits]
  cases hh : p.holder with
  | none =>
      obtain ⟨ht, hc⟩ := h.target_none hh
      simp [ht, hc]
  | some a =>
      obtain ⟨t, ht, hstands, hc⟩ := h.target_some a hh
      have hedit : t.edit = a.rebind t.expr := by
        rw [Attr.rebind, ← hstands.span_eq, ← hstands.quote_eq]
        rfl
      rw [ht, ← hc]
      cases hp : t.changed with
      | true => simp [Option.filter_some, hp, hedit]
      | false => simp [Option.filter_some, hp]

end Folding

namespace Slots

/-- The plan for an element. -/
def plan (moduleName : Text) (s : Slots) : Plan :=
  let start : Plan := ⟨s.boundClass, false, []⟩
  let bound := s.boundShorthand.elim start fun a => start.add (a.bringsBound moduleName) a
  s.plainShorthand.elim bound fun a => bound.add a.bringsPlain a

/-- **Folding an element follows its plan.** -/
theorem follows_plan (moduleName : Text) (s : Slots) :
    (s.fold moduleName).Follows (s.plan moduleName) := by
  obtain ⟨c, p, b⟩ := s
  have hstart : Folding.Follows ⟨c.map Target.ofAttr, []⟩ ⟨c, false, []⟩ := by
    refine ⟨fun hc => ⟨by simp_all, rfl⟩, fun a hc => ?_, rfl⟩
    exact ⟨Target.ofAttr a, by simp_all, ⟨rfl, rfl⟩, rfl⟩
  have hbound : Folding.Follows
      (b.elim ⟨c.map Target.ofAttr, []⟩ (Folding.addBound moduleName ⟨c.map Target.ofAttr, []⟩))
      (b.elim ⟨c, false, []⟩ fun a => Plan.add (a.bringsBound moduleName) ⟨c, false, []⟩ a) := by
    cases b with
    | none => exact hstart
    | some a => exact hstart.addBound moduleName a
  cases p with
  | none => exact hbound
  | some a => exact hbound.addPlain moduleName a

lemma edits_eq_plan (moduleName : Text) (s : Slots) :
    s.edits moduleName = (s.plan moduleName).edits (s.fold moduleName).expr :=
  (s.follows_plan moduleName).edits_eq

lemma attrs_plan_perm (moduleName : Text) (s : Slots) :
    (s.plan moduleName).attrs.Perm s.attrs := by
  obtain ⟨c, p, b⟩ := s
  have hbound : (b.elim (⟨c, false, []⟩ : Plan) fun a =>
      Plan.add (a.bringsBound moduleName) ⟨c, false, []⟩ a).attrs.Perm (c.toList ++ b.toList) := by
    cases b with
    | none => simp [Plan.attrs]
    | some a => simpa [Plan.attrs] using Plan.attrs_add_perm _ ⟨c, false, []⟩ a
  cases p with
  | none => simpa [plan, attrs] using hbound
  | some a =>
      refine (Plan.attrs_add_perm a.bringsPlain _ a).trans ?_
      simpa [attrs] using hbound.append_right [a]

/-- **The edits of an element touch different attributes of it.** -/
theorem spans_edits_subperm (moduleName : Text) (s : Slots) :
    ((s.edits moduleName).map Edit.span).Subperm (s.attrs.map Attr.span) := by
  rw [s.edits_eq_plan moduleName]
  exact (Plan.spans_edits_sublist _ _).subperm.trans
    ((s.attrs_plan_perm moduleName).map Attr.span).subperm

/-! ### The edits of an element -/

/-- Whether any shorthand of an element holds classes. -/
def brings (moduleName : Text) (s : Slots) : Bool :=
  s.boundShorthand.any (Attr.bringsBound moduleName) || s.plainShorthand.any Attr.bringsPlain

/-- The attribute that the class binding is written to, if any class comes in: the class binding
that the element has, or else the bound shorthand if it holds classes, or else the plain one. -/
def holder? (moduleName : Text) (s : Slots) : Option Attr :=
  if s.brings moduleName then
    s.boundClass.or ((s.boundShorthand.filter (Attr.bringsBound moduleName)).or s.plainShorthand)
  else none

/-- The edits of an element: its class binding becomes `expr`, if any class comes in, and every
shorthand that does not hold the binding is removed. -/
def editsWith (moduleName : Text) (expr : Text) (s : Slots) : List Edit :=
  ((s.holder? moduleName).map (Attr.rebind expr)).toList ++
    ((s.boundShorthand.toList ++ s.plainShorthand.toList).filter fun a =>
      (s.holder? moduleName).map Attr.span != some a.span).map Attr.removal

/-- When its attributes have different spans, the edits of an element can be read off its slots. -/
lemma edits_plan (moduleName expr : Text) {s : Slots} (h : (s.attrs.map Attr.span).Nodup) :
    (s.plan moduleName).edits expr = s.editsWith moduleName expr := by
  obtain ⟨c, p, b⟩ := s
  cases b with
  | none =>
      cases p with
      | none => cases c <;> simp [plan, Plan.edits, editsWith, holder?, brings]
      | some a =>
          cases c with
          | none =>
              cases ha : a.bringsPlain <;>
                simp [plan, Plan.add, Plan.edits, editsWith, holder?, brings, ha]
          | some d =>
              have hda : d.span ≠ a.span := by simpa [attrs] using h
              cases ha : a.bringsPlain <;>
                simp [plan, Plan.add, Plan.edits, editsWith, holder?, brings, ha, hda]
  | some e =>
      cases p with
      | none =>
          cases c with
          | none =>
              cases he : e.bringsBound moduleName <;>
                simp [plan, Plan.add, Plan.edits, editsWith, holder?, brings, Option.filter_some,
                  he]
          | some d =>
              have hde : d.span ≠ e.span := by simpa [attrs] using h
              cases he : e.bringsBound moduleName <;>
                simp [plan, Plan.add, Plan.edits, editsWith, holder?, brings, he, hde]
      | some a =>
          cases c with
          | none =>
              have hea : e.span ≠ a.span := by simpa [attrs] using h
              cases he : e.bringsBound moduleName <;> cases ha : a.bringsPlain <;>
                simp [plan, Plan.add, Plan.edits, editsWith, holder?, brings, Option.filter_some,
                  he, ha, hea, hea.symm]
          | some d =>
              obtain ⟨⟨hde, hda⟩, hea⟩ :
                  (d.span ≠ e.span ∧ d.span ≠ a.span) ∧ e.span ≠ a.span := by
                simpa [attrs] using h
              cases he : e.bringsBound moduleName <;> cases ha : a.bringsPlain <;>
                simp [plan, Plan.add, Plan.edits, editsWith, holder?, brings, he, ha, hde, hda]

/-- **The edits of an element**, read off its slots. -/
theorem edits_eq (moduleName : Text) {s : Slots} (h : (s.attrs.map Attr.span).Nodup) :
    s.edits moduleName = s.editsWith moduleName (s.fold moduleName).expr := by
  rw [s.edits_eq_plan moduleName, edits_plan moduleName _ h]

/-- An element with a shorthand has edits: without a holder for its classes, the shorthand is
removed. -/
lemma editsWith_ne_nil (moduleName expr : Text) {s : Slots} (h : s.hasShorthand = true) :
    s.editsWith moduleName expr ≠ [] := by
  rw [editsWith]
  cases s.holder? moduleName with
  | some a => simp
  | none =>
      rw [hasShorthand, Bool.or_eq_true, Option.isSome_iff_exists, Option.isSome_iff_exists] at h
      rcases h with ⟨a, ha⟩ | ⟨a, ha⟩
      · simp [ha]
      · simp [ha]

end Slots

end ClassFold
