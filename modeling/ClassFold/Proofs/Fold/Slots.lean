import Mathlib.Data.List.Induction
import Mathlib.Data.List.Perm.Subperm
import ClassFold.Fold.Slots

/-!
What the slots of an element hold.

Each slot holds the last attribute of its sort (`Slots.ofAttrs_eq`), and no attribute is in two
slots: the attributes in the slots are some of those of the element, each taken at most once
(`Slots.attrs_ofAttrs_subperm`).
-/

namespace ClassFold

/-- The last attribute of an element with a property. -/
def lastAttr? (p : Attr → Bool) (attrs : List Attr) : Option Attr := attrs.reverse.find? p

lemma lastAttr?_concat (p : Attr → Bool) (attrs : List Attr) (a : Attr) :
    lastAttr? p (attrs ++ [a]) = if p a then some a else lastAttr? p attrs := by
  rw [lastAttr?, List.reverse_append, List.reverse_singleton, List.singleton_append,
    List.find?_cons, lastAttr?]
  cases p a <;> rfl

lemma isSome_lastAttr? (p : Attr → Bool) (attrs : List Attr) :
    (lastAttr? p attrs).isSome = attrs.any p := by
  rw [lastAttr?, Bool.eq_iff_iff]
  simp

/-! ### The last one of each sort -/

lemma Attr.isStatic_eq_false_of_binds {a : Attr} {argument : Text} (name : Text)
    (h : a.binds argument = true) : a.isStatic name = false := by
  rw [binds, Bool.and_eq_true, beq_iff_eq] at h
  simp [isStatic, h.1]

lemma Attr.binds_eq_false_of_isStatic {a : Attr} {name : Text} (argument : Text)
    (h : a.isStatic name = true) : a.binds argument = false := by
  rw [isStatic, Bool.and_eq_true, beq_iff_eq] at h
  simp [binds, h.1]

/-- An attribute binds one argument only. -/
lemma Attr.binds_eq_false_of_ne {a : Attr} {argument argument' : Text}
    (h : a.binds argument = true) (hne : argument' ≠ argument) : a.binds argument' = false := by
  rw [binds, Bool.and_eq_true, beq_iff_eq, beq_iff_eq] at h
  simp [binds, h.2, Ne.symm hne]

/-- An element has a shorthand when it has a static attribute of that name, or a bound one unless
the name is `class`. -/
def HasShorthand (shorthand : Text) (attrs : List Attr) : Prop :=
  (∃ a ∈ attrs, a.isStatic shorthand = true) ∨
    shorthand ≠ "class".toList ∧ ∃ a ∈ attrs, a.binds shorthand = true

instance (shorthand : Text) (attrs : List Attr) : Decidable (HasShorthand shorthand attrs) :=
  inferInstanceAs (Decidable (_ ∨ _))

namespace Slots

/-- The slots that hold the last binding of `class`, the last plain shorthand and the last bound
one.  The shorthand `class` has no bound form, since a binding of `class` is never a shorthand. -/
def lastOf (shorthand : Text) (attrs : List Attr) : Slots where
  boundClass := lastAttr? (·.binds "class".toList) attrs
  plainShorthand := lastAttr? (·.isStatic shorthand) attrs
  boundShorthand :=
    if shorthand = "class".toList then none else lastAttr? (·.binds shorthand) attrs

lemma lastOf_concat (shorthand : Text) (attrs : List Attr) (a : Attr) :
    lastOf shorthand (attrs ++ [a]) = (lastOf shorthand attrs).add shorthand a := by
  simp only [lastOf, lastAttr?_concat]
  rw [add]
  by_cases hc : a.binds "class".toList = true
  · have hs := Attr.isStatic_eq_false_of_binds shorthand hc
    by_cases hcls : shorthand = "class".toList
    · subst hcls
      simp only [hc, hs, if_true, Bool.false_eq_true, if_false]
    · have hb := Attr.binds_eq_false_of_ne hc hcls
      simp only [hc, hs, hb, hcls, if_true, Bool.false_eq_true, if_false]
  · by_cases hs : a.isStatic shorthand = true
    · have hb := Attr.binds_eq_false_of_isStatic shorthand hs
      simp only [hc, hs, hb, if_true, Bool.false_eq_true, if_false]
    · by_cases hb : a.binds shorthand = true
      · have hcls : shorthand ≠ "class".toList := fun h => hc (h ▸ hb)
        simp only [hc, hs, hb, hcls, if_true, Bool.false_eq_true, if_false]
      · simp only [hc, hs, hb, Bool.false_eq_true, if_false]

/-- **The last one counts** in each slot. -/
theorem ofAttrs_eq (shorthand : Text) (attrs : List Attr) :
    ofAttrs shorthand attrs = lastOf shorthand attrs := by
  induction attrs using List.reverseRecOn with
  | nil =>
      simp only [lastOf, lastAttr?, List.reverse_nil, List.find?_nil, ite_self]
      rfl
  | append_singleton attrs a ih =>
      rw [lastOf_concat, ← ih, ofAttrs, List.foldl_append]
      rfl

/-- The slots of an element hold a shorthand exactly when the element has one. -/
lemma hasShorthand_ofAttrs (shorthand : Text) (attrs : List Attr) :
    (ofAttrs shorthand attrs).hasShorthand = true ↔ HasShorthand shorthand attrs := by
  rw [ofAttrs_eq, hasShorthand, Bool.or_eq_true, lastOf, isSome_lastAttr?, List.any_eq_true,
    HasShorthand]
  by_cases hcls : shorthand = "class".toList
  · simp [hcls]
  · rw [if_neg hcls, isSome_lastAttr?, List.any_eq_true]
    simp only [ne_eq, hcls, not_false_eq_true, true_and]

/-! ### Different slots, different attributes -/

/-- The attributes in the slots. -/
def attrs (s : Slots) : List Attr :=
  s.boundClass.toList ++ (s.boundShorthand.toList ++ s.plainShorthand.toList)

/-- A new attribute goes into one slot, where it takes the place of the one before. -/
lemma attrs_add_subperm (shorthand : Text) (s : Slots) (a : Attr) :
    (s.add shorthand a).attrs.Subperm (a :: s.attrs) := by
  obtain ⟨c, p, b⟩ := s
  rw [add]
  split
  · exact (List.Sublist.cons_cons a (List.sublist_append_right _ _)).subperm
  · split
    · refine (List.Perm.subperm ?_).trans
        (List.Sublist.cons_cons a
          (List.sublist_append_left (c.toList ++ b.toList) p.toList)).subperm
          |>.trans (List.Perm.subperm (by simp [attrs]))
      simpa [attrs] using List.perm_append_singleton a (c.toList ++ b.toList)
    · split
      · refine (List.Perm.subperm ?_).trans
          (List.Sublist.cons_cons a (List.Sublist.append_left
            (List.sublist_append_right b.toList p.toList) c.toList)).subperm
        simp [attrs, List.perm_middle]
      · exact (List.sublist_cons_self a _).subperm

lemma attrs_foldl_add_subperm (shorthand : Text) (as : List Attr) (s : Slots) :
    (as.foldl (add shorthand) s).attrs.Subperm (as ++ s.attrs) := by
  induction as generalizing s with
  | nil => exact List.Subperm.refl _
  | cons a as ih =>
      refine (ih (s.add shorthand a)).trans ?_
      refine (List.subperm_append_left as |>.2 (attrs_add_subperm shorthand s a)).trans ?_
      exact List.perm_middle.subperm

/-- **No attribute is in two slots.** -/
theorem attrs_ofAttrs_subperm (shorthand : Text) (as : List Attr) :
    (ofAttrs shorthand as).attrs.Subperm as := by
  have h := attrs_foldl_add_subperm shorthand as empty
  rwa [show empty.attrs = [] from rfl, List.append_nil] at h

end Slots

end ClassFold
