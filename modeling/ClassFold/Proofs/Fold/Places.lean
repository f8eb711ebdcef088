import ClassFold.Proofs.Fold.Delimited
import ClassFold.Proofs.Edit.Splicing
import ClassFold.Proofs.Template.Markup

/-!
Folding the attributes of an element in their places.

The attributes of a written tag stand in places, one behind each space.  Folding a plain shorthand
empties its place or writes a class binding there, and may write the class binding that is there
already anew.  `AttrSource.folded` says which attributes are in which places afterwards.

* `AttrSource.last?`, `AttrSource.replaceLast`: the last attribute with a property, and another one
  in its place.
* `AttrSource.spliced_folded`: the edits of an element lead from its attributes as written to the
  folded ones.
* `AttrSource.areCanonicalAttrs_folded`: folded attributes can be told from what is written.
-/

namespace ClassFold

open Text

namespace Slots

/-! ### The edits of plain shorthands -/

variable (moduleName : Text) (c : Option Attr) (a : Attr)

lemma edits_of_none : edits moduleName ⟨c, none, none⟩ = [] := by
  cases c <;> simp [edits, fold, Folding.edits, Target.ofAttr]

variable {a}

lemma edits_of_not_hasShorthand {s : Slots} (h : ¬ s.hasShorthand = true) :
    s.edits moduleName = [] := by
  obtain ⟨c, p, b⟩ := s
  obtain ⟨rfl, rfl⟩ : p = none ∧ b = none := by simpa [hasShorthand] using h
  exact edits_of_none moduleName c

/-- A plain shorthand without class names is removed. -/
lemma edits_of_isEmpty (h : (classNames a.valueText).isEmpty = true) :
    edits moduleName ⟨c, some a, none⟩ = [a.removal] := by
  cases c <;>
    simp [edits, fold, Folding.addPlain, h, Folding.drop, Folding.edits, Target.ofAttr,
      Attr.removal]

/-- Without a class binding, a plain shorthand becomes one. -/
lemma edits_in_place (h : (classNames a.valueText).isEmpty = false) :
    edits moduleName ⟨none, some a, none⟩ = [a.rebind (bracketed (commaJoin
      ((classNames a.valueText).map
        (LookupStyle.named ⟨moduleName, (Quote.ofAttribute a.raw).opposite⟩))))] := by
  simp only [edits, fold, Option.map_none, Option.elim, Folding.addPlain, h, Bool.false_eq_true,
    if_false]
  rfl

/-- A plain shorthand is added to the class binding. -/
lemma edits_absorbed (b : Attr) (h : (classNames a.valueText).isEmpty = false) :
    edits moduleName ⟨some b, some a, none⟩ =
      [b.rebind (combine (trim b.valueText) (.items ((classNames a.valueText).map
        (LookupStyle.named ⟨moduleName, (Quote.ofAttribute b.raw).opposite⟩)))), a.removal] := by
  simp only [edits, fold, Option.map_some, Option.elim, Folding.addPlain, h, Bool.false_eq_true,
    if_false]
  rfl

end Slots

namespace AttrSource

/-! ### Attributes in source form -/

/-- Whether an attribute binds the given argument. -/
def binds (argument : Text) (a : AttrSource) : Bool := kindAndName a.name == (.bind, argument)

/-- Whether an attribute is static and has the given name. -/
def isStatic (name : Text) (a : AttrSource) : Bool := kindAndName a.name == (.static, name)

/-- The value of an attribute, empty if it has none. -/
def valueText (a : AttrSource) : Text := a.value.elim [] Prod.snd

/-- The marks around the value of an attribute, double quotes if it has none. -/
def quote (a : AttrSource) : Quote := a.value.elim .double Prod.fst

@[simp] lemma binds_attrAt (a : AttrSource) (argument : Text) (offset : Nat) :
    (a.attrAt offset).binds argument = a.binds argument := rfl

@[simp] lemma isStatic_attrAt (a : AttrSource) (name : Text) (offset : Nat) :
    (a.attrAt offset).isStatic name = a.isStatic name := rfl

@[simp] lemma valueText_attrAt (a : AttrSource) (offset : Nat) :
    (a.attrAt offset).valueText = a.valueText := by
  obtain ⟨name, value⟩ := a
  cases value <;> rfl

@[simp] lemma raw_attrAt (a : AttrSource) (offset : Nat) : (a.attrAt offset).raw = a.print := rfl

/-- The marks around a value are found again in the attribute as written. -/
lemma ofAttribute_print {a : AttrSource} (ha : a.isCanonical = true) :
    Quote.ofAttribute a.print = a.quote := by
  obtain ⟨name, value⟩ := a
  obtain ⟨⟨-, hname⟩, -⟩ := isCanonical_iff.1 ha
  cases value with
  | none =>
      have hnil : name.dropWhile (· != '=') = [] := by
        rw [List.dropWhile_eq_nil_iff]
        intro c hc
        simpa using ne_equals_of_isAttrNameChar (hname c hc)
      simp [print, quote, Quote.ofAttribute, hnil, trimStart]
  | some v =>
      obtain ⟨q, value⟩ := v
      have hdrop := @drop_equals name [] (q.wrap value) hname (by simp)
      rw [List.nil_append] at hdrop
      rw [print, Option.elim_some, Quote.ofAttribute, hdrop, Quote.wrap, List.cons_append,
        trimStart, List.dropWhile_cons_of_neg (by simp [q.isBlank_mark]), quote]
      cases q <;> rfl

/-! ### The last attribute with a property -/

/-- The last attribute with a property. -/
def last? (p : AttrSource → Bool) : List (Option AttrSource) → Option AttrSource
  | [] => none
  | a :: as => (last? p as).or (a.filter p)

/-- The places for attributes with another attribute, or none, in the place of the last one with a
property. -/
def replaceLast (p : AttrSource → Bool) (new : Option AttrSource) :
    List (Option AttrSource) → List (Option AttrSource)
  | [] => []
  | a :: as =>
    if (last? p as).isSome then a :: replaceLast p new as
    else if a.any p then new :: as
    else a :: as

/-- No attribute has the property. -/
def Lacks (p : AttrSource → Bool) (as : List (Option AttrSource)) : Prop :=
  ∀ a, some a ∈ as → p a = false

variable {p : AttrSource → Bool} {front back as : List (Option AttrSource)} {a : AttrSource}

lemma Lacks.cons {b : Option AttrSource} (h : Lacks p as) (hb : b.any p = false) :
    Lacks p (b :: as) := by
  intro a ha
  rcases List.mem_cons.1 ha with rfl | ha
  · simpa using hb
  · exact h a ha

/-- Attributes either lack a property, or there is a last one that has it. -/
lemma lacks_or_exists_last (p : AttrSource → Bool) (as : List (Option AttrSource)) :
    Lacks p as ∨ ∃ front a back, as = front ++ some a :: back ∧ p a = true ∧ Lacks p back := by
  induction as with
  | nil => exact .inl (by simp [Lacks])
  | cons b as ih =>
      rcases ih with hlacks | ⟨front, a, back, rfl, ha, hback⟩
      · cases b with
        | none => exact .inl (hlacks.cons rfl)
        | some a =>
            cases ha : p a with
            | true => exact .inr ⟨[], a, as, rfl, ha, hlacks⟩
            | false => exact .inl (hlacks.cons ha)
      · exact .inr ⟨b :: front, a, back, rfl, ha, hback⟩

lemma last?_of_lacks (h : Lacks p as) : last? p as = none := by
  induction as with
  | nil => rfl
  | cons b as ih =>
      have hb : b.filter p = none := by
        cases b with
        | none => rfl
        | some a => simp [h a (by simp)]
      rw [last?, ih fun a ha => h a (by simp [ha]), hb, Option.none_or]

lemma last?_append (ha : p a = true) (hback : Lacks p back) :
    last? p (front ++ some a :: back) = some a := by
  induction front with
  | nil => simp [last?, last?_of_lacks hback, ha]
  | cons b front ih => rw [List.cons_append, last?, ih, Option.some_or]

lemma replaceLast_append (new : Option AttrSource) (ha : p a = true) (hback : Lacks p back) :
    replaceLast p new (front ++ some a :: back) = front ++ new :: back := by
  induction front with
  | nil => simp [replaceLast, last?_of_lacks hback, ha]
  | cons b front ih =>
      rw [List.cons_append, replaceLast, last?_append ha hback, Option.isSome_some, if_pos rfl, ih,
        List.cons_append]

/-! ### Folding the attributes of an element -/

/-- A class binding between the given marks. -/
def classBinding (q : Quote) (expr : Text) : AttrSource := ⟨":class".toList, some (q, expr)⟩

/-- The lookups of the class names in a plain shorthand, for a place between the given marks. -/
def lookups (moduleName : Text) (q : Quote) (plain : AttrSource) : List Text :=
  (classNames plain.valueText).map (LookupStyle.named ⟨moduleName, q.opposite⟩)

/-- The attributes of an element, in their places, after its last plain shorthand has been folded.
A shorthand without class names is removed.  Otherwise its lookups are added to the last binding of
`class`, between the marks that stand there, and the shorthand is removed; without such a binding
one takes the place of the shorthand. -/
def folded (shorthand moduleName : Text) (as : List (Option AttrSource)) :
    List (Option AttrSource) :=
  match last? (isStatic shorthand) as with
  | none => as
  | some plain =>
    if (classNames plain.valueText).isEmpty then replaceLast (isStatic shorthand) none as
    else
      match last? (binds "class".toList) as with
      | none =>
        replaceLast (isStatic shorthand) (some (classBinding plain.quote
          (bracketed (commaJoin (plain.lookups moduleName plain.quote))))) as
      | some bound =>
        replaceLast (binds "class".toList) (some (classBinding bound.quote
          (combine (trim bound.valueText) (.items (plain.lookups moduleName bound.quote)))))
          (replaceLast (isStatic shorthand) none as)

lemma attrsAt_append (offset : Nat) (as bs : List (Option AttrSource)) :
    attrsAt offset (as ++ bs) =
      attrsAt offset as ++ attrsAt (offset + byteSize (printAll as)) bs := by
  induction as generalizing offset with
  | nil => simp [attrsAt]
  | cons a as ih =>
      cases a with
      | none => simp [attrsAt, ih, Nat.add_assoc]
      | some a => simp [attrsAt, ih, Nat.add_assoc]

lemma exists_of_mem_attrsAt {x : Attr} {offset : Nat} (h : x ∈ attrsAt offset as) :
    ∃ a offset', some a ∈ as ∧ x = a.attrAt offset' := by
  induction as generalizing offset with
  | nil => simp [attrsAt] at h
  | cons b as ih =>
      cases b with
      | none =>
          obtain ⟨a, offset', ha, rfl⟩ := ih h
          exact ⟨a, offset', List.mem_cons_of_mem _ ha, rfl⟩
      | some b =>
          rcases List.mem_cons.1 h with rfl | h
          · exact ⟨b, offset + 1, List.mem_cons_self, rfl⟩
          · obtain ⟨a, offset', ha, rfl⟩ := ih h
            exact ⟨a, offset', List.mem_cons_of_mem _ ha, rfl⟩

/-- Attributes as written have a property exactly when they have it in source form. -/
def Reflects (p : AttrSource → Bool) (f : Attr → Bool) : Prop :=
  ∀ a offset, f (attrAt offset a) = p a

lemma notMem_of_lacks {f : Attr → Bool} (hf : Reflects p f) (h : Lacks p as) (offset : Nat) :
    ∀ x ∈ (attrsAt offset as).reverse, ¬ f x = true := by
  intro x hx
  obtain ⟨a, offset', ha, rfl⟩ := exists_of_mem_attrsAt (List.mem_reverse.1 hx)
  simp [hf a offset', h a ha]

lemma lastAttr?_of_lacks {f : Attr → Bool} (hf : Reflects p f) (h : Lacks p as) (offset : Nat) :
    lastAttr? f (attrsAt offset as) = none :=
  List.find?_eq_none.2 (notMem_of_lacks hf h offset)

lemma lastAttr?_append {f : Attr → Bool} (hf : Reflects p f) (ha : p a = true)
    (hback : Lacks p back) (offset : Nat) :
    lastAttr? f (attrsAt offset (front ++ some a :: back)) =
      some (a.attrAt (offset + byteSize (printAll front) + 1)) := by
  rw [attrsAt_append, attrsAt, lastAttr?, List.reverse_append, List.reverse_cons,
    List.append_assoc, List.find?_append, List.find?_eq_none.2 (notMem_of_lacks hf hback _)]
  simp [hf a, ha]

/-- The edit that writes another attribute, or none, in place of the one at `offset`. -/
def replacement (offset : Nat) (a : AttrSource) (new : Option AttrSource) : Edit :=
  ⟨(a.attrAt offset).span, new.elim [] print⟩

/-- An attribute is replaced where it is written. -/
lemma spliced_replacement (a : AttrSource) (new : Option AttrSource) {source out : Text}
    {es : List Edit} {offset : Nat}
    (h : Spliced (offset + 1 + byteSize a.print) source es out) :
    Spliced offset (' ' :: (a.print ++ source)) (replacement (offset + 1) a new :: es)
      (' ' :: (new.elim [] print ++ out)) := by
  have hspan : (replacement (offset + 1) a new).span =
      ⟨offset + byteSize [' '], offset + byteSize [' '] + byteSize a.print⟩ := by
    simp [replacement, attrAt]
  simpa [replacement] using Spliced.cons [' '] a.print hspan h

/-- One place among others is changed. -/
lemma spliced_one (front back : List (Option AttrSource)) (a : AttrSource)
    (new : Option AttrSource) (offset : Nat) :
    Spliced offset (printAll (front ++ some a :: back))
      [replacement (offset + byteSize (printAll front) + 1) a new]
      (printAll (front ++ new :: back)) := by
  have hback := Spliced.nil (offset + byteSize (printAll front) + 1 + byteSize a.print)
    (printAll back)
  simpa using (spliced_replacement a new hback).keep_front (printAll front)

/-- Two places among others are changed. -/
lemma spliced_two (front mid back : List (Option AttrSource)) (a b : AttrSource)
    (new new' : Option AttrSource) (offset : Nat) :
    Spliced offset (printAll (front ++ some a :: (mid ++ some b :: back)))
      [replacement (offset + byteSize (printAll front) + 1) a new,
        replacement (offset + byteSize (printAll (front ++ some a :: mid)) + 1) b new']
      (printAll (front ++ new :: (mid ++ new' :: back))) := by
  have hsecond := spliced_one mid back b new'
    (offset + byteSize (printAll front) + 1 + byteSize a.print)
  simpa [Nat.add_assoc] using (spliced_replacement a new hsecond).keep_front (printAll front)

lemma rebind_attrAt (ha : a.isCanonical = true) (expr : Text) (offset : Nat) :
    (a.attrAt offset).rebind expr = replacement offset a (some (classBinding a.quote expr)) := by
  rw [Attr.rebind, raw_attrAt, ofAttribute_print ha]
  rfl

lemma removal_attrAt (a : AttrSource) (offset : Nat) :
    (a.attrAt offset).removal = replacement offset a none := rfl

/-- Two different members of a list stand one before the other. -/
lemma split_of_ne {α : Type} {x y : α} {front front' back back' : List α}
    (h : front ++ x :: back = front' ++ y :: back') (hne : x ≠ y) :
    (∃ mid, front' = front ++ x :: mid ∧ back = mid ++ y :: back') ∨
      ∃ mid, front = front' ++ y :: mid ∧ back' = mid ++ x :: back := by
  rcases List.append_eq_append_iff.1 h with ⟨mid, hfront, hback⟩ | ⟨mid, hfront, hback⟩
  · cases mid with
    | nil => exact absurd (List.cons.inj hback).1 hne
    | cons z mid =>
        rw [List.cons_append, List.cons.injEq] at hback
        obtain ⟨rfl, hback⟩ := hback
        exact .inl ⟨mid, hfront, hback⟩
  · cases mid with
    | nil => exact absurd (List.cons.inj hback).1.symm hne
    | cons z mid =>
        rw [List.cons_append, List.cons.injEq] at hback
        obtain ⟨rfl, hback⟩ := hback
        exact .inr ⟨mid, hfront, hback⟩

lemma isCanonical_of_mem (has : Markup.areCanonicalAttrs as = true) (ha : some a ∈ as) :
    a.isCanonical = true := by
  have h := List.all_eq_true.1 has _ ha
  simpa using h

/-- One attribute is replaced and another one is removed, whichever stands first. -/
lemma spliced_both {front' back' : List (Option AttrSource)} {b : AttrSource}
    (hsplit : front ++ some a :: back = front' ++ some b :: back') (hne : some a ≠ some b)
    (hb : p b = true) (hback : Lacks p back') (new : Option AttrSource) (offset : Nat) :
    ∃ es : List Edit,
      es.Perm [replacement (offset + byteSize (printAll front') + 1) b new,
          replacement (offset + byteSize (printAll front) + 1) a none] ∧
        Spliced offset (printAll (front ++ some a :: back)) es
          (printAll (replaceLast p new (front ++ none :: back))) := by
  rcases split_of_ne hsplit hne with ⟨mid, rfl, rfl⟩ | ⟨mid, rfl, rfl⟩
  · have hplaces := @replaceLast_append p (front ++ none :: mid) back' b new hb hback
    rw [List.append_assoc, List.cons_append] at hplaces
    rw [hplaces]
    exact ⟨_, List.Perm.swap _ _ _, by simpa using spliced_two front mid back' a b none new offset⟩
  · have hlacks : Lacks p (mid ++ none :: back) := by
      intro c hc
      refine hback c ?_
      simp only [List.mem_append, List.mem_cons, reduceCtorEq, false_or] at hc ⊢
      exact hc.imp_right .inr
    have hplaces := @replaceLast_append p front' (mid ++ none :: back) b new hb hlacks
    rw [List.append_assoc, List.append_assoc, List.cons_append, List.cons_append, hplaces]
    exact ⟨_, .refl _, by simpa using spliced_two front' mid back b a new none offset⟩

/-- **The edits of an element** lead from its attributes as written to the folded ones. -/
theorem spliced_folded {shorthand : Text} (moduleName : Text)
    (has : Markup.areCanonicalAttrs as = true)
    (hbound : shorthand ≠ "class".toList → Lacks (binds shorthand) as) (offset : Nat) :
    ∃ es : List Edit,
      es.Perm ((Slots.ofAttrs shorthand (attrsAt offset as)).edits moduleName) ∧
        Spliced offset (printAll as) es (printAll (folded shorthand moduleName as)) := by
  have hclass : Reflects (binds "class".toList) (·.binds "class".toList) := fun _ _ => rfl
  have hstatic : Reflects (isStatic shorthand) (·.isStatic shorthand) := fun _ _ => rfl
  have hnone : (if shorthand = "class".toList then none
      else lastAttr? (·.binds shorthand) (attrsAt offset as)) = none := by
    split
    · rfl
    · rename_i hne
      exact lastAttr?_of_lacks (fun _ _ => rfl) (hbound hne) offset
  rw [Slots.ofAttrs_eq, Slots.lastOf, hnone]
  rcases lacks_or_exists_last (isStatic shorthand) as with
    hlacks | ⟨front, plain, back, rfl, hplain, hback⟩
  · rw [lastAttr?_of_lacks hstatic hlacks, Slots.edits_of_none, folded, last?_of_lacks hlacks]
    exact ⟨[], .refl _, .nil _ _⟩
  · have hcplain := isCanonical_of_mem has (a := plain) (by simp)
    rw [lastAttr?_append hstatic hplain hback, folded, last?_append hplain hback]
    cases hnames : (classNames plain.valueText).isEmpty with
    | true =>
        rw [Slots.edits_of_isEmpty moduleName _ (by simpa using hnames), removal_attrAt]
        simp only [hnames, if_true, replaceLast_append none hplain hback]
        exact ⟨_, .refl _, spliced_one front back plain none offset⟩
    | false =>
        simp only [hnames, Bool.false_eq_true, if_false]
        rcases lacks_or_exists_last (binds "class".toList) (front ++ some plain :: back) with
          hlacks | ⟨front', bound, back', hsplit, hbound', hback'⟩
        · rw [lastAttr?_of_lacks hclass hlacks, last?_of_lacks hlacks,
            Slots.edits_in_place moduleName (by simpa using hnames), rebind_attrAt hcplain,
            raw_attrAt, valueText_attrAt, ofAttribute_print hcplain]
          simp only [replaceLast_append _ hplain hback]
          exact ⟨_, .refl _, spliced_one front back plain _ offset⟩
        · have hne : some plain ≠ some bound := by
            rintro ⟨⟩
            have := Attr.isStatic_eq_false_of_binds shorthand (a := plain.attrAt 0) hbound'
            rw [isStatic_attrAt, hplain] at this
            simp at this
          have hcbound := isCanonical_of_mem has (a := bound) (by simp [hsplit])
          rw [hsplit, lastAttr?_append hclass hbound' hback', last?_append hbound' hback',
            ← hsplit, Slots.edits_absorbed moduleName _ (by simpa using hnames),
            rebind_attrAt hcbound, removal_attrAt, raw_attrAt, valueText_attrAt, valueText_attrAt,
            ofAttribute_print hcbound]
          simp only [replaceLast_append _ hplain hback]
          exact spliced_both hsplit hne hbound' hback' _ offset

/-! ### Folded attributes in canonical form -/

lemma areCanonicalAttrs_replaceLast {new : Option AttrSource}
    (has : Markup.areCanonicalAttrs as = true) (hnew : new.all isCanonical = true) :
    Markup.areCanonicalAttrs (replaceLast p new as) = true := by
  induction as with
  | nil => exact has
  | cons a as ih =>
      obtain ⟨ha, has⟩ : a.all isCanonical = true ∧ Markup.areCanonicalAttrs as = true := by
        simpa using has
      rw [replaceLast]
      split
      · simp [ha, ih has]
      · split
        · simp [hnew, has]
        · simp [ha, has]

lemma isCanonical_classBinding {q : Quote} {expr : Text} (h : q.mark ∉ expr) :
    (classBinding q expr).isCanonical = true := by
  have hchars : ":class".toList.all isAttrNameChar = true := by decide
  refine isCanonical_iff.2 ⟨⟨List.cons_ne_nil _ _, List.all_eq_true.1 hchars⟩, fun v hv => ?_⟩
  obtain rfl : (q, expr) = v := Option.some.inj hv
  exact h

/-- Lookups are free of the marks that they stand between. -/
lemma notMem_lookups {moduleName : Text} (hmodule : ∀ q : Quote, q.mark ∉ moduleName)
    (hnames : ∀ name ∈ classNames a.valueText, ∀ q : Quote, q.mark ∉ name) (q : Quote) :
    ∀ i ∈ a.lookups moduleName q, q.mark ∉ i := by
  intro i hi
  obtain ⟨name, hname, rfl⟩ := List.mem_map.1 hi
  have havoid : LookupStyle.Avoids ⟨moduleName, q.opposite⟩ q.mark :=
    ⟨q.isLiteralMark_mark, hmodule q, q.mark_ne_opposite⟩
  rw [havoid.mem_named]
  exact hnames name hname q

lemma notMem_valueText (ha : a.isCanonical = true) : a.quote.mark ∉ a.valueText := by
  obtain ⟨name, value⟩ := a
  cases value with
  | none => simp [valueText]
  | some v => exact (isCanonical_iff.1 ha).2 v rfl

/-- Folded attributes can be told from what is written. -/
lemma areCanonicalAttrs_folded {shorthand moduleName : Text}
    (has : Markup.areCanonicalAttrs as = true) (hmodule : ∀ q : Quote, q.mark ∉ moduleName)
    (hnames : ∀ a, some a ∈ as → a.isStatic shorthand = true →
      ∀ name ∈ classNames a.valueText, ∀ q : Quote, q.mark ∉ name) :
    Markup.areCanonicalAttrs (folded shorthand moduleName as) = true := by
  rw [folded]
  rcases lacks_or_exists_last (isStatic shorthand) as with
    hlacks | ⟨front, plain, back, rfl, hplain, hback⟩
  · simpa only [last?_of_lacks hlacks] using has
  · have hfree := notMem_lookups hmodule (hnames plain (by simp) hplain)
    simp only [last?_append hplain hback]
    split
    · exact areCanonicalAttrs_replaceLast has rfl
    · rcases lacks_or_exists_last (binds "class".toList) (front ++ some plain :: back) with
        hlacks | ⟨front', bound, back', hsplit, hbound, hback'⟩
      · simp only [last?_of_lacks hlacks]
        refine areCanonicalAttrs_replaceLast has (isCanonical_classBinding ?_)
        rw [mem_bracketed (Quote.isLiteralMark_mark _), mem_commaJoin (Quote.isLiteralMark_mark _)]
        rintro ⟨i, hi, hmem⟩
        exact hfree _ i hi hmem
      · have hcbound := isCanonical_of_mem has (a := bound) (by simp [hsplit])
        have hlast := @last?_append _ front' _ _ hbound hback'
        rw [← hsplit] at hlast
        simp only [hlast]
        refine areCanonicalAttrs_replaceLast (areCanonicalAttrs_replaceLast has rfl)
          (isCanonical_classBinding ?_)
        rw [mem_combine_items (Quote.isLiteralMark_mark _),
          mem_trim (isBlank_of_isLiteralMark (Quote.isLiteralMark_mark _))]
        rintro (hmem | ⟨i, hi, hmem⟩)
        · exact notMem_valueText hcbound hmem
        · exact hfree _ i hi hmem

end AttrSource

end ClassFold
