import ClassFold.Proofs.Expr.Marks
import ClassFold.Proofs.Fold.Plan
import ClassFold.Proofs.Template.DocumentOrder
import ClassFold.Proofs.Template.Quoted

/-!
Whether a class binding ends where it should.

When a bound shorthand in quotes is folded, the expression that is written must not hold the mark
that it is written between.  The lookups of the shorthand use the other mark, and they are exchanged
when the class binding has other quotes than the shorthand, so the mark can only come from an
operand without classes: it is always written with single quotes.

* `mem_expr_fold_iff`: when the mark occurs in the expression.
* `edit_delimited_iff`: when the class binding that is written is read back as it was meant.
-/

namespace ClassFold

open Text

lemma Quote.mark_ne_opposite (q : Quote) : q.mark ≠ q.opposite.mark := by
  cases q <;> decide

lemma Quote.eq_opposite_of_ne {q q' : Quote} (h : q ≠ q') : q = q'.opposite := by
  cases q <;> cases q' <;> simp_all [opposite]

lemma Quote.wrap_inj {q : Quote} {s t : Text} (h : q.wrap s = q.wrap t) : s = t :=
  List.append_cancel_right (List.cons.inj h).2

section Shorthand

variable {moduleName value resolved : Text} {P : Quote}

/-- The marks of a resolved shorthand in quotes. -/
lemma mem_resolved_iff (hmodule : moduleName.any isLiteralMark = false)
    (hvalue : P.mark ∉ value)
    (hr : resolveExpression ⟨moduleName, P.opposite⟩ value = some resolved) :
    P.mark ∈ resolved ↔ P = .single ∧ (ClassValue.ofText value).hasEmptyOperand = true := by
  have havoid : LookupStyle.Avoids ⟨moduleName, P.opposite⟩ P.mark :=
    ⟨P.isLiteralMark_mark, notMem_of_any P.isLiteralMark_mark hmodule, P.mark_ne_opposite⟩
  rw [mem_resolveExpression havoid hvalue hr]
  cases P <;> simp [Quote.mark]

/-- A resolved shorthand without backslashes or backticks. -/
lemma notMem_resolved {x : Char} (hmodule : moduleName.any isLiteralMark = false)
    (hx : x = '\\' ∨ x = backtick) (hvalue : x ∉ value)
    (hr : resolveExpression ⟨moduleName, P.opposite⟩ value = some resolved) : x ∉ resolved := by
  have hmark : isLiteralMark x = true := by rcases hx with rfl | rfl <;> rfl
  have hne : x ≠ P.opposite.mark := by rcases hx with rfl | rfl <;> cases P <;> decide
  have hsingle : x ≠ '\'' := by rcases hx with rfl | rfl <;> decide
  have havoid : LookupStyle.Avoids ⟨moduleName, P.opposite⟩ x :=
    ⟨hmark, notMem_of_any hmark hmodule, hne⟩
  rw [mem_resolveExpression havoid hvalue hr]
  exact fun h => hsingle h.1

/-- The marks of what a resolved shorthand brings to a class binding. -/
lemma mem_combine_incoming {x : Char} (hx : isLiteralMark x = true) (object : Bool)
    (destination text : Text) :
    x ∈ combine destination (Folding.incoming object text) ↔ x ∈ destination ∨ x ∈ text := by
  rw [Folding.incoming]
  split
  · exact mem_combine_entries hx destination text
  · rw [mem_combine_items hx, mem_topItems hx]

/-- After the exchange of quotes, the mark of the class binding stands where that of the shorthand
stood. -/
lemma mem_exchanged_iff (hslash : '\\' ∉ resolved) (htick : backtick ∉ resolved) (Q : Quote) :
    Q.mark ∈ (if Q = P then resolved else swapQuotes resolved) ↔ P.mark ∈ resolved := by
  split
  · rename_i h
    rw [h]
  · rename_i h
    rw [mem_swapQuotes hslash htick, Quote.eq_opposite_of_ne h, Quote.opposite_opposite]

end Shorthand

/-! ### The expression that is written -/

section Element

variable {moduleName resolved : Text} {s : Slots} {b : Attr} {P Q : Quote}

/-- **When the mark occurs in the expression**: the shorthand has single quotes and an operand
without classes. -/
theorem mem_expr_fold_iff (hb : s.boundShorthand = some b) (hplain : s.plainShorthand = none)
    (hP : P.mark ∉ b.valueText ∧ Quote.ofAttribute b.raw = P)
    (hnone : s.boundClass = none → Q = P)
    (hsome : ∀ c, s.boundClass = some c → Q.mark ∉ c.valueText ∧ Quote.ofAttribute c.raw = Q)
    (hvalue : '\\' ∉ b.valueText ∧ backtick ∉ b.valueText)
    (hmodule : moduleName.any isLiteralMark = false)
    (hr : resolveExpression ⟨moduleName, P.opposite⟩ b.valueText = some resolved) :
    Q.mark ∈ (s.fold moduleName).expr ↔
      P = .single ∧ (ClassValue.ofText b.valueText).hasEmptyOperand = true := by
  have hslash := notMem_resolved hmodule (.inl rfl) hvalue.1 hr
  have htick := notMem_resolved hmodule (.inr rfl) hvalue.2 hr
  rw [← mem_resolved_iff hmodule hP.1 hr, Slots.fold, hb, hplain]
  simp only [Option.elim]
  rw [Folding.addBound, hP.2]
  simp only [hr]
  cases hc : s.boundClass with
  | none =>
      obtain rfl := hnone hc
      rw [Folding.expr]
      simp only [Option.map_none, Option.elim, Target.inPlaceOf]
      split
      · exact mem_braced Q.isLiteralMark_mark resolved
      · exact mem_bracketed Q.isLiteralMark_mark resolved
  | some c =>
      obtain ⟨hfree, hquote⟩ := hsome c hc
      have hdest : Q.mark ∉ trim c.valueText := by
        rwa [mem_trim (isBlank_of_isLiteralMark Q.isLiteralMark_mark)]
      rw [Folding.expr]
      simp only [Option.map_some, Option.elim, Target.ofAttr, Target.absorb, hquote]
      rw [mem_combine_incoming Q.isLiteralMark_mark, mem_exchanged_iff hslash htick]
      simp only [hdest, false_or]

/-- Folding a bound shorthand alone writes a class binding only if the shorthand holds classes, and
then to the class binding of the element or to the shorthand itself. -/
lemma Slots.eq_rebind_of_mem_edits (hb : s.boundShorthand = some b)
    (hplain : s.plainShorthand = none) {e : Edit} (he : e ∈ s.edits moduleName)
    (ht : e.text ≠ []) :
    b.bringsBound moduleName = true ∧
      e = ((s.boundClass.getD b).rebind (s.fold moduleName).expr) := by
  rw [s.edits_eq_plan moduleName] at he
  obtain ⟨hchanged, a, ha, rfl⟩ := Plan.eq_rebind_of_text_ne_nil he ht
  rw [Slots.plan, hb, hplain] at hchanged ha
  simp only [Option.elim, Plan.add] at hchanged ha
  cases hbrings : b.bringsBound moduleName with
  | false => simp [hbrings] at hchanged
  | true =>
      refine ⟨rfl, ?_⟩
      rw [hbrings] at ha
      cases hc : s.boundClass with
      | none => simp_all
      | some c => simp_all

end Element

lemma Attr.binds_class_iff (a : Attr) :
    a.binds "class".toList = true ↔ (a.kind, a.name) = kindAndName ":class".toList := by
  have hname : kindAndName ":class".toList = (.bind, "class".toList) := by decide
  rw [hname, Attr.binds, Bool.and_eq_true, beq_iff_eq, beq_iff_eq, Prod.mk.injEq]

/-- A class binding between marks is read back exactly when its expression is free of them. -/
lemma exists_readAttr_class_iff (q : Quote) (expr rest : Text) (offset : Nat) :
    (∃ a d, readAttr ⟨offset, (":class=".toList ++ q.wrap expr) ++ rest⟩ = .ok (some (a, d)) ∧
      a.binds "class".toList = true ∧ a.value = some expr) ↔ q.mark ∉ expr := by
  have hsplit : ":class=".toList ++ q.wrap expr = ":class".toList ++ '=' :: q.wrap expr := rfl
  have hchars : ":class".toList.all isAttrNameChar = true := by decide
  simp only [hsplit, Attr.binds_class_iff]
  exact exists_readAttr_wrap_iff (by decide) (List.all_eq_true.1 hchars) q expr rest offset

/-- **When a class binding is read back as it was meant.**  Take an element of a template whose last
bound shorthand stands in quotes, whose last class binding, if there is one, stands in quotes too,
and which has no plain shorthand.  The value of the shorthand has no backslashes or backticks, and
the name of the style module has no marks at all.  Then the class binding that folding writes holds
the mark that it stands between, and is not read back with the expression it was written with,
exactly when the shorthand has single quotes and an operand without classes. -/
theorem edit_delimited_iff {base : Nat} {template shorthand moduleName : Text} {nodes : List Node}
    {attrs : List Attr} {b : Attr} {P Q : Quote} (hparse : readTemplate base template = .ok nodes)
    (hattrs : attrs ∈ Node.attrListsOf nodes)
    (hb : (Slots.lastOf shorthand attrs).boundShorthand = some b) (hP : b.quote? = some P)
    (hQ : ((Slots.lastOf shorthand attrs).boundClass.getD b).quote? = some Q)
    (hplain : (Slots.lastOf shorthand attrs).plainShorthand = none)
    (hvalue : '\\' ∉ b.valueText ∧ backtick ∉ b.valueText)
    (hmodule : moduleName.any isLiteralMark = false)
    {e : Edit} (he : e ∈ (Slots.ofAttrs shorthand attrs).edits moduleName) (ht : e.text ≠ []) :
    ∃ expr, e.text = ":class=".toList ++ Q.wrap expr ∧
      (Q.mark ∈ expr ↔ P = .single ∧ (ClassValue.ofText b.valueText).hasEmptyOperand = true) ∧
      ∀ offset rest,
        (∃ a d, readAttr ⟨offset, e.text ++ rest⟩ = .ok (some (a, d)) ∧
          a.binds "class".toList = true ∧ a.value = some expr) ↔ Q.mark ∉ expr := by
  rw [Slots.ofAttrs_eq] at he
  obtain ⟨d, hlaid⟩ := laid_of_readTemplate hparse
  have hsub := Slots.attrs_ofAttrs_subperm shorthand attrs
  rw [Slots.ofAttrs_eq] at hsub
  generalize Slots.lastOf shorthand attrs = s at *
  have hwritten : ∀ a ∈ s.attrs, a.Written := fun a ha =>
    hlaid.written a (List.mem_flatten.2 ⟨attrs, hattrs, hsub.subset ha⟩)
  -- an attribute that has been read in quotes is free of the mark around it
  have hbfacts := (hwritten b (by simp [Slots.attrs, hb])).of_quote? hP
  have hnone : s.boundClass = none → Q = P := by
    intro hc
    rw [hc, Option.getD_none, hP] at hQ
    exact (Option.some.inj hQ).symm
  have hcfacts : ∀ c, s.boundClass = some c →
      Q.mark ∉ c.valueText ∧ Quote.ofAttribute c.raw = Q := by
    intro c hc
    rw [hc, Option.getD_some] at hQ
    exact (hwritten c (by simp [Slots.attrs, hc])).of_quote? hQ
  obtain ⟨hbrings, rfl⟩ := Slots.eq_rebind_of_mem_edits hb hplain he ht
  rw [Attr.bringsBound, hbfacts.2] at hbrings
  obtain ⟨resolved, hr⟩ := Option.isSome_iff_exists.1 hbrings
  have hquote : Quote.ofAttribute (s.boundClass.getD b).raw = Q := by
    cases hc : s.boundClass with
    | none => exact hbfacts.2.trans (hnone hc).symm
    | some c => exact (hcfacts c hc).2
  have htext : ((s.boundClass.getD b).rebind (s.fold moduleName).expr).text =
      ":class=".toList ++ Q.wrap (s.fold moduleName).expr := by
    rw [Attr.rebind, hquote]
  refine ⟨_, htext, mem_expr_fold_iff hb hplain hbfacts hnone hcfacts hvalue hmodule hr, ?_⟩
  intro offset rest
  rw [htext]
  exact exists_readAttr_class_iff Q _ rest offset

/-- An operand without classes in a shorthand with double quotes does no harm, in a class binding
with single quotes. -/
theorem edit_delimited_iff_double :
    ∃ nodes, readTemplate 0 "<p :class='x' :cls=\"ok ? a : ''\">".toList = .ok nodes ∧
      ∃ attrs ∈ Node.attrListsOf nodes, ∃ e ∈ (Slots.ofAttrs "cls".toList attrs).edits "m".toList,
        e.text = ":class='[x,ok ? m[a] : \"\"]'".toList ∧ ∃ a d,
          readAttr ⟨0, e.text⟩ = .ok (some (a, d)) ∧ a.binds "class".toList = true ∧
            a.value = some "[x,ok ? m[a] : \"\"]".toList := by
  have hlists : (readTemplate 0 "<p :class='x' :cls=\"ok ? a : ''\">".toList).toOption.map
      Node.attrListsOf = some [[Attr.quoted 3 ":class".toList .single "x".toList,
        Attr.quoted 14 ":cls".toList .double "ok ? a : ''".toList]] := by
    decide +kernel
  obtain ⟨nodes, hnodes, hlists⟩ := exists_nodes_of_map hlists
  have hmem : [Attr.quoted 3 ":class".toList .single "x".toList,
      Attr.quoted 14 ":cls".toList .double "ok ? a : ''".toList] ∈ Node.attrListsOf nodes := by
    rw [hlists]
    exact List.mem_singleton_self _
  have hedits : (Slots.ofAttrs "cls".toList [Attr.quoted 3 ":class".toList .single "x".toList,
      Attr.quoted 14 ":cls".toList .double "ok ? a : ''".toList]).edits "m".toList =
      [⟨⟨3, 13⟩, ":class='[x,ok ? m[a] : \"\"]'".toList⟩, ⟨⟨14, 32⟩, []⟩] := by
    decide +kernel
  have he := hedits ▸ List.mem_cons_self
  obtain ⟨expr, htext, hmark, hread⟩ := @edit_delimited_iff 0 _ "cls".toList "m".toList nodes _
    (Attr.quoted 14 ":cls".toList .double "ok ? a : ''".toList) .double .single hnodes hmem
    (by decide +kernel) (by decide +kernel) (by decide +kernel) (by decide +kernel)
    (by decide +kernel) (by decide +kernel) _ he (by decide +kernel)
  obtain rfl : expr = "[x,ok ? m[a] : \"\"]".toList := by
    have hquoted := List.append_cancel_left (htext.symm.trans
      (show _ = ":class=".toList ++ Quote.single.wrap "[x,ok ? m[a] : \"\"]".toList from rfl))
    exact Quote.wrap_inj hquoted
  obtain ⟨a, d, hattr, hbinds, hvalue⟩ := (hread 0 []).2 fun h => absurd (hmark.1 h).1 (by decide)
  rw [List.append_nil] at hattr
  exact ⟨nodes, hnodes, _, hmem, _, he, rfl, a, d, hattr, hbinds, hvalue⟩

/-- In a shorthand with single quotes, an operand without classes ends the class binding too early:
what is read back stops in front of the empty literal. -/
theorem edit_not_delimited_single :
    ∃ nodes, readTemplate 0 "<p :cls='ok ? a : \"\"'></p>".toList = .ok nodes ∧
      Node.attrListsOf nodes = [[Attr.quoted 3 ":cls".toList .single "ok ? a : \"\"".toList]] ∧
      Slots.lastOf "cls".toList [Attr.quoted 3 ":cls".toList .single "ok ? a : \"\"".toList] =
        ⟨none, none, some (Attr.quoted 3 ":cls".toList .single "ok ? a : \"\"".toList)⟩ ∧
      (Attr.quoted 3 ":cls".toList .single "ok ? a : \"\"".toList).quote? = some .single ∧
      (Slots.ofAttrs "cls".toList
        [Attr.quoted 3 ":cls".toList .single "ok ? a : \"\"".toList]).edits "m".toList =
        [⟨⟨3, 21⟩, ":class=".toList ++ Quote.single.wrap "[ok ? m[a] : '']".toList⟩] ∧
      Quote.single.mark ∈ "[ok ? m[a] : '']".toList ∧
      (readAttr ⟨0, ":class=".toList ++ Quote.single.wrap "[ok ? m[a] : '']".toList⟩).toOption.map
        (Option.map fun r => r.1.value) = some (some (some "[ok ? m[a] : ".toList)) := by
  have hlists : (readTemplate 0 "<p :cls='ok ? a : \"\"'></p>".toList).toOption.map
      Node.attrListsOf = some [[Attr.quoted 3 ":cls".toList .single "ok ? a : \"\"".toList]] := by
    decide +kernel
  obtain ⟨nodes, hnodes, hlists⟩ := exists_nodes_of_map hlists
  refine ⟨nodes, hnodes, hlists, ?_, ?_, ?_, ?_, ?_⟩ <;> decide +kernel

end ClassFold
