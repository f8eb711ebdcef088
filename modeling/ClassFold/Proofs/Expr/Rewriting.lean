import ClassFold.Proofs.Expr.Legible

/-!
Written class expressions are rewritten as their structure says.

A written expression is read back as the class value that it stands for
(`ClassSource.ofText_print`): each reader finds the operator of the grammar, at every level of
nesting.  Class values are resolved piece by piece, as the expression is rewritten
(`ClassSource.resolve_value`).  Together this is `resolveExpression_print`.
-/

namespace ClassFold

open Text Nesting

/-! ### Reading back -/

namespace ClassValue

/-- The class value of a text, without the bounds on the size of its parts. -/
lemma ofText_eq (s : Text) : ofText s =
    match unquote? (trim s) with
    | some body => literal (classNames body)
    | none =>
      match Binding.ofText s with
      | .object content => object ((topItems content).map Entry.ofText)
      | .array content => array ((topItems content).map ofText)
      | .plain _ =>
        match splitConditional (trim s) with
        | some (test, yes, no) => conditional (trim test) (ofText yes) (ofText no)
        | none =>
          match splitLast [.or, .nullish] (trim s) with
          | some (left, op, right) => choice (ofText left) op (ofText right)
          | none =>
            match splitLast [.and] (trim s) with
            | some (test, _, value) => guarded test (ofText value)
            | none => dynamic (trim s) := by
  rw [ofText]
  cases unquote? (trim s) with
  | some body => rfl
  | none =>
      simp only
      split
      · simp_all
      · simp_all
      · rename_i hb
        simp only [hb]
        split
        · simp_all
        · rename_i hc
          simp only [hc]
          split
          · simp_all
          · rename_i ho
            simp only [ho]
            split <;> simp_all

lemma ofText_of_trim {s t : Text} (h : trim s = t) (ht : Solid t) : ofText s = ofText t := by
  have hbinding : Binding.ofText s = Binding.ofText t := by
    rw [Binding.ofText, Binding.ofText, h, ht.trim_self]
  rw [ofText_eq, ofText_eq t, hbinding, h, ht.trim_self]

end ClassValue

/-- A text that starts neither with a bracket nor with a literal that is all there is. -/
inductive Leading : Text → Prop where
  | plain {c : Char} (hc : isPlain c = true) (s : Text) : Leading (c :: s)
  | literal {mark : Char} (hm : isMark mark = true) (body : Text) {s : Text} (hs : s ≠ []) :
      Leading (mark :: (body ++ mark :: s))

namespace Leading

variable {s : Text}

lemma append (h : Leading s) (t : Text) : Leading (s ++ t) := by
  cases h with
  | plain hc s => exact .plain hc (s ++ t)
  | literal hm body hs =>
      simpa using Leading.literal hm body (List.append_ne_nil_of_left_ne_nil hs t)

lemma head (h : Leading s) : s.head? ≠ some '{' ∧ s.head? ≠ some '[' := by
  cases h with
  | plain hc s =>
      obtain ⟨-, hbrace, hbracket⟩ := isMark_of_isPlain hc
      simp [hbrace, hbracket]
  | literal hm body hs =>
      constructor
      · rintro ⟨⟩
        exact absurd hm (by decide)
      · rintro ⟨⟩
        exact absurd hm (by decide)

/-- A literal with more behind it is no literal as a whole. -/
lemma unquote?_eq_none (h : Leading s) : unquote? s = none := by
  cases h with
  | plain hc s => exact unquote?_eq_none_of_head (by simp [(isMark_of_isPlain hc).1])
  | @literal mark hm body s hs =>
      rw [unquote?, List.head?_cons]
      simp only [hm, if_true]
      rw [Option.filter_eq_none_iff]
      intro inside hinside
      have hshape := (List.cons.inj (between?_eq_some.1 hinside)).2
      rw [← List.dropLast_append_getLast hs, ← List.cons_append, ← List.append_assoc] at hshape
      obtain ⟨rfl, -⟩ := List.append_inj' hshape rfl
      simp

lemma ofText_eq (h : Leading s) (hs : Solid s) : ClassValue.ofText s =
    match splitConditional s with
    | some (test, yes, no) => .conditional (trim test) (.ofText yes) (.ofText no)
    | none =>
      match splitLast [.or, .nullish] s with
      | some (left, op, right) => .choice (.ofText left) op (.ofText right)
      | none =>
        match splitLast [.and] s with
        | some (test, _, value) => .guarded test (.ofText value)
        | none => .dynamic s := by
  have hbinding : Binding.ofText s = .plain s := by
    rw [Binding.ofText, hs.trim_self, between?_eq_none_of_head h.head.1,
      between?_eq_none_of_head h.head.2]
  rw [ClassValue.ofText_eq, hs.trim_self, h.unquote?_eq_none, hbinding]

end Leading

namespace ClassSource

lemma leading_test (t : Test) : Leading t.print := by
  have hfirst : Leading t.first.text := by
    obtain ⟨c, hc, hplain, -⟩ := t.first.head
    obtain ⟨s, hs⟩ := List.head?_eq_some_iff.1 hc
    rw [hs]
    exact .plain hplain s
  have hfold (more : List (Operator × Ident)) {s : Text} (hs : Leading s) :
      Leading (more.foldl (fun s p => printBinary s p.1 p.2.text) s) := by
    induction more generalizing s with
    | nil => exact hs
    | cons p more ih => exact ih (hs.append _)
  exact hfold t.more hfirst

/-- Operators and names do not start like a bracket or like a single literal. -/
lemma leading_print (layout : Layout) {v : ClassSource} (hv : v.isWellFormed = true)
    (hdelimited : v.isDelimited = false) (hliteral : ∀ q names, v ≠ .literal q names) :
    Leading (v.print layout) := by
  cases v with
  | ident x => simpa [print, Test.print] using leading_test ⟨x, []⟩
  | literal q names => exact absurd rfl (hliteral q names)
  | array items => simp [isDelimited] at hdelimited
  | object entries => simp [isDelimited] at hdelimited
  | guarded first more value =>
      rw [print]
      exact (leading_test (Test.all first more)).append _
  | conditional test yes no =>
      rw [print]
      exact (leading_test test).append _
  | choice left op right =>
      simp only [isWellFormed, Bool.and_eq_true] at hv
      rw [print, printBinary]
      by_cases hl : ∃ q names, left = .literal q names
      · obtain ⟨q, names, rfl⟩ := hl
        have hmore := Leading.literal q.isMark_mark (joinWith ' ' (names.map ClassToken.text))
          (List.cons_ne_nil ' ' (op.text ++ ' ' :: right.print layout))
        simpa [print, printLiteral, Quote.wrap] using hmore
      · have hleft : left.isDelimited = false := by
          have := hv.1.1.1.1
          cases left <;> simp_all [isLeftOperand, isDelimited]
        exact (leading_print layout hv.1.2 hleft fun q names h => hl ⟨q, names, h⟩).append _

/-- An operand exposes neither `||` nor `??`. -/
lemma Legible.notMem_mark {layout : Layout} {v : ClassSource} (h : Legible layout v)
    (hv : v.isOperand = true) :
    ∀ o ∈ [Operator.or, .nullish], o.mark ∉ top.exposed (v.print layout) := by
  intro o ho hmem
  rcases h.operand hv _ hmem with hc | hc | hc
  · cases o <;> exact absurd hc (by decide)
  · exact o.mark_ne_space hc
  · cases o <;> simp_all [Operator.mark]

mutual

/-- **A written expression is read back** as the class value that it stands for. -/
theorem ofText_print (layout : Layout) {v : ClassSource} (hv : v.isWellFormed = true) :
    ClassValue.ofText (v.print layout) = v.value := by
  have hlegible := legible layout hv
  have hsolid := hlegible.item.solid
  cases v with
  | ident x =>
      have hlead := leading_print layout hv rfl (by simp)
      have hword := hlegible.atom rfl
      rw [hlead.ofText_eq hsolid, splitConditional_eq_none hword.unasking,
        splitLast_eq_none fun o _ => hword.notMem (by cases o <;> decide),
        splitLast_eq_none fun o _ => hword.notMem (by cases o <;> decide)]
      simp [print, value]
  | literal q names =>
      rw [ClassValue.ofText_eq, hsolid.trim_self, print, unquote?_literal]
      simp only [classNames_join, value]
  | array items =>
      have hitems : areWellFormed items = true := by simpa [isWellFormed] using hv
      rw [ClassValue.ofText_eq, hsolid.trim_self, print, Binding.ofText_bracketed,
        unquote?_eq_none_of_head (by simp [bracketed, isMark, backtick])]
      simp only [layout.topItems_list (isItem_of_mem layout hitems),
        map_ofText_printAll layout hitems, value]
  | object entries =>
      have hitems : ∀ p ∈ entries.map (EntrySource.print layout), IsItem p := by
        intro p hp
        obtain ⟨e, -, rfl⟩ := List.mem_map.1 hp
        exact e.isItem_print layout
      rw [ClassValue.ofText_eq, hsolid.trim_self, print, Binding.ofText_braced,
        unquote?_eq_none_of_head (by simp [braced, isMark, backtick])]
      simp only [layout.topItems_list hitems, List.map_map, value]
      congr 1
      exact List.map_congr_left fun e _ => e.ofText_print layout
  | guarded first more v =>
      have hwf := hv
      simp only [isWellFormed, Bool.and_eq_true] at hwf
      have hword := (legible layout hwf.2).atom hwf.1
      have hguard := (Test.all first more).isTest
      rw [(leading_print layout hv rfl (by simp)).ofText_eq hsolid,
        splitConditional_eq_none (hlegible.unasking rfl),
        splitLast_eq_none (hlegible.notMem_mark rfl), print, printBinary,
        splitLast_eq (by simp) hguard.solid hguard.balanced hword.solid
          fun o _ => hword.notMem (by cases o <;> decide)]
      simp only [ofText_print layout hwf.2, value]
  | choice left op right =>
      have hwf := hv
      simp only [isWellFormed, Bool.and_eq_true, bne_iff_ne] at hwf
      obtain ⟨⟨⟨⟨-, hop⟩, hoperand⟩, hleft⟩, hright⟩ := hwf
      have hl := (legible layout hleft).item
      have hr := legible layout hright
      have hmem : op ∈ [Operator.or, .nullish] := by cases op <;> simp_all
      rw [(leading_print layout hv rfl (by simp)).ofText_eq hsolid,
        splitConditional_eq_none (hlegible.unasking rfl), print, printBinary,
        splitLast_eq hmem hl.solid hl.balanced hr.item.solid (hr.notMem_mark hoperand)]
      simp only [ofText_print layout hleft, ofText_print layout hright, value]
  | conditional test yes no =>
      have hwf := hv
      simp only [isWellFormed, Bool.and_eq_true] at hwf
      have ht := test.isTest
      have hyes := legible layout hwf.1
      have hno := (legible layout hwf.2).item.solid
      have hblank : ∀ c ∈ [' '], isBlank c = true := List.forall_mem_singleton.2 rfl
      have htrimTest : trim (test.print ++ [' ']) = test.print :=
        @Solid.trim_eq _ [] [' '] ht.solid (by simp) hblank
      have htrimYes : trim (' ' :: (yes.print layout ++ [' '])) = yes.print layout :=
        @Solid.trim_eq _ [' '] [' '] hyes.item.solid hblank hblank
      have htrimNo : trim (' ' :: no.print layout) = no.print layout := trim_spaces hno 1
      rw [(leading_print layout hv rfl (by simp)).ofText_eq hsolid, print, printConditional,
        splitConditional_eq ht.unasking ht.balanced hyes.even hyes.item.balanced]
      simp only [ClassValue.ofText_of_trim htrimYes hyes.item.solid,
        ClassValue.ofText_of_trim htrimNo hno, ofText_print layout hwf.1,
        ofText_print layout hwf.2, htrimTest, value]

/-- Written expressions are read back one by one. -/
theorem map_ofText_printAll (layout : Layout) {vs : List ClassSource}
    (hvs : areWellFormed vs = true) :
    (printAll layout vs).map ClassValue.ofText = valuesOf vs := by
  cases vs with
  | nil => simp [printAll, valuesOf]
  | cons v vs =>
      simp only [areWellFormed, Bool.and_eq_true] at hvs
      rw [printAll, List.map_cons, ofText_print layout hvs.1, map_ofText_printAll layout hvs.2,
        valuesOf]

end

/-! ### Resolving piece by piece -/

/-- Items that are joined already can be joined with others. -/
lemma joinWith_joinWith {sep : Char} {group : List Text} (hne : group ≠ []) (xs ys : List Text) :
    joinWith sep (xs ++ joinWith sep group :: ys) = joinWith sep (xs ++ (group ++ ys)) := by
  induction xs with
  | cons x xs ih =>
      rw [List.cons_append, List.cons_append, joinWith_cons x (by simp),
        joinWith_cons x (by simp [hne]), ih]
  | nil =>
      fun_induction joinWith sep group with
      | case1 => exact absurd rfl hne
      | case2 x => rfl
      | case3 x x' group ih =>
          have hmore := ih (by simp)
          cases ys with
          | nil => simp [joinWith]
          | cons y ys =>
              simp only [List.nil_append] at hmore ⊢
              rw [joinWith_cons _ (by simp)] at hmore ⊢
              rw [List.cons_append, joinWith_cons x (by simp), ← hmore]
              simp

/-- Groups of items that are joined one by one come to one list. -/
lemma commaJoin_groups (xs : List Text) (groups : List (List Text)) :
    commaJoin (xs ++ (groups.filter (!·.isEmpty)).map commaJoin) =
      commaJoin (xs ++ groups.flatten) := by
  induction groups generalizing xs with
  | nil => rfl
  | cons group groups ih =>
      by_cases hne : group = []
      · simpa [hne] using ih xs
      · have hfilter : (group :: groups).filter (!·.isEmpty) =
            group :: groups.filter (!·.isEmpty) := by
          rw [List.filter_cons, if_pos (by simpa using hne)]
        rw [hfilter, List.map_cons, commaJoin, commaJoin, joinWith_joinWith hne, List.flatten_cons,
          ← List.append_assoc, ← List.append_assoc]
        exact ih (xs ++ group)

/-- The items that an expression becomes in an array. -/
def items (style : LookupStyle) : ClassSource → List Text
  | literal _ names => lookups style names
  | v => [operand style v]

/-- The items of an array, expression by expression. -/
lemma commaJoin_itemsOf (style : LookupStyle) (vs : List ClassSource) :
    commaJoin (((vs.map (items style)).filter (!·.isEmpty)).map commaJoin) =
      commaJoin (itemsOf style vs) := by
  have hflatten : itemsOf style vs = (vs.map (items style)).flatten := by
    induction vs with
    | nil => simp [itemsOf]
    | cons v vs ih => cases v <;> simp [itemsOf, items, ih]
  rw [hflatten]
  exact commaJoin_groups [] (vs.map (items style))

section Resolved

variable (moduleName : Ident) (quote : Quote)

lemma isWord_named (name : ClassToken) :
    IsWord (LookupStyle.named ⟨moduleName.text, quote⟩ name.text) := by
  have hliteral := isWord_literal quote [name]
  have hlookup : IsWord (bracketed (quote.wrap name.text)) :=
    isWord_brackets (by decide) (by decide) hliteral.balanced
  exact moduleName.isWord.append hlookup

lemma topItems_lookups (names : List ClassToken) :
    topItems (commaJoin (lookups ⟨moduleName.text, quote⟩ names)) =
      lookups ⟨moduleName.text, quote⟩ names := by
  have hitems : ∀ p ∈ lookups ⟨moduleName.text, quote⟩ names, IsItem p := by
    intro p hp
    obtain ⟨name, -, rfl⟩ := List.mem_map.1 hp
    exact (isWord_named moduleName quote name).isItem
  have h := @topItems_listing _ hitems [] [] [] (by simp) (by simp) (by simp)
  simpa [commaGap_nil] using h

/-- A literal in a place for one expression. -/
lemma asOperand_literal (names : List ClassToken) (old : List Text) :
    (ClassValue.literal old).asOperand
        (if (lookups ⟨moduleName.text, quote⟩ names).isEmpty then none
          else some (commaJoin (lookups ⟨moduleName.text, quote⟩ names))) =
      oneOf (lookups ⟨moduleName.text, quote⟩ names) := by
  have hitems := topItems_lookups moduleName quote names
  generalize lookups ⟨moduleName.text, quote⟩ names = list at hitems ⊢
  match list with
  | [] => rfl
  | [lookup] =>
      have hone : topItems lookup = [lookup] := hitems
      simp [ClassValue.asOperand, oneOf, commaJoin, joinWith, hone]
  | lookup :: lookup' :: more => simp [ClassValue.asOperand, ClassValue.isLiteral, oneOf, hitems]

/-- What a resolved expression looks like in a place for one expression. -/
lemma asOperand_value {v : ClassSource}
    (h : v.value.resolve ⟨moduleName.text, quote⟩ =
      if (v.items ⟨moduleName.text, quote⟩).isEmpty then none
      else some (commaJoin (v.items ⟨moduleName.text, quote⟩))) :
    v.value.asOperand (v.value.resolve ⟨moduleName.text, quote⟩) =
      v.operand ⟨moduleName.text, quote⟩ := by
  rw [h]
  cases v with
  | literal q names => exact asOperand_literal moduleName quote names _
  | ident x => rfl
  | array vs => rfl
  | object entries => rfl
  | guarded first more v => rfl
  | choice left op right => rfl
  | conditional test yes no => rfl

lemma resolveEntries_entry (style : LookupStyle) (entries : List EntrySource) :
    resolveEntries style (entries.map EntrySource.entry) =
      commaJoin (entries.flatMap (EntrySource.rewritten style)) := by
  rw [resolveEntries, List.flatMap_map]
  congr 1
  refine List.flatMap_congr fun e _ => ?_
  cases e <;> simp [EntrySource.entry, Entry.resolve, EntrySource.rewritten]

mutual

/-- **Class values are resolved** as the expressions they stand for are rewritten. -/
theorem resolve_value (v : ClassSource) :
    v.value.resolve ⟨moduleName.text, quote⟩ =
      if (v.items ⟨moduleName.text, quote⟩).isEmpty then none
      else some (commaJoin (v.items ⟨moduleName.text, quote⟩)) := by
  cases v with
  | ident x => rfl
  | literal q names => simp [value, ClassValue.resolve, items, lookups, Function.comp_def]
  | array vs =>
      rw [value, ClassValue.resolve, resolveItems_values vs, commaJoin_itemsOf]
      rfl
  | object entries =>
      rw [value, ClassValue.resolve, resolveEntries_entry]
      rfl
  | guarded first more v =>
      rw [value, ClassValue.resolve, asOperand_value moduleName quote (resolve_value v)]
      simp [items, operand, printBinary, Operator.text, Operator.mark, commaJoin, joinWith]
  | choice left op right =>
      rw [value, ClassValue.resolve, asOperand_value moduleName quote (resolve_value left),
        asOperand_value moduleName quote (resolve_value right)]
      simp [items, operand, printBinary, commaJoin, joinWith]
  | conditional test yes no =>
      rw [value, ClassValue.resolve, asOperand_value moduleName quote (resolve_value yes),
        asOperand_value moduleName quote (resolve_value no)]
      simp [items, operand, printConditional, commaJoin, joinWith]

/-- The items of an array are resolved one by one. -/
theorem resolveItems_values (vs : List ClassSource) :
    ClassValue.resolveItems ⟨moduleName.text, quote⟩ (valuesOf vs) =
      ((vs.map (items ⟨moduleName.text, quote⟩)).filter (!·.isEmpty)).map commaJoin := by
  cases vs with
  | nil => simp [valuesOf, ClassValue.resolveItems]
  | cons v vs =>
      rw [valuesOf, ClassValue.resolveItems, resolve_value v, resolveItems_values vs,
        List.map_cons, List.filter_cons]
      cases (v.items ⟨moduleName.text, quote⟩).isEmpty <;> simp

end

lemma commaJoin_resolveItems (vs : List ClassSource) :
    commaJoin (ClassValue.resolveItems ⟨moduleName.text, quote⟩ (valuesOf vs)) =
      commaJoin (itemsOf ⟨moduleName.text, quote⟩ vs) := by
  rw [resolveItems_values, commaJoin_itemsOf]

/-- An expression without outer delimiters is resolved as it is in an array. -/
lemma resolveContent_of_not_isDelimited {v : ClassSource} (hv : v.isDelimited = false)
    (style : LookupStyle) :
    v.value.resolveContent style = v.value.resolve style ∧
      v.content style = commaJoin (v.items style) := by
  cases v with
  | array vs => simp [isDelimited] at hv
  | object entries => simp [isDelimited] at hv
  | literal q names => exact ⟨rfl, rfl⟩
  | ident x => exact ⟨rfl, rfl⟩
  | guarded first more v => exact ⟨rfl, rfl⟩
  | choice left op right => exact ⟨rfl, rfl⟩
  | conditional test yes no => exact ⟨rfl, rfl⟩

lemma resolveContent_value (v : ClassSource) :
    (v.value.resolveContent ⟨moduleName.text, quote⟩).filter (!·.isEmpty) =
      v.rewritten ⟨moduleName.text, quote⟩ := by
  have hfilter (t : Text) : (some t).filter (!·.isEmpty) = if t.isEmpty then none else some t := by
    cases h : t.isEmpty <;> simp [Option.filter_some, h]
  rw [rewritten]
  by_cases hv : v.isDelimited = true
  · cases v with
    | array vs =>
        rw [value, ClassValue.resolveContent, commaJoin_resolveItems, hfilter, content]
    | object entries =>
        rw [value, ClassValue.resolveContent, resolveEntries_entry, hfilter, content]
    | _ => simp [isDelimited] at hv
  · obtain ⟨hresolve, hcontent⟩ :=
      resolveContent_of_not_isDelimited (by simpa using hv) ⟨moduleName.text, quote⟩
    rw [hresolve, resolve_value, hcontent]
    cases v.items ⟨moduleName.text, quote⟩ with
    | nil => rfl
    | cons item items => exact hfilter _

end Resolved

end ClassSource

/-- **Class expressions are rewritten as their structure says.**  For every well-formed expression,
written in any layout, every name of a style module and every quotation mark, resolving the text is
rewriting the expression: names become lookups, a literal becomes one lookup for each class name,
and conditions, values of entries and spreads stay as they are, at every level of nesting. -/
theorem resolveExpression_print (layout : Layout) (v : ClassSource) (h : v.isWellFormed = true)
    (moduleName : Ident) (quote : Quote) :
    resolveExpression ⟨moduleName.text, quote⟩ (v.print layout) =
      v.rewritten ⟨moduleName.text, quote⟩ := by
  have hblank : allBlank (v.print layout) = false := by
    obtain ⟨c, hc, hnot⟩ := (ClassSource.legible layout h).item.solid.head
    rw [allBlank, List.all_eq_false]
    exact ⟨c, List.mem_of_mem_head? hc, by simp [hnot]⟩
  rw [resolveExpression, hblank, ClassSource.ofText_print layout h]
  exact ClassSource.resolveContent_value moduleName quote v

/-- An array of a conditional with operators in its test and its branches, a literal with two names
and an object with an entry of each kind. -/
def nestedSource : ClassSource :=
  .array
    [.conditional ⟨⟨"ok".toList, by decide⟩, [(.nullish, ⟨"b.c".toList, by decide⟩)]⟩
      (.choice
        (.guarded ⟨"a".toList, by decide⟩ []
          (.literal .single [⟨"c".toList, by decide⟩, ⟨"d:e".toList, by decide⟩]))
        .or (.array [.ident ⟨"x".toList, by decide⟩, .literal .single []]))
      (.literal .single []),
    .literal .single [⟨"e".toList, by decide⟩, ⟨"f".toList, by decide⟩],
    .object
      [.named ⟨"k".toList, by decide⟩ (.conditional ⟨"p".toList, by decide⟩
        ⟨"q".toList, by decide⟩ ⟨"r".toList, by decide⟩),
      .quoted .single [⟨"g".toList, by decide⟩, ⟨"h".toList, by decide⟩]
        (.ident ⟨"y".toList, by decide⟩),
      .computed ⟨"u".toList, by decide⟩ (.ident ⟨"v".toList, by decide⟩),
      .shorthand ⟨"s".toList, by decide⟩, .spread ⟨"z".toList, by decide⟩]]

theorem resolveExpression_print_nested :
    nestedSource.isWellFormed = true ∧
      nestedSource.print ⟨0, 1, 1⟩ =
        "[ok ?? b.c ? a && 'c d:e' || [x, ''] : '', 'e f', ".toList ++
          "\x7bk: p ? q : r, 'g h': y, [u]: v, s, ...z\x7d]".toList ∧
      resolveExpression ⟨"m".toList, .double⟩ (nestedSource.print ⟨0, 1, 1⟩) =
        some ("ok ?? b.c ? a && [m[\"c\"],m[\"d:e\"]] || [m[x]] : '',m[\"e\"],m[\"f\"],".toList ++
          "\x7b[m[\"k\"]]:p ? q : r,[m[\"g\"]]:y,[m[\"h\"]]:y,".toList ++
          "[m[u]]:v,[m[\"s\"]]:s,...z\x7d".toList) := by
  refine ⟨by decide, by decide, ?_⟩
  exact (resolveExpression_print ⟨0, 1, 1⟩ nestedSource (by decide) ⟨"m".toList, by decide⟩
    .double).trans (by decide)

end ClassFold
