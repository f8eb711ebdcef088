import ClassFold.Expr.Lookup
import ClassFold.Proofs.Expr.Parts

/-!
Quotation marks in class expressions.

Resolving an expression and combining bindings only put other characters than marks between the
parts of an expression.  This leaves two sources of marks in a resolved expression besides the
expression itself and the name of the style module: the quotes around class names, and the empty
literal that stands for an operand without classes.

* `ClassValue.hasEmptyOperand`: an operand without classes occurs somewhere in a class value.
* `mem_resolveExpression`: which marks a resolved expression has.
* `mem_combine_items`, `mem_combine_entries`: the marks of combined bindings.
* `mem_swapQuotes`: exchanging quotes exchanges the marks.
-/

namespace ClassFold

open Text

/-! ### Operands without classes -/

namespace ClassValue

/-- A string literal without class names. -/
def isEmptyLiteral : ClassValue → Bool
  | literal names => names.isEmpty
  | _ => false

mutual

/-- Whether a literal without class names stands in a place for one expression, at any depth. -/
def hasEmptyOperand : ClassValue → Bool
  | array items => anyEmptyOperand items
  | conditional _ yes no =>
    yes.isEmptyLiteral || hasEmptyOperand yes || no.isEmptyLiteral || hasEmptyOperand no
  | choice left _ right =>
    left.isEmptyLiteral || hasEmptyOperand left || right.isEmptyLiteral || hasEmptyOperand right
  | guarded _ value => value.isEmptyLiteral || hasEmptyOperand value
  | _ => false

/-- Whether this is so for one of several class values. -/
def anyEmptyOperand : List ClassValue → Bool
  | [] => false
  | v :: vs => hasEmptyOperand v || anyEmptyOperand vs

end

lemma anyEmptyOperand_eq_any (vs : List ClassValue) :
    anyEmptyOperand vs = vs.any hasEmptyOperand := by
  induction vs with
  | nil => simp [anyEmptyOperand]
  | cons v vs ih => simp [anyEmptyOperand, ih]

lemma resolveItems_eq_filterMap (style : LookupStyle) (vs : List ClassValue) :
    resolveItems style vs = vs.filterMap (resolve style) := by
  induction vs with
  | nil => simp [resolveItems]
  | cons v vs ih =>
      rw [resolveItems, ih, List.filterMap_cons]
      cases resolve style v <;> rfl

/-- Only a literal without class names becomes nothing. -/
lemma resolve_eq_none_iff (style : LookupStyle) (v : ClassValue) :
    resolve style v = none ↔ v.isEmptyLiteral = true := by
  cases v <;> simp [resolve, isEmptyLiteral]

end ClassValue

/-! ### Marks of lookups -/

/-- Lookups bring no mark `x` of their own. -/
structure LookupStyle.Avoids (style : LookupStyle) (x : Char) : Prop where
  isMark : isLiteralMark x = true
  notMem_moduleName : x ∉ style.moduleName
  ne_quote : x ≠ style.quote.mark

section Resolved

variable {x : Char} {style : LookupStyle}

lemma LookupStyle.Avoids.mem_dynamic (h : style.Avoids x) (expr : Text) :
    x ∈ style.dynamic expr ↔ x ∈ expr := by
  simp [LookupStyle.dynamic, mem_bracketed h.isMark, h.notMem_moduleName]

lemma LookupStyle.Avoids.mem_named (h : style.Avoids x) (name : Text) :
    x ∈ style.named name ↔ x ∈ name := by
  rw [LookupStyle.named, h.mem_dynamic]
  simp [Quote.wrap, h.ne_quote]

lemma Entry.notMem_keyed (hx : isLiteralMark x = true) {key value : Text} (hk : x ∉ key)
    (hv : x ∉ value) : x ∉ Entry.keyed key value := by
  have hopen : x ≠ '[' := ne_of_isLiteralMark hx (by decide)
  have hclose : x ∉ "]:".toList := notMem_of_any hx (by decide)
  rw [Entry.keyed, List.mem_append, List.cons_append, List.mem_cons, List.mem_append]
  simp only [hopen, hclose, hk, hv, or_self, not_false_eq_true]

lemma Entry.notMem_resolve_ofKeyValue (h : style.Avoids x) {key value : Text} (hk : x ∉ key)
    (hv : x ∉ value) : ∀ t ∈ (Entry.ofKeyValue key value).resolve style, x ∉ t := by
  intro t ht
  rw [Entry.ofKeyValue] at ht
  split at ht
  · rename_i expr hexpr
    obtain rfl := List.mem_singleton.1 ht
    refine notMem_keyed h.isMark ?_ hv
    rw [h.mem_dynamic, mem_trim (isBlank_of_isLiteralMark h.isMark)]
    exact fun he => hk (mem_of_between? hexpr he)
  · split at ht
    · rename_i names hnames
      obtain ⟨name, hname, rfl⟩ := List.mem_map.1 ht
      refine notMem_keyed h.isMark ?_ hv
      rw [h.mem_named]
      exact fun hn => hk (mem_of_unquote? hnames (mem_of_classNames hname hn))
    · obtain rfl := List.mem_singleton.1 ht
      refine notMem_keyed h.isMark ?_ hv
      rwa [h.mem_named]

/-- The marks of an object entry are those of the item that it is read from. -/
lemma Entry.notMem_resolve (h : style.Avoids x) {item : Text} (hx : x ∉ item) :
    ∀ t ∈ (Entry.ofText item).resolve style, x ∉ t := by
  intro t ht
  rw [Entry.ofText] at ht
  split at ht
  · obtain rfl := List.mem_singleton.1 ht
    exact hx
  · split at ht
    · rename_i key value hcut
      refine notMem_resolve_ofKeyValue h ?_ ?_ t ht
      · rw [mem_trim (isBlank_of_isLiteralMark h.isMark)]
        exact fun hk => hx (mem_of_cutFrom hcut (.inl hk))
      · rw [mem_trim (isBlank_of_isLiteralMark h.isMark)]
        exact fun hv => hx (mem_of_cutFrom hcut (.inr hv))
    · obtain rfl := List.mem_singleton.1 ht
      refine notMem_keyed h.isMark ?_ hx
      rwa [h.mem_named]

lemma notMem_resolveEntries (h : style.Avoids x) {content : Text} (hx : x ∉ content) :
    x ∉ resolveEntries style ((topItems content).map Entry.ofText) := by
  rw [resolveEntries, mem_commaJoin h.isMark]
  rintro ⟨t, ht, hxt⟩
  obtain ⟨entry, hentry, ht⟩ := List.mem_flatMap.1 ht
  obtain ⟨item, hitem, rfl⟩ := List.mem_map.1 hentry
  refine Entry.notMem_resolve h (fun hxi => hx ?_) t ht hxt
  exact (mem_topItems h.isMark content).1 ⟨item, hitem, hxi⟩

namespace ClassValue

/-- An operand without classes is written as the empty literal. -/
lemma mem_asOperand (hx : isLiteralMark x = true) (v : ClassValue) :
    x ∈ v.asOperand (resolve style v) ↔
      x = '\'' ∧ v.isEmptyLiteral = true ∨ x ∈ (resolve style v).getD [] := by
  cases hv : resolve style v with
  | none => simp [asOperand, (resolve_eq_none_iff style v).1 hv]
  | some t =>
      have hne : v.isEmptyLiteral ≠ true := by
        rw [ne_eq, ← resolve_eq_none_iff style, hv]
        simp
      rw [asOperand]
      split
      · simp [mem_bracketed hx, hne]
      · simp [hne]

/-- The items of an array have the marks of its operands without classes. -/
lemma mem_resolveItems (h : style.Avoids x) {items : List Text}
    (hitems : ∀ i ∈ items, x ∈ ((ofText i).resolve style).getD [] ↔
      x = '\'' ∧ (ofText i).hasEmptyOperand = true) :
    x ∈ commaJoin (resolveItems style (items.map ofText)) ↔
      x = '\'' ∧ anyEmptyOperand (items.map ofText) = true := by
  rw [mem_commaJoin h.isMark, resolveItems_eq_filterMap, anyEmptyOperand_eq_any, List.any_eq_true]
  constructor
  · rintro ⟨t, ht, hxt⟩
    obtain ⟨v, hv, hres⟩ := List.mem_filterMap.1 ht
    obtain ⟨i, hi, rfl⟩ := List.mem_map.1 hv
    obtain ⟨hquote, hempty⟩ := (hitems i hi).1 (by rw [hres]; exact hxt)
    exact ⟨hquote, _, hv, hempty⟩
  · rintro ⟨hquote, v, hv, hempty⟩
    obtain ⟨i, hi, rfl⟩ := List.mem_map.1 hv
    have hmem := (hitems i hi).2 ⟨hquote, hempty⟩
    cases hres : resolve style (ofText i) with
    | none => simp [hres] at hmem
    | some t => exact ⟨t, List.mem_filterMap.2 ⟨_, hv, hres⟩, by rwa [hres] at hmem⟩

/-- **The marks of a resolved value.**  A mark that neither the text nor the style brings in comes
from an operand without classes. -/
theorem mem_resolve (h : style.Avoids x) {s : Text} (hx : x ∉ s) :
    x ∈ ((ofText s).resolve style).getD [] ↔
      x = '\'' ∧ (ofText s).hasEmptyOperand = true := by
  have hblank := isBlank_of_isLiteralMark h.isMark
  -- along the recursion of `ofText`: the parts of a text are free of `x` when the text is
  fun_induction ofText s with
  | case1 s body hbody =>
      have hnames : x ∉ commaJoin ((classNames body).map style.named) := by
        rw [mem_commaJoin h.isMark]
        rintro ⟨t, ht, hxt⟩
        obtain ⟨name, hname, rfl⟩ := List.mem_map.1 ht
        rw [h.mem_named] at hxt
        exact hx ((mem_trim hblank).1 (mem_of_unquote? hbody (mem_of_classNames hname hxt)))
      rw [resolve]
      split <;> simp [hasEmptyOperand, hnames]
  | case2 s hbody content hb =>
      have hcontent := Binding.mem_content h.isMark s
      rw [hb, Binding.content] at hcontent
      have hentries := notMem_resolveEntries h (fun hc => hx (hcontent.1 hc))
      simp [resolve, mem_braced h.isMark, hasEmptyOperand, hentries]
  | case3 s hbody content hb ih =>
      have hcontent := Binding.mem_content h.isMark s
      rw [hb, Binding.content] at hcontent
      have hitems := mem_resolveItems h fun i hi => ih i hi fun hxi =>
        hx (hcontent.1 ((mem_topItems h.isMark content).1 ⟨i, hi, hxi⟩))
      have hmap : ((topItems content).attach.map fun i => ofText i.1) =
          (topItems content).map ofText := List.attach_map_val
      rw [hmap, resolve, hasEmptyOperand, ← hitems, Option.getD_some, mem_bracketed h.isMark]
  | case4 s hbody e hb test yes no hc ih1 ih2 =>
      have hparts := eq_of_splitConditional hc
      rw [← mem_trim hblank, hparts] at hx
      simp only [List.mem_append, List.mem_cons, not_or] at hx
      obtain ⟨⟨htest, -, hyes⟩, -, hno⟩ := hx
      have hask : x ∉ " ? ".toList := notMem_of_any h.isMark (by decide)
      have helse : x ∉ " : ".toList := notMem_of_any h.isMark (by decide)
      simp only [resolve, hasEmptyOperand, Option.getD_some, List.mem_append, mem_trim hblank,
        mem_asOperand h.isMark, ih1 hyes, ih2 hno, htest, hask, helse, Bool.or_eq_true]
      grind
  | case5 s hbody e hb hc left op right ho ih1 ih2 =>
      rw [← mem_trim hblank] at hx
      have hleft : x ∉ left := fun hl => hx (mem_of_splitLast hblank ho (.inl hl))
      have hright : x ∉ right := fun hr => hx (mem_of_splitLast hblank ho (.inr hr))
      have hspace : x ≠ ' ' := ne_of_isLiteralMark h.isMark (by decide)
      have hop : x ∉ op.text := notMem_of_any h.isMark (by cases op <;> decide)
      simp only [resolve, hasEmptyOperand, Option.getD_some, List.mem_append, List.mem_cons,
        mem_asOperand h.isMark, ih1 hleft, ih2 hright, hspace, hop, Bool.or_eq_true]
      grind
  | case6 s hbody e hb hc ho test op value ha ih =>
      rw [← mem_trim hblank] at hx
      have htest : x ∉ test := fun hl => hx (mem_of_splitLast hblank ha (.inl hl))
      have hvalue : x ∉ value := fun hr => hx (mem_of_splitLast hblank ha (.inr hr))
      have hand : x ∉ " && ".toList := notMem_of_any h.isMark (by decide)
      simp only [resolve, hasEmptyOperand, Option.getD_some, List.mem_append,
        mem_asOperand h.isMark, ih hvalue, htest, hand, Bool.or_eq_true]
      grind
  | case7 s hbody e hb hc ho ha =>
      have htrim : x ∉ trim s := by rwa [mem_trim hblank]
      simp [resolve, hasEmptyOperand, h.mem_dynamic, htrim]

/-- The outer delimiters are no marks. -/
lemma mem_resolveContent (hx : isLiteralMark x = true) (v : ClassValue) :
    x ∈ (v.resolveContent style).getD [] ↔ x ∈ (v.resolve style).getD [] := by
  cases v with
  | object entries => simp [resolveContent, resolve, mem_braced hx]
  | array items => simp [resolveContent, resolve, mem_bracketed hx]
  | literal names => rfl
  | conditional test yes no => rfl
  | choice left op right => rfl
  | guarded test value => rfl
  | dynamic expr => rfl

end ClassValue

/-- **The marks of a resolved expression.** -/
theorem mem_resolveExpression (h : style.Avoids x) {expr resolved : Text} (hx : x ∉ expr)
    (hr : resolveExpression style expr = some resolved) :
    x ∈ resolved ↔ x = '\'' ∧ (ClassValue.ofText expr).hasEmptyOperand = true := by
  rw [resolveExpression] at hr
  split at hr
  · simp at hr
  · have hcontent := (Option.filter_eq_some_iff.1 hr).1
    rw [← ClassValue.mem_resolve h hx, ← ClassValue.mem_resolveContent h.isMark, hcontent]
    rfl

end Resolved

/-! ### Marks of combined bindings -/

section Combined

variable {x : Char}

lemma mem_leading (hx : isLiteralMark x = true) (content : Text) :
    x ∈ leading content ↔ x ∈ content := by
  have hcomma : x ≠ ',' := ne_of_isLiteralMark hx (by decide)
  rw [leading]
  split
  · rename_i hall
    have hnot : x ∉ content := by
      intro hmem
      have hblank := List.all_eq_true.1 hall x hmem
      rw [isBlank_of_isLiteralMark hx] at hblank
      simp at hblank
    simp [hnot]
  · simp [hcomma]

lemma mem_booleanEntry (hx : isLiteralMark x = true) (expr : Text) :
    x ∈ booleanEntry expr ↔ x ∈ expr := by
  have hopen : x ≠ '[' := ne_of_isLiteralMark hx (by decide)
  have hrest : x ∉ "]:true".toList := notMem_of_any hx (by decide)
  rw [booleanEntry, List.cons_append, List.mem_cons, List.mem_append]
  simp only [hopen, hrest, false_or, or_false]

lemma mem_commaJoin_booleanEntry (hx : isLiteralMark x = true) (list : List Text) :
    x ∈ commaJoin (list.map booleanEntry) ↔ ∃ i ∈ list, x ∈ i := by
  rw [mem_commaJoin hx]
  simp [mem_booleanEntry hx]

/-- Items are added with their marks. -/
lemma mem_combine_items (hx : isLiteralMark x = true) (destination : Text) (list : List Text) :
    x ∈ combine destination (.items list) ↔ x ∈ destination ∨ ∃ i ∈ list, x ∈ i := by
  rw [combine, ← Binding.mem_content hx destination]
  cases Binding.ofText destination with
  | object content =>
      rw [Binding.combine, mem_braced hx, List.mem_append, mem_leading hx,
        mem_commaJoin_booleanEntry hx, Binding.content]
  | array content =>
      rw [Binding.combine, mem_bracketed hx, List.mem_append, mem_leading hx,
        mem_commaJoin hx, Binding.content]
  | plain expr =>
      rw [Binding.combine, mem_bracketed hx, List.mem_append, mem_leading hx,
        mem_commaJoin hx, Binding.content]

/-- Object entries are added with their marks. -/
lemma mem_combine_entries (hx : isLiteralMark x = true) (destination text : Text) :
    x ∈ combine destination (.entries text) ↔ x ∈ destination ∨ x ∈ text := by
  have hcomma : x ≠ ',' := ne_of_isLiteralMark hx (by decide)
  rw [combine, ← Binding.mem_content hx destination]
  cases Binding.ofText destination with
  | object content =>
      rw [Binding.combine, mem_braced hx, List.mem_append, mem_leading hx, Binding.content]
  | array content =>
      rw [Binding.combine, mem_braced hx, List.mem_append, mem_leading hx, entriesOfItems,
        mem_commaJoin_booleanEntry hx, mem_topItems hx, Binding.content]
  | plain expr =>
      rw [Binding.combine, mem_braced hx, Binding.content]
      split
      · rename_i hexpr
        simp [List.isEmpty_iff.1 hexpr]
      · rw [List.mem_append, mem_booleanEntry hx, List.mem_cons]
        simp only [hcomma, false_or]

end Combined

/-! ### Exchanging quotes -/

/-- Without backslashes and backticks, every quotation mark is exchanged. -/
lemma swapQuotes_eq_map {s : Text} (hslash : '\\' ∉ s) (htick : backtick ∉ s) :
    swapQuotes s = s.map swapMark := by
  rw [swapQuotes]
  induction s with
  | nil => rfl
  | cons c s ih =>
      rw [List.mem_cons, not_or] at hslash htick
      simp [swapQuotesFrom, Ne.symm hslash.1, Ne.symm htick.1, ih hslash.2 htick.2]

lemma swapMark_eq_mark_iff (c : Char) (q : Quote) : swapMark c = q.mark ↔ c = q.opposite.mark := by
  rw [swapMark]
  split
  · rename_i h
    subst h
    cases q <;> decide
  · split
    · rename_i h
      subst h
      cases q <;> decide
    · rename_i hsingle hdouble
      cases q <;> simp [Quote.mark, Quote.opposite, hsingle, hdouble]

lemma mem_swapQuotes {s : Text} (hslash : '\\' ∉ s) (htick : backtick ∉ s) (q : Quote) :
    q.mark ∈ swapQuotes s ↔ q.opposite.mark ∈ s := by
  rw [swapQuotes_eq_map hslash htick, List.mem_map]
  simp only [swapMark_eq_mark_iff, exists_eq_right]

end ClassFold
