import ClassFold.Proofs.Expr.Items
import ClassFold.Proofs.Expr.Marks
import ClassFold.Proofs.Expr.Rewriting

/-!
Expressions without classes.

A shorthand that holds no class is removed without a trace, so it matters which expressions these
are.  `Classless` lists them by what is written: blanks, a literal without class names, an array of
such literals, and an object whose keys are such literals.

* `unquote?_eq_some_iff`, `cutFrom_eq_some_iff`: what literals and cuts look like.
* `ClassValue.resolve_ofText_eq_none_iff`: a class value becomes nothing if it is a literal without
  class names.
* `Entry.resolve_ofText_eq_nil_iff`: an entry becomes nothing if its key is one.
* `resolveExpression_eq_none_iff`: an expression resolves to nothing if and only if it is classless,
  whatever the style module and the marks; it never resolves to an empty text.
-/

namespace ClassFold

open Text Nesting

/-! ### Literals and class names -/

/-- A plain string literal and what stands between its marks: the mark does not occur there, and
between backticks there is no substitution. -/
inductive IsLiteral : Text → Text → Prop where
  | intro {mark : Char} {body : Text} (isMark : isMark mark = true) (closed : mark ∉ body)
      (plain : mark = backtick → Free ['$', '{'] body) : IsLiteral (mark :: (body ++ [mark])) body

lemma unquote?_eq_some_iff {s body : Text} : unquote? s = some body ↔ IsLiteral s body := by
  have hsub (t : Text) : (cut? ['$', '{'] t).isSome = false ↔ Free ['$', '{'] t := by
    rw [Option.isSome_eq_false_iff, Option.isNone_iff_eq_none]
    constructor
    · exact free_of_cut?_eq_none (by simp)
    · intro hfree
      by_contra hcut
      obtain ⟨⟨a, b⟩, hab⟩ := Option.ne_none_iff_exists'.1 hcut
      exact hfree ⟨a, b, (eq_of_cut? hab).symm⟩
  constructor
  · intro h
    cases s with
    | nil => simp [unquote?] at h
    | cons mark s =>
        rw [unquote?] at h
        simp only [List.head?_cons] at h
        split at h
        · rename_i hmark
          obtain ⟨hbetween, hbody⟩ := Option.filter_eq_some_iff.1 h
          rw [between?_eq_some.1 hbetween]
          simp only [Bool.not_eq_true', Bool.or_eq_false_iff, List.contains_eq_mem,
            decide_eq_false_iff_not, Bool.and_eq_false_iff, beq_eq_false_iff_ne, hsub] at hbody
          refine .intro hmark hbody.1 fun htick => ?_
          exact hbody.2.resolve_left (not_not_intro htick)
        · simp at h
  · rintro ⟨hmark, hclosed, hplain⟩
    rw [unquote?]
    simp only [List.head?_cons, hmark, if_true, between?_eq_some.2 rfl, Option.filter_some]
    rw [if_pos]
    simp only [Bool.not_eq_true', Bool.or_eq_false_iff, List.contains_eq_mem,
      decide_eq_false_iff_not, Bool.and_eq_false_iff, beq_eq_false_iff_ne, hsub]
    refine ⟨hclosed, ?_⟩
    rename_i mark
    by_cases htick : mark = backtick
    · exact .inr (hplain htick)
    · exact .inl htick

/-- There is no class name in a text of separators, and one in any other text. -/
lemma classNames_eq_nil_iff {s : Text} :
    classNames s = [] ↔ ∀ c ∈ s, isNameSeparator c = true := by
  induction s with
  | nil => simp [classNames, List.splitOnP_nil]
  | cons c s ih =>
      rw [classNames, List.splitOnP_cons_eq_if_modifyHead, List.forall_mem_cons]
      by_cases hc : isNameSeparator c = true
      · rw [if_pos hc, List.filter_cons_of_neg (by simp), ← classNames, ih]
        simp [hc]
      · -- the first part starts with a character of a name
        obtain ⟨name, names, hnames⟩ :=
          List.exists_cons_of_ne_nil (List.splitOnP_ne_nil isNameSeparator s)
        rw [if_neg hc, hnames, List.modifyHead_cons, List.filter_cons_of_pos (by simp)]
        simp [hc]

/-- A plain string literal without class names: there are only blanks and commas between its
marks. -/
def EmptyLiteral (s : Text) : Prop :=
  ∃ body, IsLiteral s body ∧ ∀ c ∈ body, isNameSeparator c = true

lemma emptyLiteral_iff_unquote? {s : Text} :
    EmptyLiteral s ↔ ∃ body, unquote? s = some body ∧ classNames body = [] := by
  simp only [EmptyLiteral, unquote?_eq_some_iff, classNames_eq_nil_iff]

/-- A literal starts with a mark. -/
lemma not_emptyLiteral_cons {c : Char} (hc : isMark c = false) (s : Text) :
    ¬ EmptyLiteral (c :: s) := by
  rintro ⟨body, hs, -⟩
  cases hs with
  | intro hmark _ _ => simp [hc] at hmark

/-! ### Objects and arrays -/

lemma trim_eq_nil_iff {s : Text} : trim s = [] ↔ allBlank s = true := by
  constructor
  · intro h
    obtain ⟨front, back, hs, hfront, hback⟩ := exists_trim s
    rw [allBlank, List.all_eq_true, hs, h]
    intro c hc
    rcases List.mem_append.1 hc with hc | hc
    · exact hfront c hc
    · exact hback c hc
  · intro h
    exact trim_eq_nil (List.all_eq_true.1 h)

lemma Binding.ofText_eq_object_iff {s content : Text} :
    ofText s = .object content ↔ trim s = braced content := by
  rw [show braced content = '{' :: (content ++ ['}']) from rfl, ← between?_eq_some, ofText]
  cases between? '{' '}' (trim s) with
  | some t => simp
  | none => cases between? '[' ']' (trim s) <;> simp

lemma Binding.ofText_eq_array_iff {s content : Text} :
    ofText s = .array content ↔ trim s = bracketed content := by
  rw [show bracketed content = '[' :: (content ++ [']']) from rfl, ← between?_eq_some, ofText]
  cases hobject : between? '{' '}' (trim s) with
  | some t =>
      have harray : between? '[' ']' (trim s) = none :=
        between?_eq_none_of_head (by simp [between?_eq_some.1 hobject])
      simp [harray]
  | none => cases between? '[' ']' (trim s) <;> simp

namespace ClassValue

/-- An object is taken apart into its entries. -/
lemma ofText_of_object {expr content : Text} (h : Binding.ofText expr = .object content) :
    ofText expr = .object ((topItems content).map Entry.ofText) := by
  have hhead : ∀ c ∈ (trim expr).head?, isMark c = false := by
    rw [Binding.ofText_eq_object_iff.1 h]
    simp [braced, isMark, backtick]
  rw [ofText_eq, unquote?_eq_none_of_head hhead, h]

/-- An array is taken apart into its items. -/
lemma ofText_of_array {expr content : Text} (h : Binding.ofText expr = .array content) :
    ofText expr = .array ((topItems content).map ofText) := by
  have hhead : ∀ c ∈ (trim expr).head?, isMark c = false := by
    rw [Binding.ofText_eq_array_iff.1 h]
    simp [bracketed, isMark, backtick]
  rw [ofText_eq, unquote?_eq_none_of_head hhead, h]

end ClassValue

lemma joinWith_eq_nil_iff {sep : Char} {xs : List Text} (h : ∀ x ∈ xs, x ≠ []) :
    joinWith sep xs = [] ↔ xs = [] := by
  fun_cases joinWith sep xs with
  | case1 => simp
  | case2 x => simpa using h x (by simp)
  | case3 x y rest => simp

/-! ### Class values -/

namespace ClassValue

lemma isEmptyLiteral_ofText_iff (s : Text) :
    (ofText s).isEmptyLiteral = true ↔ EmptyLiteral (trim s) := by
  rw [emptyLiteral_iff_unquote?, ofText]
  cases unquote? (trim s) with
  | some body => simp [isEmptyLiteral]
  | none =>
      -- no other shape is a literal
      simp only [reduceCtorEq, false_and, exists_false, iff_false, Bool.not_eq_true]
      split
      · rfl
      · rfl
      · split
        · rfl
        · split
          · rfl
          · split <;> rfl

/-- **A class value becomes nothing** only if it is a literal without class names. -/
theorem resolve_ofText_eq_none_iff (style : LookupStyle) (s : Text) :
    (ofText s).resolve style = none ↔ EmptyLiteral (trim s) := by
  rw [resolve_eq_none_iff, isEmptyLiteral_ofText_iff]

lemma dynamic_ne_nil (style : LookupStyle) (expr : Text) : style.dynamic expr ≠ [] := by
  simp [LookupStyle.dynamic, bracketed]

/-- Whatever a class value becomes, it is not empty. -/
lemma ne_nil_of_resolve {style : LookupStyle} {v : ClassValue} {t : Text}
    (h : v.resolve style = some t) : t ≠ [] := by
  cases v with
  | literal names =>
      rw [resolve] at h
      split at h
      · simp at h
      · rename_i hne
        obtain rfl := Option.some.inj h
        rw [ne_eq, commaJoin, joinWith_eq_nil_iff]
        · simpa using hne
        · intro x hx
          obtain ⟨name, -, rfl⟩ := List.mem_map.1 hx
          exact dynamic_ne_nil style _
  | object entries =>
      obtain rfl := Option.some.inj h
      simp [braced]
  | array items =>
      rw [resolve] at h
      obtain rfl := Option.some.inj h
      simp [bracketed]
  | conditional test yes no =>
      rw [resolve] at h
      obtain rfl := Option.some.inj h
      simp
  | choice left op right =>
      rw [resolve] at h
      obtain rfl := Option.some.inj h
      simp
  | guarded test value =>
      rw [resolve] at h
      obtain rfl := Option.some.inj h
      simp
  | dynamic expr =>
      rw [resolve] at h
      obtain rfl := Option.some.inj h
      exact dynamic_ne_nil style expr

end ClassValue

/-! ### Entries -/

/-- What a text is cut into at the first exposed separator. -/
lemma cutFrom_eq_some_iff {sep : Char} (hsep : isPlain sep = true) {n : Nesting} {s a b : Text} :
    cutFrom sep n s = some (a, b) ↔
      s = a ++ sep :: b ∧ n.after a = top ∧ sep ∉ n.exposed a := by
  constructor
  · intro h
    fun_induction cutFrom sep n s generalizing a b with
    | case1 => simp at h
    | case2 n c s hc =>
        obtain ⟨rfl, rfl⟩ : [] = a ∧ s = b := by simpa using h
        rw [Bool.and_eq_true, beq_iff_eq] at hc
        obtain ⟨hexposed, rfl⟩ := hc
        exact ⟨rfl, (eq_top_of_exposes hexposed).1, by simp [exposed]⟩
    | case3 n c s hc ih =>
        obtain ⟨⟨a', b'⟩, hcut, he⟩ := Option.map_eq_some_iff.1 h
        obtain ⟨rfl, rfl⟩ : c :: a' = a ∧ b' = b := by simpa using he
        obtain ⟨rfl, hend, hhidden⟩ := ih hcut
        exact ⟨rfl, hend, notMem_exposed_cons.2 ⟨by simpa using hc, hhidden⟩⟩
  · rintro ⟨rfl, hend, hhidden⟩
    rw [cutFrom_append hhidden, hend, cutFrom]
    simp [exposes_of_isPlain hsep]

namespace Entry

/-- An entry of an object that names no class: it is not spread, and in front of its first exposed
colon stands a literal without class names. -/
structure IsEmpty (item : Text) : Prop where
  not_spread : ¬ "...".toList <+: item
  key : ∃ key value, item = key ++ ':' :: value ∧ top.after key = top ∧ ':' ∉ top.exposed key ∧
    EmptyLiteral (trim key)

lemma resolve_ofKeyValue_eq_nil_iff (style : LookupStyle) (key value : Text) :
    (ofKeyValue key value).resolve style = [] ↔ EmptyLiteral key := by
  rw [ofKeyValue]
  cases hcomputed : between? '[' ']' key with
  | some expr =>
      have hno : ¬ EmptyLiteral key := by
        rw [between?_eq_some.1 hcomputed]
        exact not_emptyLiteral_cons rfl _
      simp [resolve, hno]
  | none =>
      rw [emptyLiteral_iff_unquote?]
      cases unquote? key with
      | some body => simp [resolve]
      | none => simp [resolve]

/-- **An entry becomes nothing** only if its key is a literal without class names. -/
theorem resolve_ofText_eq_nil_iff (style : LookupStyle) (item : Text) :
    (ofText item).resolve style = [] ↔ IsEmpty item := by
  have hcolon : isPlain ':' = true := by decide
  rw [ofText]
  split
  · rename_i hdots
    simp only [resolve, List.cons_ne_nil, false_iff]
    intro hempty
    exact hempty.not_spread (startsWith_iff.1 hdots)
  · rename_i hdots
    rw [startsWith_iff] at hdots
    cases hcut : cutTop ':' item with
    | some parts =>
        obtain ⟨key, value⟩ := parts
        rw [resolve_ofKeyValue_eq_nil_iff]
        obtain ⟨hitem, hend, hhidden⟩ := (cutFrom_eq_some_iff hcolon).1 hcut
        constructor
        · intro hkey
          exact ⟨hdots, key, value, hitem, hend, hhidden, hkey⟩
        · rintro ⟨-, key', value', hparts, hkey⟩
          have hsame := (cutFrom_eq_some_iff hcolon).2 ⟨hparts, hkey.1, hkey.2.1⟩
          obtain ⟨rfl, -⟩ := Prod.mk.inj (Option.some.inj (hcut.symm.trans hsame))
          exact hkey.2.2
    | none =>
        simp only [resolve, List.cons_ne_nil, false_iff]
        rintro ⟨-, key, value, hparts, hkey⟩
        have hsome := (cutFrom_eq_some_iff hcolon).2 ⟨hparts, hkey.1, hkey.2.1⟩
        rw [cutTop, hsome] at hcut
        simp at hcut

lemma prefix_of_ofText_eq_spread {item text : Text} (h : ofText item = .spread text) :
    "...".toList <+: text := by
  rw [ofText] at h
  split at h
  · rename_i hdots
    obtain rfl := spread.inj h
    exact startsWith_iff.1 hdots
  · split at h
    · rw [ofKeyValue] at h
      split at h
      · simp at h
      · split at h <;> simp at h
    · simp at h

/-- Whatever an entry becomes, it is not empty. -/
lemma ne_nil_of_mem_resolve {style : LookupStyle} {item t : Text}
    (h : t ∈ (ofText item).resolve style) : t ≠ [] := by
  have hkeyed (key value : Text) : keyed key value ≠ [] := by simp [keyed]
  cases hentry : ofText item with
  | spread text =>
      rw [hentry, resolve, List.mem_singleton] at h
      have hdots := prefix_of_ofText_eq_spread hentry
      rw [h]
      rintro rfl
      simp at hdots
  | shorthand name =>
      rw [hentry, resolve, List.mem_singleton] at h
      exact h ▸ hkeyed _ _
  | computed key value =>
      rw [hentry, resolve, List.mem_singleton] at h
      exact h ▸ hkeyed _ _
  | quoted names value =>
      rw [hentry, resolve] at h
      obtain ⟨name, -, rfl⟩ := List.mem_map.1 h
      exact hkeyed _ _
  | named name value =>
      rw [hentry, resolve, List.mem_singleton] at h
      exact h ▸ hkeyed _ _

end Entry

/-! ### Expressions -/

/-- The expressions that hold no class. -/
inductive Classless (expr : Text) : Prop where
  /-- Nothing but blanks. -/
  | blank (h : trim expr = [])
  | literal (h : EmptyLiteral (trim expr))
  | array {content : Text} (h : trim expr = bracketed content)
      (items : ∀ i ∈ topItems content, EmptyLiteral i)
  | object {content : Text} (h : trim expr = braced content)
      (entries : ∀ i ∈ topItems content, Entry.IsEmpty i)

section Expressions

variable (style : LookupStyle)

lemma resolveEntries_eq_nil_iff (items : List Text) :
    resolveEntries style (items.map Entry.ofText) = [] ↔ ∀ i ∈ items, Entry.IsEmpty i := by
  have hne : ∀ t ∈ (items.map Entry.ofText).flatMap (Entry.resolve style), t ≠ [] := by
    intro t ht
    obtain ⟨entry, hentry, ht⟩ := List.mem_flatMap.1 ht
    obtain ⟨item, -, rfl⟩ := List.mem_map.1 hentry
    exact Entry.ne_nil_of_mem_resolve ht
  rw [resolveEntries, commaJoin, joinWith_eq_nil_iff hne, List.flatMap_eq_nil_iff]
  simp only [List.mem_map, forall_exists_index, and_imp, forall_apply_eq_imp_iff₂,
    Entry.resolve_ofText_eq_nil_iff]

lemma commaJoin_resolveItems_eq_nil_iff {items : List Text} (htrim : ∀ i ∈ items, trim i = i) :
    commaJoin (ClassValue.resolveItems style (items.map ClassValue.ofText)) = [] ↔
      ∀ i ∈ items, EmptyLiteral i := by
  rw [ClassValue.resolveItems_eq_filterMap, List.filterMap_map, commaJoin, joinWith_eq_nil_iff]
  · rw [List.filterMap_eq_nil_iff]
    refine forall₂_congr fun i hi => ?_
    rw [Function.comp_apply, ClassValue.resolve_ofText_eq_none_iff, htrim i hi]
  · intro t ht
    obtain ⟨i, -, hi⟩ := List.mem_filterMap.1 ht
    exact ClassValue.ne_nil_of_resolve hi

/-- The content of what an expression becomes, by the shape of the expression. -/
lemma resolveContent_ofText (expr : Text) :
    (ClassValue.ofText expr).resolveContent style =
      match Binding.ofText expr with
      | .object content => some (resolveEntries style ((topItems content).map Entry.ofText))
      | .array content =>
        some (commaJoin (ClassValue.resolveItems style ((topItems content).map ClassValue.ofText)))
      | .plain _ => (ClassValue.ofText expr).resolve style := by
  cases hb : Binding.ofText expr with
  | object content =>
      rw [ClassValue.ofText_of_object hb]
      rfl
  | array content =>
      rw [ClassValue.ofText_of_array hb]
      rfl
  | plain e =>
      rw [ClassValue.ofText_eq, hb]
      cases unquote? (trim expr) with
      | some body => rfl
      | none =>
          simp only
          split
          · rfl
          · split
            · rfl
            · split <;> rfl

lemma filter_isEmpty_eq_none_iff (t : Text) : (some t).filter (!·.isEmpty) = none ↔ t = [] := by
  cases t <;> simp [Option.filter_some]

/-- An expression other than blanks resolves to no content if and only if it is classless. -/
lemma filter_resolveContent_eq_none_iff {expr : Text} (hne : trim expr ≠ []) :
    ((ClassValue.ofText expr).resolveContent style).filter (!·.isEmpty) = none ↔
      Classless expr := by
  rw [resolveContent_ofText]
  cases hb : Binding.ofText expr with
  | object content =>
      have htrim := Binding.ofText_eq_object_iff.1 hb
      simp only [filter_isEmpty_eq_none_iff, resolveEntries_eq_nil_iff]
      constructor
      · exact .object htrim
      · rintro (hnil | hliteral | ⟨harray, -⟩ | ⟨hobject, hentries⟩)
        · exact absurd hnil hne
        · rw [htrim] at hliteral
          exact absurd hliteral (not_emptyLiteral_cons rfl _)
        · simp [htrim, braced, bracketed] at harray
        · obtain rfl := Binding.object.inj (hb.symm.trans (Binding.ofText_eq_object_iff.2 hobject))
          exact hentries
  | array content =>
      have htrim := Binding.ofText_eq_array_iff.1 hb
      have hitems : ∀ i ∈ topItems content, trim i = i := by
        intro i hi
        obtain ⟨t, -, rfl⟩ := List.mem_map.1 (List.mem_filter.1 hi).1
        exact trim_trim t
      simp only [filter_isEmpty_eq_none_iff, commaJoin_resolveItems_eq_nil_iff style hitems]
      constructor
      · exact .array htrim
      · rintro (hnil | hliteral | ⟨harray, hliterals⟩ | ⟨hobject, -⟩)
        · exact absurd hnil hne
        · rw [htrim] at hliteral
          exact absurd hliteral (not_emptyLiteral_cons rfl _)
        · obtain rfl := Binding.array.inj (hb.symm.trans (Binding.ofText_eq_array_iff.2 harray))
          exact hliterals
        · simp [htrim, braced, bracketed] at hobject
  | plain e =>
      simp only
      constructor
      · intro hnone
        refine .literal ((ClassValue.resolve_ofText_eq_none_iff style expr).1 ?_)
        cases hresolve : (ClassValue.ofText expr).resolve style with
        | none => rfl
        | some t =>
            rw [hresolve, filter_isEmpty_eq_none_iff] at hnone
            exact absurd hnone (ClassValue.ne_nil_of_resolve hresolve)
      · rintro (hnil | hliteral | ⟨harray, -⟩ | ⟨hobject, -⟩)
        · exact absurd hnil hne
        · rw [(ClassValue.resolve_ofText_eq_none_iff style expr).2 hliteral]
          rfl
        · rw [Binding.ofText_eq_array_iff.2 harray] at hb
          cases hb
        · rw [Binding.ofText_eq_object_iff.2 hobject] at hb
          cases hb

lemma resolveExpression_eq_none (expr : Text) :
    resolveExpression style expr = none ↔ Classless expr := by
  rw [resolveExpression]
  by_cases hblank : allBlank expr = true
  · rw [if_pos hblank]
    exact iff_of_true rfl (.blank (trim_eq_nil_iff.2 hblank))
  · rw [if_neg hblank]
    exact filter_resolveContent_eq_none_iff style fun hnil => hblank (trim_eq_nil_iff.1 hnil)

lemma resolveExpression_ne_some_nil (expr : Text) : resolveExpression style expr ≠ some [] := by
  rw [resolveExpression]
  split
  · simp
  · intro h
    simpa using (Option.filter_eq_some_iff.1 h).2

end Expressions

/-- **Exactly the expressions without classes resolve to nothing**, whatever the name of the style
module and the marks around class names, and no expression resolves to an empty text. -/
theorem resolveExpression_eq_none_iff (expr : Text) :
    (∀ style, resolveExpression style expr = none ↔ Classless expr) ∧
      (∀ style, resolveExpression style expr ≠ some []) ∧
      ∀ style style', (resolveExpression style expr).isNone =
        (resolveExpression style' expr).isNone := by
  refine ⟨fun style => resolveExpression_eq_none style expr,
    fun style => resolveExpression_ne_some_nil style expr, fun style style' => ?_⟩
  rw [Bool.eq_iff_iff, Option.isNone_iff_eq_none, Option.isNone_iff_eq_none,
    resolveExpression_eq_none, resolveExpression_eq_none]

end ClassFold
