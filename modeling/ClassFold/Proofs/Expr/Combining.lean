import ClassFold.Proofs.Expr.Items

/-!
What combining makes of class bindings.

A binding is combined with further classes by pasting texts, and the outcome is read as a binding
again when more classes come.  Entries are always put behind the content that the binding has, or
gets, as an object (`Binding.asEntries`); items are put behind the content of an array, unless the
binding is an object, where they count as entries that are switched on.

* `topItems_combine`: nothing is lost, duplicated or reordered; the items of the outcome are those
  of the binding followed by those that come in.
* `combine_combine`: combining step by step is combining at once, to the character, and an object
  stays an object.
-/

namespace ClassFold

open Text Nesting

/-! ### The text of the outcome -/

/-- The content that a binding has as an object. -/
def Binding.asEntries : Binding → Text
  | object content => content
  | array content => entriesOfItems content
  | plain expr => if expr.isEmpty then [] else booleanEntry expr

lemma allBlank_eq_false {s : Text} : allBlank s = false ↔ ∃ c ∈ s, isBlank c = false := by
  simp [allBlank]

lemma allBlank_booleanEntry (x : Text) : allBlank (booleanEntry x) = false :=
  allBlank_eq_false.2 ⟨'[', by simp [booleanEntry], by decide⟩

lemma leading_of_allBlank {s : Text} (h : allBlank s = false) : leading s = s ++ [','] := by
  rw [leading, h, if_neg Bool.false_ne_true]

/-- Content that ends in more than blanks gets a comma. -/
lemma leading_append (s : Text) {t : Text} (h : allBlank t = false) :
    leading (s ++ t) = s ++ t ++ [','] := by
  obtain ⟨c, hc, hblank⟩ := allBlank_eq_false.1 h
  exact leading_of_allBlank (allBlank_eq_false.2 ⟨c, by simp [hc], hblank⟩)

lemma allBlank_commaJoin {xs : List Text} (hne : xs ≠ []) (h : ∀ x ∈ xs, allBlank x = false) :
    allBlank (commaJoin xs) = false := by
  cases xs with
  | nil => exact absurd rfl hne
  | cons x xs =>
      obtain ⟨c, hc, hblank⟩ := allBlank_eq_false.1 (h x (by simp))
      refine allBlank_eq_false.2 ⟨c, ?_, hblank⟩
      by_cases hxs : xs = []
      · rwa [hxs, commaJoin, joinWith]
      · rw [commaJoin, joinWith_cons x hxs]
        exact List.mem_append_left _ hc

/-- Entries are put behind the entries of the binding, whatever its shape. -/
lemma combine_entries (d t : Text) :
    combine d (.entries t) = braced (leading (Binding.ofText d).asEntries ++ t) := by
  rw [combine]
  cases Binding.ofText d with
  | object content => rfl
  | array content => rfl
  | plain expr =>
      rw [Binding.combine, Binding.asEntries]
      by_cases hexpr : expr.isEmpty = true
      · rw [if_pos hexpr, if_pos hexpr]
        rfl
      · rw [if_neg hexpr, if_neg hexpr, leading_of_allBlank (allBlank_booleanEntry expr),
          List.append_assoc, List.singleton_append]

/-- To an object, items are entries that are switched on. -/
lemma combine_items_of_isObject {d : Text} (h : (Binding.ofText d).isObject = true)
    (xs : List Text) :
    combine d (.items xs) = combine d (.entries (commaJoin (xs.map booleanEntry))) := by
  rw [combine, combine]
  cases hd : Binding.ofText d with
  | object content => rfl
  | array content => simp [hd, Binding.isObject] at h
  | plain expr => simp [hd, Binding.isObject] at h

/-- To any other binding, items are put behind its content in an array. -/
lemma combine_items_of_not_isObject {d : Text} (h : (Binding.ofText d).isObject = false)
    (xs : List Text) :
    combine d (.items xs) = bracketed (leading (Binding.ofText d).content ++ commaJoin xs) := by
  rw [combine]
  cases hd : Binding.ofText d with
  | object content => simp [hd, Binding.isObject] at h
  | array content => rfl
  | plain expr => rfl

/-! ### Nothing is lost -/

lemma closed_asEntries {b : Binding} (h : Closed b.content) : Closed b.asEntries := by
  cases b with
  | object content => exact h
  | array content =>
      refine closed_commaJoin fun x hx => ?_
      obtain ⟨i, hi, rfl⟩ := List.mem_map.1 hx
      exact (listItem_booleanEntry (listItem_of_mem_topItems h hi).closed).closed
  | plain expr =>
      rw [Binding.asEntries]
      split
      · exact .nil
      · exact (listItem_booleanEntry h).closed

/-- The items of an array are switched on one by one. -/
lemma topItems_entriesOfItems {content : Text} (h : Closed content) :
    topItems (entriesOfItems content) = (topItems content).map booleanEntry := by
  refine topItems_commaJoin fun x hx => ?_
  obtain ⟨i, hi, rfl⟩ := List.mem_map.1 hx
  exact listItem_booleanEntry (listItem_of_mem_topItems h hi).closed

/-- Any other expression is switched on as a whole. -/
lemma topItems_asEntries_plain {e : Text} (h : Closed e) :
    topItems (Binding.plain e).asEntries = if e = [] then [] else [booleanEntry e] := by
  rw [Binding.asEntries]
  by_cases he : e = []
  · rw [if_pos he, if_pos (List.isEmpty_iff.2 he)]
    exact topItems_of_isBlank (List.forall_mem_nil _)
  · rw [if_neg he, if_neg (by simpa using he)]
    exact (listItem_booleanEntry h).topItems_eq

section Outcome

variable {d : Text} {xs : List Text}

lemma ofText_combine_entries (hd : Closed (Binding.ofText d).content) (t : Text) :
    ∃ r, Binding.ofText (combine d (.entries t)) = .object r ∧
      topItems r = topItems (Binding.ofText d).asEntries ++ topItems t :=
  ⟨_, by rw [combine_entries, Binding.ofText_braced], topItems_leading (closed_asEntries hd) t⟩

lemma ofText_combine_items_of_isObject (hd : Closed (Binding.ofText d).content)
    (hobject : (Binding.ofText d).isObject = true) (hxs : ∀ x ∈ xs, ListItem x) :
    ∃ r, Binding.ofText (combine d (.items xs)) = .object r ∧
      topItems r = topItems (Binding.ofText d).asEntries ++ xs.map booleanEntry := by
  have hentries : ∀ y ∈ xs.map booleanEntry, ListItem y := by
    intro y hy
    obtain ⟨x, hx, rfl⟩ := List.mem_map.1 hy
    exact listItem_booleanEntry (hxs x hx).closed
  obtain ⟨r, hr, hitems⟩ := ofText_combine_entries hd (commaJoin (xs.map booleanEntry))
  rw [topItems_commaJoin hentries] at hitems
  exact ⟨r, by rw [combine_items_of_isObject hobject, hr], hitems⟩

lemma ofText_combine_items_of_not_isObject (hd : Closed (Binding.ofText d).content)
    (hobject : (Binding.ofText d).isObject = false) (hxs : ∀ x ∈ xs, ListItem x) :
    ∃ r, Binding.ofText (combine d (.items xs)) = .array r ∧
      topItems r = topItems (Binding.ofText d).content ++ xs := by
  refine ⟨_, by rw [combine_items_of_not_isObject hobject, Binding.ofText_bracketed], ?_⟩
  rw [topItems_leading hd, topItems_commaJoin hxs]

end Outcome

/-- **Combining loses, duplicates and reorders nothing.**  For a binding with closed content and
items that are found again as such, the outcome is an object where either side is one, else an
array, and its items are those of the binding followed by those that come in; what is no entry of
an object yet is switched on there. -/
theorem topItems_combine {d : Text} (hd : Closed (Binding.ofText d).content) {xs : List Text}
    (hxs : ∀ x ∈ xs, ListItem x) (t : Text) :
    match Binding.ofText d with
    | .object c =>
      (∃ r, Binding.ofText (combine d (.items xs)) = .object r ∧
        topItems r = topItems c ++ xs.map booleanEntry) ∧
      ∃ r, Binding.ofText (combine d (.entries t)) = .object r ∧
        topItems r = topItems c ++ topItems t
    | .array c =>
      (∃ r, Binding.ofText (combine d (.items xs)) = .array r ∧ topItems r = topItems c ++ xs) ∧
      ∃ r, Binding.ofText (combine d (.entries t)) = .object r ∧
        topItems r = (topItems c).map booleanEntry ++ topItems t
    | .plain e =>
      (∃ r, Binding.ofText (combine d (.items xs)) = .array r ∧ topItems r = topItems e ++ xs) ∧
      ∃ r, Binding.ofText (combine d (.entries t)) = .object r ∧
        topItems r = (if e = [] then [] else [booleanEntry e]) ++ topItems t := by
  have hentries := ofText_combine_entries hd t
  cases hb : Binding.ofText d with
  | object c =>
      have hitems := ofText_combine_items_of_isObject hd (by rw [hb]; rfl) hxs
      rw [hb] at hentries hitems
      exact ⟨hitems, hentries⟩
  | array c =>
      have hitems := ofText_combine_items_of_not_isObject hd (by rw [hb]; rfl) hxs
      rw [hb] at hd hentries hitems
      rw [Binding.asEntries, topItems_entriesOfItems (show Closed c from hd)] at hentries
      exact ⟨hitems, hentries⟩
  | plain e =>
      have hitems := ofText_combine_items_of_not_isObject hd (by rw [hb]; rfl) hxs
      rw [hb] at hd hentries hitems
      rw [topItems_asEntries_plain (show Closed e from hd)] at hentries
      exact ⟨hitems, hentries⟩

/-- An array with an escaped quote and commas inside of a literal and of a call. -/
theorem topItems_combine_array :
    let d := " [ 'a,\\'b', f(x, y) ]".toList
    let xs := ["m['c']".toList, "z ? [p, q] : r".toList]
    let t := "k: v, 'e': g(h)".toList
    Closed (Binding.ofText d).content ∧ (∀ x ∈ xs, ListItem x) ∧
      (∃ r, Binding.ofText (combine d (.items xs)) = .array r ∧
        topItems r = ["'a,\\'b'".toList, "f(x, y)".toList, "m['c']".toList,
          "z ? [p, q] : r".toList]) ∧
      ∃ r, Binding.ofText (combine d (.entries t)) = .object r ∧
        topItems r = ["['a,\\'b']:true".toList, "[f(x, y)]:true".toList, "k: v".toList,
          "'e': g(h)".toList] := by
  intro d xs t
  have hd : Closed (Binding.ofText d).content := by decide
  have hxs : ∀ x ∈ xs, ListItem x := by decide
  have hall := topItems_combine hd hxs t
  have hb : Binding.ofText d = .array " 'a,\\'b', f(x, y) ".toList := by decide
  rw [hb] at hall
  obtain ⟨⟨r, hr, hitems⟩, r', hr', hitems'⟩ := hall
  refine ⟨hd, hxs, ⟨r, hr, ?_⟩, r', hr', ?_⟩
  · rw [hitems]
    decide
  · rw [hitems']
    decide

/-! ### Step by step -/

section Steps

variable {d : Text}

lemma combine_entries_entries (d : Text) {a : Text} (ha : allBlank a = false) (b : Text) :
    combine (combine d (.entries a)) (.entries b) = combine d (.entries (a ++ ',' :: b)) := by
  rw [combine_entries d a, combine_entries _ b, combine_entries, Binding.ofText_braced,
    Binding.asEntries, leading_append _ ha]
  simp

lemma isObject_combine_entries (d t : Text) :
    (Binding.ofText (combine d (.entries t))).isObject = true := by
  rw [combine_entries, Binding.ofText_braced]
  rfl

lemma combine_entries_items (d : Text) {a : Text} (ha : allBlank a = false) (ys : List Text) :
    combine (combine d (.entries a)) (.items ys) =
      combine d (.entries (a ++ ',' :: commaJoin (ys.map booleanEntry))) := by
  rw [combine_items_of_isObject (isObject_combine_entries d a), combine_entries_entries d ha]

lemma combine_items_items (d : Text) {xs ys : List Text} (hx : xs ≠ []) (hy : ys ≠ [])
    (hblank : ∀ x ∈ xs, allBlank x = false) :
    combine (combine d (.items xs)) (.items ys) = combine d (.items (xs ++ ys)) := by
  cases hobject : (Binding.ofText d).isObject with
  | true =>
      -- both lists come in as entries
      have hentries : allBlank (commaJoin (xs.map booleanEntry)) = false := by
        refine allBlank_commaJoin (by simpa using hx) fun e he => ?_
        obtain ⟨x, -, rfl⟩ := List.mem_map.1 he
        exact allBlank_booleanEntry x
      have hjoin : commaJoin ((xs ++ ys).map booleanEntry) =
          commaJoin (xs.map booleanEntry) ++ ',' :: commaJoin (ys.map booleanEntry) := by
        rw [List.map_append]
        exact joinWith_append (by simpa using hx) (by simpa using hy)
      rw [combine_items_of_isObject hobject, combine_entries_items d hentries,
        combine_items_of_isObject hobject, hjoin]
  | false =>
      have hagain : (Binding.ofText (combine d (.items xs))).isObject = false := by
        rw [combine_items_of_not_isObject hobject, Binding.ofText_bracketed]
        rfl
      have hjoin : commaJoin (xs ++ ys) = commaJoin xs ++ ',' :: commaJoin ys :=
        joinWith_append hx hy
      rw [combine_items_of_not_isObject hagain, combine_items_of_not_isObject hobject,
        combine_items_of_not_isObject hobject, Binding.ofText_bracketed, Binding.content,
        leading_append _ (allBlank_commaJoin hx hblank), hjoin]
      simp

/-- **Step.** What is combined with an object is an object. -/
lemma isObject_combine (h : (Binding.ofText d).isObject = true) (incoming : Incoming) :
    (Binding.ofText (combine d incoming)).isObject = true := by
  cases incoming with
  | entries t => exact isObject_combine_entries d t
  | items xs =>
      rw [combine_items_of_isObject h]
      exact isObject_combine_entries d _

/-- **Run.** An object stays an object, whatever comes in. -/
lemma isObject_foldl_combine (h : (Binding.ofText d).isObject = true) (incoming : List Incoming) :
    (Binding.ofText (incoming.foldl combine d)).isObject = true := by
  induction incoming generalizing d with
  | nil => exact h
  | cons i incoming ih => exact ih (isObject_combine h i)

end Steps

/-- **Combining step by step is combining at once**, to the character, for every binding: items with
items, entries with entries, and entries with items.  An object, once it is reached, is kept by
whatever comes in later. -/
theorem combine_combine (d : Text) :
    (∀ xs ys : List Text, xs ≠ [] → ys ≠ [] → (∀ x ∈ xs, allBlank x = false) →
      combine (combine d (.items xs)) (.items ys) = combine d (.items (xs ++ ys))) ∧
    (∀ a b : Text, allBlank a = false →
      combine (combine d (.entries a)) (.entries b) = combine d (.entries (a ++ ',' :: b))) ∧
    (∀ (a : Text) (ys : List Text), allBlank a = false →
      combine (combine d (.entries a)) (.items ys) =
        combine d (.entries (a ++ ',' :: commaJoin (ys.map booleanEntry)))) ∧
    ∀ before after : List Incoming,
      (Binding.ofText (before.foldl combine d)).isObject = true →
      (Binding.ofText ((before ++ after).foldl combine d)).isObject = true := by
  refine ⟨fun xs ys hx hy hblank => combine_items_items d hx hy hblank,
    fun a b ha => combine_entries_entries d ha b,
    fun a ys ha => combine_entries_items d ha ys, fun before after h => ?_⟩
  rw [List.foldl_append]
  exact isObject_foldl_combine h after

/-- A binding with an open bracket, to which classes are added in two steps. -/
theorem combine_combine_unclosed :
    let d := "f(a".toList
    combine (combine d (.items ["x".toList])) (.items ["y".toList, "z".toList]) =
        "[f(a,x,y,z]".toList ∧
      combine (combine d (.entries "k: v".toList)) (.entries "l".toList) =
        braced "[f(a]:true,k: v,l".toList ∧
      combine (combine d (.entries "k: v".toList)) (.items ["y".toList]) =
        braced "[f(a]:true,k: v,[y]:true".toList ∧
      (Binding.ofText ([Incoming.entries "k: v".toList, .items [[]], .entries []].foldl
        combine d)).isObject = true := by
  intro d
  obtain ⟨hitems, hentries, hmixed, hobject⟩ := combine_combine d
  refine ⟨?_, ?_, ?_, hobject [.entries "k: v".toList] [.items [[]], .entries []] (by decide)⟩
  · rw [hitems _ _ (by decide) (by decide) (by decide)]
    decide
  · rw [hentries _ _ (by decide)]
    decide
  · rw [hmixed _ _ (by decide)]
    decide

end ClassFold
