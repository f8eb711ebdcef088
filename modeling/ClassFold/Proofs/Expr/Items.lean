import ClassFold.Expr.Combine
import ClassFold.Proofs.Expr.Exposed

/-!
Items of texts that are put together.

The content of an array or an object is made by pasting texts with commas between them.  The items
that are found in it afterwards are those of the pasted texts, as long as each of these is closed.

* `Text.exists_trim`, `Nesting.Closed.trim`: what trimming takes away, and that a closed text stays
  closed.
* `joinWith_splitFrom`: the parts of a text make it up again.
* `ListItem`: the texts that are found again as one item.
* `listItem_of_mem_topItems`, `listItem_booleanEntry`: the items of a closed text, and the entry
  that switches a closed text on, are such texts.
* `Itemized.topItems_eq`, `topItems_leading`: the items of a list, and of content with more behind
  it.
* `Binding.ofText_braced`, `Binding.ofText_bracketed`: objects and arrays are recognised.
-/

namespace ClassFold

open Text Nesting

/-! ### Trimming -/

namespace Text

variable {s : Text}

/-- A text is what trimming leaves of it, with blanks on both sides. -/
lemma exists_trim (s : Text) : ∃ front back, s = front ++ (trim s ++ back) ∧
    (∀ c ∈ front, isBlank c = true) ∧ ∀ c ∈ back, isBlank c = true := by
  have hstart : s = s.takeWhile isBlank ++ trimStart s := List.takeWhile_append_dropWhile.symm
  have hend : trimStart s = trim s ++ ((trimStart s).reverse.takeWhile isBlank).reverse := by
    rw [trim, trimEnd, ← List.reverse_append, List.takeWhile_append_dropWhile,
      List.reverse_reverse]
  refine ⟨s.takeWhile isBlank, ((trimStart s).reverse.takeWhile isBlank).reverse, ?_, ?_, ?_⟩
  · rw [← hend, ← hstart]
  · intro c hc
    exact List.mem_takeWhile_imp hc
  · intro c hc
    exact List.mem_takeWhile_imp (List.mem_reverse.1 hc)

/-- A text that trimming leaves alone is solid, unless it is empty. -/
lemma solid_of_trim_eq (hne : s ≠ []) (h : trim s = s) : Solid s := by
  have hhead : ∃ c ∈ s.head?, isBlank c = false := by
    cases s with
    | nil => exact absurd rfl hne
    | cons c r =>
        refine ⟨c, rfl, ?_⟩
        by_contra hc
        have hshort : trim (c :: r) = trim r := by
          rw [trim, trim, trimStart, List.dropWhile_cons_of_pos (by simpa using hc), trimStart]
        have hlen := length_trim_le r
        rw [← hshort, h, List.length_cons] at hlen
        omega
  have hstart : trimStart s = s := by
    cases s with
    | nil => rfl
    | cons c r =>
        obtain ⟨d, hd, hblank⟩ := hhead
        obtain rfl : c = d := by simpa using hd
        rw [trimStart, List.dropWhile_cons_of_neg (by simp [hblank])]
  refine ⟨hhead, ?_⟩
  obtain ⟨r, d, rfl⟩ := (List.eq_nil_or_concat' s).resolve_left hne
  refine ⟨d, by simp, ?_⟩
  by_contra hd
  have hshort : trim (r ++ [d]) = trimEnd r := by
    rw [trim, hstart, trimEnd, List.reverse_concat,
      List.dropWhile_cons_of_pos (by simpa using hd), trimEnd]
  have hlen := length_trimEnd_le r
  rw [← hshort, h, List.length_append, List.length_singleton] at hlen
  omega

end Text

namespace Nesting

/-- Whether an open literal, if there is one, ends at a quotation mark. -/
def isMarked : Nesting → Bool
  | code _ => true
  | literal m _ => isMark m
  | escaped m _ => isMark m

lemma isMarked_next {n : Nesting} (h : n.isMarked = true) (c : Char) :
    (n.next c).isMarked = true := by
  cases n with
  | code d =>
      simp only [next]
      split
      · assumption
      · split
        · rfl
        · split <;> rfl
  | literal m d =>
      simp only [next]
      split
      · exact h
      · split
        · rfl
        · exact h
  | escaped m d => exact h

lemma isMarked_after {n : Nesting} (h : n.isMarked = true) (s : Text) :
    (n.after s).isMarked = true := by
  induction s generalizing n with
  | nil => exact h
  | cons c s ih => exact ih (isMarked_next h c)

/-- A blank does not end a literal. -/
lemma eq_top_of_next_isBlank {n : Nesting} {c : Char} (hn : n.isMarked = true)
    (hc : isBlank c = true) (h : n.next c = top) : n = top := by
  have hplain := isPlain_of_isBlank hc
  cases n with
  | code d => rwa [next_of_isPlain hplain] at h
  | literal m d =>
      have hslash : c ≠ '\\' := by
        rintro rfl
        exact absurd hc (by decide)
      have hm : c ≠ m := by
        rintro rfl
        rw [isPlain, show isMark c = true from hn] at hplain
        simp at hplain
      rw [next, if_neg hslash, if_neg hm] at h
      cases h
  | escaped m d => cases h

lemma eq_top_of_after_isBlank {n : Nesting} {s : Text} (hn : n.isMarked = true)
    (hs : ∀ c ∈ s, isBlank c = true) (h : n.after s = top) : n = top := by
  induction s generalizing n with
  | nil => exact h
  | cons c s ih =>
      have hnext := ih (isMarked_next hn c) (fun d hd => hs d (by simp [hd])) h
      exact eq_top_of_next_isBlank hn (hs c (by simp)) hnext

/-- Trimming a text that ends outside of all brackets and literals cuts no literal. -/
lemma after_trim {s : Text} (h : top.after s = top) : top.after (Text.trim s) = top := by
  obtain ⟨front, back, hs, hfront, hback⟩ := exists_trim s
  rw [hs, after_append, after_of_isBlank hfront, after_append] at h
  exact eq_top_of_after_isBlank (isMarked_after rfl _) hback h

lemma Closed.trim {s : Text} (h : Closed s) : Closed (Text.trim s) := by
  obtain ⟨front, back, hs, hfront, -⟩ := exists_trim s
  have hopen := h.opened
  rw [hs, overcloses_append, after_of_isBlank hfront, overcloses_append] at hopen
  exact ⟨hopen.2.1, after_trim h.settled⟩

lemma notMem_exposed_trim {x : Char} {s : Text} (h : x ∉ top.exposed s) :
    x ∉ top.exposed (Text.trim s) := by
  obtain ⟨front, back, hs, hfront, -⟩ := exists_trim s
  have hstart := after_of_isBlank hfront
  rw [hs, exposed_append, exposed_append, hstart] at h
  intro hx
  exact h (by simp [hx])

end Nesting

/-! ### Items -/

/-- A text that is found again as one item of a list. -/
structure ListItem (x : Text) : Prop where
  ne_nil : x ≠ []
  trimmed : trim x = x
  closed : Closed x
  hidden : ',' ∉ top.exposed x

instance (x : Text) : Decidable (ListItem x) :=
  decidable_of_iff (x ≠ [] ∧ trim x = x ∧ Closed x ∧ ',' ∉ top.exposed x)
    ⟨fun h => ⟨h.1, h.2.1, h.2.2.1, h.2.2.2⟩, fun h => ⟨h.ne_nil, h.trimmed, h.closed, h.hidden⟩⟩

lemma topItems_eq_singleton {x : Text} (hne : x ≠ []) (htrim : trim x = x)
    (hhidden : ',' ∉ top.exposed x) : topItems x = [x] := by
  simpa using topItems_of_solid (solid_of_trim_eq hne htrim) hhidden (List.forall_mem_nil _)
    (List.forall_mem_nil _)

lemma ListItem.topItems_eq {x : Text} (h : ListItem x) : topItems x = [x] :=
  topItems_eq_singleton h.ne_nil h.trimmed h.hidden

/-- The items of a closed text are found again. -/
lemma listItem_of_mem_topItems {s i : Text} (hs : Closed s) (hi : i ∈ topItems s) :
    ListItem i := by
  obtain ⟨hi, hne⟩ := List.mem_filter.1 hi
  obtain ⟨p, hp, rfl⟩ := List.mem_map.1 hi
  obtain ⟨hclosed, hhidden⟩ := hs.of_mem_splitTop hp
  exact ⟨by simpa using hne, trim_trim p, hclosed.trim, notMem_exposed_trim hhidden⟩

lemma solid_booleanEntry (x : Text) : Solid (booleanEntry x) := by
  have hleft : Solid ['['] := ⟨⟨'[', rfl, by decide⟩, ⟨'[', rfl, by decide⟩⟩
  have hright : Solid "]:true".toList := ⟨⟨']', rfl, by decide⟩, ⟨'e', rfl, by decide⟩⟩
  exact hleft.append hright x

/-- An entry that switches a closed text on is one item, whatever commas the text exposes. -/
lemma listItem_booleanEntry {x : Text} (h : Closed x) : ListItem (booleanEntry x) := by
  have hentry : booleanEntry x = '[' :: (x ++ ']' :: ":true".toList) := rfl
  have hopen : isOpening '[' = true := by decide
  have hclose : isClosing ']' = true := by decide
  have htail : Closed ":true".toList := by decide
  have hsolid := solid_booleanEntry x
  refine ⟨hsolid.ne_nil, hsolid.trim_self, ?_, ?_⟩
  · rw [hentry]
    exact h.brackets hopen hclose htail
  · rw [hentry, h.exposed_brackets hopen hclose]
    decide

lemma joinWith_cons {sep : Char} (x : Text) {ys : List Text} (hne : ys ≠ []) :
    joinWith sep (x :: ys) = x ++ sep :: joinWith sep ys := by
  cases ys with
  | nil => exact absurd rfl hne
  | cons y ys => rfl

lemma joinWith_append {sep : Char} {xs ys : List Text} (hx : xs ≠ []) (hy : ys ≠ []) :
    joinWith sep (xs ++ ys) = joinWith sep xs ++ sep :: joinWith sep ys := by
  induction xs with
  | nil => exact absurd rfl hx
  | cons x xs ih =>
      by_cases hxs : xs = []
      · rw [hxs, List.singleton_append, joinWith_cons x hy, joinWith]
      · rw [List.cons_append, joinWith_cons x (by simp [hxs]), joinWith_cons x hxs, ih hxs,
          List.append_assoc, List.cons_append]

/-- The parts between the separators make up the text again. -/
lemma joinWith_splitFrom (sep : Char) (n : Nesting) (s : Text) :
    joinWith sep (splitFrom sep n s) = s := by
  induction s generalizing n with
  | nil => rfl
  | cons c s ih =>
      have hne := splitFrom_ne_nil sep (n.next c) s
      have ih := ih (n.next c)
      rw [splitFrom]
      split
      · rename_i hsep
        obtain rfl : c = sep := by simpa using (Bool.and_eq_true_iff.1 hsep).2
        rw [joinWith_cons [] hne, ih, List.nil_append]
      · obtain ⟨p, ps, hps⟩ := List.exists_cons_of_ne_nil hne
        rw [hps] at ih ⊢
        rw [List.modifyHead_cons]
        cases ps with
        | nil => rw [← ih]; rfl
        | cons q qs => rw [← ih]; rfl

lemma closed_commaJoin {xs : List Text} (h : ∀ x ∈ xs, Closed x) : Closed (commaJoin xs) := by
  rw [commaJoin]
  fun_induction joinWith ',' xs with
  | case1 => exact .nil
  | case2 x => exact h x (by simp)
  | case3 x y rest ih =>
      have hcomma : isPlain ',' = true := by decide
      have hrest := ih fun z hz => h z (by simp [hz])
      exact (h x (by simp)).append ((Closed.plain_cons_iff hcomma).2 hrest)

/-- Texts that are found again as the items of their list: each of them is one item, and all but the
last end outside of all brackets and literals, so that the comma behind them separates. -/
structure Itemized (xs : List Text) : Prop where
  ne_nil : ∀ x ∈ xs, x ≠ []
  trimmed : ∀ x ∈ xs, trim x = x
  hidden : ∀ x ∈ xs, ',' ∉ top.exposed x
  settled : ∀ x ∈ xs.dropLast, top.after x = top

/-- **The items of a list** are the texts of which it is made. -/
theorem Itemized.topItems_eq {xs : List Text} (h : Itemized xs) : topItems (commaJoin xs) = xs := by
  induction xs with
  | nil => exact topItems_of_isBlank (List.forall_mem_nil _)
  | cons x xs ih =>
      obtain ⟨hne, hne'⟩ := List.forall_mem_cons.1 h.ne_nil
      obtain ⟨htrim, htrim'⟩ := List.forall_mem_cons.1 h.trimmed
      obtain ⟨hhidden, hhidden'⟩ := List.forall_mem_cons.1 h.hidden
      have hx := topItems_eq_singleton hne htrim hhidden
      by_cases hxs : xs = []
      · rw [hxs]
        exact hx
      · have hsettled := h.settled
        rw [List.dropLast_cons_of_ne_nil hxs] at hsettled
        obtain ⟨hend, hend'⟩ := List.forall_mem_cons.1 hsettled
        rw [commaJoin] at ih ⊢
        rw [joinWith_cons x hxs, topItems_append_comma hend, hx,
          ih ⟨hne', htrim', hhidden', hend'⟩, List.singleton_append]

theorem topItems_commaJoin {xs : List Text} (h : ∀ x ∈ xs, ListItem x) :
    topItems (commaJoin xs) = xs :=
  Itemized.topItems_eq ⟨fun x hx => (h x hx).ne_nil, fun x hx => (h x hx).trimmed,
    fun x hx => (h x hx).hidden, fun x hx => (h x (List.mem_of_mem_dropLast hx)).closed.settled⟩

/-- Behind content that is closed, more content adds its own items. -/
lemma topItems_leading {content : Text} (h : Closed content) (more : Text) :
    topItems (leading content ++ more) = topItems content ++ topItems more := by
  rw [leading]
  split
  · rename_i hblank
    rw [topItems_of_isBlank (List.all_eq_true.1 hblank), List.nil_append, List.nil_append]
  · rw [List.append_assoc, List.singleton_append, topItems_append_comma h.settled]

/-! ### Objects and arrays -/

lemma between?_eq_none_of_head {left right : Char} {s : Text} (h : s.head? ≠ some left) :
    between? left right s = none := by
  cases s with
  | nil => rfl
  | cons c s =>
      have hc : c ≠ left := by simpa using h
      simp [between?, hc]

@[simp] lemma Binding.ofText_braced (content : Text) :
    ofText (braced content) = .object content := by
  have hsolid : Solid (braced content) := solid_wrap (by decide) (by decide) content
  have hbetween : between? '{' '}' (braced content) = some content :=
    between?_eq_some.2 (by simp [braced])
  rw [ofText, hsolid.trim_self, hbetween]

@[simp] lemma Binding.ofText_bracketed (content : Text) :
    ofText (bracketed content) = .array content := by
  have hsolid : Solid (bracketed content) := solid_wrap (by decide) (by decide) content
  have hbetween : between? '[' ']' (bracketed content) = some content :=
    between?_eq_some.2 (by simp [bracketed])
  rw [ofText, hsolid.trim_self, hbetween, between?_eq_none_of_head (by simp [bracketed])]

end ClassFold
