import ClassFold.Proofs.Expr.Items

/-!
Splitting and joining.

An expression is split at the exposed occurrences of a separator, whether its brackets and literals
are closed or not.  The reading stands at the top in front of such a separator and behind it, so
what follows is split as if it stood alone.

* `Parted`: a list of parts, each free of the separator, all of which but the last end at the top.
* `parted_splitFrom`: splitting gives such a list.
* `splitTop_lossless`: the parts make up the expression again, none of them is split further, and
  behind a text that ends at the top a separator starts the splitting anew.
* `itemized_topItems`, `Itemized.map_booleanEntry`: the items of any expression, and the entries that
  switch them on, are found again as the items of their list.
* `topItems_rejoined`: joining items and splitting them again changes nothing.
-/

namespace ClassFold

open Text Nesting

/-- Parts of an expression that is read from a nesting: none of them exposes the separator, and all
but the last end outside of all brackets and literals. -/
inductive Parted (sep : Char) : Nesting → List Text → Prop where
  | last {n : Nesting} {p : Text} (hidden : sep ∉ n.exposed p) : Parted sep n [p]
  | cons {n : Nesting} {p : Text} {ps : List Text} (hidden : sep ∉ n.exposed p)
      (settled : n.after p = top) (rest : Parted sep top ps) : Parted sep n (p :: ps)

namespace Parted

variable {sep : Char} {n : Nesting} {ps : List Text}

/-- **Step.** A character in front of the first part that is no exposed separator belongs to it. -/
lemma modifyHead {c : Char} (hc : (n.exposes c && c == sep) = false)
    (h : Parted sep (n.next c) ps) : Parted sep n (ps.modifyHead (c :: ·)) := by
  cases h with
  | last hidden => exact .last (notMem_exposed_cons.2 ⟨hc, hidden⟩)
  | cons hidden settled rest => exact .cons (notMem_exposed_cons.2 ⟨hc, hidden⟩) settled rest

lemma splitTop_eq (h : Parted sep top ps) : ∀ p ∈ ps, splitTop sep p = [p] := by
  generalize hn : top = n at h
  induction h with
  | last hidden =>
      subst hn
      simpa using splitTop_eq_singleton hidden
  | cons hidden settled rest ih =>
      subst hn
      intro q hq
      rcases List.mem_cons.1 hq with rfl | hq
      · exact splitTop_eq_singleton hidden
      · exact ih rfl q hq

lemma hidden (h : Parted sep top ps) : ∀ p ∈ ps, sep ∉ top.exposed p := by
  generalize hn : top = n at h
  induction h with
  | last hidden =>
      subst hn
      exact List.forall_mem_singleton.2 hidden
  | cons hidden settled rest ih =>
      subst hn
      exact List.forall_mem_cons.2 ⟨hidden, ih rfl⟩

lemma after_dropLast (h : Parted sep top ps) : ∀ p ∈ ps.dropLast, top.after p = top := by
  generalize hn : top = n at h
  induction h with
  | last hidden => simp
  | @cons n p ps hidden settled rest ih =>
      subst hn
      intro q hq
      cases ps with
      | nil => simp at hq
      | cons r rs =>
          rw [List.dropLast_cons_cons] at hq
          rcases List.mem_cons.1 hq with rfl | hq
          · exact settled
          · exact ih rfl q hq

end Parted

/-- **Run.** Splitting an expression gives parts of it, from whichever nesting it is read. -/
lemma parted_splitFrom (sep : Char) (n : Nesting) (s : Text) :
    Parted sep n (splitFrom sep n s) := by
  induction s generalizing n with
  | nil => exact .last (by simp [exposed])
  | cons c s ih =>
      have ih := ih (n.next c)
      rw [splitFrom]
      split
      · rename_i hsep
        obtain ⟨htop, hnext⟩ := eq_top_of_exposes (Bool.and_eq_true_iff.1 hsep).1
        rw [hnext] at ih ⊢
        exact .cons (by simp [exposed]) htop ih
      · rename_i hsep
        exact ih.modifyHead (Bool.eq_false_iff.2 hsep)

/-- **Splitting is lossless and atomic.**  For every expression, closed or not, the parts with the
separator between them are the expression again, no part is split further, and every part in front
of a separator ends outside of all brackets and literals.  A separator that neither opens nor closes
anything, behind a text that ends like that, starts the splitting anew. -/
theorem splitTop_lossless (sep : Char) :
    (∀ s : Text, joinWith sep (splitTop sep s) = s ∧
      (∀ p ∈ splitTop sep s, splitTop sep p = [p]) ∧
      ∀ p ∈ (splitTop sep s).dropLast, top.after p = top) ∧
    (isPlain sep = true → ∀ a : Text, top.after a = top → ∀ b : Text,
      splitTop sep (a ++ sep :: b) = splitTop sep a ++ splitTop sep b) := by
  constructor
  · intro s
    have hparted : Parted sep top (splitTop sep s) := parted_splitFrom sep top s
    exact ⟨joinWith_splitFrom sep top s, hparted.splitTop_eq, hparted.after_dropLast⟩
  · intro hsep a ha b
    exact splitFrom_append_sep hsep ha b

/-- A text that closes a bracket too many and holds separators in a literal and in brackets, in
front of one whose literal ends in a backslash and is never closed. -/
theorem splitTop_lossless_unclosed :
    isPlain ';' = true ∧ top.after ")é;f('ü;\\';', x;y) ".toList = top ∧
      splitTop ';' ")é;f('ü;\\';', x;y) ;z;\x60;\\".toList =
        [")é".toList, "f('ü;\\';', x;y) ".toList, "z".toList, "\x60;\\".toList] ∧
      joinWith ';' (splitTop ';' ")é;f('ü;\\';', x;y) ;z;\x60;\\".toList) =
        ")é;f('ü;\\';', x;y) ;z;\x60;\\".toList := by
  have hplain : isPlain ';' = true := by decide
  have hend : top.after ")é;f('ü;\\';', x;y) ".toList = top := by decide
  obtain ⟨hall, hanew⟩ := splitTop_lossless ';'
  refine ⟨hplain, hend, ?_, (hall _).1⟩
  have hsplit := hanew hplain _ hend "z;\x60;\\".toList
  refine hsplit.trans ?_
  decide

/-! ### Items -/

namespace Nesting

/-- **Step.** Inside of one more bracket a character is read as outside of it, or closes it, and then
both readings go on at the same place. -/
lemma next_inside (n : Nesting) (c : Char) :
    (n.deeper 1).next c = (n.next c).deeper 1 ∨ (n.deeper 1).next c = n.next c := by
  by_cases h : n = top ∧ isClosing c = true
  · obtain ⟨rfl, hc⟩ := h
    have hinside : (top.deeper 1).next c = top := next_closing hc 1
    have houtside : top.next c = top := next_closing hc 0
    exact .inr (hinside.trans houtside.symm)
  · exact .inl (next_deeper h 1)

/-- **Run.** The same for a whole text. -/
lemma after_inside (n : Nesting) (s : Text) :
    (n.deeper 1).after s = (n.after s).deeper 1 ∨ (n.deeper 1).after s = n.after s := by
  induction s generalizing n with
  | nil => exact .inl rfl
  | cons c s ih =>
      rw [after_cons, after_cons]
      rcases next_inside n c with h | h
      · rw [h]
        exact ih (n.next c)
      · exact .inr (by rw [h])

/-- Inside of one more bracket a text exposes nothing that it hides outside of it. -/
lemma notMem_exposed_inside {x : Char} {n : Nesting} {s : Text} (h : x ∉ n.exposed s) :
    x ∉ (n.deeper 1).exposed s := by
  induction s generalizing n with
  | nil => exact h
  | cons c s ih =>
      obtain ⟨-, hs⟩ := notMem_exposed_cons.1 h
      refine notMem_exposed_cons.2 ⟨by rw [exposes_deeper, Bool.false_and], ?_⟩
      rcases next_inside n c with hnext | hnext
      · rw [hnext]
        exact ih hs
      · rw [hnext]
        exact hs

lemma next_bracket : top.next '[' = top.deeper 1 := by decide

lemma after_booleanEntry {x : Text} (h : top.after x = top) : top.after (booleanEntry x) = top := by
  have hentry : booleanEntry x = '[' :: (x ++ "]:true".toList) := rfl
  rw [hentry, after_cons, next_bracket, after_append]
  -- behind `x` the bracket is still open, or `x` has closed it
  rcases after_inside top x with hx | hx
  · rw [hx, h]
    decide
  · rw [hx, h]
    decide

lemma comma_notMem_booleanEntry {x : Text} (h : ',' ∉ top.exposed x) :
    ',' ∉ top.exposed (booleanEntry x) := by
  have hentry : booleanEntry x = '[' :: (x ++ "]:true".toList) := rfl
  have hbehind (n : Nesting) : ',' ∉ n.exposed "]:true".toList := fun hmem =>
    absurd (mem_of_mem_exposed hmem) (by decide)
  rw [hentry]
  refine notMem_exposed_cons.2 ⟨by decide, ?_⟩
  rw [next_bracket, exposed_append, List.mem_append, not_or]
  exact ⟨notMem_exposed_inside h, hbehind _⟩

end Nesting

lemma dropLast_sublist_dropLast {α : Type} {l l' : List α} (h : l.Sublist l') :
    l.dropLast.Sublist l'.dropLast := by
  have hback := h.reverse.tail
  rw [List.tail_reverse, List.tail_reverse] at hback
  exact List.reverse_sublist.1 hback

/-- The items of any expression are found again: where the last one ends does not matter. -/
lemma itemized_topItems (s : Text) : Itemized (topItems s) := by
  have hparted : Parted ',' top (splitTop ',' s) := parted_splitFrom ',' top s
  constructor
  · intro x hx
    simpa using (List.mem_filter.1 hx).2
  · intro x hx
    obtain ⟨p, -, rfl⟩ := List.mem_map.1 (List.mem_filter.1 hx).1
    exact trim_trim p
  · intro x hx
    obtain ⟨p, hp, rfl⟩ := List.mem_map.1 (List.mem_filter.1 hx).1
    exact notMem_exposed_trim (hparted.hidden p hp)
  · intro x hx
    have hx := (dropLast_sublist_dropLast List.filter_sublist).subset hx
    rw [← List.map_dropLast] at hx
    obtain ⟨p, hp, rfl⟩ := List.mem_map.1 hx
    exact after_trim (hparted.after_dropLast p hp)

lemma Itemized.map_booleanEntry {xs : List Text} (h : Itemized xs) :
    Itemized (xs.map booleanEntry) := by
  constructor
  · exact List.forall_mem_map.2 fun x _ => (solid_booleanEntry x).ne_nil
  · exact List.forall_mem_map.2 fun x _ => (solid_booleanEntry x).trim_self
  · exact List.forall_mem_map.2 fun x hx => comma_notMem_booleanEntry (h.hidden x hx)
  · rw [← List.map_dropLast]
    exact List.forall_mem_map.2 fun x hx => after_booleanEntry (h.settled x hx)

/-- **Joining items and splitting them again changes nothing.**  The items of any expression, closed
or not, are found again, and so are the entries `[i]:true` that switch them on.  A list of texts is found again
if and only if these are trimmed and not empty, expose no comma, and all but the last end outside of
all brackets and literals. -/
theorem topItems_rejoined :
    (∀ s : Text, topItems (commaJoin (topItems s)) = topItems s) ∧
    (∀ xs : List Text, topItems (commaJoin xs) = xs ↔
      (∀ x ∈ xs, x ≠ [] ∧ trim x = x ∧ ',' ∉ top.exposed x) ∧
        ∀ x ∈ xs.dropLast, top.after x = top) ∧
    ∀ s : Text, topItems (entriesOfItems s) =
      (topItems s).map fun i => '[' :: (i ++ "]:true".toList) := by
  refine ⟨fun s => (itemized_topItems s).topItems_eq, fun xs => ⟨fun h => ?_, fun h => ?_⟩,
    fun s => (itemized_topItems s).map_booleanEntry.topItems_eq⟩
  · have hitems := itemized_topItems (commaJoin xs)
    rw [h] at hitems
    exact ⟨fun x hx => ⟨hitems.ne_nil x hx, hitems.trimmed x hx, hitems.hidden x hx⟩,
      hitems.settled⟩
  · obtain ⟨hall, hsettled⟩ := h
    exact Itemized.topItems_eq ⟨fun x hx => (hall x hx).1, fun x hx => (hall x hx).2.1,
      fun x hx => (hall x hx).2.2, hsettled⟩

-- the blank that is trimmed away stands in an open literal, behind a backslash
example : topItems "f(x, y),, 'a', 'b\\ ".toList =
    ["f(x, y)".toList, "'a'".toList, "'b\\".toList] := by decide

end ClassFold
