import Mathlib.Data.List.DropRight
import Mathlib.Data.List.Infix
import ClassFold.Proofs.Text.Bytes
import ClassFold.Text.Blank
import ClassFold.Text.Cursor

/-!
Reading text that is known.

When the text behind a cursor is known to start with certain words, each move of the cursor lands
behind a known part of it.  A reader that looks for a word finds its first occurrence.  When a text
free of the word is followed by it, this is the occurrence behind the text, unless an end of the
text and the beginning of the word make up the word together.

* `takeUntil_append`, `dropUntil_append`: cutting behind a text none of whose suffixes is a hit.
* `startsWith_append_eq_false`: no suffix of a text starts with a word, whatever comes behind it.
* `cut?_word`, `cut?_commentEnd`: a text is cut at a word behind any text free of it.
* `cut?_eq_some_iff`: where a text is cut.
* `free_of_cut?_eq_none`: a text that is cut nowhere is free of the word.
* `trim_trim`: nothing is left to trim in a trimmed text.
* `Cursor.advance_append`, `Cursor.skipWhile_append`, `Cursor.skip?_append`, `Cursor.cut?_append`:
  where the moves of a cursor lead.
-/

namespace ClassFold.Text

/-- A text is free of a word when the word does not occur in it. -/
def Free (w s : Text) : Prop := ¬ w <:+: s

instance (w s : Text) : Decidable (Free w s) := inferInstanceAs (Decidable (¬ _))

lemma Free.of_suffix {w s t : Text} (h : Free w s) (ht : t <:+ s) : Free w t :=
  fun hw => h (hw.trans ht.isInfix)

/-! ### Cutting behind a text -/

section Cutting

variable {p : Text → Bool} {s t : Text}

lemma takeUntil_append (hs : ∀ a, a ≠ [] → a <:+ s → p (a ++ t) = false)
    (ht : t = [] ∨ p t = true) : takeUntil p (s ++ t) = s := by
  induction s with
  | nil =>
      rcases ht with rfl | ht
      · rfl
      · cases t with
        | nil => rfl
        | cons c t => simp [takeUntil, ht]
  | cons c s ih =>
      have hc : p (c :: (s ++ t)) = false := hs (c :: s) (by simp) List.suffix_rfl
      have hmore := ih fun a ha hsuf => hs a ha (hsuf.trans (List.suffix_cons c s))
      simp [takeUntil, hc, hmore]

lemma dropUntil_append (hs : ∀ a, a ≠ [] → a <:+ s → p (a ++ t) = false)
    (ht : t = [] ∨ p t = true) : dropUntil p (s ++ t) = t := by
  have hall := takeUntil_append_dropUntil p (s ++ t)
  rw [takeUntil_append hs ht] at hall
  exact List.append_cancel_left hall

end Cutting

/-! ### Words -/

lemma startsWith_iff {w s : Text} : startsWith w s = true ↔ w <+: s := by
  rw [startsWith, Option.isSome_iff_exists]
  simp only [strip?_eq_some]
  exact exists_congr fun _ => eq_comm

lemma startsWith_append (w s : Text) : startsWith w (w ++ s) = true :=
  startsWith_iff.2 (List.prefix_append w s)

/-- A suffix of a text without the word `w` does not start with `w`, with `t` behind it, unless
some beginning of `w` ends the text and the rest of `w` starts `t`. -/
lemma startsWith_append_eq_false {w s t a : Text} (hfree : Free w s)
    (hjoin : ∀ k, 0 < k → k < w.length → w.drop k <+: t → ¬ w.take k <:+ s)
    (ha : a ≠ []) (has : a <:+ s) : startsWith w (a ++ t) = false := by
  rw [Bool.eq_false_iff, ne_eq, startsWith_iff]
  intro hw
  by_cases hlen : w.length ≤ a.length
  · have hwa : w <+: a := List.prefix_of_prefix_length_le hw (List.prefix_append a t) hlen
    exact hfree (hwa.isInfix.trans has.isInfix)
  · -- the word starts with the whole suffix and goes on in the text behind it
    have haw : a <+: w :=
      List.prefix_of_prefix_length_le (List.prefix_append a t) hw (by omega)
    obtain ⟨b, rfl⟩ := haw
    have hb : b <+: t := (List.prefix_append_right_inj a).1 hw
    have hpos : 0 < a.length := List.length_pos_iff.2 ha
    exact hjoin a.length hpos (Nat.lt_of_not_le hlen) (by simpa using hb) (by simpa using has)

/-- A word whose first character does not come again cannot start in one text and go on in another
that starts with this character. -/
lemma startsWith_cons_append_eq_false {c : Char} {w s t a : Text} (hc : c ∉ w)
    (hfree : Free (c :: w) s) (ht : t.head? = some c) (ha : a ≠ []) (has : a <:+ s) :
    startsWith (c :: w) (a ++ t) = false := by
  refine startsWith_append_eq_false hfree (fun k hk hlt hpre _ => ?_) ha has
  obtain ⟨t', rfl⟩ := List.head?_eq_some_iff.1 ht
  obtain ⟨k, rfl⟩ := Nat.exists_eq_add_of_lt hk
  simp only [Nat.zero_add, List.drop_succ_cons, List.length_cons] at hpre hlt
  cases hd : w.drop k with
  | nil =>
      have := List.drop_eq_nil_iff.1 hd
      omega
  | cons d v =>
      rw [hd] at hpre
      obtain ⟨rfl, -⟩ := List.cons_prefix_cons.1 hpre
      have hmem : d ∈ w.drop k := by simp [hd]
      exact hc (List.mem_of_mem_drop hmem)

lemma cut?_of_startsWith {w s r : Text}
    (hs : ∀ a, a ≠ [] → a <:+ s → startsWith w (a ++ (w ++ r)) = false) :
    cut? w (s ++ (w ++ r)) = some (s, r) := by
  have ht : w ++ r = [] ∨ startsWith w (w ++ r) = true := .inr (startsWith_append w r)
  rw [cut?, takeUntil_append hs ht, dropUntil_append hs ht, strip?_eq_some.2 rfl]
  rfl

/-- A text is cut at a word behind any text free of it, unless a beginning of the word ends the text
and the word goes on in itself. -/
lemma cut?_word {w s : Text} (hfree : Free w s)
    (hjoin : ∀ k, 0 < k → k < w.length → w.drop k <+: w → ¬ w.take k <:+ s) (r : Text) :
    cut? w (s ++ (w ++ r)) = some (s, r) := by
  refine cut?_of_startsWith fun a => startsWith_append_eq_false hfree fun k hk hlt hpre => ?_
  refine hjoin k hk hlt (List.prefix_of_prefix_length_le hpre (List.prefix_append w r) ?_)
  simp

lemma eq_false_of_dropUntil_eq_nil {p : Text → Bool} {s a : Text} (h : dropUntil p s = [])
    (ha : a ≠ []) (hsuf : a <:+ s) : p a = false := by
  induction s with
  | nil => exact absurd (List.suffix_nil.1 hsuf) ha
  | cons c s ih =>
      rw [dropUntil] at h
      split at h
      · simp at h
      · rename_i hp
        rcases List.suffix_cons_iff.1 hsuf with rfl | hsuf
        · simpa using hp
        · exact ih h hsuf

/-- A text that is cut nowhere is free of the word. -/
lemma free_of_cut?_eq_none {w s : Text} (hw : w ≠ []) (h : cut? w s = none) : Free w s := by
  rintro ⟨front, back, hs⟩
  have hstrip : strip? w (dropUntil (startsWith w) s) = none := by simpa [cut?] using h
  rcases dropUntil_eq_nil_or (startsWith w) s with hnil | hhit
  · have hnone : startsWith w (w ++ back) = false :=
      eq_false_of_dropUntil_eq_nil hnil (by simp [hw]) ⟨front, by rw [← hs]; simp⟩
    rw [startsWith_append] at hnone
    simp at hnone
  · simp [startsWith, hstrip] at hhit

lemma eq_false_of_suffix_takeUntil {p : Text → Bool} {s a : Text} (ha : a ≠ [])
    (hsuf : a <:+ takeUntil p s) : p (a ++ dropUntil p s) = false := by
  induction s with
  | nil => exact absurd (List.suffix_nil.1 hsuf) ha
  | cons c s ih =>
      by_cases hp : p (c :: s) = true
      · rw [takeUntil, if_pos hp] at hsuf
        exact absurd (List.suffix_nil.1 hsuf) ha
      · rw [takeUntil, if_neg hp] at hsuf
        rw [dropUntil, if_neg hp]
        rcases List.suffix_cons_iff.1 hsuf with rfl | hsuf
        · rw [List.cons_append, takeUntil_append_dropUntil]
          simpa using hp
        · exact ih hsuf

/-- A word whose first character does not come again cuts a text at its first occurrence. -/
lemma cut?_eq_some_iff {c : Char} {w s a b : Text} (hc : c ∉ w) :
    cut? (c :: w) s = some (a, b) ↔ s = a ++ (c :: w ++ b) ∧ Free (c :: w) a := by
  constructor
  · intro h
    refine ⟨by rw [eq_of_cut? h, List.append_assoc], ?_⟩
    obtain ⟨r, -, he⟩ := Option.map_eq_some_iff.1 h
    obtain ⟨rfl, -⟩ := Prod.mk.inj he
    rintro ⟨front, back, hfront⟩
    have hnone : startsWith (c :: w)
        ((c :: w ++ back) ++ dropUntil (startsWith (c :: w)) s) = false :=
      eq_false_of_suffix_takeUntil (by simp) ⟨front, by rw [← hfront, List.append_assoc]⟩
    rw [List.append_assoc, startsWith_append] at hnone
    simp at hnone
  · rintro ⟨rfl, hfree⟩
    exact cut?_of_startsWith fun a ha hsuf => startsWith_cons_append_eq_false hc hfree rfl ha hsuf

lemma notMem_of_free {m : Char} {s : Text} (h : Free [m] s) : m ∉ s := by
  intro hm
  obtain ⟨front, back, rfl⟩ := List.append_of_mem hm
  exact h ⟨front, back, by simp⟩

/-- A text is cut at the end of a comment behind any text free of it. -/
lemma cut?_commentEnd {s : Text} (hfree : Free "-->".toList s) (r : Text) :
    cut? "-->".toList (s ++ ("-->".toList ++ r)) = some (s, r) := by
  -- no end of the word starts it
  have hjoin : ∀ k < "-->".toList.length, 0 < k → ¬ "-->".toList.drop k <+: "-->".toList := by
    decide
  exact cut?_word hfree (fun k hpos hlt hpre => absurd hpre (hjoin k hlt hpos)) r

/-- The characters up to one without the property are those in front of it. -/
lemma takeWhile_append_stop {p : Char → Bool} {s t : Text} (hs : ∀ c ∈ s, p c = true)
    (ht : ∀ c ∈ t.head?, p c = false) : (s ++ t).takeWhile p = s := by
  rw [List.takeWhile_append_of_pos hs]
  cases t with
  | nil => simp
  | cons c t => simp [ht c (by simp)]

lemma dropWhile_append_stop {p : Char → Bool} {s t : Text} (hs : ∀ c ∈ s, p c = true)
    (ht : ∀ c ∈ t.head?, p c = false) : (s ++ t).dropWhile p = t := by
  rw [List.dropWhile_append_of_pos hs]
  cases t with
  | nil => rfl
  | cons c t => simp [ht c (by simp)]

/-! ### Trimming -/

lemma trim_prefix_trimStart (s : Text) : trim s <+: trimStart s :=
  List.rdropWhile_prefix isBlank (trimStart s)

lemma trim_trim (s : Text) : trim (trim s) = trim s := by
  have hstart : trimStart (trim s) = trim s := by
    obtain ⟨t, ht⟩ := trim_prefix_trimStart s
    cases hs : trim s with
    | nil => rfl
    | cons c r =>
        -- the first character is that of a text from which blanks have been dropped
        have hc := List.head?_dropWhile_not isBlank s
        rw [← trimStart, ← ht, hs] at hc
        simpa [trimStart] using hc
  have hend : trimEnd (trim s) = trim s := List.rdropWhile_idempotent isBlank (trimStart s)
  calc trim (trim s) = trimEnd (trimStart (trim s)) := rfl
    _ = trimEnd (trim s) := by rw [hstart]
    _ = trim s := hend

end ClassFold.Text

namespace ClassFold.Cursor

open Text

variable {offset : Nat} {s t : Text}

lemma advance_append (n : Nat) (hn : s.length = n) :
    advance n ⟨offset, s ++ t⟩ = ⟨offset + byteSize s, t⟩ := by
  subst hn
  simp [advance]

lemma skipWhile_append {p : Char → Bool} (hs : ∀ c ∈ s, p c = true)
    (ht : ∀ c ∈ t.head?, p c = false) :
    skipWhile p ⟨offset, s ++ t⟩ = ⟨offset + byteSize s, t⟩ := by
  rw [skipWhile, takeWhile_append_stop hs ht, dropWhile_append_stop hs ht]

/-- A cursor in front of a character without the property stays where it is. -/
lemma skipWhile_eq_self {p : Char → Bool} (ht : ∀ c ∈ t.head?, p c = false) :
    skipWhile p ⟨offset, t⟩ = ⟨offset, t⟩ := by
  have h : skipWhile p ⟨offset, [] ++ t⟩ = ⟨offset + byteSize [], t⟩ :=
    skipWhile_append (by simp) ht
  simpa using h

lemma skipUntil_append {p : Text → Bool} (hs : ∀ a, a ≠ [] → a <:+ s → p (a ++ t) = false)
    (ht : t = [] ∨ p t = true) : skipUntil p ⟨offset, s ++ t⟩ = ⟨offset + byteSize s, t⟩ := by
  rw [skipUntil, takeUntil_append hs ht, dropUntil_append hs ht]

lemma skip?_append (w : Text) : skip? w ⟨offset, w ++ t⟩ = some ⟨offset + byteSize w, t⟩ := by
  rw [skip?, strip?_eq_some.2 rfl]
  rfl

lemma skip?_singleton (c : Char) :
    skip? [c] ⟨offset, c :: t⟩ = some ⟨offset + byteSize [c], t⟩ := skip?_append [c]

/-- A word is not skipped where another character stands. -/
lemma skip?_eq_none {c : Char} {w : Text} (ht : t.head? ≠ some c) :
    skip? (c :: w) ⟨offset, t⟩ = none := by
  cases t with
  | nil => rfl
  | cons d t =>
      have hd : c ≠ d := fun h => ht (by simp [h])
      simp [skip?, strip?, hd]

lemma skipOptional_append (w : Text) :
    skipOptional w ⟨offset, w ++ t⟩ = ⟨offset + byteSize w, t⟩ := by
  rw [skipOptional, skip?_append]
  rfl

lemma cut?_append {w : Text} (h : Text.cut? w (s ++ (w ++ t)) = some (s, t)) :
    cut? w ⟨offset, s ++ (w ++ t)⟩ = some (s, ⟨offset + byteSize (s ++ w), t⟩) := by
  rw [cut?, h, byteSize_append, ← Nat.add_assoc]
  rfl

end ClassFold.Cursor
