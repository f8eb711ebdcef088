import ClassFold.Proofs.Component.Source
import ClassFold.Proofs.Text.Reading

/-!
Written tags of blocks are read back.

The tags of a block are read in two ways.  Those at the top of a file are read with their attributes
(`readOpenTag_opening`, `readBlockAttrs_printAll`).  Those of nested templates and of blocks that
mean nothing here are only passed over, and then quotes decide what belongs to a value and what ends
the tag (`skipOutsideQuotes_printAll`).  A tag belongs to a kind of blocks only if it has the whole
name of that kind (`skipTagName_eq_none`).
-/

namespace ClassFold

open Text

/-! ### Attributes -/

lemma isLayout_eq_false_of_isBlockAttrChar {c : Char} (hc : isBlockAttrChar c = true) :
    isLayout c = false := by
  by_contra hnot
  simp only [isLayout, Bool.not_eq_false, Bool.or_eq_true, beq_iff_eq] at hnot
  rcases hnot with ((rfl | rfl) | rfl) | rfl <;> exact absurd hc (by decide)

/-- An attribute is read back where it is written. -/
lemma readBlockAttr_print {a : BlockAttr} (ha : a.isCanonical = true) {s : Text}
    (hs : ∀ c ∈ s.head?, isBlockAttrChar c = false)
    (hequals : (s.dropWhile isLayout).head? ≠ some '=') (offset : Nat) :
    readBlockAttr ⟨offset, a.print ++ s⟩ = some (a, ⟨offset + byteSize a.print, s⟩) := by
  obtain ⟨name, value⟩ := a
  obtain ⟨⟨hne, hname⟩, hvalue⟩ := BlockAttr.isCanonical_iff.1 ha
  have hnot : name.isEmpty = false := by simpa using hne
  cases value with
  | none =>
      have hnone : readAssignedValue ⟨offset + byteSize name, s⟩ = none := by
        rw [readAssignedValue, Cursor.skipWhile, Cursor.skip?_eq_none hequals]
        rfl
      simp only [BlockAttr.print, Option.elim_none, List.append_nil, readBlockAttr,
        takeWhile_append_stop hname hs, Cursor.skipWhile_append hname hs, hnot, hnone,
        Bool.false_eq_true, if_false]
  | some v =>
      have hshape : BlockAttr.print ⟨name, some v⟩ ++ s =
          name ++ ('=' :: '"' :: (v ++ '"' :: s)) := by
        simp [BlockAttr.print]
      have hnext : ∀ c ∈ ('=' :: '"' :: (v ++ '"' :: s)).head?, isBlockAttrChar c = false := by
        simp [isBlockAttrChar]
      have hcut := cut?_append (hvalue v rfl) s
      have hassigned : readAssignedValue ⟨offset + byteSize name, '=' :: '"' :: (v ++ '"' :: s)⟩ =
          some (v, ⟨offset + byteSize (BlockAttr.print ⟨name, some v⟩), s⟩) := by
        simp [readAssignedValue, readBlockValue, Cursor.skipWhile, Cursor.skip?, Cursor.cut?,
          Cursor.advance, strip?, isLayout, hcut, BlockAttr.print, Nat.add_assoc]
      rw [hshape, readBlockAttr]
      simp only [takeWhile_append_stop hname hnext, Cursor.skipWhile_append hname hnext, hnot,
        hassigned, Bool.false_eq_true, if_false]

/-- A tag goes on behind an attribute of it. -/
lemma readBlockAttrs_of_readBlockAttr {c d : Cursor} {a : BlockAttr}
    (hc : c.rest.head?.any isLayout = true)
    (h : readBlockAttr (c.skipWhile isLayout) = some (a, d)) :
    readBlockAttrs c = (a :: (readBlockAttrs d).1, (readBlockAttrs d).2) := by
  rw [readBlockAttrs, if_pos hc]
  split
  · rename_i a' d' h'
    obtain ⟨rfl, rfl⟩ : a = a' ∧ d = d' := by simpa [h] using h'
    rfl
  · rename_i h'
    simp [h] at h'

/-- A list of attributes ends where no white space comes. -/
lemma readBlockAttrs_eq_nil {c : Cursor} (hc : c.rest.head?.any isLayout = false) :
    readBlockAttrs c = ([], c) := by
  rw [readBlockAttrs, hc]
  rfl

namespace BlockAttr

/-- An attribute starts with a character of its name. -/
lemma exists_cons_print {a : BlockAttr} (ha : a.isCanonical = true) :
    ∃ c t, a.print = c :: t ∧ isBlockAttrChar c = true := by
  obtain ⟨⟨hne, hname⟩, -⟩ := isCanonical_iff.1 ha
  obtain ⟨c, name, hcons⟩ := List.exists_cons_of_ne_nil hne
  refine ⟨c, name ++ a.value.elim [] fun v => '=' :: '"' :: (v ++ ['"']), ?_, ?_⟩
  · rw [print, hcons, List.cons_append]
  · exact hname c (by simp [hcons])

/-- The first character behind an attribute does not belong to its name. -/
lemma head_printAll (as : List BlockAttr) (s : Text) :
    ∀ c ∈ (printAll as ++ '>' :: s).head?, isBlockAttrChar c = false := by
  cases as <;> simp [isBlockAttrChar]

/-- Behind an attribute without a value comes no equals sign. -/
lemma head_dropWhile_printAll {as : List BlockAttr} (has : areCanonical as = true) (s : Text) :
    ((printAll as ++ '>' :: s).dropWhile isLayout).head? ≠ some '=' := by
  cases as with
  | nil => simp [isLayout]
  | cons a as =>
      simp only [areCanonical_cons, Bool.and_eq_true] at has
      obtain ⟨c, t, ht, hc⟩ := exists_cons_print has.1
      have hspace : isLayout ' ' = true := rfl
      have hne : c ≠ '=' := by rintro rfl; exact absurd hc (by decide)
      simpa [ht, hspace, isLayout_eq_false_of_isBlockAttrChar hc] using hne

end BlockAttr

/-- The attributes of a tag are read back where they are written. -/
lemma readBlockAttrs_printAll {as : List BlockAttr} (has : BlockAttr.areCanonical as = true)
    (s : Text) (offset : Nat) :
    readBlockAttrs ⟨offset, BlockAttr.printAll as ++ '>' :: s⟩ =
      (as, ⟨offset + byteSize (BlockAttr.printAll as), '>' :: s⟩) := by
  induction as generalizing offset with
  | nil => exact readBlockAttrs_eq_nil (by simp [isLayout])
  | cons a as ih =>
      simp only [BlockAttr.areCanonical_cons, Bool.and_eq_true] at has
      obtain ⟨ha, has⟩ := has
      have hskip : Cursor.skipWhile isLayout
          ⟨offset, [' '] ++ (a.print ++ (BlockAttr.printAll as ++ '>' :: s))⟩ =
            ⟨offset + byteSize [' '], a.print ++ (BlockAttr.printAll as ++ '>' :: s)⟩ := by
        obtain ⟨c, t, ht, hc⟩ := BlockAttr.exists_cons_print ha
        refine Cursor.skipWhile_append (by simp [isLayout]) ?_
        simpa [ht] using isLayout_eq_false_of_isBlockAttrChar hc
      have hread := readBlockAttr_print ha (BlockAttr.head_printAll as s)
        (BlockAttr.head_dropWhile_printAll has s) (offset + byteSize [' '])
      rw [BlockAttr.printAll_cons, List.cons_append, List.append_assoc,
        readBlockAttrs_of_readBlockAttr rfl (hskip ▸ hread), ih has]
      simp [Nat.add_assoc]

/-! ### Tags -/

namespace BlockTag

/-- The attributes behind the name of a tag do not belong to the name. -/
lemma head_printAll_append (as : List BlockAttr) {s : Text}
    (hs : ∀ c ∈ s.head?, isBlockTagChar c = false) :
    ∀ c ∈ (BlockAttr.printAll as ++ s).head?, isBlockTagChar c = false := by
  cases as with
  | nil => exact hs
  | cons a as => simp [isBlockTagChar]

lemma head_printAll_close (as : List BlockAttr) (s : Text) :
    ∀ c ∈ (BlockAttr.printAll as ++ '>' :: s).head?, isBlockTagChar c = false :=
  head_printAll_append as (by simp [isBlockTagChar])

end BlockTag

lemma skipTagName_append {name s : Text} (hs : ∀ c ∈ s.head?, isBlockTagChar c = false)
    (offset : Nat) :
    skipTagName name ⟨offset, '<' :: (name ++ s)⟩ = some ⟨offset + byteSize ('<' :: name), s⟩ := by
  have hskip : Cursor.skip? ('<' :: name) ⟨offset, '<' :: (name ++ s)⟩ =
      some ⟨offset + byteSize ('<' :: name), s⟩ := Cursor.skip?_append ('<' :: name)
  rw [skipTagName, hskip, Option.filter_some]
  cases s with
  | nil => rfl
  | cons c s => simp [hs c rfl]

/-- Only the whole name of a tag is skipped. -/
lemma skipTagName_eq_none {name tag s : Text} (hname : ∀ c ∈ name, isBlockTagChar c = true)
    (htag : ∀ c ∈ tag, isBlockTagChar c = true) (hs : ∀ c ∈ s.head?, isBlockTagChar c = false)
    (hne : name ≠ tag) (offset : Nat) : skipTagName tag ⟨offset, '<' :: (name ++ s)⟩ = none := by
  by_contra hsome
  obtain ⟨d, hd⟩ := Option.ne_none_iff_exists'.1 hsome
  obtain ⟨hskip, hnext⟩ := Option.filter_eq_some_iff.1 hd
  have hshape : name ++ s = tag ++ d.rest := by
    simpa using Cursor.rest_of_skip? hskip
  have hd : ∀ c ∈ d.rest.head?, isBlockTagChar c = false := by
    intro c hc
    simpa [Option.mem_def.1 hc] using hnext
  -- both names are the characters up to the first that belongs to no name
  refine hne ?_
  rw [← takeWhile_append_stop hname hs, hshape, takeWhile_append_stop htag hd]

/-- An opening tag is read back where it is written. -/
lemma readOpenTag_opening {name : Text} {attrs : List BlockAttr}
    (hattrs : BlockAttr.areCanonical attrs = true) (s : Text) (offset : Nat) :
    readOpenTag name ⟨offset, BlockTag.opening name attrs ['>'] ++ s⟩ =
      some (attrs, ⟨offset + byteSize (BlockTag.opening name attrs ['>']), s⟩) := by
  have hshape : BlockTag.opening name attrs ['>'] ++ s =
      '<' :: (name ++ (BlockAttr.printAll attrs ++ '>' :: s)) := by
    simp [BlockTag.opening]
  rw [hshape, readOpenTag, skipTagName_append (BlockTag.head_printAll_close attrs s),
    Option.bind_some, readBlockAttrs_printAll hattrs]
  simp [Cursor.skipWhile, Cursor.skip?, strip?, isLayout, BlockTag.opening, Nat.add_assoc]

/-- A closing tag is passed over where it is written. -/
lemma skipCloseTag_closing (name s : Text) (offset : Nat) :
    skipCloseTag name ⟨offset, BlockTag.closing name ++ s⟩ =
      some ⟨offset + byteSize (BlockTag.closing name), s⟩ := by
  have hshape : BlockTag.closing name ++ s = ("</".toList ++ name) ++ '>' :: s := by
    simp [BlockTag.closing]
  rw [hshape, skipCloseTag, Cursor.skip?_append, Option.bind_some]
  simp [Cursor.skipWhile, Cursor.skip?, strip?, isLayout, BlockTag.closing, Nat.add_assoc]

lemma startsCloseTag_closing (name s : Text) :
    startsCloseTag name (BlockTag.closing name ++ s) = true := by
  rw [startsCloseTag, skipCloseTag_closing]
  rfl

/-- A closing tag starts with its name. -/
lemma startsCloseTag_eq_false {name s : Text} (h : startsWith ("</".toList ++ name) s = false) :
    startsCloseTag name s = false := by
  have hnone : strip? ("</".toList ++ name) s = none := by simpa [startsWith] using h
  rw [startsCloseTag, skipCloseTag, Cursor.skip?, hnone]
  rfl

/-! ### Tags whose attributes are passed over -/

section Passing

variable {p : Text → Bool}

lemma skipOutsideQuotes_of_stop {s : Text} (hs : s ≠ []) (hstop : p s = true) (offset : Nat) :
    skipOutsideQuotes p ⟨offset, s⟩ = ⟨offset, s⟩ := by
  rw [skipOutsideQuotes]
  simp [hs, hstop]

lemma skipOutsideQuotes_of_skipQuoted {c d : Cursor} (hc : c.rest ≠ [])
    (hstop : p c.rest = false) (h : skipQuoted c = some d) :
    skipOutsideQuotes p c = skipOutsideQuotes p d := by
  rw [skipOutsideQuotes, dif_neg hc, hstop]
  simp only [Bool.false_eq_true, if_false]
  split <;> simp_all

lemma skipOutsideQuotes_of_eq_none {c : Cursor} (hc : c.rest ≠ [])
    (hstop : p c.rest = false) (h : skipQuoted c = none) :
    skipOutsideQuotes p c = skipOutsideQuotes p (c.advance 1) := by
  rw [skipOutsideQuotes, dif_neg hc, hstop]
  simp only [Bool.false_eq_true, if_false]
  split <;> simp_all

lemma skipQuoted_append {v : Text} (hv : '"' ∉ v) (s : Text) (offset : Nat) :
    skipQuoted ⟨offset, '"' :: (v ++ '"' :: s)⟩ =
      some ⟨offset + byteSize ('"' :: (v ++ ['"'])), s⟩ := by
  simp [skipQuoted, Cursor.advance, Cursor.cut?, cut?_append hv s, Nat.add_assoc]

variable (hstop : ∀ c s, c ≠ '>' → c ≠ '/' → p (c :: s) = false)

include hstop

/-- Characters that are neither quotes nor at the end of a tag are passed over. -/
lemma skipOutsideQuotes_plain {w : Text}
    (hw : ∀ c ∈ w, (c ≠ '>' ∧ c ≠ '/') ∧ (c ≠ '"' ∧ c ≠ '\'')) (s : Text) (offset : Nat) :
    skipOutsideQuotes p ⟨offset, w ++ s⟩ =
      skipOutsideQuotes p ⟨offset + byteSize w, s⟩ := by
  induction w generalizing offset with
  | nil => rfl
  | cons c w ih =>
      obtain ⟨⟨hend, hslash⟩, hdouble, hsingle⟩ := hw c (by simp)
      have hquote : skipQuoted ⟨offset, c :: (w ++ s)⟩ = none := by
        simp [skipQuoted, hdouble, hsingle]
      rw [List.cons_append, skipOutsideQuotes_of_eq_none (by simp) (hstop c _ hend hslash) hquote]
      simpa [Cursor.advance, Nat.add_assoc] using
        ih (fun c hc => hw c (by simp [hc])) (offset + c.utf8Size)

/-- The attributes of a tag are passed over, whatever stands between their quotes. -/
lemma skipOutsideQuotes_printAll {as : List BlockAttr} (has : BlockAttr.areCanonical as = true)
    (s : Text) (offset : Nat) :
    skipOutsideQuotes p ⟨offset, BlockAttr.printAll as ++ s⟩ =
      skipOutsideQuotes p ⟨offset + byteSize (BlockAttr.printAll as), s⟩ := by
  induction as generalizing offset with
  | nil => rfl
  | cons a as ih =>
      simp only [BlockAttr.areCanonical_cons, Bool.and_eq_true] at has
      obtain ⟨⟨-, hname⟩, hvalue⟩ := BlockAttr.isCanonical_iff.1 has.1
      obtain ⟨name, value⟩ := a
      have hplain : ∀ c ∈ ' ' :: (name ++ ['=']),
          (c ≠ '>' ∧ c ≠ '/') ∧ (c ≠ '"' ∧ c ≠ '\'') := by
        intro c hc
        simp only [List.mem_cons, List.mem_append, List.not_mem_nil, or_false] at hc
        rcases hc with rfl | hc | rfl
        · decide
        · have := hname c hc
          refine ⟨⟨?_, ?_⟩, ?_, ?_⟩ <;> rintro rfl <;> exact absurd this (by decide)
        · decide
      cases value with
      | none =>
          have hshape : BlockAttr.printAll (⟨name, none⟩ :: as) ++ s =
              (' ' :: name) ++ (BlockAttr.printAll as ++ s) := by
            simp [BlockAttr.print]
          have hfront : ∀ c ∈ ' ' :: name, c ∈ ' ' :: (name ++ ['=']) := by simp +contextual
          rw [hshape, skipOutsideQuotes_plain hstop fun c hc => hplain c (hfront c hc), ih has.2]
          simp [BlockAttr.print, Nat.add_assoc]
      | some v =>
          have hshape : BlockAttr.printAll (⟨name, some v⟩ :: as) ++ s =
              (' ' :: (name ++ ['='])) ++ '"' :: (v ++ '"' :: (BlockAttr.printAll as ++ s)) := by
            simp [BlockAttr.print]
          have hquoted := skipQuoted_append (hvalue v rfl) (BlockAttr.printAll as ++ s)
            (offset + byteSize (' ' :: (name ++ ['='])))
          rw [hshape, skipOutsideQuotes_plain hstop hplain,
            skipOutsideQuotes_of_skipQuoted (by simp) (hstop '"' _ (by decide) (by decide)) hquoted,
            ih has.2]
          simp [BlockAttr.print, Nat.add_assoc]

end Passing

end ClassFold
