import ClassFold.Component.Content

/-!
Reading a component file.

Between the blocks of a file stand white space and comments only.  A block with any other name, or
one whose tags are not written like those of its kind, is passed over from its opening tag up to
the first closing tag with exactly its name.
-/

namespace ClassFold

open Text

/-- The block of the given kind at the cursor, and the cursor behind it. -/
def readBlock (kind : BlockKind) (c : Cursor) : Option (Block × Cursor) :=
  (readOpenTag kind.tag c).bind fun p =>
    let start := p.2
    let stop := skipContent kind start
    (skipCloseTag kind.tag stop).map fun d =>
      (⟨kind, p.1, takeBytes (stop.offset - start.offset) start.rest,
        ⟨start.offset, stop.offset⟩⟩, d)

/-- The cursor behind a block that is passed over. -/
def skipOtherBlock (c : Cursor) : Option Cursor :=
  (c.skip? ['<']).bind fun d =>
    let name := d.rest.takeWhile isBlockTagChar
    if name.head?.any Char.isAlpha then
      ((skipOutsideQuotes (startsWith ">".toList) (d.skipWhile isBlockTagChar)).skip? ['>']).bind
        fun e => (e.cut? ("</".toList ++ name ++ ['>'])).map (·.2)
    else none

/-- The cursor behind a comment. -/
def skipComment (c : Cursor) : Option Cursor :=
  (c.skip? "<!--".toList).bind fun d => (d.cut? "-->".toList).map (·.2)

/-- One piece of a component file: a block, or nothing for white space, comments and blocks that
are passed over. -/
def readPiece (c : Cursor) : Option (Option Block × Cursor) :=
  if c.rest.head?.any isLayout then some (none, c.skipWhile isLayout)
  else
    match skipComment c with
    | some d => some (none, d)
    | none =>
      match [BlockKind.template, .script, .style].findSome? fun kind => readBlock kind c with
      | some (b, d) => some (some b, d)
      | none => (skipOtherBlock c).map fun d => (none, d)

theorem length_rest_lt_of_readBlock {kind : BlockKind} {c d : Cursor} {b : Block}
    (h : readBlock kind c = some (b, d)) : d.rest.length < c.rest.length := by
  obtain ⟨⟨attrs, start⟩, ho, hd⟩ := Option.bind_eq_some_iff.1 h
  obtain ⟨e, he, hp⟩ := Option.map_eq_some_iff.1 hd
  obtain ⟨-, rfl⟩ := Prod.mk.inj hp
  exact Nat.lt_trans (length_rest_lt_of_skipCloseTag he)
    (Nat.lt_of_le_of_lt (length_rest_skipContent_le kind start) (length_rest_lt_of_readOpenTag ho))

theorem length_rest_lt_of_skipOtherBlock {c d : Cursor} (h : skipOtherBlock c = some d) :
    d.rest.length < c.rest.length := by
  obtain ⟨e, he, hd⟩ := Option.bind_eq_some_iff.1 h
  simp only at hd
  split at hd
  · obtain ⟨f, hf, hg⟩ := Option.bind_eq_some_iff.1 hd
    obtain ⟨⟨t, g⟩, hc, rfl⟩ := Option.map_eq_some_iff.1 hg
    have h1 := Cursor.length_rest_of_skip? he
    have h2 := Cursor.length_rest_skipWhile_le isBlockTagChar e
    have h3 := length_rest_skipOutsideQuotes_le (startsWith ">".toList)
      (e.skipWhile isBlockTagChar)
    have h4 := Cursor.length_rest_of_skip? hf
    have h5 := Cursor.length_rest_le_of_cut? hc
    simp only [List.length_cons, List.length_nil] at h1 ⊢
    omega
  · simp at hd

theorem length_rest_lt_of_skipComment {c d : Cursor} (h : skipComment c = some d) :
    d.rest.length < c.rest.length := by
  obtain ⟨e, he, hd⟩ := Option.bind_eq_some_iff.1 h
  obtain ⟨⟨t, f⟩, hc, rfl⟩ := Option.map_eq_some_iff.1 hd
  have h1 := Cursor.length_rest_of_skip? he
  have h2 := Cursor.length_rest_le_of_cut? hc
  have h3 : "<!--".toList.length = 4 := rfl
  simp only
  omega

/-- Reading a piece makes progress. -/
theorem length_rest_lt_of_readPiece {c d : Cursor} {b : Option Block}
    (h : readPiece c = some (b, d)) : d.rest.length < c.rest.length := by
  unfold readPiece at h
  split at h
  · rename_i hl
    obtain ⟨-, rfl⟩ := Prod.mk.inj (Option.some.inj h)
    apply Cursor.length_rest_skipWhile_lt
    cases hr : c.rest with
    | nil => simp [hr] at hl
    | cons a s =>
      have ha : isLayout a = true := by simpa [hr] using hl
      simp [ha]
  · split at h
    · rename_i e he
      obtain ⟨-, rfl⟩ := Prod.mk.inj (Option.some.inj h)
      exact length_rest_lt_of_skipComment he
    · split at h
      · rename_i b' e hb
        obtain ⟨-, rfl⟩ := Prod.mk.inj (Option.some.inj h)
        obtain ⟨kind, -, hk⟩ := List.exists_of_findSome?_eq_some hb
        exact length_rest_lt_of_readBlock hk
      · obtain ⟨e, he, hp⟩ := Option.map_eq_some_iff.1 h
        obtain ⟨-, rfl⟩ := Prod.mk.inj hp
        exact length_rest_lt_of_skipOtherBlock he

/-- The blocks of a component file from the cursor on, or nothing if it does not consist of white
space, comments and blocks. -/
def readBlocks (c : Cursor) : Option (List Block) :=
  if c.rest.isEmpty then some []
  else
    match _h : readPiece c with
    | none => none
    | some (b, d) => (readBlocks d).map (b.toList ++ ·)
termination_by c.rest.length
decreasing_by exact length_rest_lt_of_readPiece _h

end ClassFold
