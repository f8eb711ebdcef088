import ClassFold.Component.Block
import ClassFold.Text.Blank
import ClassFold.Text.Cursor

/-!
The tags of blocks.

An opening tag holds attributes, each with white space in front; a closing tag may have white space
behind its name.  A tag that is not written like this is no tag of the block.
-/

namespace ClassFold

open Text

/-! ### Attributes -/

/-- The characters of an attribute name in the tag of a block. -/
def isBlockAttrChar (c : Char) : Bool :=
  c.isAlphanum || c == '-' || c == '_' || c == ':' || c == '@' || c == '.' || c == '#'

/-- Where a value without quotes ends. -/
def endsBareBlockValue (s : Text) : Bool :=
  match s.head? with
  | none => false
  | some c =>
    isLayout c || c == '>' || c == '"' || c == '\'' || c == '=' || startsWith "/>".toList s

/-- The value of an attribute at the cursor. -/
def readBlockValue (c : Cursor) : Option (Text × Cursor) :=
  match c.rest.head? with
  | none => none
  | some q =>
    if q == '"' || q == '\'' then (c.advance 1).cut? [q]
    else
      let value := takeUntil endsBareBlockValue c.rest
      if value.isEmpty then none else some (value, c.skipUntil endsBareBlockValue)

/-- The value of an attribute with the equals sign in front. -/
def readAssignedValue (c : Cursor) : Option (Text × Cursor) :=
  ((c.skipWhile isLayout).skip? ['=']).bind fun d => readBlockValue (d.skipWhile isLayout)

/-- The attribute at the cursor.  If no value can be read behind its name, it has none. -/
def readBlockAttr (c : Cursor) : Option (BlockAttr × Cursor) :=
  let name := c.rest.takeWhile isBlockAttrChar
  let named := c.skipWhile isBlockAttrChar
  if name.isEmpty then none
  else
    match readAssignedValue named with
    | some (value, stop) => some (⟨name, some value⟩, stop)
    | none => some (⟨name, none⟩, named)

theorem length_rest_le_of_readBlockValue {c d : Cursor} {v : Text}
    (h : readBlockValue c = some (v, d)) : d.rest.length ≤ c.rest.length := by
  unfold readBlockValue at h
  split at h
  · simp at h
  · split at h
    · exact Nat.le_trans (Cursor.length_rest_le_of_cut? h) (Cursor.length_rest_advance_le _ _)
    · simp only at h
      split at h
      · simp at h
      · obtain ⟨-, rfl⟩ := Prod.mk.inj (Option.some.inj h)
        exact Cursor.length_rest_skipUntil_le _ _

theorem length_rest_le_of_readAssignedValue {c d : Cursor} {v : Text}
    (h : readAssignedValue c = some (v, d)) : d.rest.length ≤ c.rest.length := by
  obtain ⟨e, he, hv⟩ := Option.bind_eq_some_iff.1 h
  have h1 := length_rest_le_of_readBlockValue hv
  have h2 := Cursor.length_rest_skipWhile_le isLayout e
  have h3 := Cursor.length_rest_of_skip? he
  have h4 := Cursor.length_rest_skipWhile_le isLayout c
  omega

theorem length_rest_lt_of_readBlockAttr {c d : Cursor} {a : BlockAttr}
    (h : readBlockAttr c = some (a, d)) : d.rest.length < c.rest.length := by
  unfold readBlockAttr at h
  simp only at h
  split at h
  · simp at h
  · rename_i hn
    have hlt : (c.skipWhile isBlockAttrChar).rest.length < c.rest.length :=
      Cursor.length_rest_skipWhile_lt (by simpa using hn)
    split at h
    · rename_i value stop hv
      obtain ⟨-, rfl⟩ := Prod.mk.inj (Option.some.inj h)
      exact Nat.lt_of_le_of_lt (length_rest_le_of_readAssignedValue hv) hlt
    · obtain ⟨-, rfl⟩ := Prod.mk.inj (Option.some.inj h)
      exact hlt

/-- The attributes from the cursor on, each with white space in front, and the cursor behind the
last one. -/
def readBlockAttrs (c : Cursor) : List BlockAttr × Cursor :=
  if c.rest.head?.any isLayout then
    match _h : readBlockAttr (c.skipWhile isLayout) with
    | some (a, d) =>
      let more := readBlockAttrs d
      (a :: more.1, more.2)
    | none => ([], c)
  else ([], c)
termination_by c.rest.length
decreasing_by
  have := length_rest_lt_of_readBlockAttr _h
  have := Cursor.length_rest_skipWhile_le isLayout c
  omega

theorem length_rest_readBlockAttrs_le (c : Cursor) :
    (readBlockAttrs c).2.rest.length ≤ c.rest.length := by
  fun_induction readBlockAttrs c with
  | case1 c hc a d h more ih =>
    have := length_rest_lt_of_readBlockAttr h
    have := Cursor.length_rest_skipWhile_le isLayout c
    exact Nat.le_trans ih (by omega)
  | case2 => exact Nat.le_refl _
  | case3 => exact Nat.le_refl _

/-! ### Opening and closing tags -/

/-- The characters of the tag name of a block. -/
def isBlockTagChar (c : Char) : Bool := c.isAlphanum || c == '-' || c == '_'

/-- The cursor behind `<name`, where `name` is a whole tag name. -/
def skipTagName (name : Text) (c : Cursor) : Option Cursor :=
  (c.skip? ('<' :: name)).filter fun d => !d.rest.head?.any isBlockTagChar

/-- The opening tag of a block at the cursor: its attributes, and the cursor behind it. -/
def readOpenTag (name : Text) (c : Cursor) : Option (List BlockAttr × Cursor) :=
  (skipTagName name c).bind fun d =>
    let attrs := readBlockAttrs d
    ((attrs.2.skipWhile isLayout).skip? ['>']).map fun e => (attrs.1, e)

/-- The cursor behind the closing tag at the cursor. -/
def skipCloseTag (name : Text) (c : Cursor) : Option Cursor :=
  (c.skip? ("</".toList ++ name)).bind fun d => (d.skipWhile isLayout).skip? ['>']

/-- Whether a text starts with the closing tag of the given name. -/
def startsCloseTag (name s : Text) : Bool := (skipCloseTag name ⟨0, s⟩).isSome

theorem length_rest_lt_of_skipTagName {name : Text} {c d : Cursor}
    (h : skipTagName name c = some d) : d.rest.length < c.rest.length := by
  have := Cursor.length_rest_of_skip? (Option.filter_eq_some_iff.1 h).1
  simp only [List.length_cons] at this
  omega

theorem length_rest_lt_of_readOpenTag {name : Text} {c d : Cursor} {attrs : List BlockAttr}
    (h : readOpenTag name c = some (attrs, d)) : d.rest.length < c.rest.length := by
  obtain ⟨e, he, hd⟩ := Option.bind_eq_some_iff.1 h
  obtain ⟨f, hf, hp⟩ := Option.map_eq_some_iff.1 hd
  obtain ⟨-, rfl⟩ := Prod.mk.inj hp
  have h1 := length_rest_lt_of_skipTagName he
  have h2 := length_rest_readBlockAttrs_le e
  have h3 := Cursor.length_rest_skipWhile_le isLayout (readBlockAttrs e).2
  have h4 := Cursor.length_rest_of_skip? hf
  omega

theorem length_rest_lt_of_skipCloseTag {name : Text} {c d : Cursor}
    (h : skipCloseTag name c = some d) : d.rest.length < c.rest.length := by
  obtain ⟨e, he, hd⟩ := Option.bind_eq_some_iff.1 h
  have h1 := Cursor.length_rest_of_skip? he
  have h2 := Cursor.length_rest_skipWhile_le isLayout e
  have h3 := Cursor.length_rest_of_skip? hd
  simp only [List.length_append, List.length_cons, List.length_nil] at h1 h3
  omega

/-! ### Tags whose attributes are passed over -/

/-- The cursor behind the quoted text at the cursor. -/
def skipQuoted (c : Cursor) : Option Cursor :=
  match c.rest.head? with
  | none => none
  | some q => if q == '"' || q == '\'' then ((c.advance 1).cut? [q]).map (·.2) else none

theorem length_rest_lt_of_skipQuoted {c d : Cursor} (h : skipQuoted c = some d) :
    d.rest.length < c.rest.length := by
  unfold skipQuoted at h
  split at h
  · simp at h
  · rename_i q hq
    have hc : c.rest ≠ [] := by
      intro hnil
      simp [hnil] at hq
    split at h
    · obtain ⟨⟨v, e⟩, he, rfl⟩ := Option.map_eq_some_iff.1 h
      exact Nat.lt_of_le_of_lt (Cursor.length_rest_le_of_cut? he)
        (Cursor.length_rest_advance_lt (by decide) hc)
    · simp at h

/-- The cursor at the first place outside of quoted texts whose suffix satisfies `stop`, or at the
end.  A quote that is never closed is an ordinary character. -/
def skipOutsideQuotes (stop : Text → Bool) (c : Cursor) : Cursor :=
  if _hc : c.rest = [] then c
  else if stop c.rest then c
  else
    match _hq : skipQuoted c with
    | some d => skipOutsideQuotes stop d
    | none => skipOutsideQuotes stop (c.advance 1)
termination_by c.rest.length
decreasing_by
  · exact length_rest_lt_of_skipQuoted _hq
  · exact Cursor.length_rest_advance_lt (by decide) _hc

theorem length_rest_skipOutsideQuotes_le (stop : Text → Bool) (c : Cursor) :
    (skipOutsideQuotes stop c).rest.length ≤ c.rest.length := by
  fun_induction skipOutsideQuotes stop c with
  | case1 => exact Nat.le_refl _
  | case2 => exact Nat.le_refl _
  | case3 c hc hs d hq ih => exact Nat.le_trans ih (Nat.le_of_lt (length_rest_lt_of_skipQuoted hq))
  | case4 c hc hs hq ih => exact Nat.le_trans ih (Cursor.length_rest_advance_le _ _)

end ClassFold
