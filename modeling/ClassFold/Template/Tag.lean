import ClassFold.Template.Attr
import ClassFold.Template.Error
import ClassFold.Text.Cursor

/-!
Reading opening tags.

Behind the name of an opening tag come attributes, with white space and stray characters between
them, up to `>` or `/>` or the end of the template.  A value stands in quotes or reaches up to the
next white space or the end of the tag.  Every attribute that is read makes progress.
-/

namespace ClassFold

open Text

/-! ### Attributes -/

/-- The characters of an attribute name. -/
def isAttrNameChar (c : Char) : Bool :=
  !(isSpace c || c == '=' || c == '>' || c == '/' || c == '"' || c == '\'')

/-- Where a value without quotes ends: at white space, at `>` and at `/>`. -/
def endsBareValue (s : Text) : Bool :=
  match s.head? with
  | none => false
  | some c => isSpace c || c == '>' || startsWith "/>".toList s

/-- The value of an attribute behind its equals sign, and the cursor behind the value. -/
def readValue (c : Cursor) : Except TemplateError (Text × Cursor) :=
  match c.rest.head? with
  | none => .ok ([], c)
  | some q =>
    if q == '"' || q == '\'' then
      match (c.advance 1).cut? [q] with
      | none => .error (.unterminatedAttribute c.offset)
      | some (value, stop) => .ok (value, stop)
    else .ok (takeUntil endsBareValue c.rest, c.skipUntil endsBareValue)

/-- The attribute written from `start` up to `stop`, with the given name and value. -/
def Attr.ofWritten (start stop : Cursor) (rawName : Text) (value : Option Text) : Attr where
  kind := (kindAndName rawName).1
  name := (kindAndName rawName).2
  value := value
  span := ⟨start.offset, stop.offset⟩
  raw := takeBytes (stop.offset - start.offset) start.rest

/-- The attribute at the cursor with the cursor behind it, or nothing if no name starts there. -/
def readAttr (c : Cursor) : Except TemplateError (Option (Attr × Cursor)) :=
  let rawName := c.rest.takeWhile isAttrNameChar
  if rawName.isEmpty then .ok none
  else
    let named := c.skipWhile isAttrNameChar
    match (named.skipWhile isSpace).skip? ['='] with
    | none => .ok (some (Attr.ofWritten c named rawName none, named))
    | some equals =>
      match readValue (equals.skipWhile isSpace) with
      | .error e => .error e
      | .ok (value, stop) => .ok (some (Attr.ofWritten c stop rawName (some value), stop))

theorem length_rest_le_of_readValue {c d : Cursor} {v : Text} (h : readValue c = .ok (v, d)) :
    d.rest.length ≤ c.rest.length := by
  unfold readValue at h
  split at h
  · obtain ⟨-, rfl⟩ : [] = v ∧ c = d := by simpa using h
    exact Nat.le_refl _
  · rename_i q hq
    split at h
    · split at h
      · simp at h
      · rename_i value stop hs
        obtain ⟨-, rfl⟩ := Prod.mk.inj (Except.ok.inj h)
        exact Nat.le_trans (Cursor.length_rest_le_of_cut? hs) (Cursor.length_rest_advance_le _ _)
    · obtain ⟨-, rfl⟩ := Prod.mk.inj (Except.ok.inj h)
      exact Cursor.length_rest_skipUntil_le _ _

theorem length_rest_lt_of_readAttr {c d : Cursor} {a : Attr} (h : readAttr c = .ok (some (a, d))) :
    d.rest.length < c.rest.length := by
  unfold readAttr at h
  simp only at h
  split at h
  · simp at h
  · rename_i hn
    have hlt : (c.skipWhile isAttrNameChar).rest.length < c.rest.length :=
      Cursor.length_rest_skipWhile_lt (by simpa using hn)
    split at h
    · obtain ⟨-, rfl⟩ := Prod.mk.inj (Option.some.inj (Except.ok.inj h))
      exact hlt
    · rename_i equals he
      split at h
      · simp at h
      · rename_i value stop hv
        obtain ⟨-, rfl⟩ := Prod.mk.inj (Option.some.inj (Except.ok.inj h))
        have h1 := length_rest_le_of_readValue hv
        have h2 := Cursor.length_rest_skipWhile_le isSpace equals
        have h3 := Cursor.length_rest_of_skip? he
        have h4 := Cursor.length_rest_skipWhile_le isSpace (c.skipWhile isAttrNameChar)
        omega

/-! ### Tags -/

/-- The characters of a tag name. -/
def isTagChar (c : Char) : Bool := c.isAlphanum || c == '_' || c == '-' || c == '.' || c == ':'

/-- What stands in an opening tag behind its name. -/
structure TagTail where
  attrs : List Attr
  selfClosing : Bool
  deriving DecidableEq, Repr

/-- The rest of an opening tag from the cursor on, and the cursor behind it.  A character that
belongs to no attribute, such as white space, is passed over, and the end of the template ends the
tag. -/
def readTagTail (c : Cursor) : Except TemplateError (TagTail × Cursor) :=
  match _hc : c.rest with
  | [] => .ok (⟨[], false⟩, c)
  | first :: _ =>
    if first = '/' then
      .ok (⟨[], true⟩, ((c.advance 1).skipWhile isSpace).skipOptional ['>'])
    else if first = '>' then .ok (⟨[], false⟩, c.advance 1)
    else
      match _ha : readAttr c with
      | .error e => .error e
      | .ok none => readTagTail (c.advance 1)
      | .ok (some (a, d)) =>
        match readTagTail d with
        | .error e => .error e
        | .ok (tail, stop) => .ok (⟨a :: tail.attrs, tail.selfClosing⟩, stop)
termination_by c.rest.length
decreasing_by
  · simp [_hc]
  · exact length_rest_lt_of_readAttr _ha

theorem length_rest_le_of_readTagTail {c d : Cursor} {t : TagTail}
    (h : readTagTail c = .ok (t, d)) : d.rest.length ≤ c.rest.length := by
  fun_induction readTagTail c generalizing t d with
  | case1 c hc =>
    obtain ⟨-, rfl⟩ := Prod.mk.inj (Except.ok.inj h)
    exact Nat.le_refl _
  | case2 c s hc =>
    obtain ⟨-, rfl⟩ := Prod.mk.inj (Except.ok.inj h)
    exact Nat.le_trans (Cursor.length_rest_skipOptional_le _ _)
      (Nat.le_trans (Cursor.length_rest_skipWhile_le _ _) (Cursor.length_rest_advance_le _ _))
  | case3 c s hc hf =>
    obtain ⟨-, rfl⟩ := Prod.mk.inj (Except.ok.inj h)
    exact Cursor.length_rest_advance_le _ _
  | case4 => simp at h
  | case5 c first s hc hf hg ha ih =>
    exact Nat.le_trans (ih h) (Cursor.length_rest_advance_le _ _)
  | case6 => simp at h
  | case7 c first s hc hf hg a d' ha tail stop ht ih =>
    obtain ⟨-, rfl⟩ := Prod.mk.inj (Except.ok.inj h)
    exact Nat.le_trans (ih ht) (Nat.le_of_lt (length_rest_lt_of_readAttr ha))

end ClassFold
