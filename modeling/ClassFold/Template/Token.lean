import ClassFold.Template.Tag

/-!
Tokens of template markup.

What comes next in a template is decided by its first characters alone (`Lead`).  `nextToken` reads
one token and always makes progress, so `scan` reads a whole template.
-/

namespace ClassFold

open Text

/-! ### Tokens -/

/-- What the first characters of a text announce. -/
inductive Lead where
  | comment
  | declaration
  | closing
  | opening
  | interpolation
  | text
  deriving DecidableEq, Repr

/-- What a text starts with. -/
def Lead.of (s : Text) : Lead :=
  if startsWith "<!--".toList s then comment
  else if startsWith "<!".toList s then declaration
  else if startsWith "</".toList s then closing
  else if startsWith "<".toList s && (s.drop 1).head?.any Char.isAlpha then opening
  else if startsWith ['{', '{'] s then interpolation
  else text

/-- Whether a text starts with markup. -/
def startsMarkup (s : Text) : Bool := Lead.of s != .text

/-- A token of a template. -/
inductive Token where
  | comment (content : Text)
  /-- A document type or the like, which leaves nothing in the tree. -/
  | declaration
  /-- A closing tag that ends at `stop`. -/
  | closing (tag : Text) (stop : Nat)
  | opening (tag : Text) (attrs : List Attr) (selfClosing : Bool) (span : Span)
  | interpolation (expr : Text)
  | text (content : Text)
  deriving DecidableEq, Repr

/-- The text of a node: blanks alone count as one space. -/
def nodeText (s : Text) : Text := if allBlank s then [' '] else s

/-- The comment at the cursor. -/
def readComment (c : Cursor) : Except TemplateError (Token × Cursor) :=
  match (c.advance 4).cut? "-->".toList with
  | none => .error (.unterminatedComment c.offset)
  | some (content, stop) => .ok (.comment content, stop)

/-- The closing tag at the cursor. -/
def readClosing (c : Cursor) : Token × Cursor :=
  let name := c.advance 2
  let stop := ((name.skipWhile isTagChar).skipWhile isSpace).skipOptional ['>']
  (.closing (name.rest.takeWhile isTagChar) stop.offset, stop)

/-- The opening tag at the cursor. -/
def readOpening (c : Cursor) : Except TemplateError (Token × Cursor) :=
  let name := c.advance 1
  match readTagTail (name.skipWhile isTagChar) with
  | .error e => .error e
  | .ok (tail, stop) =>
    .ok (.opening (name.rest.takeWhile isTagChar) tail.attrs tail.selfClosing
      ⟨c.offset, stop.offset⟩, stop)

/-- The interpolation at the cursor.  Without an end it takes the rest of the template except for
the last byte. -/
def readInterpolation (c : Cursor) : Except TemplateError (Token × Cursor) :=
  let inside := c.advance 2
  match inside.cut? ['}', '}'] with
  | some (expr, stop) => .ok (.interpolation (trim expr), stop)
  | none =>
    let stop := inside.advance inside.rest.length
    match inside.rest.getLast? with
    | none => .ok (.interpolation [], stop)
    | some last =>
      if last.utf8Size = 1 then .ok (.interpolation (trim inside.rest.dropLast), stop)
      else .error .danglingInterpolation

/-- The next token of a template, and the cursor behind it. -/
def nextToken (c : Cursor) : Except TemplateError (Token × Cursor) :=
  match Lead.of c.rest with
  | .comment => readComment c
  | .declaration => .ok (.declaration, (c.skipWhile (· != '>')).advance 1)
  | .closing => .ok (readClosing c)
  | .opening => readOpening c
  | .interpolation => readInterpolation c
  | .text => .ok (.text (nodeText (takeUntil startsMarkup c.rest)), c.skipUntil startsMarkup)

/-! ### Progress -/

theorem length_rest_lt_of_readComment {c d : Cursor} {t : Token} (hc : c.rest ≠ [])
    (h : readComment c = .ok (t, d)) : d.rest.length < c.rest.length := by
  unfold readComment at h
  split at h
  · simp at h
  · rename_i content stop hs
    obtain ⟨-, rfl⟩ := Prod.mk.inj (Except.ok.inj h)
    exact Nat.lt_of_le_of_lt (Cursor.length_rest_le_of_cut? hs)
      (Cursor.length_rest_advance_lt (by decide) hc)

theorem length_rest_readClosing_lt {c : Cursor} (hc : c.rest ≠ []) :
    (readClosing c).2.rest.length < c.rest.length :=
  Nat.lt_of_le_of_lt (Cursor.length_rest_skipOptional_le _ _) (Nat.lt_of_le_of_lt
    (Cursor.length_rest_skipWhile_le _ _) (Nat.lt_of_le_of_lt
      (Cursor.length_rest_skipWhile_le _ _) (Cursor.length_rest_advance_lt (by decide) hc)))

theorem length_rest_lt_of_readOpening {c d : Cursor} {t : Token} (hc : c.rest ≠ [])
    (h : readOpening c = .ok (t, d)) : d.rest.length < c.rest.length := by
  unfold readOpening at h
  simp only at h
  split at h
  · simp at h
  · rename_i tail stop ht
    obtain ⟨-, rfl⟩ := Prod.mk.inj (Except.ok.inj h)
    exact Nat.lt_of_le_of_lt (length_rest_le_of_readTagTail ht) (Nat.lt_of_le_of_lt
      (Cursor.length_rest_skipWhile_le _ _) (Cursor.length_rest_advance_lt (by decide) hc))

theorem length_rest_lt_of_readInterpolation {c d : Cursor} {t : Token} (hc : c.rest ≠ [])
    (h : readInterpolation c = .ok (t, d)) : d.rest.length < c.rest.length := by
  have hlt : (c.advance 2).rest.length < c.rest.length :=
    Cursor.length_rest_advance_lt (by decide) hc
  unfold readInterpolation at h
  simp only at h
  split at h
  · rename_i expr stop hs
    obtain ⟨-, rfl⟩ := Prod.mk.inj (Except.ok.inj h)
    exact Nat.lt_of_le_of_lt (Cursor.length_rest_le_of_cut? hs) hlt
  · split at h
    · obtain ⟨-, rfl⟩ := Prod.mk.inj (Except.ok.inj h)
      exact Nat.lt_of_le_of_lt (Cursor.length_rest_advance_le _ _) hlt
    · split at h
      · obtain ⟨-, rfl⟩ := Prod.mk.inj (Except.ok.inj h)
        exact Nat.lt_of_le_of_lt (Cursor.length_rest_advance_le _ _) hlt
      · simp at h

/-- Reading a token makes progress. -/
theorem length_rest_lt_of_nextToken {c d : Cursor} {t : Token} (hc : c.rest ≠ [])
    (h : nextToken c = .ok (t, d)) : d.rest.length < c.rest.length := by
  unfold nextToken at h
  split at h
  · exact length_rest_lt_of_readComment hc h
  · obtain ⟨-, rfl⟩ := Prod.mk.inj (Except.ok.inj h)
    by_cases hr : (c.skipWhile (· != '>')).rest = []
    · simpa [hr] using List.length_pos_iff.2 hc
    · exact Nat.lt_of_lt_of_le (Cursor.length_rest_advance_lt (by decide) hr)
        (Cursor.length_rest_skipWhile_le _ _)
  · obtain rfl : (readClosing c).2 = d := by rw [Except.ok.inj h]
    exact length_rest_readClosing_lt hc
  · exact length_rest_lt_of_readOpening hc h
  · exact length_rest_lt_of_readInterpolation hc h
  · rename_i hl
    obtain ⟨-, rfl⟩ := Prod.mk.inj (Except.ok.inj h)
    exact length_dropUntil_lt hc (by simp [startsMarkup, hl])

/-- The tokens of a template from the cursor on. -/
def scan (c : Cursor) : Except TemplateError (List Token) :=
  if _hc : c.rest = [] then .ok []
  else
    match _ht : nextToken c with
    | .error e => .error e
    | .ok (t, d) =>
      match scan d with
      | .error e => .error e
      | .ok ts => .ok (t :: ts)
termination_by c.rest.length
decreasing_by exact length_rest_lt_of_nextToken _hc _ht

end ClassFold
