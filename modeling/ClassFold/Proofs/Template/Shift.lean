import ClassFold.Proofs.Template.Relocation

/-!
Templates at another place.

A template is read in the same way wherever it starts: a reader looks at the text behind its cursor
and only ever adds sizes to the offset.  So every reader commutes with moving the cursor by `n`
bytes, which moves the spans of what is read, and the places of errors, by `n` bytes as well.  There
is one lemma for each reader, and the result is `readTemplate_add`.
-/

namespace ClassFold

open Text

/-! ### What moves -/

/-- The cursor in front of the same text, `n` bytes further on. -/
def Cursor.shift (n : Nat) (c : Cursor) : Cursor := ⟨n + c.offset, c.rest⟩

/-- The same attribute `n` bytes further on. -/
def Attr.shift (n : Nat) (a : Attr) : Attr := a.relocate (n + ·)

/-- The same tag `n` bytes further on. -/
def TagTail.shift (n : Nat) (t : TagTail) : TagTail := t.relocate (n + ·)

/-- The same token `n` bytes further on. -/
def Token.shift (n : Nat) (t : Token) : Token := t.relocate (n + ·)

/-- The same node `n` bytes further on. -/
def Node.shift (n : Nat) (m : Node) : Node := m.relocate (n + ·)

/-- The same error `n` bytes further on. -/
def TemplateError.shift (n : Nat) (e : TemplateError) : TemplateError := e.relocate (n + ·)

/-- The same outcome of reading `n` bytes further on, where `f` moves what has been read. -/
def moved {α β : Type} (n : Nat) (f : α → β) :
    Except TemplateError α → Except TemplateError β :=
  relocated (n + ·) f

@[simp] lemma moved_ok {α β : Type} (n : Nat) (f : α → β) (a : α) :
    moved n f (.ok a) = .ok (f a) := rfl

@[simp] lemma moved_error {α β : Type} (n : Nat) (f : α → β) (e : TemplateError) :
    moved n f (.error e) = .error (e.shift n) := rfl

/-! ### Cursors -/

namespace Cursor

@[simp] lemma rest_shift (n : Nat) (c : Cursor) : (c.shift n).rest = c.rest := rfl

@[simp] lemma offset_shift (n : Nat) (c : Cursor) : (c.shift n).offset = n + c.offset := rfl

@[simp] lemma advance_shift (n k : Nat) (c : Cursor) :
    (c.shift n).advance k = (c.advance k).shift n := by
  simp [shift, advance, Nat.add_assoc]

@[simp] lemma skipWhile_shift (n : Nat) (p : Char → Bool) (c : Cursor) :
    (c.shift n).skipWhile p = (c.skipWhile p).shift n := by
  simp [shift, skipWhile, Nat.add_assoc]

@[simp] lemma skipUntil_shift (n : Nat) (p : Text → Bool) (c : Cursor) :
    (c.shift n).skipUntil p = (c.skipUntil p).shift n := by
  simp [shift, skipUntil, Nat.add_assoc]

@[simp] lemma skip?_shift (n : Nat) (w : Text) (c : Cursor) :
    (c.shift n).skip? w = (c.skip? w).map (shift n) := by
  rw [skip?, skip?, rest_shift]
  cases strip? w c.rest <;> simp [shift, Nat.add_assoc]

@[simp] lemma skipOptional_shift (n : Nat) (w : Text) (c : Cursor) :
    (c.shift n).skipOptional w = (c.skipOptional w).shift n := by
  rw [skipOptional, skipOptional, skip?_shift]
  cases c.skip? w <;> rfl

@[simp] lemma cut?_shift (n : Nat) (w : Text) (c : Cursor) :
    (c.shift n).cut? w = (c.cut? w).map (Prod.map id (shift n)) := by
  rw [cut?, cut?, rest_shift]
  cases Text.cut? w c.rest <;> simp [shift, Nat.add_assoc]

end Cursor

/-! ### Attributes and tags -/

@[simp] lemma Attr.ofWritten_shift (n : Nat) (c d : Cursor) (rawName : Text)
    (value : Option Text) :
    ofWritten (c.shift n) (d.shift n) rawName value = (ofWritten c d rawName value).shift n := by
  simp [ofWritten, shift, relocate, Span.relocate, Nat.add_sub_add_left]

lemma readValue_shift (n : Nat) (c : Cursor) :
    readValue (c.shift n) = moved n (Prod.map id (Cursor.shift n)) (readValue c) := by
  rw [readValue, readValue, Cursor.rest_shift]
  cases c.rest.head? with
  | none => rfl
  | some q =>
      simp only [Cursor.advance_shift, Cursor.cut?_shift, Cursor.skipUntil_shift]
      split
      · cases (c.advance 1).cut? [q] <;> rfl
      · rfl

lemma readAttr_shift (n : Nat) (c : Cursor) :
    readAttr (c.shift n) =
      moved n (Option.map (Prod.map (Attr.shift n) (Cursor.shift n))) (readAttr c) := by
  rw [readAttr, readAttr]
  simp only [Cursor.rest_shift, Cursor.skipWhile_shift, Cursor.skip?_shift]
  split
  · rfl
  · cases ((c.skipWhile isAttrNameChar).skipWhile isSpace).skip? ['='] with
    | none => simp
    | some equals =>
        simp only [Option.map_some, Cursor.skipWhile_shift, readValue_shift]
        cases readValue (equals.skipWhile isSpace) <;> simp

/-- The rest of a tag, by the first character behind the cursor. -/
lemma readTagTail_eq (c : Cursor) :
    readTagTail c =
      match c.rest.head? with
      | none => .ok (⟨[], false⟩, c)
      | some first =>
        if first = '/' then
          .ok (⟨[], true⟩, ((c.advance 1).skipWhile isSpace).skipOptional ['>'])
        else if first = '>' then .ok (⟨[], false⟩, c.advance 1)
        else
          match readAttr c with
          | .error e => .error e
          | .ok none => readTagTail (c.advance 1)
          | .ok (some (a, d)) =>
            match readTagTail d with
            | .error e => .error e
            | .ok (tail, stop) => .ok (⟨a :: tail.attrs, tail.selfClosing⟩, stop) := by
  rw [readTagTail]
  split
  · rename_i hc
    rw [hc]
    rfl
  · rename_i first s hc
    rw [hc]
    simp only [List.head?_cons]
    split
    · rfl
    · split
      · rfl
      · split
        · rename_i e ha
          rw [ha]
        · rename_i ha
          rw [ha]
        · rename_i a d ha
          cases ht : readTagTail d <;> simp only [ha, ht]

lemma readTagTail_shift (n : Nat) (c : Cursor) :
    readTagTail (c.shift n) =
      moved n (Prod.map (TagTail.shift n) (Cursor.shift n)) (readTagTail c) := by
  fun_induction readTagTail c with
  | case1 c hc => simp [readTagTail_eq, hc, TagTail.shift, TagTail.relocate]
  | case2 c s hc => simp [readTagTail_eq, hc, TagTail.shift, TagTail.relocate]
  | case3 c s hc hf => simp [readTagTail_eq, hc, TagTail.shift, TagTail.relocate]
  | case4 c first s hc hf hg e ha =>
      rw [readTagTail_eq]
      simp [hc, hf, hg, readAttr_shift, ha]
  | case5 c first s hc hf hg ha ih =>
      rw [readTagTail_eq]
      simp [hc, hf, hg, readAttr_shift, ha, ih]
  | case6 c first s hc hf hg a d ha e ht ih =>
      rw [readTagTail_eq]
      simp [hc, hf, hg, readAttr_shift, ha, ih, ht]
  | case7 c first s hc hf hg a d ha tail stop ht ih =>
      rw [readTagTail_eq]
      simp [hc, hf, hg, readAttr_shift, ha, ih, ht, TagTail.shift, TagTail.relocate,
        Attr.shift]

/-! ### Tokens -/

lemma readComment_shift (n : Nat) (c : Cursor) :
    readComment (c.shift n) =
      moved n (Prod.map (Token.shift n) (Cursor.shift n)) (readComment c) := by
  rw [readComment, readComment, Cursor.advance_shift, Cursor.cut?_shift]
  cases (c.advance 4).cut? "-->".toList <;> rfl

lemma readClosing_shift (n : Nat) (c : Cursor) :
    readClosing (c.shift n) = Prod.map (Token.shift n) (Cursor.shift n) (readClosing c) := by
  simp [readClosing, Token.shift, Token.relocate]

lemma readOpening_shift (n : Nat) (c : Cursor) :
    readOpening (c.shift n) =
      moved n (Prod.map (Token.shift n) (Cursor.shift n)) (readOpening c) := by
  rw [readOpening, readOpening]
  simp only [Cursor.advance_shift, Cursor.skipWhile_shift, readTagTail_shift]
  cases readTagTail ((c.advance 1).skipWhile isTagChar) <;>
    simp [Token.shift, Token.relocate, TagTail.shift, TagTail.relocate, Span.relocate]

lemma readInterpolation_shift (n : Nat) (c : Cursor) :
    readInterpolation (c.shift n) =
      moved n (Prod.map (Token.shift n) (Cursor.shift n)) (readInterpolation c) := by
  rw [readInterpolation, readInterpolation]
  simp only [Cursor.advance_shift, Cursor.cut?_shift, Cursor.rest_shift]
  cases (c.advance 2).cut? ['}', '}'] with
  | some r => rfl
  | none =>
      cases (c.advance 2).rest.getLast? with
      | none => rfl
      | some last =>
          simp only [Option.map_none]
          split <;> rfl

lemma nextToken_shift (n : Nat) (c : Cursor) :
    nextToken (c.shift n) = moved n (Prod.map (Token.shift n) (Cursor.shift n)) (nextToken c) := by
  rw [nextToken, nextToken, Cursor.rest_shift]
  cases Lead.of c.rest with
  | comment => exact readComment_shift n c
  | declaration => simp [Token.shift, Token.relocate]
  | closing => simp [readClosing_shift]
  | opening => exact readOpening_shift n c
  | interpolation => exact readInterpolation_shift n c
  | text => simp [Token.shift, Token.relocate]

/-- The tokens of a template, one after the other. -/
lemma scan_eq (c : Cursor) :
    scan c =
      if c.rest = [] then .ok []
      else
        match nextToken c with
        | .error e => .error e
        | .ok (t, d) =>
          match scan d with
          | .error e => .error e
          | .ok ts => .ok (t :: ts) := by
  rw [scan]
  split
  · rfl
  · split
    · rename_i e ht
      rw [ht]
    · rename_i t d ht
      cases hs : scan d <;> simp only [ht, hs]

lemma scan_shift (n : Nat) (c : Cursor) :
    scan (c.shift n) = moved n (List.map (Token.shift n)) (scan c) := by
  fun_induction scan c with
  | case1 c hc => simp [scan_eq, hc]
  | case2 c hc e ht =>
      rw [scan_eq]
      simp [hc, nextToken_shift, ht]
  | case3 c hc t d ht e hs ih =>
      rw [scan_eq]
      simp [hc, nextToken_shift, ht, ih, hs]
  | case4 c hc t d ht ts hs ih =>
      rw [scan_eq]
      simp [hc, nextToken_shift, ht, ih, hs]

/-! ### Templates -/

lemma Node.attrListsOf_map_shift (n : Nat) (nodes : List Node) :
    attrListsOf (nodes.map (Node.shift n)) =
      (attrListsOf nodes).map (List.map (Attr.shift n)) :=
  attrListsOf_map_relocate (n + ·) nodes

lemma forestOfTokens_shift (n stop : Nat) (ts : List Token) :
    forestOfTokens (n + stop) (ts.map (Token.shift n)) =
      (forestOfTokens stop ts).map (Node.shift n) :=
  forestOfTokens_relocate (n + ·) stop ts

/-- **Templates can be moved.**  A template that starts `n` bytes further on is read as the same
tree `n` bytes further on, or with the same error `n` bytes further on. -/
theorem readTemplate_add (n base : Nat) (template : Text) :
    readTemplate (n + base) template =
      moved n (List.map (Node.shift n)) (readTemplate base template) := by
  have hscan := scan_shift n ⟨base, template⟩
  rw [Cursor.shift] at hscan
  rw [readTemplate, readTemplate, hscan]
  cases scan ⟨base, template⟩ with
  | error e => rfl
  | ok ts => simp [Nat.add_assoc, forestOfTokens_shift]

end ClassFold
