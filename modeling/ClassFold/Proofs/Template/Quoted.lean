import ClassFold.Proofs.Template.Written

/-!
Quoted attributes.

`Attr.quote?` is the quotation mark that stands around the value of an attribute.  For an attribute
that has been read, the value is free of that mark (`Attr.Written.of_quote?`).  In the other
direction, a name with a value in quotes behind it is read up to the next occurrence of the mark
(`readAttr_quote`), so the value is read back exactly when the mark does not occur in it
(`exists_readAttr_wrap_iff`).
-/

namespace ClassFold

open Text

/-- The kind of quotation mark that a character is, if it is one. -/
def Quote.ofMark? (c : Char) : Option Quote :=
  if c = '"' then some double else if c = '\'' then some single else none

lemma Quote.ofMark?_eq_some_iff {c : Char} {q : Quote} : ofMark? c = some q ↔ c = q.mark := by
  rw [ofMark?]
  cases q with
  | double => simp [mark]
  | single =>
      by_cases hc : c = '"'
      · simp [mark, hc]
      · simp [mark, hc]

/-- The quotation mark around the value of an attribute: the first character behind the equals sign
and white space, if it is one. -/
def Attr.quote? (a : Attr) : Option Quote :=
  (((a.raw.dropWhile (· != '=')).drop 1).dropWhile isSpace).head?.bind Quote.ofMark?

lemma ne_equals_of_isAttrNameChar {c : Char} (h : isAttrNameChar c = true) : c ≠ '=' := by
  rintro rfl
  exact absurd h (by decide)

lemma ne_equals_of_isSpace {c : Char} (h : isSpace c = true) : c ≠ '=' := by
  rintro rfl
  exact absurd h (by decide)

lemma Quote.mark_inj {q q' : Quote} (h : q.mark = q'.mark) : q = q' := by
  cases q <;> cases q' <;> simp_all [mark]

lemma Quote.isSpace_mark (q : Quote) : isSpace q.mark = false := by
  cases q <;> rfl

lemma Quote.isBlank_mark (q : Quote) : isBlank q.mark = false := by
  cases q <;> decide

/-- Behind the first equals sign of an attribute stand white space and the value. -/
lemma drop_equals {name gap rest : Text} (hname : ∀ c ∈ name, isAttrNameChar c = true)
    (hgap : ∀ c ∈ gap, isSpace c = true) :
    ((name ++ (gap ++ '=' :: rest)).dropWhile (· != '=')).drop 1 = rest := by
  rw [List.dropWhile_append_of_pos, List.dropWhile_append_of_pos]
  · simp
  · intro c hc
    simpa using ne_equals_of_isSpace (hgap c hc)
  · intro c hc
    simpa using ne_equals_of_isAttrNameChar (hname c hc)

/-- The value of a quoted attribute is free of the mark around it, which is also the mark that its
class binding is written with. -/
theorem Attr.Written.of_quote? {a : Attr} (h : a.Written) {q : Quote} (hq : a.quote? = some q) :
    q.mark ∉ a.valueText ∧ Quote.ofAttribute a.raw = q := by
  obtain ⟨name, tail, hraw, -, hname, -, htail⟩ := h
  rw [Attr.valueText, Quote.ofAttribute, hraw]
  rw [Attr.quote?, hraw] at hq
  generalize a.value = value at htail
  cases htail with
  | none =>
      have hnil : name.dropWhile (· != '=') = [] := by
        rw [List.dropWhile_eq_nil_iff]
        intro c hc
        simpa using ne_equals_of_isAttrNameChar (hname c hc)
      simp [hnil] at hq
  | @some gap gap' w v hgap hgap' hw =>
      rw [List.append_assoc, List.cons_append, drop_equals hname hgap] at hq
      rw [List.append_assoc, List.cons_append, drop_equals hname hgap]
      rw [List.dropWhile_append_of_pos hgap'] at hq
      rw [trimStart, List.dropWhile_append_of_pos fun c hc => isBlank_of_isSpace (hgap' c hc)]
      cases hw with
      | quoted q' v hv =>
          rw [Quote.wrap, List.cons_append, List.dropWhile_cons_of_neg (by simp [q'.isSpace_mark]),
            List.head?_cons, Option.bind_some, Quote.ofMark?_eq_some_iff] at hq
          obtain rfl := Quote.mark_inj hq
          rw [Quote.wrap, List.cons_append, List.dropWhile_cons_of_neg (by simp [q'.isBlank_mark])]
          refine ⟨hv, ?_⟩
          cases q' <;> rfl
      | bare v hmark hchars =>
          obtain ⟨c, hhead, hc⟩ := Option.bind_eq_some_iff.1 hq
          cases w with
          | nil => simp at hhead
          | cons d w =>
              -- the value starts with a character that is neither white space nor a mark
              have hspace := (hchars d List.mem_cons_self).1
              rw [List.dropWhile_cons_of_neg (by simp [hspace])] at hhead
              rw [Quote.ofMark?_eq_some_iff] at hc
              exact absurd (hhead.trans (congrArg some hc)) (hmark q)

/-! ### Reading a quoted attribute -/

/-- An attribute with the given name as written and a value between marks, at a place. -/
def Attr.quoted (offset : Nat) (name : Text) (q : Quote) (value : Text) : Attr where
  kind := (kindAndName name).1
  name := (kindAndName name).2
  value := some value
  span := ⟨offset, offset + byteSize (name ++ '=' :: q.wrap value)⟩
  raw := name ++ '=' :: q.wrap value

lemma readValue_quote (q : Quote) (s : Text) (offset : Nat) :
    readValue ⟨offset, q.mark :: s⟩ =
      match Text.cut? [q.mark] s with
      | none => .error (.unterminatedAttribute offset)
      | some (value, rest) => .ok (value, ⟨offset + byteSize (q.wrap value), rest⟩) := by
  have hcut : (Cursor.advance 1 ⟨offset, q.mark :: s⟩).cut? [q.mark] =
      (Text.cut? [q.mark] s).map fun p => (p.1, ⟨offset + byteSize (q.wrap p.1), p.2⟩) := by
    simp [Cursor.cut?, Cursor.advance, Quote.wrap, Nat.add_assoc]
  rw [readValue]
  simp only [List.head?_cons, isMark_of_quote, if_true, hcut]
  cases Text.cut? [q.mark] s <;> rfl

/-- A name with an equals sign and a quotation mark behind it is read up to the next such mark. -/
lemma readAttr_quote {name : Text} (hne : name ≠ [])
    (hname : ∀ c ∈ name, isAttrNameChar c = true) (q : Quote) (s : Text) (offset : Nat) :
    readAttr ⟨offset, name ++ '=' :: q.mark :: s⟩ =
      match Text.cut? [q.mark] s with
      | none => .error (.unterminatedAttribute (offset + byteSize (name ++ ['='])))
      | some (value, rest) =>
        .ok (some (Attr.quoted offset name q value,
          ⟨offset + byteSize (name ++ '=' :: q.wrap value), rest⟩)) := by
  have htake : (name ++ '=' :: q.mark :: s).takeWhile isAttrNameChar = name := by
    rw [List.takeWhile_append_of_pos hname]
    simp [isAttrNameChar]
  have hnamed : Cursor.skipWhile isAttrNameChar ⟨offset, name ++ '=' :: q.mark :: s⟩ =
      ⟨offset + byteSize name, '=' :: q.mark :: s⟩ := by
    rw [Cursor.skipWhile, htake, List.dropWhile_append_of_pos hname]
    simp [isAttrNameChar]
  have hequals :
      (Cursor.skipWhile isSpace ⟨offset + byteSize name, '=' :: q.mark :: s⟩).skip? ['='] =
        some ⟨offset + byteSize (name ++ ['=']), q.mark :: s⟩ := by
    simp [Cursor.skipWhile, Cursor.skip?, strip?, isSpace, Nat.add_assoc]
  have hvalue : Cursor.skipWhile isSpace ⟨offset + byteSize (name ++ ['=']), q.mark :: s⟩ =
      ⟨offset + byteSize (name ++ ['=']), q.mark :: s⟩ := by
    simp [Cursor.skipWhile, q.isSpace_mark]
  have hnot : name.isEmpty = false := by simpa using hne
  rw [readAttr]
  simp only [htake, hnamed, hequals, hvalue, hnot, readValue_quote, Bool.false_eq_true, if_false]
  cases hcut : Text.cut? [q.mark] s with
  | none => rfl
  | some p =>
      obtain ⟨value, rest⟩ := p
      have hstop : offset + byteSize (name ++ ['=']) + byteSize (q.wrap value) =
          offset + byteSize (name ++ '=' :: q.wrap value) := by
        simp [Nat.add_assoc]
      have hall : name ++ '=' :: q.mark :: s = (name ++ '=' :: q.wrap value) ++ rest := by
        rw [eq_of_cut? hcut]
        simp [Quote.wrap]
      simp only [hstop, Attr.ofWritten, Attr.quoted, Nat.add_sub_cancel_left]
      rw [hall, takeBytes_byteSize_append]

/-- A value in quotes is read back when it is free of the mark around it. -/
lemma readAttr_wrap {name : Text} (hne : name ≠ []) (hname : ∀ c ∈ name, isAttrNameChar c = true)
    {q : Quote} {value : Text} (hvalue : q.mark ∉ value) (rest : Text) (offset : Nat) :
    readAttr ⟨offset, (name ++ '=' :: q.wrap value) ++ rest⟩ =
      .ok (some (Attr.quoted offset name q value,
        ⟨offset + byteSize (name ++ '=' :: q.wrap value), rest⟩)) := by
  have hall : (name ++ '=' :: q.wrap value) ++ rest =
      name ++ '=' :: q.mark :: (value ++ q.mark :: rest) := by
    simp [Quote.wrap]
  rw [hall, readAttr_quote hne hname, cut?_append hvalue]

/-- What is read as the value of a quoted attribute is free of the mark around it. -/
lemma notMem_of_readAttr_wrap {name : Text} (hne : name ≠ [])
    (hname : ∀ c ∈ name, isAttrNameChar c = true) {q : Quote} {value rest : Text} {offset : Nat}
    {a : Attr} {d : Cursor}
    (h : readAttr ⟨offset, (name ++ '=' :: q.wrap value) ++ rest⟩ = .ok (some (a, d))) :
    q.mark ∉ a.valueText := by
  have hall : (name ++ '=' :: q.wrap value) ++ rest =
      name ++ '=' :: q.mark :: (value ++ q.mark :: rest) := by
    simp [Quote.wrap]
  rw [hall, readAttr_quote hne hname] at h
  cases hcut : Text.cut? [q.mark] (value ++ q.mark :: rest) with
  | none => simp [hcut] at h
  | some p =>
      simp only [hcut, Except.ok.injEq, Option.some.injEq, Prod.mk.injEq] at h
      rw [← h.1]
      exact notMem_of_cut? hcut

/-- **Quoted values are read back** exactly when they are free of the mark around them. -/
theorem exists_readAttr_wrap_iff {name : Text} (hne : name ≠ [])
    (hname : ∀ c ∈ name, isAttrNameChar c = true) (q : Quote) (value rest : Text) (offset : Nat) :
    (∃ a d, readAttr ⟨offset, (name ++ '=' :: q.wrap value) ++ rest⟩ = .ok (some (a, d)) ∧
      (a.kind, a.name) = kindAndName name ∧ a.value = some value) ↔ q.mark ∉ value := by
  constructor
  · rintro ⟨a, d, h, -, hvalue⟩
    have hfree := notMem_of_readAttr_wrap hne hname h
    rwa [Attr.valueText, hvalue] at hfree
  · intro hvalue
    exact ⟨_, _, readAttr_wrap hne hname hvalue rest offset, rfl, rfl⟩

end ClassFold
