import ClassFold.Proofs.Template.DocumentOrder
import ClassFold.Proofs.Template.Quoted

/-!
The quotation mark of an attribute, as it is read and as it is inferred.

How a value is delimited is decided when it is read: behind the equals sign and white space, by the
first character (`ValueRead`).  The tree does not record it; `Quote.ofAttribute` infers it from the
attribute as written, and skips all blanks on the way, not only the white space of markup.

* `parts_of_readAttr`: the parts of an attribute that is read, with what stands between them.
* `ofAttribute_of_readAttr`: the inferred mark, by how the value was read.
* `Attr.ReadBehind`: an attribute is read somewhere behind a cursor; `readBehind_of_scan` says so of
  all attributes in the tokens of a template.
* `ofAttribute_eq_single_iff`: the inferred mark is the one that was read, except for a bare value
  that starts with blanks other than white space and an apostrophe.
-/

namespace ClassFold

open Text

/-! ### Reading the value -/

/-- The place where the value of the attribute at a cursor starts, if it has one. -/
def Cursor.valueStart? (c : Cursor) : Option Cursor :=
  (((c.skipWhile isAttrNameChar).skipWhile isSpace).skip? ['=']).map (Cursor.skipWhile isSpace)

/-- How the value of the attribute at `c` is read, up to `d`: there is none, or it is bare, or it
stands between two quotation marks of the given kind. -/
inductive ValueRead (c d : Cursor) : (value : Option Text) → (mark : Option Quote) → Prop where
  | absent (hstart : c.valueStart? = none) : ValueRead c d none none
  | bare {v : Cursor} {t : Text} (hstart : c.valueStart? = some v)
      (hmark : ∀ q : Quote, v.rest.head? ≠ some q.mark) (hread : readValue v = .ok (t, d))
      (htext : v.Reads t d) : ValueRead c d (some t) none
  | quoted {v : Cursor} {t : Text} {q : Quote} (hstart : c.valueStart? = some v)
      (hmark : v.rest.head? = some q.mark) (hread : readValue v = .ok (t, d))
      (htext : v.Reads (q.wrap t) d) : ValueRead c d (some t) (some q)

/-- The first character of a value decides how it is read. -/
lemma mark_of_readValue {v d : Cursor} {t : Text} (h : readValue v = .ok (t, d)) :
    (∃ q : Quote, v.rest.head? = some q.mark ∧ v.Reads (q.wrap t) d) ∨
      ((∀ q : Quote, v.rest.head? ≠ some q.mark) ∧ v.Reads t d ∧ ∀ x ∈ t, isSpace x = false) := by
  obtain ⟨w, hw, hform⟩ := writtenValue_of_readValue h
  cases hform with
  | quoted q t hfree => exact .inl ⟨q, by rw [hw.rest_eq]; rfl, hw⟩
  | bare t hfirst hchars =>
      refine .inr ⟨fun q hq => ?_, hw, fun x hx => (hchars x hx).1⟩
      -- behind a mark the reader would move on over two marks more than the value
      obtain ⟨s, hs⟩ := List.head?_eq_some_iff.1 hq
      have hread := readValue_quote q s v.offset
      rw [← hs, h] at hread
      split at hread
      · simp at hread
      · rename_i value rest hcut
        obtain ⟨rfl, rfl⟩ := Prod.mk.inj (Except.ok.inj hread)
        have hoffset := hw.offset_eq
        have hmark := q.mark.utf8Size_pos
        simp only [Quote.wrap, List.cons_append, byteSize_cons, byteSize_append] at hoffset
        omega

/-! ### Inferring the mark -/

section Inference

variable {name gap gap' w : Text}

lemma ofAttribute_eq_single {raw : Text} :
    Quote.ofAttribute raw = .single ↔
      (trimStart ((raw.dropWhile (· != '=')).drop 1)).head? = some '\'' := by
  rw [Quote.ofAttribute]
  split
  · rename_i s hs
    rw [hs]
    exact iff_of_true rfl rfl
  · rename_i hs
    refine iff_of_false (by simp) fun hhead => ?_
    obtain ⟨s, hs'⟩ := List.head?_eq_some_iff.1 hhead
    exact hs s hs'

lemma ofAttribute_name (hname : ∀ c ∈ name, isAttrNameChar c = true) :
    Quote.ofAttribute name = .double := by
  have hnil : name.dropWhile (· != '=') = [] := by
    rw [List.dropWhile_eq_nil_iff]
    intro c hc
    simpa using ne_equals_of_isAttrNameChar (hname c hc)
  rw [Quote.ofAttribute, hnil]
  rfl

/-- The mark is inferred from what stands behind the equals sign and white space. -/
lemma ofAttribute_value (hname : ∀ c ∈ name, isAttrNameChar c = true)
    (hgap : ∀ c ∈ gap, isSpace c = true) (hgap' : ∀ c ∈ gap', isSpace c = true) :
    Quote.ofAttribute (name ++ (gap ++ '=' :: (gap' ++ w))) = .single ↔
      (trimStart w).head? = some '\'' := by
  rw [ofAttribute_eq_single, drop_equals hname hgap, trimStart,
    List.dropWhile_append_of_pos fun c hc => isBlank_of_isSpace (hgap' c hc), trimStart]

lemma head?_trimStart_eq_some_iff {c : Char} (hc : isBlank c = false) {s : Text} :
    (trimStart s).head? = some c ↔ ∃ b r, s = b ++ c :: r ∧ ∀ x ∈ b, isBlank x = true := by
  constructor
  · intro h
    obtain ⟨r, hr⟩ := List.head?_eq_some_iff.1 h
    refine ⟨s.takeWhile isBlank, r, ?_, forall_mem_takeWhile isBlank s⟩
    rw [← hr]
    exact List.takeWhile_append_dropWhile.symm
  · rintro ⟨b, r, rfl, hb⟩
    rw [trimStart, List.dropWhile_append_of_pos hb, List.dropWhile_cons_of_neg (by simp [hc]),
      List.head?_cons]

end Inference

/-- A value starts with an apostrophe behind blanks, none of which is white space of markup. -/
def BlankApostrophe (value : Text) : Prop :=
  ∃ b r, value = b ++ '\'' :: r ∧ b ≠ [] ∧ ∀ x ∈ b, isBlank x = true ∧ isSpace x = false

/-- The parts of an attribute that is read: its name, and behind it white space, the equals sign,
white space and the value, if it has one. -/
lemma parts_of_readAttr {c d : Cursor} {a : Attr} (h : readAttr c = .ok (some (a, d))) :
    ∃ name, (∀ x ∈ name, isAttrNameChar x = true) ∧
      ((c.valueStart? = none ∧ a.value = none ∧ a.raw = name) ∨
        ∃ v t gap gap', c.valueStart? = some v ∧ readValue v = .ok (t, d) ∧ a.value = some t ∧
          (∀ x ∈ gap, isSpace x = true) ∧ (∀ x ∈ gap', isSpace x = true) ∧
          ∀ w, v.Reads w d → a.raw = name ++ (gap ++ '=' :: (gap' ++ w))) := by
  refine ⟨c.rest.takeWhile isAttrNameChar, forall_mem_takeWhile _ _, ?_⟩
  have hnamed := c.reads_skipWhile isAttrNameChar
  rw [readAttr] at h
  simp only at h
  split at h
  · simp at h
  · split at h
    · rename_i hstart
      obtain ⟨rfl, rfl⟩ := Prod.mk.inj (Option.some.inj (Except.ok.inj h))
      exact .inl ⟨by rw [Cursor.valueStart?, hstart, Option.map_none], rfl, hnamed.takeBytes_eq⟩
    · rename_i equals hequals
      split at h
      · simp at h
      · rename_i value stop hvalue
        obtain ⟨rfl, rfl⟩ := Prod.mk.inj (Option.some.inj (Except.ok.inj h))
        refine .inr ⟨equals.skipWhile isSpace, value, _, _, ?_, hvalue, rfl,
          forall_mem_takeWhile isSpace (c.skipWhile isAttrNameChar).rest,
          forall_mem_takeWhile isSpace equals.rest, fun w hw => ?_⟩
        · rw [Cursor.valueStart?, hequals, Option.map_some]
        · have hall := hnamed.trans (((Cursor.reads_skipWhile isSpace _).trans
            (Cursor.reads_of_skip? hequals)).trans ((equals.reads_skipWhile isSpace).trans hw))
          refine hall.takeBytes_eq.trans ?_
          simp

/-- The mark that is inferred from an attribute, by how its value was read. -/
lemma ofAttribute_of_readAttr {c d : Cursor} {a : Attr} (h : readAttr c = .ok (some (a, d))) :
    ∃ m, ValueRead c d a.value m ∧
      (Quote.ofAttribute a.raw = .single ↔
        m = some .single ∨ m = none ∧ ∃ t, a.value = some t ∧ BlankApostrophe t) := by
  obtain ⟨name, hname, ⟨hstart, hvalue, hraw⟩ |
    ⟨v, t, gap, gap', hstart, hread, hvalue, hgap, hgap', hraw⟩⟩ := parts_of_readAttr h
  · rw [hvalue, hraw, ofAttribute_name hname]
    exact ⟨none, .absent hstart, by simp⟩
  · rw [hvalue]
    rcases mark_of_readValue hread with ⟨q, hmark, htext⟩ | ⟨hmark, htext, hspace⟩
    · refine ⟨some q, .quoted hstart hmark hread htext, ?_⟩
      rw [hraw _ htext, ofAttribute_value hname hgap hgap', Quote.wrap, List.cons_append, trimStart,
        List.dropWhile_cons_of_neg (by simp [q.isBlank_mark]), List.head?_cons]
      cases q <;> simp [Quote.mark]
    · refine ⟨none, .bare hstart hmark hread htext, ?_⟩
      rw [hraw _ htext, ofAttribute_value hname hgap hgap',
        head?_trimStart_eq_some_iff (by decide)]
      constructor
      · rintro ⟨b, r, rfl, hb⟩
        refine .inr ⟨rfl, _, rfl, b, r, rfl, ?_, fun x hx => ⟨hb x hx, hspace x (by simp [hx])⟩⟩
        rintro rfl
        exact hmark .single (by rw [htext.rest_eq]; rfl)
      · rintro (hsingle | ⟨-, _, ⟨⟩, b, r, rfl, -, hb⟩)
        · simp at hsingle
        · exact ⟨b, r, rfl, fun x hx => (hb x hx).1⟩

/-! ### Attributes of a template -/

/-- An attribute is read at some place behind a cursor. -/
def Attr.ReadBehind (c : Cursor) (a : Attr) : Prop :=
  ∃ x y, c.Reaches x ∧ readAttr x = .ok (some (a, y))

lemma Attr.ReadBehind.of_reaches {c d : Cursor} {a : Attr} (h : c.Reaches d)
    (ha : a.ReadBehind d) : a.ReadBehind c := by
  obtain ⟨x, y, hx, hread⟩ := ha
  exact ⟨x, y, h.trans hx, hread⟩

lemma readBehind_of_readTagTail {c d : Cursor} {t : TagTail} (h : readTagTail c = .ok (t, d)) :
    ∀ a ∈ t.attrs, a.ReadBehind c := by
  fun_induction readTagTail c generalizing t d with
  | case1 c hc =>
      obtain ⟨rfl, rfl⟩ := Prod.mk.inj (Except.ok.inj h)
      simp
  | case2 c s hc =>
      obtain ⟨rfl, rfl⟩ := Prod.mk.inj (Except.ok.inj h)
      simp
  | case3 c s hc hf =>
      obtain ⟨rfl, rfl⟩ := Prod.mk.inj (Except.ok.inj h)
      simp
  | case4 => simp at h
  | case5 c first s hc hf hg ha ih =>
      intro a hmem
      exact (ih h a hmem).of_reaches (c.reaches_advance 1)
  | case6 => simp at h
  | case7 c first s hc hf hg a d' ha tail stop ht ih =>
      obtain ⟨rfl, rfl⟩ := Prod.mk.inj (Except.ok.inj h)
      intro b hb
      rcases List.mem_cons.1 hb with rfl | hb
      · exact ⟨c, d', Cursor.Reaches.refl c, ha⟩
      · exact (ih ht b hb).of_reaches (reads_of_readAttr ha).1.reaches

lemma readBehind_of_nextToken {c d : Cursor} {t : Token} (h : nextToken c = .ok (t, d)) :
    ∀ a ∈ Token.attrsOf [t], a.ReadBehind c := by
  have hnone : t.attrs? = none → ∀ a ∈ Token.attrsOf [t], a.ReadBehind c := by
    intro ht
    simp [Token.attrsOf, ht]
  rw [nextToken] at h
  split at h
  · exact hnone (reaches_of_readComment h).1
  · obtain ⟨rfl, rfl⟩ := Prod.mk.inj (Except.ok.inj h)
    exact hnone rfl
  · obtain ⟨rfl, rfl⟩ := Prod.mk.inj (Except.ok.inj h)
    exact hnone rfl
  · rw [readOpening] at h
    split at h
    · simp at h
    · rename_i tail stop htail
      obtain ⟨rfl, rfl⟩ := Prod.mk.inj (Except.ok.inj h)
      intro a ha
      have hname := (c.reaches_advance 1).trans (Cursor.reaches_skipWhile isTagChar _)
      exact (readBehind_of_readTagTail htail a (by simpa [Token.attrsOf, Token.attrs?] using ha)
        ).of_reaches hname
  · exact hnone (reaches_of_readInterpolation h).1
  · obtain ⟨rfl, rfl⟩ := Prod.mk.inj (Except.ok.inj h)
    exact hnone rfl

/-- Every attribute in the tokens of a template is read at some place of it. -/
lemma readBehind_of_scan {c : Cursor} {ts : List Token} (h : scan c = .ok ts) :
    ∀ a ∈ Token.attrsOf ts, a.ReadBehind c := by
  fun_induction scan c generalizing ts with
  | case1 c hc =>
      obtain rfl := Except.ok.inj h
      simp [Token.attrsOf]
  | case2 => simp at h
  | case3 => simp at h
  | case4 c hc t d ht ts' hts ih =>
      obtain rfl := Except.ok.inj h
      intro a ha
      rw [Token.attrsOf_cons] at ha
      rcases List.mem_append.1 ha with ha | ha
      · exact readBehind_of_nextToken ht a ha
      · exact (ih hts a ha).of_reaches (laid_of_nextToken ht).reaches

lemma readBehind_of_readTemplate {base : Nat} {source : Text} {nodes : List Node}
    (h : readTemplate base source = .ok nodes) :
    ∀ a ∈ (Node.attrListsOf nodes).flatten, a.ReadBehind ⟨base, source⟩ := by
  rw [readTemplate] at h
  split at h
  · simp at h
  · rename_i ts hscan
    obtain rfl := Except.ok.inj h
    rw [attrListsOf_forestOfTokens]
    exact readBehind_of_scan hscan

/-- **The inferred quotation mark of an attribute.**  Every attribute of a tree is what is read at
the place where it starts.  A single mark is inferred for it if and only if its value was read
between single marks, or was read as a bare one that starts with an apostrophe behind blanks.  For
any other attribute a double mark is inferred, be its value between double marks, bare or absent. -/
theorem ofAttribute_eq_single_iff {base : Nat} {source : Text} {nodes : List Node}
    (h : readTemplate base source = .ok nodes) :
    ∀ a ∈ (Node.attrListsOf nodes).flatten, ∃ d m,
      readAttr ⟨a.span.start, dropBytes (a.span.start - base) source⟩ = .ok (some (a, d)) ∧
      ValueRead ⟨a.span.start, dropBytes (a.span.start - base) source⟩ d a.value m ∧
      (Quote.ofAttribute a.raw = .single ↔
        m = some .single ∨ m = none ∧ ∃ t, a.value = some t ∧ BlankApostrophe t) := by
  intro a ha
  obtain ⟨x, d, ⟨front, hfront⟩, hread⟩ := readBehind_of_readTemplate h a ha
  have hspan := (reads_of_readAttr hread).2.2
  have hrest : source = front ++ x.rest := hfront.rest_eq
  have hoffset : x.offset = base + byteSize front := hfront.offset_eq
  have hplace : (⟨a.span.start, dropBytes (a.span.start - base) source⟩ : Cursor) = x := by
    rw [hspan, hoffset, Nat.add_sub_cancel_left, hrest, dropBytes_byteSize_append, ← hoffset]
  rw [hplace]
  obtain ⟨m, hvalue, hmark⟩ := ofAttribute_of_readAttr hread
  exact ⟨d, m, hread, hvalue, hmark⟩

/-- A value between single marks, with white space around the equals sign, behind one between double
marks that starts with an apostrophe, a bare one with an apostrophe in it and an absent one. -/
theorem ofAttribute_eq_single_iff_spaced :
    let source := "<p a=\"'x'\" b=y'z c d\n= 'é'>".toList
    let a : Attr := ⟨.static, "d".toList, some "é".toList, ⟨21, 29⟩, "d\n= 'é'".toList⟩
    ∃ nodes, readTemplate 2 source = .ok nodes ∧
      (Node.attrListsOf nodes).flatten.map (fun b => (b.name, Quote.ofAttribute b.raw)) =
        [("a".toList, .double), ("b".toList, .double), ("c".toList, .double),
          ("d".toList, .single)] ∧
      a ∈ (Node.attrListsOf nodes).flatten ∧
      ∃ d, ValueRead ⟨21, dropBytes 19 source⟩ d a.value (some .single) := by
  intro source a
  have hrun : (readTemplate 2 source).toOption.map (fun nodes =>
      ((Node.attrListsOf nodes).flatten.map (fun b => (b.name, Quote.ofAttribute b.raw)),
        (Node.attrListsOf nodes).flatten.getLast?)) =
      some ([("a".toList, .double), ("b".toList, .double), ("c".toList, .double),
        ("d".toList, .single)], some a) := by
    decide +kernel
  obtain ⟨nodes, hnodes, hrun⟩ := exists_nodes_of_map hrun
  obtain ⟨hquotes, hlast⟩ := Prod.mk.inj hrun
  have ha : a ∈ (Node.attrListsOf nodes).flatten := List.mem_of_getLast? hlast
  obtain ⟨d, m, -, hvalue, hmark⟩ := ofAttribute_eq_single_iff hnodes a ha
  refine ⟨nodes, hnodes, hquotes, ha, d, ?_⟩
  obtain rfl | ⟨-, t, ht, b, r, rfl, -⟩ := hmark.1 (by decide)
  · exact hvalue
  · have hmem : '\'' ∈ "é".toList := by
      rw [show "é".toList = b ++ '\'' :: r from Option.some.inj ht]
      simp
    exact absurd hmem (by decide)

/-- A no-break space is a blank but no white space of markup.  Behind it a bare value may start with
an apostrophe, and its attribute is taken for one with single marks. -/
theorem ofAttribute_bare_apostrophe :
    let a : Attr := ⟨.static, "cls".toList, some "\u00a0'a'".toList, ⟨3, 12⟩,
      "cls=\u00a0'a'".toList⟩
    ∃ nodes, readTemplate 0 "<p cls=\u00a0'a'></p>".toList = .ok nodes ∧
      (Node.attrListsOf nodes).flatten = [a] ∧
      ValueRead ⟨3, "cls=\u00a0'a'></p>".toList⟩ ⟨12, "></p>".toList⟩ a.value none ∧
      Quote.ofAttribute a.raw = .single := by
  intro a
  have hrun : (readTemplate 0 "<p cls=\u00a0'a'></p>".toList).toOption.map
      (fun nodes => (Node.attrListsOf nodes).flatten) = some [a] := by
    decide +kernel
  obtain ⟨nodes, hnodes, hattrs⟩ := exists_nodes_of_map hrun
  have hstart : Cursor.valueStart? ⟨3, "cls=\u00a0'a'></p>".toList⟩ =
      some ⟨7, "\u00a0'a'></p>".toList⟩ := by decide
  refine ⟨nodes, hnodes, hattrs, .bare hstart ?_ rfl ⟨rfl, rfl⟩, by decide⟩
  intro q
  cases q <;> decide

end ClassFold
