import ClassFold.Proofs.Template.Boundaries
import ClassFold.Proofs.Template.Shift

/-!
Reading by bytes and reading by characters.

A reader that goes by byte positions and one that goes by characters read a template alike: from the
same place they come to the same result at the same place (`Agrees`, `Same`), or to the same error.
So bytes are looked at inside the template and each text is cut where it may be cut.  One cut is an
exception: an interpolation without an end is cut in front of the last byte, which may lie inside
the last character.  The offsets that the reader by bytes gets out of its sums are some function of
the exact ones (`Overflow.Adds`), and so are those in its result.

There is one lemma for each reader, `agrees_nextToken` and `step_eq` are the step lemmas, and
`agrees_build` is about a whole template.

* `Bytewise.parseTemplate_eq_checked`: both readings of a template agree, and the one by bytes comes
  to nothing exactly when the one by characters reports a dangling interpolation.
* `Bytewise.parseTemplate_wraps`: this is so for every template when sums wrap around.
* `parseTemplate_eq_readTemplate`: words hold the offsets of a template that ends below the word
  size.
-/

namespace ClassFold

open Text

namespace Bytewise

/-! ### Agreement -/

/-- The offsets of all positions in a template come out as `f` of the exact ones. -/
def Overflow.Adds (o : Overflow) (source : Text) (base : Nat) (f : Nat → Nat) : Prop :=
  ∀ i ≤ byteSize source, o.add base i = some (.ok (f (base + i)))

section Agreement

variable {α β : Type} {f : Nat → Nat} {R : α → β → Prop}

/-- A reader by bytes comes to the same result as a reader by characters, or to the same error at
an offset that is `f` of the exact one. -/
inductive Agrees (f : Nat → Nat) (R : α → β → Prop) :
    Outcome α → Except TemplateError β → Prop where
  | ok {a : α} {b : β} (h : R a b) : Agrees f R (some (.ok a)) (.ok b)
  | error {e : TemplateError} (h : e ≠ .danglingInterpolation) :
      Agrees f R (some (.error (e.relocate f))) (.error e)
  | cutInside : Agrees f R none (.error .danglingInterpolation)

/-- Two readers agree that go on in agreement and keep errors as they are. -/
lemma Agrees.andThen {γ δ : Type} {S : γ → δ → Prop} {r : Outcome α} {r' : Except TemplateError β}
    {g : α → Outcome γ} {t : Except TemplateError δ} (h : Agrees f R r r')
    (hok : ∀ a b, r' = .ok b → R a b → Agrees f S (g a) t)
    (herror : ∀ e, r' = .error e → t = .error e) : Agrees f S (r.andThen g) t := by
  cases h with
  | ok hab => exact hok _ _ rfl hab
  | error he =>
      rw [herror _ rfl]
      exact .error he
  | cutInside =>
      rw [herror _ rfl]
      exact .cutInside

lemma Agrees.mono {S : α → β → Prop} {r : Outcome α} {r' : Except TemplateError β}
    (h : Agrees f R r r') (hRS : ∀ a b, R a b → S a b) : Agrees f S r r' := by
  cases h with
  | ok hab => exact .ok (hRS _ _ hab)
  | error he => exact .error he
  | cutInside => exact .cutInside

/-- The same result at the same place, where `g` changes the offsets of the result. -/
def Same (g : β → α) (source : Text) (base : Nat) (r : α × Nat) (r' : β × Cursor) : Prop :=
  r.1 = g r'.1 ∧ At source base r.2 r'.2

end Agreement

section Readers

variable {o : Overflow} {source : Text} {base i j : Nat} {f : Nat → Nat} {c d : Cursor}

lemma At.add (h : At source base i c) (hf : o.Adds source base f) :
    o.add base i = some (.ok (f c.offset)) := by
  rw [h.offset_eq]
  exact hf i h.le

/-! ### Attributes -/

lemma agrees_readValue_quoted {q : Char} {s : Text} (hf : o.Adds source base f)
    (h : At source base i c) (hc : c.rest = q :: s) (hmark : (q == '"' || q == '\'') = true) :
    Agrees f (Same id source base) (readValue o source base i) (ClassFold.readValue c) := by
  have hq : q.utf8Size = 1 := by
    obtain ⟨quote, rfl⟩ := exists_quote_of_mark hmark
    cases quote <;> rfl
  have hinside : At source base (i + 1) (c.advance 1) :=
    h.advance (t := [q]) (by simpa [isSingle] using hq) hc
  obtain ⟨stop, hskip, hstop⟩ := hinside.skipWhile (coarse_ne hq)
  rw [readValue, ClassFold.readValue, if_pos (h.lt_iff.2 (by simp [hc])),
    h.byteAt_of_single hq hc]
  simp only [hc, List.head?_cons, hmark, if_true, Outcome.andThen_ok, hskip]
  cases hcut : (c.advance 1).cut? [q] with
  | none =>
      -- without a second mark, the loop over bytes runs to the end of the template
      have hfree : q ∉ (c.advance 1).rest :=
        notMem_of_free (free_of_cut?_eq_none (by simp) (by simpa [Cursor.cut?] using hcut))
      have hnil : ((c.advance 1).skipWhile (· != q)).rest = [] := by
        refine List.dropWhile_eq_nil_iff.2 fun x hx => bne_iff_ne.2 ?_
        rintro rfl
        exact hfree hx
      have hend : ¬ stop < byteSize source := by
        rw [hstop.lt_iff, not_not]
        exact hnil
      rw [if_neg hend, h.add hf]
      exact .error (e := .unterminatedAttribute c.offset) (by simp)
  | some r =>
      obtain ⟨v, d⟩ := r
      have hrest := Cursor.rest_of_cut? hcut
      have hread := Cursor.reads_of_cut? hcut
      have hfree : ∀ x ∈ v, (x != q) = true := by
        intro x hx
        obtain ⟨⟨a, b⟩, hab, he⟩ := Option.map_eq_some_iff.1 hcut
        obtain ⟨rfl, -⟩ := Prod.mk.inj he
        refine bne_iff_ne.2 ?_
        rintro rfl
        exact notMem_of_cut? hab hx
      have hvalue : (c.advance 1).rest.takeWhile (· != q) = v := by
        rw [hrest, List.append_assoc]
        exact takeWhile_append_stop hfree (by simp)
      have hmore : ((c.advance 1).skipWhile (· != q)).rest = q :: d.rest := by
        rw [Cursor.skipWhile, hrest, List.append_assoc]
        exact dropWhile_append_stop hfree (by simp)
      have hlt : stop < byteSize source := by
        rw [hstop.lt_iff, hmore]
        simp
      have hcutv := hinside.cut hstop ((c.advance 1).reads_skipWhile (· != q))
      rw [if_pos hlt, hcutv, hvalue]
      refine .ok ⟨rfl, ?_⟩
      have hsize := hinside.eq_add_of_reads hstop ((c.advance 1).reads_skipWhile (· != q))
      rw [hvalue] at hsize
      simpa [hsize, hq, Nat.add_assoc] using hinside.reads hread

lemma agrees_readValue (hf : o.Adds source base f) (h : At source base i c) :
    Agrees f (Same id source base) (readValue o source base i) (ClassFold.readValue c) := by
  cases hc : c.rest with
  | nil =>
      rw [readValue, ClassFold.readValue, if_neg (by simp [h.lt_iff, hc]), hc]
      exact .ok ⟨rfl, h⟩
  | cons q s =>
      by_cases hmark : (q == '"' || q == '\'') = true
      · exact agrees_readValue_quoted hf h hc hmark
      · -- the first byte is no mark either, and the value goes on up to the end of a bare value
        rw [Bool.not_eq_true] at hmark
        obtain ⟨b, v, hv, hfirst⟩ := h.cons hc
        have hbare : (b == '"' || b == '\'') = false := by
          rcases hfirst with ⟨-, rfl⟩ | ⟨-, hb⟩
          · exact hmark
          · rw [beq_of_utf8Size hb rfl, beq_of_utf8Size hb rfl, Bool.or_false]
        obtain ⟨stop, hseek, hstop⟩ := h.seek sharp_endsBareValue fun _ => bareEndAt_eq
        have hcut := h.cut hstop (c.reads_skipUntil endsBareValue)
        rw [readValue, ClassFold.readValue, if_pos (h.lt_iff.2 (by simp [hc])),
          byteAt_of_cons hv]
        simp only [hc, List.head?_cons, hmark, hbare, Bool.false_eq_true, if_false,
          Outcome.andThen_ok, hseek]
        rw [hcut, hc]
        exact .ok ⟨rfl, hstop⟩

lemma attrBetween_eq {t : Text} (hf : o.Adds source base f) (h : At source base i c)
    (hd : At source base j d) (hr : c.Reads t d) (rawName : Text) (value : Option Text) :
    attrBetween o source base i j rawName value =
      some (.ok (some ((Attr.ofWritten c d rawName value).relocate f, j))) := by
  rw [attrBetween, h.add hf, Outcome.andThen_ok, hd.add hf, Outcome.andThen_ok, h.cut hd hr,
    Attr.ofWritten, hr.takeBytes_eq]
  rfl

lemma agrees_readAttr (hf : o.Adds source base f) (h : At source base i c) :
    Agrees f (Option.Rel (Same (Attr.relocate f) source base)) (readAttr o source base i)
      (ClassFold.readAttr c) := by
  obtain ⟨named, hskip, hnamed⟩ := h.skipWhile coarse_isAttrNameChar
  have hname := c.reads_skipWhile isAttrNameChar
  have hsize := h.eq_add_of_reads hnamed hname
  rw [readAttr, ClassFold.readAttr, hskip, Outcome.andThen_ok]
  simp only
  by_cases hempty : c.rest.takeWhile isAttrNameChar = []
  · have hstay : named = i := by rw [hsize, hempty]; rfl
    rw [if_pos hstay, hempty]
    exact .ok .none
  · have hmove : named ≠ i := by
      have := byteSize_pos hempty
      omega
    -- white space may stand in front of an equals sign
    obtain ⟨equals, hgap, hequals⟩ := hnamed.skipWhile coarse_isSpace
    rw [if_neg hmove, if_neg (by simpa using hempty), h.cut hnamed hname, Outcome.andThen_ok,
      hgap, Outcome.andThen_ok]
    cases hsign : ((c.skipWhile isAttrNameChar).skipWhile isSpace).skip? ['='] with
    | none =>
        rw [hequals.of_skip?_eq_none rfl hsign, Outcome.andThen_ok, attrBetween_eq hf h hnamed hname]
        exact .ok (.some ⟨rfl, hnamed⟩)
    | some behind =>
        obtain ⟨hpresent, hafter⟩ := hequals.of_skip? rfl hsign
        obtain ⟨start, hstart, hbefore⟩ := hafter.skipWhile coarse_isSpace
        rw [hpresent, Outcome.andThen_ok]
        simp only [if_true, hstart, Outcome.andThen_ok]
        refine (agrees_readValue hf hbefore).andThen ?_ fun e he => by rw [he]
        rintro ⟨v, j⟩ ⟨value, stop⟩ hread ⟨hv, hstop⟩
        obtain ⟨w, hw, -⟩ := writtenValue_of_readValue hread
        have hattr := hname.trans (((Cursor.reads_skipWhile isSpace _).trans
          (Cursor.reads_of_skip? hsign)).trans ((behind.reads_skipWhile isSpace).trans hw))
        rw [attrBetween_eq hf h hstop hattr, hread, hv]
        exact .ok (.some ⟨rfl, hstop⟩)

lemma takeWhile_of_readAttr (h : ClassFold.readAttr c = .ok none) :
    c.rest.takeWhile isAttrNameChar = [] := by
  rw [ClassFold.readAttr] at h
  simp only at h
  split at h
  · rename_i hempty
    simpa using hempty
  · split at h
    · simp at h
    · split at h <;> simp at h

/-- White space in front of an attribute belongs to none. -/
lemma readTagTail_skipWhile (c : Cursor) :
    ClassFold.readTagTail (c.skipWhile isSpace) = ClassFold.readTagTail c := by
  obtain ⟨offset, rest⟩ := c
  induction rest generalizing offset with
  | nil => rfl
  | cons x s ih =>
      by_cases hx : isSpace x = true
      · have hslash : x ≠ '/' := by rintro rfl; exact absurd hx (by decide)
        have hclose : x ≠ '>' := by rintro rfl; exact absurd hx (by decide)
        have hattr : ClassFold.readAttr ⟨offset, x :: s⟩ = .ok none := by
          simp [ClassFold.readAttr, isAttrNameChar, hx]
        have hskip : Cursor.skipWhile isSpace ⟨offset, x :: s⟩ =
            Cursor.skipWhile isSpace (Cursor.advance 1 ⟨offset, x :: s⟩) := by
          simp [Cursor.skipWhile, Cursor.advance, hx, Nat.add_assoc]
        rw [hskip, readTagTail_eq ⟨offset, x :: s⟩, hattr]
        simp only [List.head?_cons, hslash, hclose, if_false]
        exact ih (offset + byteSize [x])
      · rw [Cursor.skipWhile_eq_self (by simpa using hx)]

/-- Where no tag ends, an attribute is read. -/
lemma readTagTail_eq_readAttr {x : Char} {s : Text} (hc : c.rest = x :: s) (hslash : x ≠ '/')
    (hclose : x ≠ '>') :
    ClassFold.readTagTail c =
      match ClassFold.readAttr c with
      | .error e => .error e
      | .ok none => ClassFold.readTagTail (c.advance 1)
      | .ok (some (a, d)) =>
        match ClassFold.readTagTail d with
        | .error e => .error e
        | .ok (tail, stop) => .ok (⟨a :: tail.attrs, tail.selfClosing⟩, stop) := by
  have htail := readTagTail_eq c
  rw [hc] at htail
  simp only [List.head?_cons, hslash, hclose, if_false] at htail
  exact htail

/-- A character that belongs to no attribute takes one byte. -/
lemma At.advance_stray {x : Char} {s : Text} (h : At source base i c) (hc : c.rest = x :: s)
    (hread : ClassFold.readAttr c = .ok none) : At source base (i + 1) (c.advance 1) := by
  have hstray : isAttrNameChar x = false := by
    have hempty := takeWhile_of_readAttr hread
    rw [hc] at hempty
    simpa [List.takeWhile_cons] using hempty
  have hsingle : x.utf8Size = 1 := by
    by_contra hx
    rw [isAttrNameChar_of_longer hx] at hstray
    simp at hstray
  exact h.advance (t := [x]) (by simpa [isSingle] using hsingle) hc

/-- What comes next in a tag belongs to what the reader by characters makes of the rest of it. -/
inductive StepAgrees (f : Nat → Nat) (source : Text) (base : Nat) :
    Outcome TagStep → Except TemplateError (TagTail × Cursor) → Prop where
  | stop {selfClosing : Bool} {j : Nat} {d : Cursor} (h : At source base j d) :
      StepAgrees f source base (some (.ok (.stop selfClosing j))) (.ok (⟨[], selfClosing⟩, d))
  | stray {j : Nat} {d : Cursor} (h : At source base j d) :
      StepAgrees f source base (some (.ok (.stray j))) (ClassFold.readTagTail d)
  | attr {a : Attr} {j : Nat} {d : Cursor} (h : At source base j d) :
      StepAgrees f source base (some (.ok (.attr (a.relocate f) j)))
        (match ClassFold.readTagTail d with
        | .error e => .error e
        | .ok (tail, stop) => .ok (⟨a :: tail.attrs, tail.selfClosing⟩, stop))
  | error {e : TemplateError} (h : e ≠ .danglingInterpolation) :
      StepAgrees f source base (some (.error (e.relocate f))) (.error e)
  | cutInside : StepAgrees f source base none (.error .danglingInterpolation)

lemma agrees_tagStep (hf : o.Adds source base f) (h : At source base i c) :
    StepAgrees f source base (tagStep o source base i) (ClassFold.readTagTail c) := by
  obtain ⟨next, hskip, hnext⟩ := h.skipWhile coarse_isSpace
  rw [tagStep, hskip, Outcome.andThen_ok, ← readTagTail_skipWhile]
  generalize c.skipWhile isSpace = c' at hnext ⊢
  cases hc : c'.rest with
  | nil =>
      rw [if_neg (by simp [hnext.lt_iff, hc]), readTagTail_eq, hc]
      exact .stop hnext
  | cons x s =>
      obtain ⟨b, v, hv, hfirst⟩ := hnext.cons hc
      have hother {y : Char} (hy : y.utf8Size = 1) (hx : x ≠ y) : b ≠ y := by
        rcases hfirst with ⟨-, rfl⟩ | ⟨-, hb⟩
        · exact hx
        · exact ne_of_utf8Size hb hy
      rw [if_pos (hnext.lt_iff.2 (by simp [hc]))]
      by_cases hslash : x = '/'
      · subst hslash
        have hinside := hnext.advance (t := ['/']) rfl hc
        obtain ⟨behind, hgap, hbehind⟩ := hinside.skipWhile coarse_isSpace
        obtain ⟨stop, hend, hstop⟩ := hbehind.skipOptional (x := '>') rfl
        rw [hnext.byteAt_of_single rfl hc, Outcome.andThen_ok, if_pos rfl]
        rw [show next + 1 = next + ['/'].length from rfl, hgap, Outcome.andThen_ok, hend,
          readTagTail_eq, hc]
        exact .stop hstop
      · by_cases hclose : x = '>'
        · subst hclose
          rw [hnext.byteAt_of_single rfl hc, readTagTail_eq, hc]
          exact .stop (hnext.advance (t := ['>']) rfl hc)
        · rw [byteAt_of_cons hv, Outcome.andThen_ok, if_neg (hother rfl hslash),
            if_neg (hother rfl hclose), readTagTail_eq_readAttr hc hslash hclose]
          have hattr := agrees_readAttr hf hnext
          generalize readAttr o source base next = r at hattr ⊢
          generalize hread : ClassFold.readAttr c' = r' at hattr ⊢
          cases hattr with
          | ok hr =>
              cases hr with
              | none => exact .stray (hnext.advance_stray hc hread)
              | some hsame =>
                  obtain ⟨ha, hd⟩ := hsame
                  simp only [Outcome.andThen_ok, ha]
                  exact .attr hd
          | error he => exact .error he
          | cutInside => exact .cutInside

lemma agrees_readTagTail (hf : o.Adds source base f) (h : At source base i c) :
    Agrees f (Same (TagTail.relocate f) source base) (readTagTail o source base i)
      (ClassFold.readTagTail c) := by
  have hstep := agrees_tagStep hf h
  fun_induction readTagTail o source base i generalizing c with
  | case1 i ht =>
      rw [ht] at hstep
      generalize ClassFold.readTagTail c = r at hstep ⊢
      cases hstep
      exact .cutInside
  | case2 i e ht =>
      rw [ht] at hstep
      generalize ClassFold.readTagTail c = r at hstep ⊢
      cases hstep with
      | error he => exact .error he
  | case3 i selfClosing stop ht =>
      rw [ht] at hstep
      generalize ClassFold.readTagTail c = r at hstep ⊢
      cases hstep with
      | stop hd => exact .ok ⟨rfl, hd⟩
  | case4 i next ht ih =>
      rw [ht] at hstep
      generalize ClassFold.readTagTail c = r at hstep ⊢
      cases hstep with
      | stray hd => exact ih hd (agrees_tagStep hf hd)
  | case5 i a next ht ih =>
      rw [ht] at hstep
      generalize ClassFold.readTagTail c = r at hstep ⊢
      cases hstep with
      | attr hd =>
          refine (ih hd (agrees_tagStep hf hd)).andThen ?_ fun e he => by rw [he]
          rintro ⟨tail, j⟩ ⟨tail', stop⟩ hread ⟨rfl, hstop⟩
          rw [hread]
          exact .ok ⟨rfl, hstop⟩

/-! ### Tokens -/

/-- A token read by bytes has offsets that are `f` of the exact ones, except that the end of a
closing tag is a position in the template. -/
inductive TokenAgrees (f : Nat → Nat) (source : Text) (base : Nat) : Token → Token → Prop where
  | closing {tag : Text} {i : Nat} (h : i ≤ byteSize source) :
      TokenAgrees f source base (.closing tag i) (.closing tag (base + i))
  | other {t : Token} (h : ∀ tag stop, t ≠ .closing tag stop) :
      TokenAgrees f source base (t.relocate f) t

/-- The same token at the same place. -/
def SameToken (f : Nat → Nat) (source : Text) (base : Nat) (r : Token × Nat)
    (r' : Token × Cursor) : Prop :=
  TokenAgrees f source base r.1 r'.1 ∧ At source base r.2 r'.2

lemma agrees_readComment (hf : o.Adds source base f) (h : At source base i c)
    (hlead : Lead.of c.rest = .comment) :
    Agrees f (SameToken f source base) (readComment o source base i) (ClassFold.readComment c) := by
  obtain ⟨s, hs⟩ := Lead.exists_of_eq hlead
  have hinside : At source base (i + 4) (c.advance 4) := h.advance (t := "<!--".toList) rfl hs
  rw [readComment, ClassFold.readComment, hinside.cut_rest, Outcome.andThen_ok]
  cases hcut : (c.advance 4).cut? "-->".toList with
  | none =>
      have hnone : Text.cut? "-->".toList (c.advance 4).rest = none := by
        simpa [Cursor.cut?] using hcut
      rw [hnone]
      simp only
      rw [h.add hf]
      exact .error (e := .unterminatedComment c.offset) (by simp)
  | some r =>
      obtain ⟨content, stop⟩ := r
      obtain ⟨⟨text, behind⟩, hsome, hstop⟩ := Option.map_eq_some_iff.1 hcut
      obtain ⟨rfl, -⟩ := Prod.mk.inj hstop
      obtain ⟨e, hread, hend⟩ := (Cursor.reads_of_cut? hcut).exists_between
      simp only [hsome]
      rw [hinside.cut (hinside.reads hread) hread, Outcome.andThen_ok]
      exact .ok ⟨.other (t := .comment text) (by simp), (hinside.reads hread).reads hend⟩

/-- A tag name consists of characters of one byte. -/
lemma exists_readName (h : At source base i c) :
    ∃ j, readName source i = some (.ok (c.rest.takeWhile isTagChar, j)) ∧
      At source base j (c.skipWhile isTagChar) := by
  obtain ⟨stop, hskip, hstop⟩ := h.skipWhile coarse_isTagChar
  have hsize := h.eq_add_of_reads hstop (c.reads_skipWhile isTagChar)
  have hbytes : ((octets source).drop i).take (stop - i) = c.rest.takeWhile isTagChar := by
    have hlonger : ∀ x : Char, x.utf8Size ≠ 1 → isTagChar x = false :=
      fun _ hx => isTagChar_of_longer hx
    have hlength := length_takeWhile_octets coarse_isTagChar c.rest
    have hprefix := List.prefix_iff_eq_take.1 (List.takeWhile_prefix (l := octets c.rest) isTagChar)
    rw [hlength, takeWhile_octets hlonger] at hprefix
    rw [← bytesFrom, h.bytesFrom_eq, hsize, Nat.add_sub_cancel_left]
    exact hprefix.symm
  have hle := hstop.le
  refine ⟨stop, ?_, hstop⟩
  rw [readName, hskip, Outcome.andThen_ok, bytesBetween, if_pos ⟨by omega, hle⟩, hbytes]
  rfl

lemma agrees_readClosing (h : At source base i c) (hlead : Lead.of c.rest = .closing) :
    Agrees f (SameToken f source base) (readClosing source i)
      (.ok (ClassFold.readClosing c)) := by
  obtain ⟨s, hs⟩ := Lead.exists_of_eq hlead
  have hinside : At source base (i + 2) (c.advance 2) := h.advance (t := "</".toList) rfl hs
  obtain ⟨named, hname, hnamed⟩ := exists_readName hinside
  obtain ⟨behind, hgap, hbehind⟩ := hnamed.skipWhile coarse_isSpace
  obtain ⟨stop, hend, hstop⟩ := hbehind.skipOptional (x := '>') rfl
  rw [readClosing, ClassFold.readClosing, hname, Outcome.andThen_ok, hgap, Outcome.andThen_ok, hend,
    Outcome.andThen_ok, hstop.offset_eq]
  exact .ok ⟨.closing hstop.le, hstop⟩

lemma agrees_readOpening (hf : o.Adds source base f) (h : At source base i c)
    (hlead : Lead.of c.rest = .opening) :
    Agrees f (SameToken f source base) (readOpening o source base i) (ClassFold.readOpening c) := by
  obtain ⟨s, hs⟩ := Lead.exists_of_eq hlead
  have hinside : At source base (i + 1) (c.advance 1) := h.advance (t := "<".toList) rfl hs
  obtain ⟨named, hname, hnamed⟩ := exists_readName hinside
  rw [readOpening, ClassFold.readOpening, hname, Outcome.andThen_ok]
  refine (agrees_readTagTail hf hnamed).andThen ?_ fun e he => by simp only [he]
  rintro ⟨tail, j⟩ ⟨tail', stop⟩ hread ⟨rfl, hstop⟩
  simp only [hread]
  rw [h.add hf, Outcome.andThen_ok, hstop.add hf, Outcome.andThen_ok]
  exact .ok ⟨.other (t := .opening _ _ _ ⟨_, _⟩) (by simp), hstop⟩

lemma sharp_startsWith {w : Text} {x : Char} (hw : isSingle (x :: w) = true) :
    Sharp (startsWith (x :: w)) :=
  ⟨fun _ s hc => startsWith_of_longer hc (isSingle_cons.1 hw).1 w s, startsWith_octets hw⟩

/-- Where a loop stops that looks for two closing braces. -/
lemma seek_braces (h : At source base i c) :
    seek (byteSize source - 1) (bracesAt source) i =
      some (.ok (i + if dropUntil (startsWith ['}', '}']) c.rest = [] then byteSize c.rest - 1
        else byteSize (takeUntil (startsWith ['}', '}']) c.rest))) := by
  have hsharp : Sharp (startsWith ['}', '}']) := sharp_startsWith rfl
  have hlong (s : Text) (hs : startsWith ['}', '}'] s = true) : 1 < s.length := by
    obtain ⟨t, rfl⟩ := startsWith_iff.1 hs
    simp
  have hlength (j : Nat) : (bytesFrom source j).length = byteSize source - j := by
    rw [bytesFrom, List.length_drop, length_octets]
  rw [seek_eq (p := fun s => decide (s.length ≤ 1) || startsWith ['}', '}'] s) (Nat.sub_le _ _)]
  · rw [h.bytesFrom_eq, takeUntil_short_or hlong]
    simp only [dropUntil_octets_eq_nil_iff hsharp]
    split
    · rw [List.length_dropLast, length_octets]
    · rw [length_takeUntil_octets hsharp]
  · intro j hj
    have hmore : decide ((bytesFrom source j).length ≤ 1) = false := by
      rw [hlength]
      exact decide_eq_false (by omega)
    rw [bracesAt_eq hj, hmore, Bool.false_or]
  · intro j hle hlt
    have hlast : decide ((bytesFrom source j).length ≤ 1) = true := by
      rw [hlength]
      exact decide_eq_true (by omega)
    rw [hlast, Bool.true_or]

/-- An interpolation with an end is cut in front of it. -/
lemma readInterpolation_closed {expr : Text} {inside stop : Cursor}
    (h : At source base (i + 2) inside) (hcut : inside.cut? ['}', '}'] = some (expr, stop)) :
    ∃ j, readInterpolation source i = some (.ok (.interpolation (trim expr), j)) ∧
      At source base j stop := by
  obtain ⟨⟨text, behind⟩, hsome, hstop⟩ := Option.map_eq_some_iff.1 hcut
  obtain ⟨rfl, -⟩ := Prod.mk.inj hstop
  obtain ⟨r, hr, he⟩ := Option.map_eq_some_iff.1 hsome
  obtain ⟨rfl, rfl⟩ := Prod.mk.inj he
  have hfound := strip?_eq_some.1 hr
  have hne : dropUntil (startsWith ['}', '}']) inside.rest ≠ [] := by simp [hfound]
  have hread := inside.reads_skipUntil (startsWith ['}', '}'])
  have hplace := h.reads hread
  have hroom : i + 2 + byteSize (takeUntil (startsWith ['}', '}']) inside.rest) + 2 ≤
      byteSize source := by
    have hsize := hplace.add_byteSize
    have htwo : byteSize ['}', '}'] = 2 := rfl
    simp only [Cursor.skipUntil, hfound, byteSize_append, htwo] at hsize
    omega
  have hend := h.reads (Cursor.reads_of_cut? hcut)
  rw [byteSize_append, ← Nat.add_assoc] at hend
  refine ⟨_, ?_, hend⟩
  rw [readInterpolation, seek_braces h, if_neg hne, Outcome.andThen_ok, Nat.min_eq_left (by omega),
    h.cut hplace hread, Outcome.andThen_ok, if_pos (by omega)]
  rfl

/-- An interpolation without an end is cut in front of the last byte. -/
lemma readInterpolation_open {inside : Cursor} (h : At source base (i + 2) inside)
    (hnone : inside.cut? ['}', '}'] = none) :
    readInterpolation source i =
      (cut source (i + 2) (i + 2 + (byteSize inside.rest - 1))).andThen fun expr =>
        some (.ok (.interpolation (trim expr), byteSize source)) := by
  have hstrip : strip? ['}', '}'] (dropUntil (startsWith ['}', '}']) inside.rest) = none := by
    simpa [Cursor.cut?, Text.cut?] using hnone
  have hnil : dropUntil (startsWith ['}', '}']) inside.rest = [] := by
    rcases dropUntil_eq_nil_or (startsWith ['}', '}']) inside.rest with hnil | hhit
    · exact hnil
    · simp [startsWith, hstrip] at hhit
  have hsize := h.add_byteSize
  rw [readInterpolation, seek_braces h, if_pos hnil, Outcome.andThen_ok,
    Nat.min_eq_left (by omega), if_neg (by omega)]

/-- In front of the last byte of a longer character no text may be cut. -/
lemma cut_eq_none {front : Text} {last : Char} (h : At source base i c)
    (hc : c.rest = front ++ [last]) (hlast : last.utf8Size ≠ 1) :
    cut source i (i + (byteSize c.rest - 1)) = none := by
  rw [cut, if_neg]
  rintro ⟨-, -, hboundary⟩
  obtain ⟨a, b, hab, hsize⟩ := isBoundary_iff_exists.1 hboundary
  have hlonger : 1 < last.utf8Size := by
    have := last.utf8Size_pos
    omega
  have hrest : byteSize c.rest = byteSize front + last.utf8Size := by simp [hc]
  have hsource := congrArg byteSize hab
  rw [← h.add_byteSize, byteSize_append] at hsource
  -- the text behind the cut takes one byte, but it ends with the longer character
  have hb : byteSize b = 1 := by omega
  have hne : b ≠ [] := by
    rintro rfl
    simp at hb
  have hend : b.getLast? = some last := by
    obtain ⟨before, hbefore, -⟩ := h
    rw [hab, hc, ← List.append_assoc] at hbefore
    have hboth := congrArg List.getLast? hbefore
    rwa [List.getLast?_append_of_ne_nil a hne, List.getLast?_concat] at hboth
  obtain ⟨t, rfl⟩ := List.getLast?_eq_some_iff.1 hend
  simp at hb
  omega

lemma agrees_readInterpolation (h : At source base i c)
    (hlead : Lead.of c.rest = .interpolation) :
    Agrees f (SameToken f source base) (readInterpolation source i)
      (ClassFold.readInterpolation c) := by
  obtain ⟨s, hs⟩ := Lead.exists_of_eq hlead
  have hinside : At source base (i + 2) (c.advance 2) := h.advance (t := ['{', '{']) rfl hs
  rw [ClassFold.readInterpolation]
  simp only
  cases hcut : (c.advance 2).cut? ['}', '}'] with
  | some r =>
      obtain ⟨j, hj, hstop⟩ := readInterpolation_closed hinside hcut
      rw [hj]
      exact .ok ⟨.other (t := .interpolation _) (by simp), hstop⟩
  | none =>
      rw [readInterpolation_open hinside hcut]
      generalize c.advance 2 = inside at hinside ⊢
      cases hlast : inside.rest.getLast? with
      | none =>
          have hnil : inside.rest = [] := List.getLast?_eq_none_iff.1 hlast
          have hsize : byteSize inside.rest - 1 = 0 := by rw [hnil]; rfl
          rw [hsize, Nat.add_zero, hinside.cut hinside (Cursor.Reads.refl inside)]
          exact .ok ⟨.other (t := .interpolation _) (by simp), hinside.at_end⟩
      | some last =>
          obtain ⟨front, hfront⟩ := List.getLast?_eq_some_iff.1 hlast
          by_cases hsingle : last.utf8Size = 1
          · have hread : inside.Reads front ⟨inside.offset + byteSize front, [last]⟩ :=
              ⟨hfront, rfl⟩
            have hsize : byteSize inside.rest - 1 = byteSize front := by simp [hfront, hsingle]
            have hdrop : inside.rest.dropLast = front := by simp [hfront]
            simp only [hsingle, if_true]
            rw [hsize, hinside.cut (hinside.reads hread) hread, hdrop]
            exact .ok ⟨.other (t := .interpolation _) (by simp), hinside.at_end⟩
          · simp only [hsingle, if_false]
            rw [cut_eq_none hinside hfront hsingle]
            exact .cutInside

/-- The first byte of a text need not be looked at, since no markup starts there. -/
lemma seek_markup (h : At source base i c) (hne : c.rest ≠ []) (hlead : Lead.of c.rest = .text) :
    seek (byteSize source) (markupAt source) (i + 1) =
      seek (byteSize source) (markupAt source) i := by
  have hi := h.lt_iff.2 hne
  have hstay : markupAt source i = some (.ok false) := by
    rw [markupAt_eq hi, h.bytesFrom_eq, startsMarkup, lead_octets, hlead]
    rfl
  rw [seek.eq_def _ _ i, dif_pos hi, hstay]
  rfl

lemma agrees_readText (h : At source base i c) (hne : c.rest ≠ [])
    (hlead : Lead.of c.rest = .text) :
    Agrees f (SameToken f source base) (readText source i)
      (.ok (.text (nodeText (takeUntil startsMarkup c.rest)), c.skipUntil startsMarkup)) := by
  obtain ⟨stop, hseek, hstop⟩ := h.seek sharp_startsMarkup fun _ => markupAt_eq
  rw [readText, seek_markup h hne hlead, hseek, Outcome.andThen_ok,
    h.cut hstop (c.reads_skipUntil startsMarkup)]
  exact .ok ⟨.other (t := .text _) (by simp), hstop⟩

lemma leadAt_eq (h : At source base i c) (hne : c.rest ≠ []) :
    leadAt source i = some (.ok (Lead.of c.rest)) := by
  obtain ⟨b, hb, hbytes⟩ := exists_byteAt (h.lt_iff.2 hne)
  have hcomment : startsWith "<!--".toList c.rest =
      startsWith "<!--".toList (b :: bytesFrom source (i + 1)) := by
    rw [← hbytes, h.bytesFrom_eq, startsWith_octets rfl]
  rw [← lead_octets, ← h.bytesFrom_eq, hbytes, lead_cons, leadAt, hb, Outcome.andThen_ok]
  by_cases hbracket : b = '<'
  · rw [if_pos hbracket, if_pos hbracket, h.cut_rest, Outcome.andThen_ok, hcomment]
    by_cases hstart : startsWith "<!--".toList (b :: bytesFrom source (i + 1)) = true
    · rw [if_pos hstart, if_pos hstart]
    · rw [if_neg hstart, if_neg hstart]
      by_cases hi : i + 1 < byteSize source
      · obtain ⟨x, hx, hnext⟩ := exists_byteAt hi
        rw [if_pos hi, hx, hnext]
        rfl
      · rw [if_neg hi, bytesFrom_eq_nil (by omega)]
        rfl
  · rw [if_neg hbracket, if_neg hbracket, passesAt_eq]
    by_cases hbrace : b = '{'
    · simp [hbrace]
    · simp [hbrace]

/-! ### Templates -/

/-- A byte position and a cursor are the same place, or both of them have no more text behind them.
The end of a declaration is passed even if it is not there. -/
def Level (source : Text) (base i : Nat) (c : Cursor) : Prop :=
  At source base i c ∨ byteSize source ≤ i ∧ c.rest = []

lemma Level.lt_iff (h : Level source base i c) : i < byteSize source ↔ c.rest ≠ [] := by
  rcases h with h | ⟨hle, hnil⟩
  · exact h.lt_iff
  · simp [hle, hnil]

lemma Level.at_of_lt (h : Level source base i c) (hi : i < byteSize source) :
    At source base i c := by
  rcases h with h | ⟨hle, -⟩
  · exact h
  · omega

lemma level_declaration (h : At source base i c) :
    ∃ j, skipWhile source (· != '>') i = some (.ok j) ∧
      Level source base (j + 1) ((c.skipWhile (· != '>')).advance 1) := by
  obtain ⟨stop, hskip, hstop⟩ := h.skipWhile (coarse_ne (x := '>') rfl)
  refine ⟨stop, hskip, ?_⟩
  cases hc : (c.skipWhile (· != '>')).rest with
  | nil =>
      have hend : ¬ stop < byteSize source := by
        rw [hstop.lt_iff, hc, not_not]
      exact .inr ⟨by omega, by simp [hc]⟩
  | cons x s =>
      obtain rfl : x = '>' := by
        have hfirst := List.head?_dropWhile_not (· != '>') c.rest
        have hrest : c.rest.dropWhile (· != '>') = x :: s := hc
        rw [hrest] at hfirst
        simpa using hfirst
      exact .inl (hstop.advance (t := ['>']) rfl hc)

/-- **One token**: the readers by bytes and by characters read the same token, to the same place. -/
lemma agrees_nextToken (hf : o.Adds source base f) (h : At source base i c) (hne : c.rest ≠ []) :
    Agrees f (fun r r' => TokenAgrees f source base r.1 r'.1 ∧ Level source base r.2 r'.2)
      (nextToken o source base i) (ClassFold.nextToken c) := by
  have hlevel : ∀ (r : Token × Nat) (r' : Token × Cursor), SameToken f source base r r' →
      TokenAgrees f source base r.1 r'.1 ∧ Level source base r.2 r'.2 :=
    fun _ _ hsame => ⟨hsame.1, .inl hsame.2⟩
  rw [nextToken, leadAt_eq h hne, Outcome.andThen_ok, ClassFold.nextToken]
  cases hlead : Lead.of c.rest with
  | comment => exact (agrees_readComment hf h hlead).mono hlevel
  | declaration =>
      obtain ⟨stop, hskip, hstop⟩ := level_declaration h
      simp only [hskip, Outcome.andThen_ok]
      exact .ok ⟨.other (t := .declaration) (by simp), hstop⟩
  | closing => exact (agrees_readClosing h hlead).mono hlevel
  | opening => exact (agrees_readOpening hf h hlead).mono hlevel
  | interpolation => exact (agrees_readInterpolation h hlead).mono hlevel
  | text => exact (agrees_readText h hne hlead).mono hlevel

/-- One more token changes the tree in the same way. -/
lemma step_eq {t t' : Token} (hf : o.Adds source base f) (ht : TokenAgrees f source base t t')
    (b : Builder) : step o base (b.relocate f) t = some (.ok ((b.step t').relocate f)) := by
  cases ht with
  | @closing tag i hi =>
      have hstep := Builder.step_relocate f b (.closing tag (base + i))
      rw [step, Builder.any_stack_relocate f (· == tag)]
      by_cases hopen : b.stack.any (·.tag == tag) = true
      · rw [if_pos hopen, hf i hi, ← hstep]
        rfl
      · have hstray : b.step (.closing tag (base + i)) = b := if_neg hopen
        rw [if_neg hopen, hstray]
  | other hother =>
      rw [← Builder.step_relocate]
      cases t' with
      | closing tag stop => exact absurd rfl (hother tag stop)
      | comment content => rfl
      | declaration => rfl
      | opening tag attrs selfClosing span => rfl
      | interpolation expr => rfl
      | text content => rfl

/-- **A whole template**: the readers by bytes and by characters build the same tree. -/
lemma agrees_build (hf : o.Adds source base f) (h : Level source base i c) (b : Builder) :
    Agrees f (fun b' ts => b' = (ts.foldl Builder.step b).relocate f)
      (build o source base (b.relocate f) i) (ClassFold.scan c) := by
  generalize hb : b.relocate f = b₀
  fun_induction build o source base b₀ i generalizing b c with
  | case1 b₀ i hi ht =>
      rw [scan_eq, if_neg (h.lt_iff.1 hi)]
      have htoken := agrees_nextToken hf (h.at_of_lt hi) (h.lt_iff.1 hi)
      rw [ht] at htoken
      generalize ClassFold.nextToken c = r at htoken ⊢
      cases htoken with
      | cutInside => exact .cutInside
  | case2 b₀ i hi e ht =>
      rw [scan_eq, if_neg (h.lt_iff.1 hi)]
      have htoken := agrees_nextToken hf (h.at_of_lt hi) (h.lt_iff.1 hi)
      rw [ht] at htoken
      generalize ClassFold.nextToken c = r at htoken ⊢
      cases htoken with
      | error he => exact .error he
  | case3 b₀ i hi t j ht ih =>
      subst hb
      rw [scan_eq, if_neg (h.lt_iff.1 hi)]
      have htoken := agrees_nextToken hf (h.at_of_lt hi) (h.lt_iff.1 hi)
      rw [ht] at htoken
      generalize ClassFold.nextToken c = r at htoken ⊢
      cases htoken with
      | @ok _ r hsame =>
          obtain ⟨t', d⟩ := r
          obtain ⟨htoken, hnext⟩ := hsame
          rw [step_eq hf htoken, Outcome.andThen_ok]
          have hmore := ih _ hnext (b.step t') rfl
          simp only
          generalize build o source base _ j = r at hmore ⊢
          generalize ClassFold.scan d = ts at hmore ⊢
          cases hmore with
          | ok hts => exact .ok hts
          | error he => exact .error he
          | cutInside => exact .cutInside
  | case4 b₀ i hi =>
      subst hb
      have hnil : c.rest = [] := by
        by_contra hne
        exact hi (h.lt_iff.2 hne)
      rw [scan_eq, if_pos hnil]
      exact .ok rfl

lemma finish_eq (hf : o.Adds source base f) (b : Builder) :
    finish o source base (b.relocate f) =
      some (.ok ((b.finish (base + byteSize source)).map (Node.relocate f))) := by
  have hfinish := Builder.finish_relocate f (base + byteSize source) b
  rw [finish, ← hfinish]
  split
  · rename_i hempty
    obtain ⟨stack, roots⟩ := b
    obtain rfl : stack = [] := by simpa [Builder.relocate] using hempty
    simp [Builder.relocate, Builder.finish, Builder.closeThrough]
  · rw [hf _ (Nat.le_refl _)]
    rfl

end Readers

/-- What a reader by bytes comes to where a reader by characters gets a result: nothing where that
one reports a cut inside a character, and otherwise the same. -/
def checked {α : Type} : Except TemplateError α → Outcome α
  | .error .danglingInterpolation => none
  | r => some r

lemma getD_checked {α : Type} (r : Except TemplateError α) :
    (checked r).getD (.error .danglingInterpolation) = r := by
  cases r with
  | ok a => rfl
  | error e => cases e <;> rfl

lemma checked_inj {α : Type} {r r' : Except TemplateError α} (h : checked r = checked r') :
    r = r' := by
  rw [← getD_checked r, h, getD_checked]

lemma checked_moved {α β : Type} (n : Nat) (g : α → β) (r : Except TemplateError α) :
    checked (moved n g r) = (checked r).map (moved n g) := by
  cases r with
  | ok a => rfl
  | error e => cases e <;> rfl

/-- **Positions lie between characters.**  A template can be read by byte positions: bytes are looked
at inside the template only, and all texts are cut between characters, with one exception that the
reader by characters reports. -/
theorem parseTemplate_eq_checked {o : Overflow} {source : Text} {base : Nat} {f : Nat → Nat}
    (hf : o.Adds source base f) :
    parseTemplate o source base =
      checked (relocated f (List.map (Node.relocate f)) (readTemplate base source)) := by
  have hbuild := agrees_build hf (.inl (at_start source base)) .empty
  have hempty : Builder.empty.relocate f = .empty := rfl
  rw [hempty] at hbuild
  rw [parseTemplate, readTemplate]
  generalize build o source base .empty 0 = r at hbuild ⊢
  generalize ClassFold.scan _ = r' at hbuild ⊢
  cases hbuild with
  | ok hts =>
      rw [hts, Outcome.andThen_ok, finish_eq hf]
      rfl
  | @error e he => cases e <;> first | rfl | exact absurd rfl he
  | cutInside => rfl

/-! ### Offsets in words -/

section Words

variable {source : Text} {base : Nat}

lemma adds_wraps (source : Text) (base : Nat) :
    Overflow.wraps.Adds source base (· % wordSize) := fun _ _ => rfl

/-- Up to the end of a template that ends below the word size all sums are exact. -/
lemma adds_id (o : Overflow) (h : base + byteSize source < wordSize) : o.Adds source base id := by
  intro i hi
  have hlt : base + i < wordSize := by omega
  cases o with
  | wraps => rw [Overflow.add, Nat.mod_eq_of_lt hlt, id]
  | stops => exact if_pos hlt

/-- Sums that wrap where they are made come out as they do when they wrap at the end. -/
theorem parseTemplate_wraps (source : Text) (base : Nat) :
    parseTemplate .wraps source base = checked (ClassFold.parseTemplate base source) :=
  parseTemplate_eq_checked (adds_wraps source base)

lemma parseTemplate_eq_readTemplate (o : Overflow) (h : base + byteSize source < wordSize) :
    parseTemplate o source base = checked (readTemplate base source) := by
  rw [parseTemplate_eq_checked (adds_id o h), relocated_id]

end Words

end Bytewise

/-- **Words hold the offsets of a template that ends below the word size.** -/
theorem parseTemplate_eq_readTemplate {base : Nat} {source : Text}
    (h : base + byteSize source < wordSize) :
    parseTemplate base source = readTemplate base source := by
  refine Bytewise.checked_inj ?_
  rw [← Bytewise.parseTemplate_wraps, Bytewise.parseTemplate_eq_readTemplate .wraps h]

end ClassFold
