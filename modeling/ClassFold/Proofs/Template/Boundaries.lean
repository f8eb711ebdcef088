import ClassFold.Proofs.Template.Bytewise
import ClassFold.Proofs.Template.Written

/-!
Byte positions between characters.

`At i c` says that the byte position `i` and the cursor `c` are the same place of a template, so
that `i` lies between two characters.  Each move of a reader that goes by bytes, made from such a
place, leads to the place to which the same move of a cursor leads, provided that its test does not
tell the bytes of longer characters apart.  This is so for all tests of the readers of templates.

* `passesAt_eq`, `seek_eq`: a byte is looked at only where there is one.
* `At.cut`: between two places a text may be cut.
* `At.skipWhile`, `At.seek`, `At.skipOptional`, `At.advance`: the moves.
* `coarse_isSpace`, `coarse_isTagChar`, `coarse_isAttrNameChar`, `sharp_endsBareValue`,
  `sharp_startsMarkup`: the tests.
-/

namespace ClassFold.Bytewise

open Text

/-! ### Bytes -/

section Bytes

variable {source : Text} {i limit : Nat}

/-- The bytes of a template from a position on. -/
def bytesFrom (source : Text) (i : Nat) : Text := (octets source).drop i

/-- In front of the end of a template there is a byte. -/
lemma exists_byteAt (hi : i < byteSize source) :
    ∃ b, byteAt source i = some (.ok b) ∧ bytesFrom source i = b :: bytesFrom source (i + 1) := by
  have hlength : i < (octets source).length := by rwa [length_octets]
  exact ⟨(octets source)[i], by rw [byteAt, List.getElem?_eq_getElem hlength]; rfl,
    List.drop_eq_getElem_cons hlength⟩

lemma bytesFrom_eq_nil (hi : byteSize source ≤ i) : bytesFrom source i = [] :=
  List.drop_eq_nil_of_le (by rwa [length_octets])

lemma byteAt_of_cons {b : Char} {v : Text} (h : bytesFrom source i = b :: v) :
    byteAt source i = some (.ok b) := by
  have hhead : (bytesFrom source i).head? = some b := by rw [h]; rfl
  rw [bytesFrom, List.head?_drop] at hhead
  rw [byteAt, hhead]
  rfl

/-- A test of the next byte is a test of the bytes that follow. -/
lemma passesAt_eq (source : Text) (p : Char → Bool) (i : Nat) :
    passesAt source p i = some (.ok ((bytesFrom source i).head?.any p)) := by
  rw [passesAt]
  split
  · rename_i hi
    obtain ⟨b, hb, hbytes⟩ := exists_byteAt hi
    rw [testAt, hb, hbytes]
    rfl
  · rename_i hi
    rw [bytesFrom_eq_nil (by omega)]
    rfl

/-- **Loops over bytes** stop where the bytes that follow pass the test.  Such a loop may end in front
of the end of the template, if the test would pass from there on. -/
lemma seek_eq {test : Nat → Outcome Bool} {p : Text → Bool} (hlimit : limit ≤ byteSize source)
    (htest : ∀ j < limit, test j = some (.ok (p (bytesFrom source j))))
    (hend : ∀ j, limit ≤ j → j < byteSize source → p (bytesFrom source j) = true) (i : Nat) :
    seek limit test i = some (.ok (i + (takeUntil p (bytesFrom source i)).length)) := by
  fun_induction seek limit test i with
  | case1 i hi ih =>
      have hin : i < byteSize source := by omega
      obtain ⟨b, -, hbytes⟩ := exists_byteAt hin
      rw [htest i hi, Outcome.andThen_ok]
      by_cases hp : p (bytesFrom source i) = true
      · have hstop : takeUntil p (bytesFrom source i) = [] := by
          rw [hbytes] at hp ⊢
          exact if_pos hp
        rw [if_pos hp, hstop]
        rfl
      · have hmore : takeUntil p (bytesFrom source i) =
            b :: takeUntil p (bytesFrom source (i + 1)) := by
          rw [hbytes] at hp ⊢
          exact if_neg hp
        rw [if_neg hp, ih, hmore, List.length_cons, Nat.add_assoc, Nat.add_comm 1]
  | case2 i hi =>
      have hnil : takeUntil p (bytesFrom source i) = [] := by
        by_cases hi' : i < byteSize source
        · obtain ⟨b, -, hbytes⟩ := exists_byteAt hi'
          have hp := hend i (by omega) hi'
          rw [hbytes] at hp ⊢
          exact if_pos hp
        · rw [bytesFrom_eq_nil (by omega)]
          rfl
      rw [hnil]
      rfl

lemma takeUntil_head?_any (p : Char → Bool) (s : Text) :
    takeUntil (fun s => s.head?.any (!p ·)) s = s.takeWhile p := by
  induction s with
  | nil => rfl
  | cons c s ih => cases hc : p c <;> simp [takeUntil, hc, ih]

lemma skipWhile_eq (source : Text) (p : Char → Bool) (i : Nat) :
    skipWhile source p i = some (.ok (i + ((bytesFrom source i).takeWhile p).length)) := by
  rw [← takeUntil_head?_any]
  refine seek_eq (Nat.le_refl _) (fun j hj => ?_) (fun j hle hlt => by omega) i
  obtain ⟨b, hb, hbytes⟩ := exists_byteAt hj
  rw [testAt, hb, hbytes]
  rfl

lemma startsWith_single (x b : Char) (s : Text) : startsWith [x] (b :: s) = (b == x) := by
  by_cases hb : x = b
  · simp [startsWith, strip?, hb]
  · simp [startsWith, strip?, hb, Ne.symm hb]

lemma startsWith_pair (x y b : Char) (s : Text) :
    startsWith [x, y] (b :: s) = (b == x && s.head?.any (· == y)) := by
  have hfirst : startsWith [x, y] (b :: s) = (b == x && startsWith [y] s) := by
    by_cases hb : x = b
    · simp [startsWith, strip?, hb]
    · simp [startsWith, strip?, hb, Ne.symm hb]
  rw [hfirst]
  cases s with
  | nil => rfl
  | cons c s => rw [startsWith_single, List.head?_cons, Option.any_some]

lemma bareEndAt_eq (hi : i < byteSize source) :
    bareEndAt source i = some (.ok (endsBareValue (bytesFrom source i))) := by
  obtain ⟨b, hb, hbytes⟩ := exists_byteAt hi
  have hclose : startsWith "/>".toList (b :: bytesFrom source (i + 1)) =
      (b == '/' && (bytesFrom source (i + 1)).head?.any (· == '>')) := startsWith_pair _ _ _ _
  rw [bareEndAt, hb, Outcome.andThen_ok, hbytes, passesAt_eq]
  simp only [endsBareValue, List.head?_cons, hclose]
  cases isSpace b || b == '>' <;> cases b == '/' <;> rfl

lemma bracesAt_eq (hi : i < byteSize source - 1) :
    bracesAt source i = some (.ok (startsWith ['}', '}'] (bytesFrom source i))) := by
  have hmore : i + 1 < byteSize source := by omega
  obtain ⟨b, hb, hbytes⟩ := exists_byteAt (Nat.lt_of_succ_lt hmore)
  obtain ⟨c, hc, hnext⟩ := exists_byteAt hmore
  rw [bracesAt, hb, Outcome.andThen_ok, hbytes, startsWith_pair, testAt, hc, hnext]
  cases b == '}' <;> rfl

/-- What a text starts with, by its first two characters. -/
lemma lead_cons (b : Char) (s : Text) :
    Lead.of (b :: s) =
      if b = '<' then
        if startsWith "<!--".toList (b :: s) then .comment
        else if s.head?.any (· == '!') then .declaration
        else if s.head?.any (· == '/') then .closing
        else if s.head?.any Char.isAlpha then .opening
        else .text
      else if b = '{' ∧ s.head?.any (· == '{') then .interpolation
      else .text := by
  have hbang : startsWith "<!".toList (b :: s) = (b == '<' && s.head?.any (· == '!')) :=
    startsWith_pair _ _ _ _
  have hslash : startsWith "</".toList (b :: s) = (b == '<' && s.head?.any (· == '/')) :=
    startsWith_pair _ _ _ _
  have hbracket : startsWith "<".toList (b :: s) = (b == '<') := startsWith_single _ _ _
  rw [Lead.of, hbang, hslash, hbracket, startsWith_pair]
  by_cases hb : b = '<'
  · subst hb
    simp
  · have hcomment : startsWith "<!--".toList (b :: s) = false := by
      simp [startsWith, strip?, Ne.symm hb]
    rw [hcomment]
    simp [hb]

lemma markupAt_eq (hi : i < byteSize source) :
    markupAt source i = some (.ok (startsMarkup (bytesFrom source i))) := by
  obtain ⟨b, hb, hbytes⟩ := exists_byteAt hi
  rw [markupAt, hb, Outcome.andThen_ok, hbytes, startsMarkup, lead_cons, passesAt_eq, passesAt_eq]
  by_cases hbracket : b = '<'
  · rw [if_pos hbracket, if_pos hbracket, hbracket]
    cases bytesFrom source (i + 1) with
    | nil => rfl
    | cons c v =>
        simp only [List.head?_cons, Option.any_some]
        by_cases hbang : c = '!'
        · -- a comment starts as a declaration does
          subst hbang
          cases startsWith "<!--".toList ('<' :: '!' :: v) <;> rfl
        · have hcomment : startsWith "<!--".toList ('<' :: c :: v) = false := by
            simp [startsWith, strip?, Ne.symm hbang]
          rw [hcomment]
          by_cases hslash : c = '/'
          · subst hslash
            rfl
          · by_cases hletter : c.isAlpha = true <;> simp [hbang, hslash, hletter]
  · by_cases hbrace : b = '{'
    · cases (bytesFrom source (i + 1)).head?.any (· == '{') <;> simp [hbrace]
    · simp [hbracket, hbrace]

end Bytes

/-! ### Places -/

/-- The byte position `i` of a template that starts at `base` is the place of the cursor `c`. -/
def At (source : Text) (base i : Nat) (c : Cursor) : Prop :=
  ∃ front, source = front ++ c.rest ∧ byteSize front = i ∧ c.offset = base + i

section Places

variable {source : Text} {base i j : Nat} {c d : Cursor} {s t : Text} {x : Char}

lemma at_start (source : Text) (base : Nat) : At source base 0 ⟨base, source⟩ :=
  ⟨[], rfl, rfl, rfl⟩

lemma At.offset_eq (h : At source base i c) : c.offset = base + i := by
  obtain ⟨front, -, -, hoffset⟩ := h
  exact hoffset

lemma At.bytesFrom_eq (h : At source base i c) : bytesFrom source i = octets c.rest := by
  obtain ⟨front, hsource, rfl, -⟩ := h
  rw [bytesFrom, hsource, octets_append, ← length_octets, List.drop_left]

lemma At.add_byteSize (h : At source base i c) : i + byteSize c.rest = byteSize source := by
  obtain ⟨front, hsource, rfl, -⟩ := h
  rw [hsource, byteSize_append]

lemma At.le (h : At source base i c) : i ≤ byteSize source := by
  have := h.add_byteSize
  omega

lemma At.lt_iff (h : At source base i c) : i < byteSize source ↔ c.rest ≠ [] := by
  rw [← h.add_byteSize]
  constructor
  · intro hlt hnil
    rw [hnil, byteSize_nil] at hlt
    omega
  · intro hne
    have := byteSize_pos hne
    omega

lemma At.reads (h : At source base i c) (hr : c.Reads t d) : At source base (i + byteSize t) d := by
  obtain ⟨front, hsource, rfl, hoffset⟩ := h
  refine ⟨front ++ t, by rw [hsource, hr.rest_eq, List.append_assoc], byteSize_append _ _, ?_⟩
  rw [hr.offset_eq, hoffset, Nat.add_assoc]

lemma At.eq_add_of_reads (h : At source base i c) (hd : At source base j d) (hr : c.Reads t d) :
    j = i + byteSize t := by
  have hoffset := hr.offset_eq
  rw [h.offset_eq, hd.offset_eq] at hoffset
  omega

/-- Between two places a text may be cut. -/
lemma At.cut (h : At source base i c) (hd : At source base j d) (hr : c.Reads t d) :
    cut source i j = some (.ok t) := by
  have hj := h.eq_add_of_reads hd hr
  obtain ⟨front, hsource, rfl, -⟩ := h
  have hparts : source = front ++ t ++ d.rest := by
    rw [hsource, hr.rest_eq, List.append_assoc]
  have hfits := Span.fits_iff_exists.2 ⟨front, t, d.rest, hparts, rfl⟩
  rw [Bytewise.cut, hj,
    if_pos ⟨hfits.start_le_stop, hfits.start_boundary, hfits.stop_boundary⟩, hparts, slice_append]

lemma At.at_end (h : At source base i c) :
    At source base (byteSize source) (c.advance c.rest.length) := by
  have hend := h.reads (c.reads_advance c.rest.length)
  rwa [List.take_length, h.add_byteSize] at hend

/-- The rest of a template may be cut off at any place. -/
lemma At.cut_rest (h : At source base i c) :
    Bytewise.cut source i (byteSize source) = some (.ok c.rest) := by
  have hread := c.reads_advance c.rest.length
  rw [List.take_length] at hread
  exact h.cut h.at_end hread

lemma At.skipWhile {p : Char → Bool} (hp : Coarse p) (h : At source base i c) :
    ∃ j, skipWhile source p i = some (.ok j) ∧ At source base j (c.skipWhile p) := by
  refine ⟨_, skipWhile_eq source p i, ?_⟩
  rw [h.bytesFrom_eq, length_takeWhile_octets hp]
  exact h.reads (c.reads_skipWhile p)

lemma At.seek {test : Nat → Outcome Bool} {p : Text → Bool} (hp : Sharp p)
    (htest : ∀ j < byteSize source, test j = some (.ok (p (bytesFrom source j))))
    (h : At source base i c) :
    ∃ j, seek (byteSize source) test i = some (.ok j) ∧ At source base j (c.skipUntil p) := by
  refine ⟨_, seek_eq (Nat.le_refl _) htest (fun j hle hlt => by omega) i, ?_⟩
  rw [h.bytesFrom_eq, length_takeUntil_octets hp]
  exact h.reads (c.reads_skipUntil p)

/-- The first byte is the first character or, like that one, no character of one byte. -/
lemma At.cons (h : At source base i c) (hc : c.rest = x :: s) :
    ∃ y v, bytesFrom source i = y :: v ∧
      (x.utf8Size = 1 ∧ y = x ∨ x.utf8Size ≠ 1 ∧ y.utf8Size ≠ 1) := by
  rw [h.bytesFrom_eq, hc]
  by_cases hx : x.utf8Size = 1
  · exact ⟨x, octets s, octets_cons_of_single hx s, .inl ⟨hx, rfl⟩⟩
  · obtain ⟨y, w, hw, hy, -⟩ := octets_cons_of_longer hx s
    exact ⟨y, w ++ octets s, hw, .inr ⟨hx, hy⟩⟩

lemma At.byteAt_of_single (h : At source base i c) (hx : x.utf8Size = 1) (hc : c.rest = x :: s) :
    byteAt source i = some (.ok x) := by
  refine byteAt_of_cons (v := octets s) ?_
  rw [h.bytesFrom_eq, hc, octets_cons_of_single hx]

lemma At.head?_eq_none (h : At source base i c) (hc : c.rest = []) :
    (bytesFrom source i).head? = none := by
  rw [h.bytesFrom_eq, hc]
  rfl

lemma At.head?_eq_some_iff (h : At source base i c) (hx : x.utf8Size = 1) :
    (bytesFrom source i).head? = some x ↔ c.rest.head? = some x := by
  cases hc : c.rest with
  | nil => simp [h.head?_eq_none hc]
  | cons y s =>
      obtain ⟨z, v, hv, ⟨-, rfl⟩ | ⟨hy, hz⟩⟩ := h.cons hc
      · simp [hv]
      · simp [hv, ne_of_utf8Size hy hx, ne_of_utf8Size hz hx]

lemma At.advance (h : At source base i c) (hw : isSingle t = true) (hc : c.rest = t ++ s) :
    At source base (i + t.length) (c.advance t.length) := by
  have hsize : byteSize t = t.length := by
    clear hc
    induction t with
    | nil => rfl
    | cons x t ih =>
        obtain ⟨hx, ht⟩ := isSingle_cons.1 hw
        have := ih ht
        simp only [byteSize_cons, List.length_cons]
        omega
  have hr := c.reads_advance t.length
  rw [hc, List.take_left] at hr
  rw [← hsize] at hr ⊢
  exact h.reads hr

lemma At.of_skip? (h : At source base i c) (hx : x.utf8Size = 1) (hd : c.skip? [x] = some d) :
    passesAt source (· == x) i = some (.ok true) ∧ At source base (i + 1) d := by
  have hhead : c.rest.head? = some x := by rw [Cursor.rest_of_skip? hd]; rfl
  have hnext := h.reads (Cursor.reads_of_skip? hd)
  rw [byteSize_cons, byteSize_nil, hx] at hnext
  refine ⟨?_, hnext⟩
  rw [passesAt_eq, (h.head?_eq_some_iff hx).2 hhead]
  simp

lemma At.of_skip?_eq_none (h : At source base i c) (hx : x.utf8Size = 1)
    (hc : c.skip? [x] = none) : passesAt source (· == x) i = some (.ok false) := by
  have hhead : (bytesFrom source i).head? ≠ some x := by
    intro hhead
    obtain ⟨s, hs⟩ := List.head?_eq_some_iff.1 ((h.head?_eq_some_iff hx).1 hhead)
    simp [Cursor.skip?, hs, strip?] at hc
  rw [passesAt_eq]
  cases hb : (bytesFrom source i).head? with
  | none => rfl
  | some b =>
      have hne : b ≠ x := by
        rintro rfl
        exact hhead hb
      simp [hne]

lemma At.skipOptional (h : At source base i c) (hx : x.utf8Size = 1) :
    ∃ j, skipOptional source x i = some (.ok j) ∧ At source base j (c.skipOptional [x]) := by
  rw [Bytewise.skipOptional, Cursor.skipOptional]
  cases hc : c.skip? [x] with
  | none => exact ⟨i, by rw [h.of_skip?_eq_none hx hc]; rfl, h⟩
  | some d =>
      obtain ⟨hpresent, hd⟩ := h.of_skip? hx hc
      exact ⟨i + 1, by rw [hpresent]; rfl, hd⟩

end Places

/-! ### Tests -/

lemma isSpace_of_longer {c : Char} (hc : c.utf8Size ≠ 1) : isSpace c = false := by
  have hne (d : Char) (hd : d.utf8Size = 1) := beq_of_utf8Size hc hd
  simp only [isSpace, hne ' ' rfl, hne '\t' rfl, hne '\n' rfl, hne '\x0c' rfl, hne '\r' rfl,
    Bool.or_false]

lemma isTagChar_of_longer {c : Char} (hc : c.utf8Size ≠ 1) : isTagChar c = false := by
  have hne (d : Char) (hd : d.utf8Size = 1) := beq_of_utf8Size hc hd
  have hword : c.isAlphanum = false := Bool.eq_false_iff.2 fun h => hc (utf8Size_of_isAlphanum h)
  simp only [isTagChar, hword, hne '_' rfl, hne '-' rfl, hne '.' rfl, hne ':' rfl, Bool.or_false]

lemma isAttrNameChar_of_longer {c : Char} (hc : c.utf8Size ≠ 1) : isAttrNameChar c = true := by
  have hne (d : Char) (hd : d.utf8Size = 1) := beq_of_utf8Size hc hd
  simp only [isAttrNameChar, isSpace_of_longer hc, hne '=' rfl, hne '>' rfl, hne '/' rfl,
    hne '"' rfl, hne '\'' rfl, Bool.or_false, Bool.not_false]

lemma coarse_isSpace : Coarse isSpace := coarse_of_longer fun _ hc => isSpace_of_longer hc

lemma coarse_isTagChar : Coarse isTagChar := coarse_of_longer fun _ hc => isTagChar_of_longer hc

lemma coarse_isAttrNameChar : Coarse isAttrNameChar :=
  coarse_of_longer fun _ hc => isAttrNameChar_of_longer hc

lemma coarse_ne {x : Char} (hx : x.utf8Size = 1) : Coarse (· != x) :=
  coarse_of_longer fun _ hc => bne_iff_ne.2 (ne_of_utf8Size hc hx)

lemma startsWith_of_longer {c x : Char} (hc : c.utf8Size ≠ 1) (hx : x.utf8Size = 1) (w s : Text) :
    startsWith (x :: w) (c :: s) = false := by
  simp [startsWith, strip?, (ne_of_utf8Size hc hx).symm]

/-- A test of suffixes is sharp if it can be made on the bytes behind a character of one byte. -/
lemma sharp_of_single {p : Text → Bool}
    (hlonger : ∀ (c : Char) (s : Text), c.utf8Size ≠ 1 → p (c :: s) = false)
    (hsingle : ∀ (c : Char) (s : Text), c.utf8Size = 1 → p (c :: octets s) = p (c :: s)) :
    Sharp p := by
  refine ⟨hlonger, fun s => ?_⟩
  cases s with
  | nil => rfl
  | cons c s =>
      by_cases hc : c.utf8Size = 1
      · rw [octets_cons_of_single hc, hsingle c s hc]
      · obtain ⟨d, w, hw, hd, -⟩ := octets_cons_of_longer hc s
        rw [hw, hlonger d _ hd, hlonger c s hc]

lemma sharp_endsBareValue : Sharp endsBareValue := by
  refine sharp_of_single (fun c s hc => ?_) fun c s hc => ?_
  · have hend : (c == '>') = false := beq_of_utf8Size hc rfl
    have hclose : startsWith "/>".toList (c :: s) = false := startsWith_of_longer hc rfl _ s
    simp only [endsBareValue, List.head?_cons, isSpace_of_longer hc, hend, hclose, Bool.or_false]
  · have hclose := startsWith_octets (w := "/>".toList) rfl (c :: s)
    rw [octets_cons_of_single hc] at hclose
    simp only [endsBareValue, List.head?_cons, hclose]

/-- A letter comes first if and only if it is the first byte. -/
lemma any_head?_octets (s : Text) :
    (octets s).head?.any Char.isAlpha = s.head?.any Char.isAlpha := by
  have hletter {c : Char} (hc : c.utf8Size ≠ 1) : c.isAlpha = false :=
    Bool.eq_false_iff.2 fun h => hc (utf8Size_of_isAlphanum (by simp [Char.isAlphanum, h]))
  cases s with
  | nil => rfl
  | cons c s =>
      by_cases hc : c.utf8Size = 1
      · rw [octets_cons_of_single hc]
        rfl
      · obtain ⟨d, w, hw, hd, -⟩ := octets_cons_of_longer hc s
        simp [hw, hletter hc, hletter hd]

/-- What comes next in a template is decided by its bytes. -/
lemma lead_octets (s : Text) : Lead.of (octets s) = Lead.of s := by
  have hopening : (startsWith "<".toList s && ((octets s).drop 1).head?.any Char.isAlpha) =
      (startsWith "<".toList s && (s.drop 1).head?.any Char.isAlpha) := by
    by_cases hbracket : startsWith "<".toList s = true
    · obtain ⟨t, rfl⟩ := startsWith_iff.1 hbracket
      have ht : octets ("<".toList ++ t) = '<' :: octets t := octets_cons_of_single rfl t
      rw [ht, hbracket, Bool.true_and, Bool.true_and]
      exact any_head?_octets t
    · rw [Bool.not_eq_true] at hbracket
      rw [hbracket, Bool.false_and, Bool.false_and]
  rw [Lead.of, Lead.of, startsWith_octets (w := "<!--".toList) rfl,
    startsWith_octets (w := "<!".toList) rfl,
    startsWith_octets (w := "</".toList) rfl,
    startsWith_octets (w := "<".toList) rfl,
    startsWith_octets (w := ['{', '{']) rfl, hopening]

lemma sharp_startsMarkup : Sharp startsMarkup := by
  refine ⟨fun c s hc => ?_, fun s => by rw [startsMarkup, startsMarkup, lead_octets]⟩
  have hbracket (w : Text) : startsWith ('<' :: w) (c :: s) = false :=
    startsWith_of_longer hc rfl w s
  have hbrace : startsWith ['{', '{'] (c :: s) = false := startsWith_of_longer hc rfl _ s
  simp [startsMarkup, Lead.of, hbracket, hbrace]

end ClassFold.Bytewise
