import Mathlib.Data.List.TakeWhile
import ClassFold.Proofs.Text.Reading
import ClassFold.Proofs.Text.Words
import ClassFold.Quote
import ClassFold.Template.Token

/-!
Attributes as they are written.

* `Attr.Written`: an attribute is its name, and behind it, if it has a value, an equals sign between
  white space and the value, bare or between quotation marks that do not occur in it.
* `Laid c as d`: the attributes `as` stand between the cursors `c` and `d`, in this order and
  without overlaps, each one as written and with its own place as its span.
* `laid_of_readTagTail`, `laid_of_nextToken`, `laid_of_scan`: the readers of tags, tokens and whole
  templates lay out their attributes like this, whatever the template looks like.
-/

namespace ClassFold

open Text

/-! ### The form of an attribute -/

/-- How a value stands behind the equals sign of its attribute. -/
inductive WrittenValue : (written value : Text) → Prop where
  | quoted (q : Quote) (v : Text) (hv : q.mark ∉ v) : WrittenValue (q.wrap v) v
  | bare (v : Text) (hq : ∀ q : Quote, v.head? ≠ some q.mark)
      (hv : ∀ c ∈ v, isSpace c = false ∧ c ≠ '>') : WrittenValue v v

/-- What stands behind the name of an attribute with the given value. -/
inductive WrittenTail : Text → Option Text → Prop where
  | none : WrittenTail [] none
  | some {gap gap' w v : Text} (hgap : ∀ c ∈ gap, isSpace c = true)
      (hgap' : ∀ c ∈ gap', isSpace c = true) (hw : WrittenValue w v) :
      WrittenTail (gap ++ '=' :: gap' ++ w) (some v)

/-- An attribute is written as a name and what belongs to its value; the name as written decides
its kind and its name proper. -/
def Attr.Written (a : Attr) : Prop :=
  ∃ name tail, a.raw = name ++ tail ∧ name ≠ [] ∧ (∀ c ∈ name, isAttrNameChar c = true) ∧
    (a.kind, a.name) = kindAndName name ∧ WrittenTail tail a.value

lemma Attr.Written.raw_ne_nil {a : Attr} (h : a.Written) : a.raw ≠ [] := by
  obtain ⟨name, tail, hraw, hne, -⟩ := h
  rw [hraw]
  exact List.append_ne_nil_of_left_ne_nil hne tail

/-! ### Attributes between two cursors -/

/-- Attributes stand between two cursors, one after the other. -/
inductive Laid : Cursor → List Attr → Cursor → Prop where
  | nil {c d : Cursor} (h : c.Reaches d) : Laid c [] d
  | cons {c x y d : Cursor} {a : Attr} {as : List Attr} (hx : c.Reaches x)
      (ha : x.Reads a.raw y) (hs : a.span = ⟨x.offset, y.offset⟩) (hw : a.Written)
      (h : Laid y as d) : Laid c (a :: as) d

namespace Laid

variable {c d e : Cursor} {as bs : List Attr}

lemma reaches (h : Laid c as d) : c.Reaches d := by
  induction h with
  | nil h => exact h
  | cons hx ha hs hw h ih => exact hx.trans (ha.reaches.trans ih)

lemma of_reaches (h : c.Reaches d) (h' : Laid d as e) : Laid c as e := by
  cases h' with
  | nil hd => exact .nil (h.trans hd)
  | cons hx ha hs hw h' => exact .cons (h.trans hx) ha hs hw h'

lemma append (h : Laid c as d) (h' : Laid d bs e) : Laid c (as ++ bs) e := by
  induction h with
  | nil h => exact of_reaches h h'
  | cons hx ha hs hw h ih => exact .cons hx ha hs hw (ih h')

lemma written (h : Laid c as d) : ∀ a ∈ as, a.Written := by
  induction h with
  | nil h => simp
  | cons hx ha hs hw h ih =>
      intro b hb
      rcases List.mem_cons.1 hb with rfl | hb
      · exact hw
      · exact ih b hb

/-- No attribute starts before the first cursor, and each one takes some room. -/
lemma start_bounds (h : Laid c as d) :
    ∀ a ∈ as, c.offset ≤ a.span.start ∧ a.span.start < a.span.stop := by
  induction h with
  | nil h => simp
  | @cons c x y d a as hx ha hs hw h ih =>
      have hxy : x.offset < y.offset := by
        have := byteSize_pos hw.raw_ne_nil
        rw [ha.offset_eq]
        omega
      have hcx := hx.offset_le
      intro b hb
      rcases List.mem_cons.1 hb with rfl | hb
      · rw [hs]
        exact ⟨hcx, hxy⟩
      · obtain ⟨h1, h2⟩ := ih b hb
        exact ⟨by omega, h2⟩

lemma stop_le (h : Laid c as d) : ∀ a ∈ as, a.span.stop ≤ d.offset := by
  induction h with
  | nil h => simp
  | cons hx ha hs hw h ih =>
      intro b hb
      rcases List.mem_cons.1 hb with rfl | hb
      · rw [hs]
        exact h.reaches.offset_le
      · exact ih b hb

/-- Attributes end before the next ones start. -/
lemma pairwise (h : Laid c as d) : as.Pairwise fun a b => a.span.stop ≤ b.span.start := by
  induction h with
  | nil h => exact List.Pairwise.nil
  | cons hx ha hs hw h ih =>
      refine List.Pairwise.cons (fun b hb => ?_) ih
      rw [hs]
      exact (h.start_bounds b hb).1

/-- Each attribute between two cursors is a part of the text behind the first one, and its span is
the place of that part. -/
lemma exists_parts (h : Laid c as d) :
    ∀ a ∈ as, ∃ front back, c.rest = front ++ a.raw ++ back ∧
      a.span = ⟨c.offset + byteSize front, c.offset + byteSize front + byteSize a.raw⟩ := by
  induction h with
  | nil h => simp
  | @cons c x y d a as hx ha hs hw h ih =>
      obtain ⟨gap, hgap⟩ := hx
      intro b hb
      rcases List.mem_cons.1 hb with rfl | hb
      · refine ⟨gap, y.rest, by rw [hgap.rest_eq, ha.rest_eq, List.append_assoc], ?_⟩
        rw [hs, ha.offset_eq, hgap.offset_eq]
      · -- what stands in front of a later attribute starts with the gap and the first attribute
        obtain ⟨front, back, hrest, hspan⟩ := ih b hb
        have hsize : c.offset + byteSize (gap ++ (a.raw ++ front)) = y.offset + byteSize front := by
          rw [ha.offset_eq, hgap.offset_eq, byteSize_append, byteSize_append]
          omega
        refine ⟨gap ++ (a.raw ++ front), back, ?_, by rw [hspan, hsize]⟩
        rw [hgap.rest_eq, ha.rest_eq, hrest]
        simp

/-- Attributes between two cursors inside a text stand in that text where their spans say. -/
lemma exists_parts_of_inside {source : Text} (h : Laid c as d) (hc : c.Inside source) :
    ∀ a ∈ as, ∃ front back, source = front ++ a.raw ++ back ∧
      a.span = ⟨byteSize front, byteSize front + byteSize a.raw⟩ := by
  intro a ha
  obtain ⟨front, back, hrest, hspan⟩ := h.exists_parts a ha
  obtain ⟨before, behind, hsource, hbefore⟩ := hc
  refine ⟨before ++ front, back ++ behind, by rw [hsource, hrest]; simp, ?_⟩
  rw [hspan, byteSize_append, hbefore]

/-- Attributes between two cursors inside a text have spans that fit it. -/
lemma fits {source : Text} (h : Laid c as d) (hc : c.Inside source) :
    ∀ a ∈ as, a.span.Fits source := by
  intro a ha
  obtain ⟨front, back, hsource, hspan⟩ := h.exists_parts_of_inside hc a ha
  exact Span.fits_iff_exists.2 ⟨front, a.raw, back, hsource, hspan⟩

end Laid

/-! ### Reading one attribute -/

/-- A quotation mark that starts a value, as a character. -/
lemma exists_quote_of_mark {m : Char} (h : (m == '"' || m == '\'') = true) :
    ∃ q : Quote, q.mark = m := by
  simp only [Bool.or_eq_true, beq_iff_eq] at h
  rcases h with rfl | rfl
  · exact ⟨.double, rfl⟩
  · exact ⟨.single, rfl⟩

lemma isMark_of_quote (q : Quote) : (q.mark == '"' || q.mark == '\'') = true := by
  cases q <;> rfl

/-- A character in a bare value neither is white space nor ends the tag. -/
lemma bare_of_mem_takeUntil {s : Text} {c : Char} (h : c ∈ takeUntil endsBareValue s) :
    isSpace c = false ∧ c ≠ '>' := by
  obtain ⟨t, ht⟩ := exists_of_mem_takeUntil h
  simp only [endsBareValue, List.head?_cons, Bool.or_eq_false_iff, beq_eq_false_iff_ne] at ht
  exact ht.1

lemma writtenValue_of_readValue {c d : Cursor} {v : Text} (h : readValue c = .ok (v, d)) :
    ∃ w, c.Reads w d ∧ WrittenValue w v := by
  rw [readValue] at h
  split at h
  · rename_i hc
    obtain ⟨rfl, rfl⟩ := Prod.mk.inj (Except.ok.inj h)
    exact ⟨[], Cursor.Reads.refl c, .bare [] (by simp) (by simp)⟩
  · rename_i m hm
    obtain ⟨s, hs⟩ : ∃ s, c.rest = m :: s := List.head?_eq_some_iff.1 hm
    split at h
    · rename_i hq
      obtain ⟨q, rfl⟩ := exists_quote_of_mark hq
      split at h
      · simp at h
      · rename_i value stop hcut
        obtain ⟨rfl, rfl⟩ := Prod.mk.inj (Except.ok.inj h)
        have hfree : q.mark ∉ value := by
          obtain ⟨⟨a, b⟩, hab, he⟩ := Option.map_eq_some_iff.1 hcut
          obtain ⟨rfl, -⟩ := Prod.mk.inj he
          exact notMem_of_cut? hab
        have hone : c.rest.take 1 = [q.mark] := by simp [hs]
        refine ⟨q.wrap value, ?_, .quoted q value hfree⟩
        have hread := (c.reads_advance 1).trans (Cursor.reads_of_cut? hcut)
        rw [hone] at hread
        exact hread
    · rename_i hq
      obtain ⟨rfl, rfl⟩ := Prod.mk.inj (Except.ok.inj h)
      refine ⟨_, c.reads_skipUntil endsBareValue, .bare _ (fun q hv => hq ?_) ?_⟩
      · -- a value that starts with a mark would start the text behind the cursor with it
        have hmq : m = q.mark := by
          rw [hs, takeUntil] at hv
          split at hv
          · simp at hv
          · simpa using hv
        rw [hmq]
        exact isMark_of_quote q
      · intro a ha
        exact bare_of_mem_takeUntil ha

lemma forall_mem_takeWhile (p : Char → Bool) (s : Text) : ∀ c ∈ s.takeWhile p, p c = true :=
  fun _ hc => List.mem_takeWhile_imp hc

lemma written_ofWritten {c d : Cursor} {name tail : Text} {value : Option Text}
    (hr : c.Reads (name ++ tail) d) (hne : name ≠ []) (hn : ∀ x ∈ name, isAttrNameChar x = true)
    (ht : WrittenTail tail value) :
    c.Reads (Attr.ofWritten c d name value).raw d ∧ (Attr.ofWritten c d name value).Written := by
  have hraw : (Attr.ofWritten c d name value).raw = name ++ tail := hr.takeBytes_eq
  exact ⟨by rw [hraw]; exact hr, name, tail, hraw, hne, hn, rfl, ht⟩

/-- Reading an attribute moves over the attribute as written. -/
lemma reads_of_readAttr {c d : Cursor} {a : Attr} (h : readAttr c = .ok (some (a, d))) :
    c.Reads a.raw d ∧ a.Written ∧ a.span = ⟨c.offset, d.offset⟩ := by
  rw [readAttr] at h
  simp only at h
  split at h
  · simp at h
  · rename_i hname
    have hne : c.rest.takeWhile isAttrNameChar ≠ [] := by simpa using hname
    have hchars := forall_mem_takeWhile isAttrNameChar c.rest
    have hnamed := c.reads_skipWhile isAttrNameChar
    split at h
    · obtain ⟨rfl, rfl⟩ := Prod.mk.inj (Option.some.inj (Except.ok.inj h))
      rw [← List.append_nil (c.rest.takeWhile isAttrNameChar)] at hnamed
      obtain ⟨h1, h2⟩ := written_ofWritten hnamed hne hchars .none
      exact ⟨h1, h2, rfl⟩
    · rename_i equals heq
      split at h
      · simp at h
      · rename_i value stop hvalue
        obtain ⟨rfl, rfl⟩ := Prod.mk.inj (Option.some.inj (Except.ok.inj h))
        obtain ⟨w, hw, hform⟩ := writtenValue_of_readValue hvalue
        -- the name, white space, the equals sign, white space and the value, one after the other
        have hall := hnamed.trans (((Cursor.reads_skipWhile isSpace _).trans
          (Cursor.reads_of_skip? heq)).trans ((equals.reads_skipWhile isSpace).trans hw))
        have htail := WrittenTail.some
          (forall_mem_takeWhile isSpace (c.skipWhile isAttrNameChar).rest)
          (forall_mem_takeWhile isSpace equals.rest) hform
        obtain ⟨h1, h2⟩ := written_ofWritten (by simpa using hall) hne hchars
          (by simpa using htail)
        exact ⟨h1, h2, rfl⟩

/-! ### Reading tags, tokens and templates -/

/-- The attributes of a tag stand one after the other between its name and its end. -/
lemma laid_of_readTagTail {c d : Cursor} {t : TagTail} (h : readTagTail c = .ok (t, d)) :
    Laid c t.attrs d := by
  fun_induction readTagTail c generalizing t d with
  | case1 c hc =>
      obtain ⟨rfl, rfl⟩ := Prod.mk.inj (Except.ok.inj h)
      exact .nil (Cursor.Reaches.refl c)
  | case2 c s hc =>
      obtain ⟨rfl, rfl⟩ := Prod.mk.inj (Except.ok.inj h)
      exact .nil ((c.reaches_advance 1).trans
        ((Cursor.reaches_skipWhile isSpace _).trans (Cursor.reaches_skipOptional ['>'] _)))
  | case3 c s hc hf =>
      obtain ⟨rfl, rfl⟩ := Prod.mk.inj (Except.ok.inj h)
      exact .nil (c.reaches_advance 1)
  | case4 => simp at h
  | case5 c first s hc hf hg ha ih => exact .of_reaches (c.reaches_advance 1) (ih h)
  | case6 => simp at h
  | case7 c first s hc hf hg a d' ha tail stop ht ih =>
      obtain ⟨rfl, rfl⟩ := Prod.mk.inj (Except.ok.inj h)
      obtain ⟨hr, hw, hs⟩ := reads_of_readAttr ha
      exact .cons (Cursor.Reaches.refl c) hr hs hw (ih ht)

/-- The word by which a token is announced. -/
def Lead.word : Lead → Text
  | comment => "<!--".toList
  | declaration => "<!".toList
  | closing => "</".toList
  | opening => "<".toList
  | interpolation => ['{', '{']
  | text => []

/-- A text starts with the word of what it starts with. -/
lemma Lead.word_prefix (s : Text) : (Lead.of s).word <+: s := by
  rw [Lead.of]
  split_ifs with hcomment hdeclaration hclosing hopening hinterpolation
  · exact startsWith_iff.1 hcomment
  · exact startsWith_iff.1 hdeclaration
  · exact startsWith_iff.1 hclosing
  · exact startsWith_iff.1 (Bool.and_eq_true_iff.1 hopening).1
  · exact startsWith_iff.1 hinterpolation
  · exact List.nil_prefix

lemma Lead.exists_of_eq {s : Text} {l : Lead} (h : Lead.of s = l) : ∃ t, s = l.word ++ t := by
  obtain ⟨t, ht⟩ := Lead.word_prefix s
  exact ⟨t, by rw [← h, ht]⟩

/-- The attributes in a token, if it is an opening tag. -/
def Token.attrs? : Token → Option (List Attr)
  | .opening _ attrs _ _ => some attrs
  | _ => none

/-- All attributes in a list of tokens, in order. -/
def Token.attrsOf (ts : List Token) : List Attr := (ts.filterMap Token.attrs?).flatten

lemma Token.attrsOf_cons (t : Token) (ts : List Token) :
    attrsOf (t :: ts) = attrsOf [t] ++ attrsOf ts := by
  rw [attrsOf, attrsOf, attrsOf, ← List.flatten_append, ← List.filterMap_append,
    List.singleton_append]

lemma laid_of_readOpening {c d : Cursor} {t : Token} (h : readOpening c = .ok (t, d)) :
    Laid c (Token.attrsOf [t]) d := by
  rw [readOpening] at h
  split at h
  · simp at h
  · rename_i tail stop ht
    obtain ⟨rfl, rfl⟩ := Prod.mk.inj (Except.ok.inj h)
    have hlaid := laid_of_readTagTail ht
    have hname := (c.reaches_advance 1).trans (Cursor.reaches_skipWhile isTagChar _)
    simpa [Token.attrsOf, Token.attrs?] using Laid.of_reaches hname hlaid

lemma reaches_of_readComment {c d : Cursor} {t : Token} (h : readComment c = .ok (t, d)) :
    t.attrs? = none ∧ c.Reaches d := by
  rw [readComment] at h
  split at h
  · simp at h
  · rename_i content stop hcut
    obtain ⟨rfl, rfl⟩ := Prod.mk.inj (Except.ok.inj h)
    exact ⟨rfl, (c.reaches_advance 4).trans (Cursor.reads_of_cut? hcut).reaches⟩

lemma reaches_of_readInterpolation {c d : Cursor} {t : Token}
    (h : readInterpolation c = .ok (t, d)) : t.attrs? = none ∧ c.Reaches d := by
  rw [readInterpolation] at h
  simp only at h
  have hinside := c.reaches_advance 2
  split at h
  · rename_i expr stop hcut
    obtain ⟨rfl, rfl⟩ := Prod.mk.inj (Except.ok.inj h)
    exact ⟨rfl, hinside.trans (Cursor.reads_of_cut? hcut).reaches⟩
  · have hend := hinside.trans (Cursor.reaches_advance (c.advance 2).rest.length _)
    split at h
    · obtain ⟨rfl, rfl⟩ := Prod.mk.inj (Except.ok.inj h)
      exact ⟨rfl, hend⟩
    · split at h
      · obtain ⟨rfl, rfl⟩ := Prod.mk.inj (Except.ok.inj h)
        exact ⟨rfl, hend⟩
      · simp at h

lemma reaches_readClosing (c : Cursor) : c.Reaches (readClosing c).2 :=
  (c.reaches_advance 2).trans ((Cursor.reaches_skipWhile isTagChar _).trans
    ((Cursor.reaches_skipWhile isSpace _).trans (Cursor.reaches_skipOptional ['>'] _)))

/-- The attributes of a token stand one after the other between its two ends. -/
lemma laid_of_nextToken {c d : Cursor} {t : Token} (h : nextToken c = .ok (t, d)) :
    Laid c (Token.attrsOf [t]) d := by
  have hnone : t.attrs? = none → c.Reaches d → Laid c (Token.attrsOf [t]) d := by
    intro ht hr
    simpa [Token.attrsOf, ht] using Laid.nil hr
  rw [nextToken] at h
  split at h
  · obtain ⟨ht, hr⟩ := reaches_of_readComment h
    exact hnone ht hr
  · obtain ⟨rfl, rfl⟩ := Prod.mk.inj (Except.ok.inj h)
    exact hnone rfl ((Cursor.reaches_skipWhile _ c).trans (Cursor.reaches_advance 1 _))
  · obtain ⟨rfl, rfl⟩ := Prod.mk.inj (Except.ok.inj h)
    exact hnone rfl (reaches_readClosing c)
  · exact laid_of_readOpening h
  · obtain ⟨ht, hr⟩ := reaches_of_readInterpolation h
    exact hnone ht hr
  · obtain ⟨rfl, rfl⟩ := Prod.mk.inj (Except.ok.inj h)
    exact hnone rfl (c.reaches_skipUntil startsMarkup)

/-- **The layout of a template**: its attributes stand one after the other, token by token. -/
theorem laid_of_scan {c : Cursor} {ts : List Token} (h : scan c = .ok ts) :
    ∃ d, Laid c (Token.attrsOf ts) d := by
  fun_induction scan c generalizing ts with
  | case1 c hc =>
      obtain rfl := Except.ok.inj h
      exact ⟨c, .nil (Cursor.Reaches.refl c)⟩
  | case2 => simp at h
  | case3 => simp at h
  | case4 c hc t d ht ts' hts ih =>
      obtain rfl := Except.ok.inj h
      obtain ⟨e, he⟩ := ih hts
      rw [Token.attrsOf_cons]
      exact ⟨e, (laid_of_nextToken ht).append he⟩

end ClassFold
