import ClassFold.Proofs.Template.Agreement
import ClassFold.Proofs.Template.DocumentOrder
import ClassFold.Proofs.Template.Markup

/-!
Written markup is read back.

A tree in canonical form is written, read token by token, and put together again.  `Cursor.Scans`
says that certain tokens are read between two cursors; the tokens of a tree are read where the tree
is written, whatever comes behind it (`scans_print`), except that a text ends only where markup
starts or the template ends.  Reading the tokens of a tree adds its node to the innermost open
element (`Builder.foldl_step_tokensAt`).  Together this gives `readTemplate_printAll`.
-/

namespace ClassFold

open Text

/-! ### Tokens between two cursors -/

/-- The tokens `ts` are read between the cursors `c` and `d`. -/
def Cursor.Scans (c : Cursor) (ts : List Token) (d : Cursor) : Prop :=
  scan c = (scan d).map (ts ++ ·)

namespace Cursor

lemma Scans.refl (c : Cursor) : c.Scans [] c := by
  rw [Scans]
  cases scan c <;> rfl

lemma Scans.trans {c d e : Cursor} {ts us : List Token} (h : c.Scans ts d) (h' : d.Scans us e) :
    c.Scans (ts ++ us) e := by
  rw [Scans] at h h' ⊢
  rw [h, h']
  cases scan e with
  | error err => rfl
  | ok vs => simp [Except.map]

lemma scans_of_nextToken {c d : Cursor} {t : Token} (hc : c.rest ≠ [])
    (h : nextToken c = .ok (t, d)) : c.Scans [t] d := by
  rw [Scans, scan_eq, if_neg hc, h]
  cases hd : scan d <;> simp [Except.map, hd]

end Cursor

/-! ### What a text starts with -/

lemma lead_of_ne {c : Char} {s : Text} (hlt : c ≠ '<') (hbrace : c ≠ '{') :
    Lead.of (c :: s) = .text := by
  simp [Lead.of, startsWith, strip?, Ne.symm hlt, Ne.symm hbrace]

lemma lead_openTag {tag : Text} (htag : Markup.isTagName tag = true) (s : Text) :
    Lead.of ('<' :: (tag ++ s)) = .opening := by
  obtain ⟨hhead, -⟩ := Bool.and_eq_true_iff.1 htag
  cases tag with
  | nil => simp at hhead
  | cons c tag =>
      have hc : c.isAlpha = true := by simpa using hhead
      have hbang : '!' ≠ c := by rintro rfl; simp at hc
      have hslash : '/' ≠ c := by rintro rfl; simp at hc
      simp [Lead.of, startsWith, strip?, hc, hbang, hslash]

/-! ### Attributes -/

/-- A name without a value is read up to the next character that ends it. -/
lemma readAttr_name {name s : Text} (hne : name ≠ [])
    (hname : ∀ c ∈ name, isAttrNameChar c = true) (hs : ∀ c ∈ s.head?, isAttrNameChar c = false)
    (hequals : (s.dropWhile isSpace).head? ≠ some '=') (offset : Nat) :
    readAttr ⟨offset, name ++ s⟩ =
      .ok (some (AttrSource.attrAt offset ⟨name, none⟩, ⟨offset + byteSize name, s⟩)) := by
  have htake : (name ++ s).takeWhile isAttrNameChar = name := takeWhile_append_stop hname hs
  have hskip : Cursor.skipWhile isAttrNameChar ⟨offset, name ++ s⟩ =
      ⟨offset + byteSize name, s⟩ := Cursor.skipWhile_append hname hs
  have hnone : (Cursor.skipWhile isSpace ⟨offset + byteSize name, s⟩).skip? ['='] = none :=
    Cursor.skip?_eq_none hequals
  have hnot : name.isEmpty = false := by simpa using hne
  rw [readAttr]
  simp only [htake, hskip, hnone, hnot, Bool.false_eq_true, if_false]
  simp [Attr.ofWritten, AttrSource.attrAt, AttrSource.print]

/-- An attribute is read back where it is written. -/
lemma readAttr_print {a : AttrSource} (ha : a.isCanonical = true) {s : Text}
    (hs : ∀ c ∈ s.head?, isAttrNameChar c = false)
    (hequals : (s.dropWhile isSpace).head? ≠ some '=') (offset : Nat) :
    readAttr ⟨offset, a.print ++ s⟩ =
      .ok (some (a.attrAt offset, ⟨offset + byteSize a.print, s⟩)) := by
  obtain ⟨name, value⟩ := a
  obtain ⟨⟨hne, hname⟩, hvalue⟩ := AttrSource.isCanonical_iff.1 ha
  cases value with
  | none => simpa [AttrSource.print] using readAttr_name hne hname hs hequals offset
  | some v => exact readAttr_wrap hne hname (hvalue v rfl) s offset

/-- What ends an opening tag starts with one of two characters. -/
def EndsTag (s : Text) : Prop := s.head? = some '>' ∨ s.head? = some '/'

namespace AttrSource

/-- The first character behind an attribute does not belong to its name. -/
lemma head_printAll (as : List (Option AttrSource)) {s : Text} (hs : EndsTag s) :
    ∀ c ∈ (printAll as ++ s).head?, isAttrNameChar c = false := by
  cases as with
  | nil => rcases hs with hs | hs <;> simp [hs, isAttrNameChar]
  | cons a as => simp [isAttrNameChar, isSpace]

/-- Behind an attribute without a value comes no equals sign. -/
lemma head_dropWhile_printAll {as : List (Option AttrSource)} {s : Text}
    (has : Markup.areCanonicalAttrs as = true) (hs : EndsTag s) :
    ((printAll as ++ s).dropWhile isSpace).head? ≠ some '=' := by
  induction as with
  | nil =>
      cases s with
      | nil => rcases hs with hs | hs <;> simp at hs
      | cons c s =>
          have hc : c = '>' ∨ c = '/' := by simpa [EndsTag] using hs
          rcases hc with rfl | rfl <;> simp [isSpace]
  | cons a as ih =>
      have has' : Option.all isCanonical a = true ∧ Markup.areCanonicalAttrs as = true := by
        simpa using has
      have hspace : isSpace ' ' = true := rfl
      cases a with
      | none => simpa [hspace] using ih has'.2
      | some a =>
          obtain ⟨⟨hne, hname⟩, -⟩ := isCanonical_iff.1 (by simpa using has'.1)
          obtain ⟨⟨name⟩, value⟩ := a
          · exact absurd rfl hne
          · rename_i c name
            have hc := hname c (by simp)
            have hnot : isSpace c = false := by
              simp only [isAttrNameChar, Bool.not_eq_true', Bool.or_eq_false_iff] at hc
              exact hc.1.1.1.1.1
            simpa [hspace, print, hnot] using ne_equals_of_isAttrNameChar hc

end AttrSource

/-- A tag goes on behind an attribute of it. -/
lemma readTagTail_of_readAttr {c d : Cursor} {a : Attr} (h : readAttr c = .ok (some (a, d))) :
    readTagTail c =
      (readTagTail d).map fun r => (⟨a :: r.1.attrs, r.1.selfClosing⟩, r.2) := by
  have hname : c.rest.takeWhile isAttrNameChar ≠ [] := by
    intro hnil
    simp [readAttr, hnil] at h
  obtain ⟨offset, rest⟩ := c
  cases rest with
  | nil => simp at hname
  | cons first s =>
      have hfirst : isAttrNameChar first = true := by
        by_contra hnot
        simp [hnot] at hname
      have hslash : first ≠ '/' := by rintro rfl; exact absurd hfirst (by decide)
      have hend : first ≠ '>' := by rintro rfl; exact absurd hfirst (by decide)
      rw [readTagTail_eq, h]
      simp only [List.head?_cons, hslash, hend, if_false]
      cases readTagTail d <;> rfl

/-- The attributes of a tag are read back where they are written. -/
lemma readTagTail_printAll {as : List (Option AttrSource)}
    (has : Markup.areCanonicalAttrs as = true) {s : Text} (hs : EndsTag s) (offset : Nat) :
    readTagTail ⟨offset, AttrSource.printAll as ++ s⟩ =
      (readTagTail ⟨offset + byteSize (AttrSource.printAll as), s⟩).map fun r =>
        (⟨AttrSource.attrsAt offset as ++ r.1.attrs, r.1.selfClosing⟩, r.2) := by
  induction as generalizing offset with
  | nil =>
      simp only [AttrSource.printAll_nil, List.nil_append, byteSize_nil, Nat.add_zero,
        AttrSource.attrsAt]
      cases readTagTail ⟨offset, s⟩ <;> rfl
  | cons a as ih =>
      have has' : Option.all AttrSource.isCanonical a = true ∧
          Markup.areCanonicalAttrs as = true := by
        simpa using has
      -- the space in front belongs to no attribute
      have hspace (t : Text) : readTagTail ⟨offset, ' ' :: t⟩ = readTagTail ⟨offset + 1, t⟩ := by
        rw [readTagTail_eq]
        simp [readAttr, isAttrNameChar, isSpace, Cursor.advance]
      rw [AttrSource.printAll_cons, List.cons_append, hspace]
      cases a with
      | none =>
          rw [Option.elim_none, List.nil_append, ih has'.2]
          simp [AttrSource.attrsAt, Nat.add_assoc]
      | some a =>
          have hread := readAttr_print (by simpa using has'.1) (AttrSource.head_printAll as hs)
            (AttrSource.head_dropWhile_printAll has'.2 hs) (offset + 1)
          rw [Option.elim_some, List.append_assoc, readTagTail_of_readAttr hread, ih has'.2]
          simp only [byteSize_cons, byteSize_append, utf8Size_space, AttrSource.attrsAt,
            Nat.add_assoc]
          cases readTagTail _ <;> rfl

/-! ### Tokens -/

/-- An opening tag is read back where it is written. -/
lemma nextToken_openTag {tag : Text} {attrs : List (Option AttrSource)} {stop s : Text}
    {selfClosing : Bool} (htag : Markup.isTagName tag = true)
    (hattrs : Markup.areCanonicalAttrs attrs = true) (hstop : EndsTag (stop ++ s))
    (hread : ∀ offset, readTagTail ⟨offset, stop ++ s⟩ =
      .ok (⟨[], selfClosing⟩, ⟨offset + byteSize stop, s⟩)) (offset : Nat) :
    nextToken ⟨offset, Markup.openTag tag attrs stop ++ s⟩ =
      .ok (.opening tag (AttrSource.attrsAt (offset + byteSize ('<' :: tag)) attrs) selfClosing
          ⟨offset, offset + byteSize (Markup.openTag tag attrs stop)⟩,
        ⟨offset + byteSize (Markup.openTag tag attrs stop), s⟩) := by
  have hshape : Markup.openTag tag attrs stop ++ s =
      '<' :: (tag ++ (AttrSource.printAll attrs ++ (stop ++ s))) := by
    simp [Markup.openTag]
  have hchars : ∀ c ∈ tag, isTagChar c = true :=
    List.all_eq_true.1 (Bool.and_eq_true_iff.1 htag).2
  -- neither a space nor the end of a tag belongs to its name
  have hnext : ∀ c ∈ (AttrSource.printAll attrs ++ (stop ++ s)).head?, isTagChar c = false := by
    cases attrs with
    | nil => rcases hstop with h | h <;> simp [h, isTagChar]
    | cons a as => simp [isTagChar]
  have hname (t : Text) : Cursor.advance 1 ⟨offset, '<' :: t⟩ = ⟨offset + byteSize ['<'], t⟩ :=
    Cursor.advance_append (s := ['<']) 1 rfl
  rw [hshape, nextToken, lead_openTag htag]
  simp only [readOpening, hname, takeWhile_append_stop hchars hnext,
    Cursor.skipWhile_append hchars hnext, readTagTail_printAll hattrs hstop, hread, Except.map]
  simp [Markup.openTag, Nat.add_assoc]

/-- What ends a tag is read back. -/
lemma readTagTail_close (s : Text) (offset : Nat) :
    readTagTail ⟨offset, ['>'] ++ s⟩ = .ok (⟨[], false⟩, ⟨offset + byteSize ['>'], s⟩) := by
  rw [readTagTail_eq]
  simp [Cursor.advance]

lemma readTagTail_selfClose (s : Text) (offset : Nat) :
    readTagTail ⟨offset, "/>".toList ++ s⟩ =
      .ok (⟨[], true⟩, ⟨offset + byteSize "/>".toList, s⟩) := by
  rw [readTagTail_eq]
  simp [Cursor.advance, Cursor.skipWhile, Cursor.skipOptional, Cursor.skip?, strip?, isSpace,
    Nat.add_assoc]

/-- A closing tag is read back where it is written. -/
lemma nextToken_closeTag {tag : Text} (htag : Markup.isTagName tag = true) (s : Text)
    (offset : Nat) :
    nextToken ⟨offset, Markup.closeTag tag ++ s⟩ =
      .ok (.closing tag (offset + byteSize (Markup.closeTag tag)),
        ⟨offset + byteSize (Markup.closeTag tag), s⟩) := by
  have hshape : Markup.closeTag tag ++ s = "</".toList ++ (tag ++ (['>'] ++ s)) := by
    simp [Markup.closeTag]
  have hchars : ∀ c ∈ tag, isTagChar c = true :=
    List.all_eq_true.1 (Bool.and_eq_true_iff.1 htag).2
  have hnext : ∀ c ∈ (['>'] ++ s).head?, isTagChar c = false := by simp [isTagChar]
  have hspace : ∀ c ∈ (['>'] ++ s).head?, isSpace c = false := by simp [isSpace]
  have hlead : Lead.of ("</".toList ++ (tag ++ (['>'] ++ s))) = .closing := by
    simp [Lead.of, startsWith, strip?]
  rw [hshape, nextToken, hlead]
  simp only [readClosing, Cursor.advance_append (s := "</".toList) 2 rfl,
    takeWhile_append_stop hchars hnext, Cursor.skipWhile_append hchars hnext,
    Cursor.skipWhile_eq_self hspace, Cursor.skipOptional_append]
  simp [Markup.closeTag, Nat.add_assoc]

/-- A comment is read back where it is written. -/
lemma nextToken_comment {content : Text} (h : Free "-->".toList content) (s : Text)
    (offset : Nat) :
    nextToken ⟨offset, Markup.print (.comment content) ++ s⟩ =
      .ok (.comment content, ⟨offset + byteSize (Markup.print (.comment content)), s⟩) := by
  have hshape : Markup.print (.comment content) ++ s =
      "<!--".toList ++ (content ++ ("-->".toList ++ s)) := by
    simp [Markup.print]
  have hlead : Lead.of ("<!--".toList ++ (content ++ ("-->".toList ++ s))) = .comment := by
    simp [Lead.of, startsWith, strip?]
  rw [hshape, nextToken, hlead]
  simp only [readComment, Cursor.advance_append (s := "<!--".toList) 4 rfl,
    Cursor.cut?_append (cut?_commentEnd h s)]
  simp [Markup.print, Nat.add_assoc]

/-- An interpolation is read back where it is written. -/
lemma nextToken_interpolation {expr : Text} (htrim : trim expr = expr)
    (hfree : Free ['}', '}'] expr) (hlast : expr.getLast? ≠ some '}') (s : Text) (offset : Nat) :
    nextToken ⟨offset, Markup.print (.interpolation expr) ++ s⟩ =
      .ok (.interpolation expr, ⟨offset + byteSize (Markup.print (.interpolation expr)), s⟩) := by
  have hshape : Markup.print (.interpolation expr) ++ s =
      ['{', '{'] ++ (expr ++ (['}', '}'] ++ s)) := by
    simp [Markup.print]
  have hlead : Lead.of (['{', '{'] ++ (expr ++ (['}', '}'] ++ s))) = .interpolation := by
    simp [Lead.of, startsWith, strip?]
  -- only the first brace alone could end the expression
  have hcut := cut?_word hfree (fun k hpos hlt _ hsuf => by
    obtain rfl : k = 1 := by simp at hlt; omega
    obtain ⟨t, rfl⟩ := hsuf
    simp at hlast) s
  rw [hshape, nextToken, hlead]
  simp only [readInterpolation, Cursor.advance_append (s := ['{', '{']) 2 rfl,
    Cursor.cut?_append hcut, htrim]
  simp [Markup.print, Nat.add_assoc]

/-- A text ends where markup starts or the template ends. -/
lemma nextToken_text {content s : Text} (hblank : allBlank content = false)
    (hchars : ∀ c ∈ content, c ≠ '<' ∧ c ≠ '{') (hs : s = [] ∨ startsMarkup s = true)
    (offset : Nat) :
    nextToken ⟨offset, content ++ s⟩ =
      .ok (.text content, ⟨offset + byteSize content, s⟩) := by
  have hlead : ∀ a, a ≠ [] → a <:+ content → Lead.of (a ++ s) = .text := by
    intro a ha hsuf
    cases a with
    | nil => exact absurd rfl ha
    | cons c a =>
        obtain ⟨hlt, hbrace⟩ := hchars c (hsuf.subset (by simp))
        exact lead_of_ne hlt hbrace
  have hne : content ≠ [] := by
    rintro rfl
    simp [allBlank] at hblank
  have hmiss : ∀ a, a ≠ [] → a <:+ content → startsMarkup (a ++ s) = false := by
    intro a ha hsuf
    simp [startsMarkup, hlead a ha hsuf]
  rw [nextToken, hlead content hne List.suffix_rfl]
  simp only [takeUntil_append hmiss hs, Cursor.skipUntil_append hmiss hs, nodeText, hblank,
    Bool.false_eq_true, if_false]

/-! ### Trees as tokens -/

namespace Markup

/-- Behind a text comes markup or nothing. -/
def Ready (s : Text) : Prop := s = [] ∨ startsMarkup s = true

lemma ready_openTag {tag : Text} (htag : isTagName tag = true)
    (attrs : List (Option AttrSource)) (stop s : Text) : Ready (openTag tag attrs stop ++ s) := by
  refine .inr ?_
  rw [openTag, List.cons_append, List.append_assoc, startsMarkup, lead_openTag htag]
  rfl

lemma ready_closeTag (tag s : Text) : Ready (closeTag tag ++ s) := by
  refine .inr ?_
  simp [closeTag, startsMarkup, Lead.of, startsWith, strip?]

/-- A piece of markup that is no text starts markup. -/
lemma ready_print {m : Markup} (hm : m.isCanonical = true) (htext : m.isText = false) (s : Text) :
    Ready (m.print ++ s) := by
  cases m with
  | element tag attrs children =>
      simp only [isCanonical, Bool.and_eq_true] at hm
      rw [print, List.append_assoc]
      exact ready_openTag hm.1.1.1 attrs _ _
  | selfClosing tag attrs =>
      simp only [isCanonical, Bool.and_eq_true] at hm
      exact ready_openTag hm.1 attrs _ _
  | void tag attrs =>
      simp only [isCanonical, Bool.and_eq_true] at hm
      exact ready_openTag hm.1.1 attrs _ _
  | text content => simp [isText] at htext
  | interpolation expr => exact .inr (by simp [print, startsMarkup, Lead.of, startsWith, strip?])
  | comment content => exact .inr (by simp [print, startsMarkup, Lead.of, startsWith, strip?])

/-- What follows a text in a list of pieces is no text. -/
lemma ready_printAll {m : Markup} {ms : List Markup} (hms : areCanonical (m :: ms) = true)
    (htext : m.isText = true) {s : Text} (hs : Ready s) : Ready (printAll ms ++ s) := by
  simp only [areCanonical, htext, Bool.true_and, Bool.and_eq_true] at hms
  cases ms with
  | nil => simpa [printAll] using hs
  | cons n ns =>
      simp only [areCanonical, Bool.and_eq_true, List.head?_cons, Option.any_some,
        Bool.not_eq_true'] at hms
      rw [printAll, List.append_assoc]
      exact ready_print hms.2.1.1 hms.1.2 _

mutual

/-- **The tokens of a tree** are read where it is written. -/
theorem scans_print {m : Markup} (hm : m.isCanonical = true) {s : Text}
    (hs : m.isText = true → Ready s) (offset : Nat) :
    Cursor.Scans ⟨offset, m.print ++ s⟩ (m.tokensAt offset) ⟨offset + byteSize m.print, s⟩ := by
  cases m with
  | element tag attrs children =>
      simp only [isCanonical, Bool.and_eq_true, Bool.not_eq_true'] at hm
      obtain ⟨⟨⟨htag, hvoid⟩, hattrs⟩, hchildren⟩ := hm
      have hopen := Cursor.scans_of_nextToken (by simp [openTag])
        (nextToken_openTag (s := printAll children ++ (closeTag tag ++ s)) htag hattrs (.inl rfl)
          (readTagTail_close _) offset)
      have hinside := scans_printAll hchildren (ready_closeTag tag s)
        (offset + byteSize (openTag tag attrs ['>']))
      have hclose := Cursor.scans_of_nextToken (by simp [closeTag])
        (nextToken_closeTag htag s (offset + byteSize (openTag tag attrs ['>']) +
          byteSize (printAll children)))
      have hall := hopen.trans (hinside.trans hclose)
      simpa [print, tokensAt, Nat.add_assoc] using hall
  | selfClosing tag attrs =>
      simp only [isCanonical, Bool.and_eq_true] at hm
      exact Cursor.scans_of_nextToken (by simp [print, openTag])
        (nextToken_openTag hm.1 hm.2 (.inr rfl) (readTagTail_selfClose s) offset)
  | void tag attrs =>
      simp only [isCanonical, Bool.and_eq_true] at hm
      exact Cursor.scans_of_nextToken (by simp [print, openTag])
        (nextToken_openTag hm.1.1 hm.2 (.inl rfl) (readTagTail_close s) offset)
  | text content =>
      simp only [isCanonical, Bool.and_eq_true, Bool.not_eq_true', List.all_eq_true,
        bne_iff_ne] at hm
      have hne : content ≠ [] := by
        rintro rfl
        simp [allBlank] at hm
      exact Cursor.scans_of_nextToken (by simp [print, hne])
        (nextToken_text hm.1 hm.2 (hs rfl) offset)
  | interpolation expr =>
      simp only [isCanonical, Bool.and_eq_true, beq_iff_eq, decide_eq_true_eq, bne_iff_ne] at hm
      exact Cursor.scans_of_nextToken (by simp [print])
        (nextToken_interpolation hm.1.1 hm.1.2 hm.2 s offset)
  | comment content =>
      simp only [isCanonical, decide_eq_true_eq] at hm
      exact Cursor.scans_of_nextToken (by simp [print]) (nextToken_comment hm s offset)

/-- The tokens of several trees are read where they are written. -/
theorem scans_printAll {ms : List Markup} (hms : areCanonical ms = true) {s : Text} (hs : Ready s)
    (offset : Nat) :
    Cursor.Scans ⟨offset, printAll ms ++ s⟩ (tokensAll offset ms)
      ⟨offset + byteSize (printAll ms), s⟩ := by
  cases ms with
  | nil => simpa [printAll, tokensAll] using Cursor.Scans.refl ⟨offset, s⟩
  | cons m ms =>
      have hm := hms
      simp only [areCanonical, Bool.and_eq_true] at hm
      have hfirst := scans_print hm.1.1 (fun ht => ready_printAll hms ht hs) offset
      have hmore := scans_printAll hm.2 hs (offset + byteSize m.print)
      have hall := hfirst.trans hmore
      simpa [printAll, tokensAll, Nat.add_assoc] using hall

end

end Markup

/-! ### Tokens as trees -/

namespace Builder

open Markup

lemma attach_attach (b : Builder) (ns ms : List Node) :
    (b.attach ns).attach ms = b.attach (ns ++ ms) := by
  obtain ⟨stack, roots⟩ := b
  cases stack <;> simp [attach]

/-- A closing tag closes the innermost open element when it has its name. -/
lemma step_closing (stack : List OpenElement) (roots : List Node) (e : OpenElement) (stop : Nat) :
    step ⟨e :: stack, roots⟩ (.closing e.tag stop) = attach [e.close stop []] ⟨stack, roots⟩ := by
  simp [step, closeThrough]

mutual

/-- **The tokens of a tree** put it together: its node goes into the innermost open element. -/
theorem foldl_step_tokensAt {m : Markup} (hm : m.isCanonical = true) (offset : Nat)
    (b : Builder) : (m.tokensAt offset).foldl step b = b.attach [m.nodeAt offset] := by
  cases m with
  | element tag attrs children =>
      simp only [isCanonical, Bool.and_eq_true, Bool.not_eq_true'] at hm
      obtain ⟨⟨⟨htag, hvoid⟩, hattrs⟩, hchildren⟩ := hm
      have hopen : step b (.opening tag
          (AttrSource.attrsAt (offset + byteSize ('<' :: tag)) attrs) false
          ⟨offset, offset + byteSize (openTag tag attrs ['>'])⟩) =
          ⟨⟨tag, AttrSource.attrsAt (offset + byteSize ('<' :: tag)) attrs, offset, []⟩ :: b.stack,
            b.roots⟩ := by
        simp [step, hvoid]
      have hclose := step_closing b.stack b.roots
        ⟨tag, AttrSource.attrsAt (offset + byteSize ('<' :: tag)) attrs, offset,
          nodesAt (offset + byteSize (openTag tag attrs ['>'])) children⟩
        (offset + byteSize (print (element tag attrs children)))
      rw [tokensAt, List.foldl_cons, List.foldl_append, hopen, foldl_step_tokensAll hchildren,
        nodeAt]
      simpa [attach, OpenElement.close] using hclose
  | selfClosing tag attrs => simp [tokensAt, nodeAt, step]
  | void tag attrs =>
      simp only [isCanonical, Bool.and_eq_true] at hm
      simp [tokensAt, nodeAt, step, hm.1.2]
  | text content => simp [tokensAt, nodeAt, step]
  | interpolation expr => simp [tokensAt, nodeAt, step]
  | comment content => simp [tokensAt, nodeAt, step]

/-- The tokens of several trees put them together. -/
theorem foldl_step_tokensAll {ms : List Markup} (hms : areCanonical ms = true) (offset : Nat)
    (b : Builder) : (tokensAll offset ms).foldl step b = b.attach (nodesAt offset ms) := by
  cases ms with
  | nil => simp [tokensAll, nodesAt]
  | cons m ms =>
      simp only [areCanonical, Bool.and_eq_true] at hms
      rw [tokensAll, List.foldl_append, foldl_step_tokensAt hms.1.1, foldl_step_tokensAll hms.2,
        attach_attach, nodesAt, List.singleton_append]

end

end Builder

namespace Markup

/-- A text in canonical form is not blank. -/
lemma isBlankText_nodeAt {m : Markup} (hm : m.isCanonical = true) (offset : Nat) :
    (m.nodeAt offset).isBlankText = false := by
  cases m with
  | text content =>
      simp only [isCanonical, Bool.and_eq_true, Bool.not_eq_true'] at hm
      simpa [nodeAt, Node.isBlankText] using hm.1
  | element tag attrs children => simp [nodeAt, Node.isBlankText]
  | selfClosing tag attrs => simp [nodeAt, Node.isBlankText]
  | void tag attrs => simp [nodeAt, Node.isBlankText]
  | interpolation expr => simp [nodeAt, Node.isBlankText]
  | comment content => simp [nodeAt, Node.isBlankText]

lemma filter_nodesAt {ms : List Markup} (hms : areCanonical ms = true) (offset : Nat) :
    (nodesAt offset ms).filter (!·.isBlankText) = nodesAt offset ms := by
  induction ms generalizing offset with
  | nil => simp [nodesAt]
  | cons m ms ih =>
      simp only [areCanonical, Bool.and_eq_true] at hms
      simp [nodesAt, isBlankText_nodeAt hms.1.1, ih hms.2]

end Markup

/-- Written markup is read back as the nodes that it stands for. -/
lemma readTemplate_print {forest : List Markup} (h : Markup.areCanonical forest = true)
    (base : Nat) :
    readTemplate base (Markup.printAll forest) = .ok (Markup.nodesAt base forest) := by
  have hscan := Markup.scans_printAll h (.inl rfl) base
  rw [List.append_nil, Cursor.Scans, scan_eq ⟨_, []⟩] at hscan
  simp only [if_true, Except.map, List.append_nil] at hscan
  rw [readTemplate, hscan]
  simp only [forestOfTokens, Builder.foldl_step_tokensAll h, Builder.empty, Builder.attach,
    Builder.finish, Builder.closeThrough, List.nil_append, List.append_nil,
    Markup.filter_nodesAt h]

/-- Attributes between two cursors inside a text stand where their spans say. -/
lemma Laid.slice_eq {source : Text} {c d : Cursor} {as : List Attr} (h : Laid c as d)
    (hc : c.Inside source) : ∀ a ∈ as, slice source a.span.start a.span.stop = a.raw := by
  intro a ha
  obtain ⟨front, back, hsource, hspan⟩ := h.exists_parts_of_inside hc a ha
  rw [hspan, hsource]
  exact slice_append front a.raw back

/-- **Reading undoes writing.**  A forest in canonical form that is written down is read without an
error, as exactly that forest: the same tags, attributes, values, texts, interpolations and comments
in the same nesting and order, also when offsets are words and the text is not too long for them.
Each attribute has the kind and the name that its name as written stands for, and stands in the text,
as it was written, where its span says. -/
theorem readTemplate_printAll (forest : List Markup) (h : Markup.areCanonical forest = true) :
    readTemplate 0 (Markup.printAll forest) = .ok (Markup.nodesAt 0 forest) ∧
      (byteSize (Markup.printAll forest) < wordSize →
        parseTemplate 0 (Markup.printAll forest) = .ok (Markup.nodesAt 0 forest)) ∧
      ∀ a ∈ (Node.attrListsOf (Markup.nodesAt 0 forest)).flatten,
        slice (Markup.printAll forest) a.span.start a.span.stop = a.raw := by
  have hread := readTemplate_print h 0
  obtain ⟨d, hlaid⟩ := laid_of_readTemplate hread
  refine ⟨hread, fun hfits => ?_, hlaid.slice_eq ⟨[], [], by simp, rfl⟩⟩
  rw [parseTemplate_eq_readTemplate (by rwa [Nat.zero_add]), hread]

/-- A forest with every kind of markup, a tag name in front of a longer one, and quotes, braces and
dashes where they come close to ending what they stand in. -/
def mixedForest : List Markup :=
  [.element "a".toList [some ⟨"title".toList, some (.single, "é\"".toList)⟩]
    [.element "ab".toList [some ⟨":c".toList, none⟩] [.void "BR".toList []],
      .text "x\x7d".toList, .comment "a-".toList, .interpolation ['{', ' ', 'y']],
    .selfClosing "a".toList []]

theorem readTemplate_printAll_mixed :
    Markup.areCanonical mixedForest = true ∧
      Markup.printAll mixedForest =
        "<a title='é\"'><ab :c><BR></ab>x\x7d<!--a--->".toList ++
          ['{', '{', '{', ' ', 'y', '}', '}'] ++ "</a><a/>".toList ∧
      parseTemplate 0 (Markup.printAll mixedForest) =
        .ok [.element "a".toList
            [⟨.static, "title".toList, some "é\"".toList, ⟨3, 14⟩, "title='é\"'".toList⟩]
            [.element "ab".toList [⟨.bind, "c".toList, none, ⟨19, 21⟩, ":c".toList⟩]
                [.element "BR".toList [] [] false ⟨22, 26⟩] false ⟨15, 31⟩,
              .text "x\x7d".toList, .comment "a-".toList, .interpolation ['{', ' ', 'y']]
            false ⟨0, 53⟩,
          .element "a".toList [] [] true ⟨53, 57⟩] ∧
      ∀ a ∈ (Node.attrListsOf (Markup.nodesAt 0 mixedForest)).flatten,
        slice (Markup.printAll mixedForest) a.span.start a.span.stop = a.raw := by
  obtain ⟨-, hparse, hraw⟩ := readTemplate_printAll mixedForest (by decide)
  exact ⟨by decide, by decide, hparse (by decide), hraw⟩

end ClassFold
