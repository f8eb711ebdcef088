import ClassFold.Fold.Transform
import ClassFold.Proofs.Component.ReadBack

/-!
Templates that are passed over.

A block that starts with `<template` but is not written like a template is tried once more, as a
block that means nothing, and then it counts up to the first closing tag of its name, wherever that
stands.  So a file may be split into blocks, and its template be lost.

* `skipContent_template_end`: the content of a template ends at a closing tag or with the file.
* `skipOtherBlock_template`: how far a template is passed over.
* `PassedOver`: what a file looks like from a template on that is lost.
* `Component.template_eq_none_iff`: this is so exactly if the component has no template, and then
  the file stays as it is.
* `PassedOver.exists_template`: only another tag of a template inside of it, or an opening tag that
  is not read, makes a template be lost.
* `Component.isSome_template`: a template with balanced templates inside is never lost, whatever
  comes behind it.
-/

namespace ClassFold

open Text

/-! ### Where contents end -/

lemma isSome_skipCloseTag (name : Text) (c : Cursor) :
    (skipCloseTag name c).isSome = startsCloseTag name c.rest := by
  rw [startsCloseTag, skipCloseTag, skipCloseTag, Cursor.skip?, Cursor.skip?]
  cases strip? ("</".toList ++ name) c.rest with
  | none => rfl
  | some s => simp [Cursor.skip?, Cursor.skipWhile]

/-- The content of a template ends at a closing tag or with the file. -/
lemma skipContent_template_end (c : Cursor) :
    (skipContent .template c).rest = [] ∨
      startsCloseTag BlockKind.template.tag (skipContent .template c).rest = true := by
  simp only [skipContent]
  fun_induction skipTemplateContent c with
  | case1 c hc => exact .inl hc
  | case2 c hc plain hn ih =>
      simp only [plain]
      split
      · rename_i hclose
        exact .inr hclose
      · exact ih
  | case3 c hc inside hn hlt d ih' ih => exact ih
  | case4 c hc plain inside hn hlt closing hs ih ih' =>
      simp only [plain]
      split
      · rename_i hclose
        exact .inr hclose
      · exact ih
  | case5 c hc inside hn hlt closing next hs hlt' d ih'' ih' ih => exact ih

/-- The content of a template ends before the file does if it has a closing tag and no tag of
another template in front of that. -/
lemma skipContent_template_ne_nil {front back : Text}
    (hfree : Free ('<' :: BlockKind.template.tag) front)
    (hclose : startsCloseTag BlockKind.template.tag back = true) (offset : Nat) :
    (skipContent .template ⟨offset, front ++ back⟩).rest ≠ [] := by
  have hstarts : startsWith ("</".toList ++ BlockKind.template.tag) back = true := by
    by_contra hno
    rw [startsCloseTag_eq_false (by simpa using hno)] at hclose
    simp at hclose
  obtain ⟨s, hs⟩ := startsWith_iff.1 hstarts
  induction front generalizing offset with
  | nil =>
      have hnested : readNestedTag ⟨offset, back⟩ = none := by
        rw [← hs]
        exact readNestedTag_eq_none rfl offset
      have hne : back ≠ [] := by rw [← hs]; exact List.cons_ne_nil _ _
      rw [List.nil_append, skipContent_template_eq hne, hnested]
      simpa [hclose] using hne
  | cons c front ih =>
      have hnested : readNestedTag ⟨offset, c :: (front ++ back)⟩ = none :=
        readNestedTag_eq_none (startsWith_cons_append_eq_false (by decide) hfree
          (by rw [← hs]; rfl) (List.cons_ne_nil c front) List.suffix_rfl) offset
      have hmore := ih (hfree.of_suffix (List.suffix_cons c front)) (offset + byteSize [c])
      rw [List.cons_append, skipContent_template_eq (by simp), hnested]
      simp only
      split
      · simp
      · exact hmore

/-- A template is not read if its opening tag is not, or if its content does not end before the
file does. -/
lemma readBlock_template_eq_none_iff (c : Cursor) :
    readBlock .template c = none ↔
      ∀ attrs start, readOpenTag BlockKind.template.tag c = some (attrs, start) →
        (skipContent .template start).rest = [] := by
  rw [readBlock, Option.bind_eq_none_iff]
  constructor
  · intro hnone attrs start hopen
    have hclose : skipCloseTag BlockKind.template.tag (skipContent .template start) = none := by
      simpa using hnone (attrs, start) hopen
    rcases skipContent_template_end start with hnil | hend
    · exact hnil
    · rw [← isSome_skipCloseTag, hclose] at hend
      simp at hend
  · rintro hend ⟨attrs, start⟩ hopen
    have hclose : skipCloseTag BlockKind.template.tag (skipContent .template start) = none := by
      rw [skipCloseTag, Cursor.skip?, hend attrs start hopen]
      rfl
    simp only [hclose, Option.map_none]

/-! ### How far a template is passed over -/

/-- A text that starts with the tag of a template. -/
def openTemplate (rest : Text) : Text := '<' :: (BlockKind.template.tag ++ rest)

/-- The tag with which a template that is passed over ends. -/
def templateEnd : Text := BlockTag.closing BlockKind.template.tag

lemma cut?_templateEnd {c d : Cursor} {body : Text} :
    c.cut? templateEnd = some (body, d) ↔
      Free templateEnd body ∧ c.Reads (body ++ templateEnd) d := by
  -- the tag holds no second angle bracket with which it could start again
  have hword (s a b : Text) :
      cut? templateEnd s = some (a, b) ↔ s = a ++ (templateEnd ++ b) ∧ Free templateEnd a :=
    cut?_eq_some_iff (by decide)
  constructor
  · intro h
    refine ⟨?_, Cursor.reads_of_cut? h⟩
    obtain ⟨⟨a, b⟩, hab, he⟩ := Option.map_eq_some_iff.1 h
    obtain ⟨rfl, -⟩ := Prod.mk.inj he
    exact ((hword _ _ _).1 hab).2
  · rintro ⟨hfree, hread⟩
    have hrest : c.rest = body ++ (templateEnd ++ d.rest) := by
      rw [hread.rest_eq, List.append_assoc]
    rw [Cursor.cut?, (hword _ _ _).2 ⟨hrest, hfree⟩, Option.map_some, Nat.add_assoc,
      ← byteSize_append, ← hread.offset_eq]

/-- A template is passed over up to the first `>` outside of quotes and from there up to the first
closing tag. -/
lemma skipOtherBlock_template {rest : Text} (hrest : ∀ c ∈ rest.head?, isBlockTagChar c = false)
    (offset : Nat) (d : Cursor) :
    skipOtherBlock ⟨offset, openTemplate rest⟩ = some d ↔
      ∃ body, Free templateEnd body ∧
        (skipOutsideQuotes (startsWith ">".toList)
          ⟨offset + byteSize ('<' :: BlockKind.template.tag), rest⟩).Reads
            ('>' :: (body ++ templateEnd)) d := by
  have hchars := BlockTag.isBlockTagChar_of_isName (BlockTag.isName_tag .template)
  have halpha : BlockKind.template.tag.head?.any Char.isAlpha = true := by decide
  have hword : "</".toList ++ BlockKind.template.tag ++ ['>'] = templateEnd := by decide
  have hsize : offset + byteSize ['<'] + byteSize BlockKind.template.tag =
      offset + byteSize ('<' :: BlockKind.template.tag) := Nat.add_assoc _ _ _
  rw [openTemplate, skipOtherBlock, Cursor.skip?_singleton, Option.bind_some]
  simp only [takeWhile_append_stop hchars hrest, Cursor.skipWhile_append hchars hrest, halpha,
    if_true, hword, hsize]
  rw [Option.bind_eq_some_iff]
  constructor
  · rintro ⟨e, he, hcut⟩
    obtain ⟨⟨body, d'⟩, hbody, rfl⟩ := Option.map_eq_some_iff.1 hcut
    obtain ⟨hfree, hread⟩ := cut?_templateEnd.1 hbody
    exact ⟨body, hfree, (Cursor.reads_of_skip? he).trans hread⟩
  · rintro ⟨body, hfree, hread⟩
    obtain ⟨e, he, hbody⟩ := Cursor.Reads.exists_between (s := ['>']) hread
    refine ⟨e, Cursor.skip?_of_reads he, ?_⟩
    rw [cut?_templateEnd.2 ⟨hfree, hbody⟩]
    rfl

/-! ### Files without a template -/

lemma Component.template_ofBlocks_eq_none_iff (blocks : List Block) :
    (ofBlocks blocks).template = none ↔ ∀ b ∈ blocks, b.kind ≠ .template := by
  rw [ofBlocks, List.getLast?_eq_none_iff, List.filter_eq_nil_iff]
  simp

lemma kind_of_readBlock {kind : BlockKind} {c d : Cursor} {b : Block}
    (h : readBlock kind c = some (b, d)) : b.kind = kind := by
  obtain ⟨p, -, hp⟩ := Option.bind_eq_some_iff.1 h
  obtain ⟨e, -, he⟩ := Option.map_eq_some_iff.1 hp
  obtain ⟨rfl, -⟩ := Prod.mk.inj he
  rfl

namespace Piece

/-- Whether a piece of a file is white space or a comment. -/
def isGap : Piece → Bool
  | layout _ | comment _ => true
  | _ => false

/-- White space and comments in front of a file do not change its blocks. -/
lemma readBlocks_gaps {ps : List Piece} (hps : areCanonical ps = true) (hgaps : ps.all isGap = true)
    (s : Text) (offset : Nat) :
    readBlocks ⟨offset, printAll ps ++ s⟩ = readBlocks ⟨offset + byteSize (printAll ps), s⟩ := by
  induction ps generalizing offset with
  | nil => rfl
  | cons p ps ih =>
      simp only [areCanonical_cons, List.all_cons, Bool.and_eq_true] at hps hgaps
      have hnone : p.block? offset = none := by
        cases p <;> first | rfl | exact absurd hgaps.1 (by simp [isGap])
      rw [printAll_cons, List.append_assoc, readBlocks_print hps.1, ih hps.2 hgaps.2, hnone,
        byteSize_append, Nat.add_assoc]
      simp

end Piece

lemma readBlocks_of_readPiece_eq_none {c : Cursor} (hc : c.rest ≠ []) (h : readPiece c = none) :
    readBlocks c = none := by
  rw [readBlocks, if_neg (by simpa using hc)]
  split
  · rfl
  · simp_all

/-- From an opening tag of a template on, with `rest` behind it, a file is split into blocks that
are no templates. -/
structure PassedOver (offset : Nat) (rest : Text) : Prop where
  /-- The opening tag is not read, or the content does not end before the file does. -/
  unread : ∀ attrs start,
    readOpenTag BlockKind.template.tag ⟨offset, openTemplate rest⟩ = some (attrs, start) →
      (skipContent .template start).rest = []
  /-- The block is passed over up to its first closing tag, and no template comes behind that. -/
  lost : ∃ body d blocks, Free templateEnd body ∧
    (skipOutsideQuotes (startsWith ">".toList)
      ⟨offset + byteSize ('<' :: BlockKind.template.tag), rest⟩).Reads
        ('>' :: (body ++ templateEnd)) d ∧
    readBlocks d = some blocks ∧ ∀ b ∈ blocks, b.kind ≠ .template

section Template

variable {rest : Text} (hrest : ∀ c ∈ rest.head?, isBlockTagChar c = false) (offset : Nat)

include hrest

/-- A block that starts with the tag of a template is a template or is passed over. -/
lemma readPiece_template :
    readPiece ⟨offset, openTemplate rest⟩ =
      match readBlock .template ⟨offset, openTemplate rest⟩ with
      | some (b, d) => some (some b, d)
      | none => (skipOtherBlock ⟨offset, openTemplate rest⟩).map fun d => (none, d) := by
  have hother (kind : BlockKind) (hkind : BlockKind.template.tag ≠ kind.tag) :
      readBlock kind ⟨offset, openTemplate rest⟩ = none := by
    have hskip := skipTagName_eq_none
      (BlockTag.isBlockTagChar_of_isName (BlockTag.isName_tag .template))
      (BlockTag.isBlockTagChar_of_isName (BlockTag.isName_tag kind)) hrest hkind offset
    rw [openTemplate, readBlock, readOpenTag, hskip]
    rfl
  have hlayout : (openTemplate rest).head?.any isLayout = false := rfl
  have hcomment : skipComment ⟨offset, openTemplate rest⟩ = none := rfl
  rw [readPiece, hlayout, hcomment]
  cases hread : readBlock .template ⟨offset, openTemplate rest⟩ <;>
    simp only [List.findSome?, hread, hother .script (by decide), hother .style (by decide),
      Bool.false_eq_true, if_false]

/-- The blocks from the tag of a template on hold no template if and only if it is passed over. -/
lemma readBlocks_template_iff :
    (∃ blocks, readBlocks ⟨offset, openTemplate rest⟩ = some blocks ∧
        ∀ b ∈ blocks, b.kind ≠ .template) ↔ PassedOver offset rest := by
  have hpiece := readPiece_template hrest offset
  cases hread : readBlock .template ⟨offset, openTemplate rest⟩ with
  | some r =>
      obtain ⟨b, d⟩ := r
      rw [hread] at hpiece
      constructor
      · -- the template that has been read is one of the blocks
        rintro ⟨blocks, hblocks, hkinds⟩
        rw [readBlocks_of_readPiece hpiece] at hblocks
        obtain ⟨more, -, rfl⟩ := Option.map_eq_some_iff.1 hblocks
        exact absurd (kind_of_readBlock hread) (hkinds b (by simp))
      · intro h
        rw [(readBlock_template_eq_none_iff _).2 h.unread] at hread
        simp at hread
  | none =>
      rw [hread] at hpiece
      have hunread := (readBlock_template_eq_none_iff _).1 hread
      constructor
      · rintro ⟨blocks, hblocks, hkinds⟩
        cases hskip : skipOtherBlock ⟨offset, openTemplate rest⟩ with
        | none =>
            rw [hskip] at hpiece
            rw [readBlocks_of_readPiece_eq_none (List.cons_ne_nil _ _) hpiece] at hblocks
            simp at hblocks
        | some d =>
            rw [hskip] at hpiece
            rw [readBlocks_of_readPiece hpiece] at hblocks
            obtain ⟨body, hfree, hbody⟩ := (skipOtherBlock_template hrest offset d).1 hskip
            exact ⟨hunread, body, d, blocks, hfree, hbody, by simpa using hblocks, hkinds⟩
      · rintro ⟨-, body, d, blocks, hfree, hbody, hblocks, hkinds⟩
        rw [(skipOtherBlock_template hrest offset d).2 ⟨body, hfree, hbody⟩] at hpiece
        rw [readBlocks_of_readPiece hpiece, hblocks]
        exact ⟨blocks, rfl, hkinds⟩

end Template

lemma foldComponent_of_eq_none {source : Text} {component : Component}
    (h : Component.ofText source = some component) (hnone : component.template = none)
    (options : Options) : foldComponent options source = .ok (.unchanged source) := by
  rw [foldComponent, h]
  simp only [hnone, Option.filter_none]

/-- **Templates that are lost.**  A file that starts with a template, behind white space and
comments, is split into blocks without a template, and stays as it is, if and only if the template
is passed over: it is not read, but its tag ends somewhere, a closing tag comes behind that, and the
rest of the file is split into blocks without a template. -/
theorem Component.template_eq_none_iff (lead : List Piece) (rest : Text)
    (hlead : Piece.areCanonical lead = true) (hgaps : lead.all Piece.isGap = true)
    (hrest : rest.head?.any isBlockTagChar = false) :
    (∃ component,
      Component.ofText (Piece.printAll lead ++ openTemplate rest) = some component ∧
      component.template = none ∧
      ∀ options, foldComponent options (Piece.printAll lead ++ openTemplate rest) =
        .ok (.unchanged (Piece.printAll lead ++ openTemplate rest))) ↔
    PassedOver (byteSize (Piece.printAll lead)) rest := by
  have hname : ∀ c ∈ rest.head?, isBlockTagChar c = false := by
    intro c hc
    simpa [Option.mem_def.1 hc] using hrest
  have hblocks := Piece.readBlocks_gaps hlead hgaps (openTemplate rest) 0
  rw [Nat.zero_add] at hblocks
  rw [← readBlocks_template_iff hname, ← hblocks]
  constructor
  · rintro ⟨component, htext, hnone, -⟩
    obtain ⟨blocks, hread, rfl⟩ := Option.map_eq_some_iff.1 htext
    exact ⟨blocks, hread, (template_ofBlocks_eq_none_iff blocks).1 hnone⟩
  · rintro ⟨blocks, hread, hkinds⟩
    have htext : Component.ofText (Piece.printAll lead ++ openTemplate rest) =
        some (ofBlocks blocks) := by rw [ofText, hread]; rfl
    have hnone := (template_ofBlocks_eq_none_iff blocks).2 hkinds
    exact ⟨ofBlocks blocks, htext, hnone, foldComponent_of_eq_none htext hnone⟩

/-- What stands behind the tag of a template that is lost: a comment inside of it mentions a
template, and the tag in the comment takes the closing tag away. -/
def lostTemplate : Text := "><p cls=\"a\"></p><!-- <template> --></template>".toList

theorem Component.template_lost :
    Component.ofText (openTemplate lostTemplate) = some ⟨none, none, none, []⟩ ∧
      foldComponent {} (openTemplate lostTemplate) =
        .ok (.unchanged (openTemplate lostTemplate)) := by
  decide +kernel

theorem Component.template_eq_none_iff_lost :
    PassedOver (byteSize (Piece.printAll [.comment "a".toList, .layout "\n".toList]))
      lostTemplate := by
  have htext : Component.ofText (Piece.printAll [.comment "a".toList, .layout "\n".toList] ++
      openTemplate lostTemplate) = some ⟨none, none, none, []⟩ := by decide +kernel
  exact (Component.template_eq_none_iff [.comment "a".toList, .layout "\n".toList] lostTemplate
    (by decide) (by decide) rfl).1 ⟨_, htext, rfl, foldComponent_of_eq_none htext rfl⟩

/-- A template whose opening tag is read is lost only if another tag of a template stands in front
of each closing tag. -/
theorem PassedOver.exists_template {offset : Nat} {rest front back : Text}
    {attrs : List BlockAttr} {start : Cursor} (h : PassedOver offset rest)
    (hopen : readOpenTag BlockKind.template.tag ⟨offset, openTemplate rest⟩ = some (attrs, start))
    (hstart : start.rest = front ++ back)
    (hclose : startsCloseTag BlockKind.template.tag back = true) :
    '<' :: BlockKind.template.tag <:+: front := by
  by_contra hfree
  obtain ⟨k, s⟩ := start
  obtain rfl : s = front ++ back := hstart
  exact skipContent_template_ne_nil hfree hclose k (h.unread attrs _ hopen)

/-- A template with balanced templates inside is not lost, whatever comes behind it. -/
theorem Component.isSome_template {lead : List Piece} {attrs : List BlockAttr}
    {parts : List TemplatePart} {tail : Text} {component : Component}
    (hlead : Piece.areCanonical lead = true) (hgaps : lead.all Piece.isGap = true)
    (hattrs : BlockAttr.areCanonical attrs = true) (hparts : TemplatePart.areCanonical parts = true)
    (h : Component.ofText (Piece.printAll lead ++ ((Piece.template attrs parts).print ++ tail)) =
      some component) : component.template.isSome = true := by
  obtain ⟨blocks, hblocks, rfl⟩ := Option.map_eq_some_iff.1 h
  have hcanonical : (Piece.template attrs parts).isCanonical = true := by
    simp [Piece.isCanonical, hattrs, hparts]
  rw [Piece.readBlocks_gaps hlead hgaps, readBlocks_print hcanonical] at hblocks
  obtain ⟨more, -, rfl⟩ := Option.map_eq_some_iff.1 hblocks
  rw [Option.isSome_iff_ne_none, ne_eq, template_ofBlocks_eq_none_iff]
  intro hkinds
  exact hkinds _ (List.mem_append_left more (Option.mem_toList.2 rfl)) rfl

end ClassFold
