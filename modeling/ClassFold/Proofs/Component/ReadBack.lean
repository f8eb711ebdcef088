import ClassFold.Proofs.Component.Position
import ClassFold.Proofs.Component.Tags

/-!
Written component files are read back.

The pieces of a file are read one by one.  A script or a style sheet ends at the first closing tag
of its kind, a block that means nothing here at the first closing tag of its name, and a comment at
the first `-->`.  A template ends at the closing tag that no nested template takes away: each part
of its content is passed over as a whole (`TemplatePart.skipContent_print`), whatever comes behind
it, except that a text ends only where a tag starts.

* `readBlocks_print`: a piece is read back where it is written.
* `readBlocks_printAll`: the blocks of a file are read back.
* `Component.ofText_printAll`: a component is read back from its file.
-/

namespace ClassFold

open Text

/-! ### Content of templates -/

/-- The content of a template, one step at a time. -/
lemma skipContent_template_eq {c : Cursor} (hc : c.rest ≠ []) :
    skipContent .template c =
      let plain := if startsCloseTag BlockKind.template.tag c.rest then c
        else skipContent .template (c.advance 1)
      match readNestedTag c with
      | none => plain
      | some (true, inside) => skipContent .template inside
      | some (false, inside) =>
        match skipCloseTag BlockKind.template.tag (skipContent .template inside) with
        | none => plain
        | some next => skipContent .template next := by
  simp only [skipContent]
  rw [skipTemplateContent, dif_neg hc]
  simp only
  split
  · rename_i hn
    simp only [hn]
    split <;> rfl
  · rename_i inside hn
    simp only [hn]
  · rename_i inside hn
    simp only [hn]
    split
    · rename_i hs
      simp only [hs]
      split <;> rfl
    · rename_i next hs
      simp only [hs]

/-- A nested template starts with its tag. -/
lemma readNestedTag_eq_none {s : Text} (h : startsWith ('<' :: BlockKind.template.tag) s = false)
    (offset : Nat) : readNestedTag ⟨offset, s⟩ = none := by
  have hnone : strip? ('<' :: BlockKind.template.tag) s = none := by simpa [startsWith] using h
  rw [readNestedTag, skipTagName, Cursor.skip?, hnone]
  rfl

/-- The opening tag of a nested template is passed over where it is written. -/
lemma readNestedTag_opening {attrs : List BlockAttr} (hattrs : BlockAttr.areCanonical attrs = true)
    {stop : Text} {closes : Bool}
    (hstop : stop = ['>'] ∧ closes = false ∨ stop = "/>".toList ∧ closes = true)
    (s : Text) (offset : Nat) :
    readNestedTag ⟨offset, BlockTag.opening BlockKind.template.tag attrs stop ++ s⟩ =
      some (closes,
        ⟨offset + byteSize (BlockTag.opening BlockKind.template.tag attrs stop), s⟩) := by
  have hshape : BlockTag.opening BlockKind.template.tag attrs stop ++ s =
      '<' :: (BlockKind.template.tag ++ (BlockAttr.printAll attrs ++ (stop ++ s))) := by
    simp [BlockTag.opening]
  have hne : stop ++ s ≠ [] := by rcases hstop with ⟨rfl, -⟩ | ⟨rfl, -⟩ <;> simp
  have hnext : ∀ c ∈ (stop ++ s).head?, isBlockTagChar c = false := by
    rcases hstop with ⟨rfl, -⟩ | ⟨rfl, -⟩ <;> simp [isBlockTagChar]
  have hends :
      (startsWith ">".toList (stop ++ s) || startsWith "/>".toList (stop ++ s)) = true := by
    rcases hstop with ⟨rfl, -⟩ | ⟨rfl, -⟩ <;> simp [startsWith, strip?]
  have hpass := skipOutsideQuotes_printAll
    (p := fun s => startsWith ">".toList s || startsWith "/>".toList s)
    (fun c s hend hslash => by simp [startsWith, strip?, hend.symm, hslash.symm]) hattrs (stop ++ s)
    (offset + byteSize ('<' :: BlockKind.template.tag))
  rw [hshape, readNestedTag, skipTagName_append (BlockTag.head_printAll_append attrs hnext),
    Option.bind_some, hpass, skipOutsideQuotes_of_stop hne hends]
  rcases hstop with ⟨rfl, rfl⟩ | ⟨rfl, rfl⟩ <;>
    simp [Cursor.skip?, strip?, BlockTag.opening, Nat.add_assoc]

/-- The content of a template ends at its closing tag. -/
lemma skipContent_template_closing (s : Text) (offset : Nat) :
    skipContent .template ⟨offset, BlockTag.closing BlockKind.template.tag ++ s⟩ =
      ⟨offset, BlockTag.closing BlockKind.template.tag ++ s⟩ := by
  have hnested : readNestedTag ⟨offset, BlockTag.closing BlockKind.template.tag ++ s⟩ = none :=
    readNestedTag_eq_none rfl offset
  rw [skipContent_template_eq (by simp [BlockTag.closing]), hnested]
  simp only [startsCloseTag_closing, if_true]

/-- A text without tags of templates is passed over when a tag comes behind it. -/
lemma skipContent_template_text {content s : Text}
    (hopen : Free ('<' :: BlockKind.template.tag) content)
    (hclose : Free ("</".toList ++ BlockKind.template.tag) content) (hs : s.head? = some '<')
    (offset : Nat) :
    skipContent .template ⟨offset, content ++ s⟩ =
      skipContent .template ⟨offset + byteSize content, s⟩ := by
  induction content generalizing offset with
  | nil => rfl
  | cons c content ih =>
      have hnested : readNestedTag ⟨offset, c :: (content ++ s)⟩ = none :=
        readNestedTag_eq_none (startsWith_cons_append_eq_false (by decide) hopen hs
          (List.cons_ne_nil c content) List.suffix_rfl) offset
      have hend : startsCloseTag BlockKind.template.tag (c :: (content ++ s)) = false :=
        startsCloseTag_eq_false (startsWith_cons_append_eq_false (by decide) hclose hs
          (List.cons_ne_nil c content) List.suffix_rfl)
      have hmore := ih (hopen.of_suffix (List.suffix_cons c content))
        (hclose.of_suffix (List.suffix_cons c content)) (offset + c.utf8Size)
      rw [List.cons_append, skipContent_template_eq (by simp), hnested]
      simpa [hend, Cursor.advance, Nat.add_assoc] using hmore

namespace TemplatePart

/-- A part of a template that is no text starts with a tag. -/
lemma head_print {p : TemplatePart} (hp : p.isText = false) (s : Text) :
    (p.print ++ s).head? = some '<' := by
  cases p with
  | text content => simp [isText] at hp
  | nested attrs parts => simp [print, BlockTag.around, BlockTag.opening]
  | selfClosing attrs => simp [print, BlockTag.opening]

/-- What follows a text in a template is a tag. -/
lemma head_printAll {p : TemplatePart} {ps : List TemplatePart}
    (hps : areCanonical (p :: ps) = true) (htext : p.isText = true) {s : Text}
    (hs : s.head? = some '<') : (printAll ps ++ s).head? = some '<' := by
  simp only [areCanonical, htext, Bool.true_and, Bool.and_eq_true] at hps
  cases ps with
  | nil => simpa [printAll] using hs
  | cons q qs =>
      rw [printAll, List.append_assoc]
      exact head_print (by simpa using hps.1.2) _

mutual

/-- **The parts of a template are passed over** one by one, a nested template together with its own
closing tag. -/
theorem skipContent_print {p : TemplatePart} (hp : p.isCanonical = true) {s : Text}
    (hs : p.isText = true → s.head? = some '<') (offset : Nat) :
    skipContent .template ⟨offset, p.print ++ s⟩ =
      skipContent .template ⟨offset + byteSize p.print, s⟩ := by
  cases p with
  | text content =>
      simp only [isCanonical, Bool.and_eq_true, decide_eq_true_eq] at hp
      exact skipContent_template_text hp.1 hp.2 (hs rfl) offset
  | nested attrs parts =>
      simp only [isCanonical, Bool.and_eq_true] at hp
      have hopen := readNestedTag_opening hp.1 (.inl ⟨rfl, rfl⟩)
        (printAll parts ++ (BlockTag.closing BlockKind.template.tag ++ s)) offset
      have hinside := skipContent_printAll hp.2
        (s := BlockTag.closing BlockKind.template.tag ++ s) rfl
        (offset + byteSize (BlockTag.opening BlockKind.template.tag attrs ['>']))
      rw [skipContent_template_closing] at hinside
      rw [print, BlockTag.around, List.append_assoc, List.append_assoc,
        skipContent_template_eq (by simp [BlockTag.opening]), hopen]
      simp only [hinside, skipCloseTag_closing]
      simp [Nat.add_assoc]
  | selfClosing attrs =>
      rw [print, skipContent_template_eq (by simp [BlockTag.opening]),
        readNestedTag_opening (by simpa [isCanonical] using hp) (.inr ⟨rfl, rfl⟩)]

/-- The whole content of a template is passed over when a tag comes behind it. -/
theorem skipContent_printAll {ps : List TemplatePart} (hps : areCanonical ps = true)
    {s : Text} (hs : s.head? = some '<') (offset : Nat) :
    skipContent .template ⟨offset, printAll ps ++ s⟩ =
      skipContent .template ⟨offset + byteSize (printAll ps), s⟩ := by
  cases ps with
  | nil => rfl
  | cons p ps =>
      have hall := hps
      simp only [areCanonical, Bool.and_eq_true] at hall
      rw [printAll, List.append_assoc,
        skipContent_print hall.1.1 (fun htext => head_printAll hps htext hs),
        skipContent_printAll hall.2 hs, byteSize_append, Nat.add_assoc]

end

end TemplatePart

/-! ### Blocks -/

/-- The content of a script or a style sheet ends at the first closing tag of its kind. -/
lemma skipUntil_startsCloseTag {name body : Text} (hname : '<' ∉ name)
    (hbody : Free ("</".toList ++ name) body) (s : Text) (offset : Nat) :
    Cursor.skipUntil (startsCloseTag name) ⟨offset, body ++ (BlockTag.closing name ++ s)⟩ =
      ⟨offset + byteSize body, BlockTag.closing name ++ s⟩ := by
  have htail : '<' ∉ '/' :: name := by simp [hname]
  refine Cursor.skipUntil_append (fun a ha hsuf => startsCloseTag_eq_false ?_)
    (.inr (startsCloseTag_closing name s))
  exact startsWith_cons_append_eq_false htail hbody rfl ha hsuf

/-- A block is read back where it is written, if its content ends where its closing tag stands. -/
lemma readBlock_around {kind : BlockKind} {attrs : List BlockAttr} {body s : Text}
    (hattrs : BlockAttr.areCanonical attrs = true)
    (hbody : ∀ offset, skipContent kind ⟨offset, body ++ (BlockTag.closing kind.tag ++ s)⟩ =
      ⟨offset + byteSize body, BlockTag.closing kind.tag ++ s⟩) (offset : Nat) :
    readBlock kind ⟨offset, BlockTag.around kind.tag attrs body ++ s⟩ =
      some (Block.writtenAt offset kind attrs body,
        ⟨offset + byteSize (BlockTag.around kind.tag attrs body), s⟩) := by
  have hshape : BlockTag.around kind.tag attrs body ++ s =
      BlockTag.opening kind.tag attrs ['>'] ++ (body ++ (BlockTag.closing kind.tag ++ s)) := by
    simp [BlockTag.around]
  rw [hshape, readBlock, readOpenTag_opening hattrs, Option.bind_some]
  simp only [hbody, skipCloseTag_closing, Option.map_some, Nat.add_sub_cancel_left,
    takeBytes_byteSize_append]
  simp [Block.writtenAt, BlockTag.around, Nat.add_assoc]

namespace BlockTag

/-- A block starts with its name, which ends at the first attribute or the end of the tag. -/
lemma around_append (name : Text) (attrs : List BlockAttr) (body s : Text) :
    around name attrs body ++ s =
      '<' :: (name ++ (BlockAttr.printAll attrs ++ '>' :: (body ++ (closing name ++ s)))) := by
  simp [around, opening]

lemma isBlockTagChar_of_isName {name : Text} (hname : isName name = true) :
    ∀ c ∈ name, isBlockTagChar c = true :=
  List.all_eq_true.1 (Bool.and_eq_true_iff.1 hname).2

end BlockTag

/-- No block of a kind starts with a tag of another name. -/
lemma readBlock_eq_none {kind : BlockKind} {name : Text} (hname : BlockTag.isName name = true)
    (hne : name ≠ kind.tag) (attrs : List BlockAttr) (body s : Text) (offset : Nat) :
    readBlock kind ⟨offset, BlockTag.around name attrs body ++ s⟩ = none := by
  have hskip := skipTagName_eq_none (BlockTag.isBlockTagChar_of_isName hname)
    (BlockTag.isBlockTagChar_of_isName (BlockTag.isName_tag kind))
    (BlockTag.head_printAll_close attrs (body ++ (BlockTag.closing name ++ s))) hne offset
  rw [BlockTag.around_append, readBlock, readOpenTag, hskip]
  rfl

/-- A block of another name is passed over where it is written. -/
lemma skipOtherBlock_around {name : Text} {attrs : List BlockAttr} {body : Text}
    (hname : BlockTag.isName name = true) (hattrs : BlockAttr.areCanonical attrs = true)
    (hbody : Free (BlockTag.closing name) body) (s : Text) (offset : Nat) :
    skipOtherBlock ⟨offset, BlockTag.around name attrs body ++ s⟩ =
      some ⟨offset + byteSize (BlockTag.around name attrs body), s⟩ := by
  have hchars := BlockTag.isBlockTagChar_of_isName hname
  have hnext := BlockTag.head_printAll_close attrs (body ++ (BlockTag.closing name ++ s))
  have halpha : name.head?.any Char.isAlpha = true := (Bool.and_eq_true_iff.1 hname).1
  have hpass := skipOutsideQuotes_printAll (p := startsWith ">".toList)
    (fun c s hend _ => by simp [startsWith, strip?, hend.symm]) hattrs
    ('>' :: (body ++ (BlockTag.closing name ++ s))) (offset + byteSize ['<'] + byteSize name)
  rw [skipOutsideQuotes_of_stop (List.cons_ne_nil _ _) rfl] at hpass
  -- the name in a closing tag holds no second angle bracket with which it could start again
  have htail : '<' ∉ '/' :: (name ++ ['>']) := by
    have hbracket : '<' ∉ name := fun h => absurd (hchars _ h) (by decide)
    simp [hbracket]
  have hcut : cut? (BlockTag.closing name) (body ++ (BlockTag.closing name ++ s)) =
      some (body, s) :=
    cut?_of_startsWith fun a ha hsuf => startsWith_cons_append_eq_false htail hbody rfl ha hsuf
  have hword : "</".toList ++ name ++ ['>'] = BlockTag.closing name := List.append_assoc _ _ _
  rw [BlockTag.around_append, skipOtherBlock, Cursor.skip?_singleton, Option.bind_some]
  simp only [takeWhile_append_stop hchars hnext, Cursor.skipWhile_append hchars hnext, halpha,
    if_true, hpass, Cursor.skip?_singleton, Option.bind_some, hword, Cursor.cut?_append hcut,
    Option.map_some]
  simp [BlockTag.around, BlockTag.opening, Nat.add_assoc]

/-! ### Pieces -/

/-- A comment is passed over where it is written. -/
lemma skipComment_printComment {content : Text} (h : Free "-->".toList content) (s : Text)
    (offset : Nat) :
    skipComment ⟨offset, Piece.printComment content ++ s⟩ =
      some ⟨offset + byteSize (Piece.printComment content), s⟩ := by
  have hshape : Piece.printComment content ++ s =
      "<!--".toList ++ (content ++ ("-->".toList ++ s)) := by
    change "<!--".toList ++ (content ++ "-->".toList) ++ s = _
    rw [List.append_assoc, List.append_assoc]
  have hsize : byteSize (Piece.printComment content) =
      byteSize "<!--".toList + byteSize (content ++ "-->".toList) := byteSize_append _ _
  rw [hshape, skipComment, Cursor.skip?_append, Option.bind_some,
    Cursor.cut?_append (cut?_commentEnd h s), hsize, Nat.add_assoc]
  rfl

/-- What starts with the tag of a block is no white space. -/
lemma head_around (name : Text) (attrs : List BlockAttr) (body s : Text) :
    (BlockTag.around name attrs body ++ s).head?.any isLayout = false := by
  simp [BlockTag.around_append, isLayout]

/-- What starts with the tag of a block is no comment. -/
lemma skipComment_around {name : Text} (hname : BlockTag.isName name = true)
    (attrs : List BlockAttr) (body s : Text) (offset : Nat) :
    skipComment ⟨offset, BlockTag.around name attrs body ++ s⟩ = none := by
  obtain ⟨hhead, -⟩ := Bool.and_eq_true_iff.1 hname
  cases name with
  | nil => simp at hhead
  | cons c name =>
      have hc : '!' ≠ c := by rintro rfl; simp at hhead
      simp [BlockTag.around_append, skipComment, Cursor.skip?, strip?, hc]

/-- A block is read back where it is written, if its content ends where its closing tag stands. -/
lemma readPiece_block {kind : BlockKind} {attrs : List BlockAttr} {body s : Text}
    (hattrs : BlockAttr.areCanonical attrs = true)
    (hbody : ∀ offset, skipContent kind ⟨offset, body ++ (BlockTag.closing kind.tag ++ s)⟩ =
      ⟨offset + byteSize body, BlockTag.closing kind.tag ++ s⟩) (offset : Nat) :
    readPiece ⟨offset, BlockTag.around kind.tag attrs body ++ s⟩ =
      some (some (Block.writtenAt offset kind attrs body),
        ⟨offset + byteSize (BlockTag.around kind.tag attrs body), s⟩) := by
  have hother (k : BlockKind) (hk : kind.tag ≠ k.tag) :=
    readBlock_eq_none (BlockTag.isName_tag kind) hk attrs body s offset
  have hread := readBlock_around hattrs hbody offset
  rw [readPiece, head_around, skipComment_around (BlockTag.isName_tag kind)]
  cases kind with
  | template => simp only [List.findSome?, hread, Bool.false_eq_true, if_false]
  | script =>
      simp only [List.findSome?, hother .template (by decide), hread, Bool.false_eq_true, if_false]
  | style =>
      simp only [List.findSome?, hother .template (by decide), hother .script (by decide), hread,
        Bool.false_eq_true, if_false]

/-- A block of another name stands for nothing. -/
lemma readPiece_other {name : Text} {attrs : List BlockAttr} {body : Text}
    (hname : BlockTag.isName name = true) (hother : ∀ kind : BlockKind, name ≠ kind.tag)
    (hattrs : BlockAttr.areCanonical attrs = true) (hbody : Free (BlockTag.closing name) body)
    (s : Text) (offset : Nat) :
    readPiece ⟨offset, BlockTag.around name attrs body ++ s⟩ =
      some (none, ⟨offset + byteSize (BlockTag.around name attrs body), s⟩) := by
  have hnone (kind : BlockKind) := readBlock_eq_none hname (hother kind) attrs body s offset
  rw [readPiece, head_around, skipComment_around hname]
  simp only [List.findSome?, hnone, skipOtherBlock_around hname hattrs hbody, Option.map_some,
    Bool.false_eq_true, if_false]

/-- Reading goes on behind the first piece. -/
lemma readBlocks_of_readPiece {c d : Cursor} {b? : Option Block}
    (h : readPiece c = some (b?, d)) : readBlocks c = (readBlocks d).map (b?.toList ++ ·) := by
  have hc : c.rest.isEmpty = false := by
    have := length_rest_lt_of_readPiece h
    cases hr : c.rest with
    | nil => simp [hr] at this
    | cons a s => rfl
  rw [readBlocks, hc]
  simp only [Bool.false_eq_true, if_false]
  split
  · simp_all
  · rename_i b' d' h'
    obtain ⟨rfl, rfl⟩ : b? = b' ∧ d = d' := by simpa [h] using h'
    rfl

/-- White space in front of a piece does not change what follows it. -/
lemma readBlocks_skipWhile (c : Cursor) : readBlocks (c.skipWhile isLayout) = readBlocks c := by
  by_cases hc : c.rest.head?.any isLayout = true
  · have hread : readPiece c = some (none, c.skipWhile isLayout) := by rw [readPiece, if_pos hc]
    rw [readBlocks_of_readPiece hread]
    simp
  · rw [Cursor.skipWhile_eq_self fun a ha => ?_]
    simpa [Option.mem_def.1 ha] using hc

/-- **A piece is read back** where it is written, and reading goes on behind it. -/
theorem readBlocks_print {p : Piece} (hp : p.isCanonical = true) (s : Text) (offset : Nat) :
    readBlocks ⟨offset, p.print ++ s⟩ =
      (readBlocks ⟨offset + byteSize p.print, s⟩).map ((p.block? offset).toList ++ ·) := by
  cases p with
  | layout blanks =>
      -- the white space behind a run of white space is skipped together with it
      have hskip : Cursor.skipWhile isLayout ⟨offset, blanks ++ s⟩ =
          Cursor.skipWhile isLayout ⟨offset + byteSize blanks, s⟩ := by
        have hall : ∀ c ∈ blanks, isLayout c = true := List.all_eq_true.1 hp
        simp [Cursor.skipWhile, List.takeWhile_append_of_pos hall,
          List.dropWhile_append_of_pos hall, Nat.add_assoc]
      rw [Piece.print, ← readBlocks_skipWhile, hskip, readBlocks_skipWhile]
      simp [Piece.block?]
  | comment content =>
      simp only [Piece.isCanonical, decide_eq_true_eq] at hp
      have hlayout : (Piece.printComment content ++ s).head?.any isLayout = false := rfl
      refine readBlocks_of_readPiece ?_
      rw [Piece.print, readPiece, hlayout, skipComment_printComment hp]
      rfl
  | template attrs parts =>
      simp only [Piece.isCanonical, Bool.and_eq_true] at hp
      refine readBlocks_of_readPiece (readPiece_block hp.1 (fun k => ?_) offset)
      rw [TemplatePart.skipContent_printAll hp.2 rfl, skipContent_template_closing]
  | script attrs body =>
      simp only [Piece.isCanonical, Bool.and_eq_true, decide_eq_true_eq] at hp
      refine readBlocks_of_readPiece (readPiece_block hp.1 (fun k => ?_) offset)
      exact skipUntil_startsCloseTag (by decide) hp.2 s k
  | style attrs body =>
      simp only [Piece.isCanonical, Bool.and_eq_true, decide_eq_true_eq] at hp
      refine readBlocks_of_readPiece (readPiece_block hp.1 (fun k => ?_) offset)
      exact skipUntil_startsCloseTag (by decide) hp.2 s k
  | other name attrs body =>
      simp only [Piece.isCanonical, Bool.and_eq_true, decide_eq_true_eq, List.all_eq_true,
        bne_iff_ne] at hp
      obtain ⟨⟨⟨hname, hother⟩, hattrs⟩, hbody⟩ := hp
      have hkinds (kind : BlockKind) : kind ∈ [BlockKind.template, .script, .style] := by
        cases kind <;> decide
      exact readBlocks_of_readPiece
        (readPiece_other hname (fun kind => hother kind (hkinds kind)) hattrs hbody s offset)

/-- The blocks of a file are read back in the order in which they are written. -/
theorem readBlocks_printAll {ps : List Piece} (hps : Piece.areCanonical ps = true) (offset : Nat) :
    readBlocks ⟨offset, Piece.printAll ps⟩ = some (Piece.blocksAt offset ps) := by
  induction ps generalizing offset with
  | nil =>
      rw [readBlocks]
      rfl
  | cons p ps ih =>
      simp only [Piece.areCanonical_cons, Bool.and_eq_true] at hps
      rw [Piece.printAll_cons, readBlocks_print hps.1, ih hps.2]
      rfl

/-! ### Components -/

lemma Block.isSetup_eq (b : Block) : b.isSetup = b.attrs.any (·.name == "setup".toList) :=
  List.isSome_find?

/-- **A component is read back** from its file.  Of its templates, plain scripts and setup scripts
the last ones count, and all style sheets, each with its attributes, its content and the place where
that stands. -/
theorem Component.ofText_printAll (ps : List Piece) (hps : Piece.areCanonical ps = true) :
    Component.ofText (Piece.printAll ps) = some
      { template := ((Piece.blocksAt 0 ps).filter (·.kind == .template)).getLast?
        script := ((Piece.blocksAt 0 ps).filter fun b =>
          b.kind == .script && !b.attrs.any (·.name == "setup".toList)).getLast?
        setupScript := ((Piece.blocksAt 0 ps).filter fun b =>
          b.kind == .script && b.attrs.any (·.name == "setup".toList)).getLast?
        styles := (Piece.blocksAt 0 ps).filter (·.kind == .style) } ∧
      ∀ b ∈ Piece.blocksAt 0 ps,
        slice (Piece.printAll ps) b.span.start b.span.stop = b.content := by
  have hblocks := readBlocks_printAll hps 0
  constructor
  · rw [Component.ofText, hblocks, Option.map_some, Component.ofBlocks]
    simp only [Block.isSetup_eq]
  · intro b hb
    have hstands : b.StandsIn (Piece.printAll ps) :=
      standsIn_of_readBlocks ⟨[], [], by simp, rfl⟩ hblocks b hb
    obtain ⟨front, back, hsource, hspan⟩ := hstands
    rw [hsource, hspan]
    exact slice_append front b.content back

/-- A file with a nested template behind a quoted closing tag, a setup script in front of a plain
one, and a block whose content looks like a template. -/
def layeredFile : List Piece :=
  [.comment "é-".toList, .layout "\r\n".toList,
    .other "docs".toList [⟨"a".toList, some "/>".toList⟩] "<template>".toList,
    .script [⟨"setup".toList, none⟩] "1".toList,
    .template [⟨"v-if".toList, some "a>b".toList⟩]
      [.text "<p>".toList,
        .nested [⟨"#x".toList, some "</template>".toList⟩] [.selfClosing [], .text "ü".toList],
        .text "</p>".toList],
    .script [] "2".toList, .style [⟨"module".toList, some []⟩] "3".toList, .style [] []]

theorem Component.ofText_printAll_layered :
    Piece.areCanonical layeredFile = true ∧
      Piece.printAll layeredFile =
        "<!--é--->\r\n".toList ++ "<docs a=\"/>\"><template></docs>".toList ++
          "<script setup>1</script>".toList ++ "<template v-if=\"a>b\"><p>".toList ++
          "<template #x=\"</template>\">".toList ++ "<template/>ü</template>".toList ++
          "</p></template>".toList ++ "<script>2</script>".toList ++
          "<style module=\"\">3</style>".toList ++ "<style></style>".toList ∧
      Component.ofText (Piece.printAll layeredFile) = some
        { template := some ⟨.template, [⟨"v-if".toList, some "a>b".toList⟩],
            "<p><template #x=\"</template>\">".toList ++ "<template/>ü</template></p>".toList,
            ⟨87, 145⟩⟩
          script := some ⟨.script, [], "2".toList, ⟨164, 165⟩⟩
          setupScript := some ⟨.script, [⟨"setup".toList, none⟩], "1".toList, ⟨56, 57⟩⟩
          styles := [⟨.style, [⟨"module".toList, some []⟩], "3".toList, ⟨191, 192⟩⟩,
            ⟨.style, [], [], ⟨207, 207⟩⟩] } := by
  have hcanonical : Piece.areCanonical layeredFile = true := by decide
  refine ⟨hcanonical, by decide +kernel, ?_⟩
  exact (Component.ofText_printAll layeredFile hcanonical).1.trans (by decide +kernel)

end ClassFold
