import Mathlib.Data.List.Pairwise
import ClassFold.Proofs.Component.PassedOver
import ClassFold.Proofs.Template.Written

/-!
Blocks between their tags.

Whatever a file looks like, the content of each block that is read from it stands between an opening
and a closing tag of the kind of the block.

* `BlockTag.Opens` and `BlockTag.Closes` say how the tags of a block may be written, with any white
  space and with values between quotation marks or without.
* `exists_opens_of_readOpenTag`, `skipCloseTag_eq_some_iff`: the readers of tags move over such
  tags.
* `Block.FramedIn source b`: the block `b` stands in `source` between two such tags.
* `Block.EndsFirst b`: the content of a script or a style sheet holds no closing tag.
* `framed_of_readBlocks`: all blocks of a file are like this, and each one ends before the next one
  starts.
* `Component.splitFrom_of_ofText`: so are the blocks that make up a component.
-/

namespace ClassFold

open Text

/-! ### The form of tags -/

namespace BlockAttr

/-- How a value stands behind the equals sign in the tag of a block. -/
inductive ValueForm : (written value : Text) → Prop where
  | quoted (q : Quote) (v : Text) (hv : q.mark ∉ v) : ValueForm (q.wrap v) v
  | bare (v : Text) (hne : v ≠ [])
      (hv : ∀ c ∈ v, isLayout c = false ∧ c ∉ ['>', '"', '\'', '=']) : ValueForm v v

/-- How an attribute stands in the tag of a block. -/
inductive Form : BlockAttr → Text → Prop where
  | flag {name : Text} (hne : name ≠ []) (hname : ∀ c ∈ name, isBlockAttrChar c = true) :
      Form ⟨name, none⟩ name
  | valued {name gap gap' w v : Text} (hne : name ≠ [])
      (hname : ∀ c ∈ name, isBlockAttrChar c = true) (hgap : ∀ c ∈ gap, isLayout c = true)
      (hgap' : ∀ c ∈ gap', isLayout c = true) (hw : ValueForm w v) :
      Form ⟨name, some v⟩ (name ++ (gap ++ '=' :: (gap' ++ w)))

/-- How attributes stand in the tag of a block, each with white space in front. -/
inductive FormAll : List BlockAttr → Text → Prop where
  | nil : FormAll [] []
  | cons {a : BlockAttr} {as : List BlockAttr} {gap w t : Text} (hne : gap ≠ [])
      (hgap : ∀ c ∈ gap, isLayout c = true) (ha : a.Form w) (has : FormAll as t) :
      FormAll (a :: as) (gap ++ (w ++ t))

end BlockAttr

namespace BlockTag

/-- The text `t` is an opening tag with the given name and attributes. -/
def Opens (name : Text) (attrs : List BlockAttr) (t : Text) : Prop :=
  ∃ inner gap, t = '<' :: (name ++ (inner ++ (gap ++ ['>']))) ∧
    BlockAttr.FormAll attrs inner ∧ ∀ c ∈ gap, isLayout c = true

/-- The text `t` is a closing tag with the given name. -/
def Closes (name t : Text) : Prop :=
  ∃ gap, t = "</".toList ++ (name ++ (gap ++ ['>'])) ∧ ∀ c ∈ gap, isLayout c = true

lemma Opens.ne_nil {name t : Text} {attrs : List BlockAttr} (h : Opens name attrs t) : t ≠ [] := by
  obtain ⟨inner, gap, rfl, -⟩ := h
  exact List.cons_ne_nil _ _

lemma Closes.ne_nil {name t : Text} (h : Closes name t) : t ≠ [] := by
  obtain ⟨gap, rfl, -⟩ := h
  exact List.cons_ne_nil _ _

end BlockTag

/-! ### Reading tags -/

/-- A character of a value without quotation marks does not end it. -/
lemma bare_of_mem_takeUntil_endsBareBlockValue {s : Text} {c : Char}
    (h : c ∈ takeUntil endsBareBlockValue s) :
    isLayout c = false ∧ c ∉ ['>', '"', '\'', '='] := by
  obtain ⟨t, ht⟩ := exists_of_mem_takeUntil h
  simp only [endsBareBlockValue, List.head?_cons, Bool.or_eq_false_iff, beq_eq_false_iff_ne] at ht
  obtain ⟨⟨⟨⟨⟨hlayout, hend⟩, hdouble⟩, hsingle⟩, hequals⟩, -⟩ := ht
  exact ⟨hlayout, by simp [hend, hdouble, hsingle, hequals]⟩

lemma exists_valueForm_of_readBlockValue {c d : Cursor} {v : Text}
    (h : readBlockValue c = some (v, d)) : ∃ w, c.Reads w d ∧ BlockAttr.ValueForm w v := by
  rw [readBlockValue] at h
  split at h
  · simp at h
  · rename_i m hm
    obtain ⟨s, hs⟩ : ∃ s, c.rest = m :: s := List.head?_eq_some_iff.1 hm
    split at h
    · rename_i hmark
      obtain ⟨q, rfl⟩ := exists_quote_of_mark hmark
      have hfree : q.mark ∉ v := by
        obtain ⟨⟨a, b⟩, hab, he⟩ := Option.map_eq_some_iff.1 h
        obtain ⟨rfl, -⟩ := Prod.mk.inj he
        exact notMem_of_cut? hab
      have hone : c.rest.take 1 = [q.mark] := by simp [hs]
      have hread := (c.reads_advance 1).trans (Cursor.reads_of_cut? h)
      rw [hone] at hread
      exact ⟨q.wrap v, hread, .quoted q v hfree⟩
    · simp only at h
      split at h
      · simp at h
      · rename_i hempty
        obtain ⟨rfl, rfl⟩ := Prod.mk.inj (Option.some.inj h)
        refine ⟨_, c.reads_skipUntil endsBareBlockValue, .bare _ (by simpa using hempty) ?_⟩
        intro a ha
        exact bare_of_mem_takeUntil_endsBareBlockValue ha

/-- Reading an attribute moves over the attribute as written. -/
lemma exists_form_of_readBlockAttr {c d : Cursor} {a : BlockAttr}
    (h : readBlockAttr c = some (a, d)) : ∃ w, c.Reads w d ∧ a.Form w := by
  rw [readBlockAttr] at h
  have hnamed := c.reads_skipWhile isBlockAttrChar
  have hchars := forall_mem_takeWhile isBlockAttrChar c.rest
  split at h
  · simp at h
  · rename_i hempty
    have hne : c.rest.takeWhile isBlockAttrChar ≠ [] := by simpa using hempty
    split at h
    · rename_i value stop hvalue
      obtain ⟨rfl, rfl⟩ := Prod.mk.inj (Option.some.inj h)
      obtain ⟨e, he, hread⟩ := Option.bind_eq_some_iff.1 hvalue
      obtain ⟨w, hw, hform⟩ := exists_valueForm_of_readBlockValue hread
      -- white space, the equals sign, white space and the value stand behind the name
      have htail := (Cursor.reads_skipWhile isLayout _).trans
        ((Cursor.reads_of_skip? he).trans ((e.reads_skipWhile isLayout).trans hw))
      have hwritten := BlockAttr.Form.valued hne hchars
        (forall_mem_takeWhile isLayout (c.skipWhile isBlockAttrChar).rest)
        (forall_mem_takeWhile isLayout e.rest) hform
      exact ⟨_, hnamed.trans htail, hwritten⟩
    · obtain ⟨rfl, rfl⟩ := Prod.mk.inj (Option.some.inj h)
      exact ⟨_, hnamed, .flag hne hchars⟩

lemma exists_formAll_readBlockAttrs (c : Cursor) :
    ∃ t, c.Reads t (readBlockAttrs c).2 ∧ BlockAttr.FormAll (readBlockAttrs c).1 t := by
  fun_induction readBlockAttrs c with
  | case1 c hc a d h more ih =>
      obtain ⟨w, hw, hform⟩ := exists_form_of_readBlockAttr h
      obtain ⟨t, ht, hall⟩ := ih
      have hgap : c.rest.takeWhile isLayout ≠ [] := by
        cases hrest : c.rest with
        | nil => simp [hrest] at hc
        | cons b s =>
            have hb : isLayout b = true := by simpa [hrest] using hc
            simp [hb]
      exact ⟨_, (c.reads_skipWhile isLayout).trans (hw.trans ht),
        .cons hgap (forall_mem_takeWhile isLayout _) hform hall⟩
  | case2 c => exact ⟨[], Cursor.Reads.refl c, .nil⟩
  | case3 c => exact ⟨[], Cursor.Reads.refl c, .nil⟩

/-- Reading an opening tag moves over an opening tag with the attributes that are read. -/
lemma exists_opens_of_readOpenTag {name : Text} {c d : Cursor} {attrs : List BlockAttr}
    (h : readOpenTag name c = some (attrs, d)) :
    ∃ t, c.Reads t d ∧ BlockTag.Opens name attrs t := by
  obtain ⟨e, he, hd⟩ := Option.bind_eq_some_iff.1 h
  obtain ⟨f, hf, hp⟩ := Option.map_eq_some_iff.1 hd
  obtain ⟨rfl, rfl⟩ := Prod.mk.inj hp
  obtain ⟨inner, hinner, hall⟩ := exists_formAll_readBlockAttrs e
  have hname := Cursor.reads_of_skip? (Option.filter_eq_some_iff.1 he).1
  have hend := (Cursor.reads_skipWhile isLayout _).trans (Cursor.reads_of_skip? hf)
  exact ⟨_, hname.trans (hinner.trans hend), inner, _, rfl, hall, forall_mem_takeWhile isLayout _⟩

/-- A closing tag is passed over exactly where one is written. -/
lemma skipCloseTag_eq_some_iff {name : Text} {c d : Cursor} :
    skipCloseTag name c = some d ↔ ∃ t, c.Reads t d ∧ BlockTag.Closes name t := by
  constructor
  · intro h
    obtain ⟨e, he, hd⟩ := Option.bind_eq_some_iff.1 h
    have hend := (e.reads_skipWhile isLayout).trans (Cursor.reads_of_skip? hd)
    refine ⟨_, (Cursor.reads_of_skip? he).trans hend, _, ?_, forall_mem_takeWhile isLayout e.rest⟩
    rw [List.append_assoc]
  · rintro ⟨t, ht, gap, rfl, hgap⟩
    obtain ⟨e, he, htail⟩ := Cursor.Reads.exists_between (s := "</".toList ++ name)
      (t := gap ++ ['>']) (by rw [List.append_assoc]; exact ht)
    obtain ⟨f, hf, hd⟩ := htail.exists_between
    have hlayout : e.skipWhile isLayout = f := by
      obtain ⟨offset, rest⟩ := e
      obtain ⟨offset', rest'⟩ := f
      obtain ⟨rfl, rfl⟩ : rest = gap ++ rest' ∧ offset' = offset + byteSize gap :=
        ⟨hf.rest_eq, hf.offset_eq⟩
      have hend : rest' = ['>'] ++ d.rest := hd.rest_eq
      exact Cursor.skipWhile_append hgap (by simp [hend, isLayout])
    rw [skipCloseTag, Cursor.skip?_of_reads he, Option.bind_some, hlayout, Cursor.skip?_of_reads hd]

lemma startsCloseTag_of_closes {name t : Text} (h : BlockTag.Closes name t) (s : Text) :
    startsCloseTag name (t ++ s) = true := by
  have hread : Cursor.Reads ⟨0, t ++ s⟩ t ⟨0 + byteSize t, s⟩ := ⟨rfl, rfl⟩
  rw [startsCloseTag, skipCloseTag_eq_some_iff.2 ⟨t, hread, h⟩]
  rfl

/-- The text in front of the first closing tag holds none. -/
lemma free_takeUntil_startsCloseTag {name t : Text} (h : BlockTag.Closes name t) (s : Text) :
    Free t (takeUntil (startsCloseTag name) s) := by
  rintro ⟨front, back, hparts⟩
  have hnone : startsCloseTag name ((t ++ back) ++ dropUntil (startsCloseTag name) s) = false := by
    refine eq_false_of_suffix_takeUntil ?_ ⟨front, by rw [← hparts, List.append_assoc]⟩
    exact List.append_ne_nil_of_left_ne_nil h.ne_nil back
  rw [List.append_assoc, startsCloseTag_of_closes h] at hnone
  simp at hnone

/-! ### Blocks between their tags -/

namespace Block

/-- A block stands in `source` between an opening tag of its kind, with its attributes, and a
closing tag of its kind, and its span is the place of what stands between them. -/
def FramedIn (source : Text) (b : Block) : Prop :=
  ∃ front opening closing back,
    source = (front ++ opening) ++ b.content ++ (closing ++ back) ∧
    b.span = ⟨byteSize (front ++ opening), byteSize (front ++ opening) + byteSize b.content⟩ ∧
    BlockTag.Opens b.kind.tag b.attrs opening ∧ BlockTag.Closes b.kind.tag closing

/-- The content of a script or a style sheet holds no closing tag of its kind. -/
def EndsFirst (b : Block) : Prop :=
  b.kind ≠ .template → ∀ t, BlockTag.Closes b.kind.tag t → Free t b.content

lemma FramedIn.standsIn {source : Text} {b : Block} (h : b.FramedIn source) :
    b.StandsIn source := by
  obtain ⟨front, opening, closing, back, hsource, hspan, -⟩ := h
  exact ⟨front ++ opening, closing ++ back, hsource, hspan⟩

lemma StandsIn.fits {source : Text} {b : Block} (h : b.StandsIn source) : b.span.Fits source := by
  obtain ⟨front, back, hsource, hspan⟩ := h
  exact Span.fits_iff_exists.2 ⟨front, b.content, back, hsource, hspan⟩

lemma StandsIn.slice_eq {source : Text} {b : Block} (h : b.StandsIn source) :
    slice source b.span.start b.span.stop = b.content := by
  obtain ⟨front, back, hsource, hspan⟩ := h
  rw [hsource, hspan]
  exact slice_append front b.content back

end Block

lemma endsFirst_of_skipContent {kind : BlockKind} {c : Cursor} {content : Text}
    (hkind : kind ≠ .template) (h : c.Reads content (skipContent kind c)) {t : Text}
    (ht : BlockTag.Closes kind.tag t) : Free t content := by
  have huntil : skipContent kind c = c.skipUntil (startsCloseTag kind.tag) := by
    cases kind with
    | template => exact absurd rfl hkind
    | script => rfl
    | style => rfl
  have hcontent : content = takeUntil (startsCloseTag kind.tag) c.rest := by
    rw [← h.takeBytes_eq, huntil]
    exact (c.reads_skipUntil _).takeBytes_eq
  rw [hcontent]
  exact free_takeUntil_startsCloseTag ht c.rest

/-- A block is read between two tags, and these make its place smaller than what is read. -/
lemma framed_of_readBlock {source : Text} {kind : BlockKind} {c d : Cursor} {b : Block}
    (hc : c.Inside source) (h : readBlock kind c = some (b, d)) :
    b.FramedIn source ∧ b.EndsFirst ∧ c.offset < b.span.start ∧ b.span.stop < d.offset := by
  obtain ⟨⟨attrs, start⟩, ho, hd⟩ := Option.bind_eq_some_iff.1 h
  obtain ⟨e, he, hp⟩ := Option.map_eq_some_iff.1 hd
  obtain ⟨rfl, rfl⟩ := Prod.mk.inj hp
  obtain ⟨opening, hopening, hopens⟩ := exists_opens_of_readOpenTag ho
  obtain ⟨content, hcontent⟩ := reaches_skipContent kind start
  obtain ⟨closing, hclosing, hcloses⟩ : ∃ t, (skipContent kind start).Reads t e ∧
      BlockTag.Closes kind.tag t := skipCloseTag_eq_some_iff.1 he
  obtain ⟨front, back, hsource, hfront⟩ := hc
  have hstart : start.offset = byteSize (front ++ opening) := by
    rw [hopening.offset_eq, byteSize_append, hfront]
  refine ⟨⟨front, opening, closing, e.rest ++ back, ?_, ?_, hopens, hcloses⟩, ?_, ?_, ?_⟩
  · rw [hcontent.takeBytes_eq, hsource, hopening.rest_eq, hcontent.rest_eq, hclosing.rest_eq]
    simp
  · rw [hcontent.takeBytes_eq, hcontent.offset_eq, hstart]
  · intro hkind t ht
    rw [hcontent.takeBytes_eq]
    exact endsFirst_of_skipContent hkind hcontent ht
  · show c.offset < start.offset
    have := byteSize_pos hopens.ne_nil
    rw [hopening.offset_eq]
    omega
  · show (skipContent kind start).offset < e.offset
    have := byteSize_pos hcloses.ne_nil
    rw [hclosing.offset_eq]
    omega

/-- The block in a piece of a file is read at the same place. -/
lemma exists_readBlock_of_readPiece {c d : Cursor} {b : Block}
    (h : readPiece c = some (some b, d)) : ∃ kind, readBlock kind c = some (b, d) := by
  rw [readPiece] at h
  split at h
  · simp at h
  · split at h
    · simp at h
    · split at h
      · rename_i b' e hb
        obtain ⟨kind, -, hk⟩ := List.exists_of_findSome?_eq_some hb
        obtain ⟨rfl, rfl⟩ : b' = b ∧ e = d := by simpa using h
        exact ⟨kind, hk⟩
      · simp at h

/-- **All blocks of a file stand between their tags**, and each one ends before the next one
starts. -/
theorem framed_of_readBlocks {source : Text} {c : Cursor} {blocks : List Block}
    (hc : c.Inside source) (h : readBlocks c = some blocks) :
    (∀ b ∈ blocks, b.FramedIn source ∧ b.EndsFirst ∧ c.offset < b.span.start) ∧
      blocks.Pairwise fun a b => a.span.stop < b.span.start := by
  fun_induction readBlocks c generalizing blocks with
  | case1 c hnil =>
      obtain rfl := Option.some.inj h
      exact ⟨by simp, .nil⟩
  | case2 => simp at h
  | case3 c hne b? d hpiece ih =>
      obtain ⟨more, hmore, rfl⟩ := Option.map_eq_some_iff.1 h
      have hreach := (standsIn_of_readPiece hc hpiece).2
      have hle := hreach.offset_le
      obtain ⟨hframed, hpairs⟩ := ih (hc.of_reaches hreach) hmore
      -- behind the piece all blocks start further on than it ends
      have hlater : ∀ b ∈ more, b.FramedIn source ∧ b.EndsFirst ∧ c.offset < b.span.start := by
        intro b hb
        obtain ⟨hframe, hends, hlt⟩ := hframed b hb
        exact ⟨hframe, hends, by omega⟩
      cases b? with
      | none => exact ⟨by simpa using hlater, by simpa using hpairs⟩
      | some a =>
          obtain ⟨kind, hkind⟩ := exists_readBlock_of_readPiece hpiece
          obtain ⟨hframe, hends, hlt, hstop⟩ := framed_of_readBlock hc hkind
          refine ⟨?_, List.Pairwise.cons (fun b hb => ?_) hpairs⟩
          · intro b hb
            rcases List.mem_cons.1 hb with rfl | hb
            · exact ⟨hframe, hends, hlt⟩
            · exact hlater b hb
          · have := (hframed b hb).2.2
            omega

/-! ### Components -/

namespace Component

/-- All blocks of a component. -/
def blocks (c : Component) : List Block :=
  c.template.toList ++ (c.script.toList ++ (c.setupScript.toList ++ c.styles))

/-- A component is made of blocks of `source`, each in its place. -/
structure SplitFrom (source : Text) (c : Component) : Prop where
  /-- The span of a block lies between characters of the file and cuts out the content. -/
  cut : ∀ b ∈ c.blocks,
    b.span.Fits source ∧ slice source b.span.start b.span.stop = b.content
  /-- The content stands between an opening and a closing tag of the kind of the block. -/
  framed : ∀ b ∈ c.blocks, b.FramedIn source
  /-- The content of a script or a style sheet holds no closing tag of its kind. -/
  endsFirst : ∀ b ∈ c.blocks, b.EndsFirst
  /-- No two blocks overlap. -/
  apart : c.blocks.Pairwise fun a b => a.span.Apart b.span
  /-- The style sheets come in the order of the file. -/
  ordered : c.styles.Pairwise fun a b => a.span.stop < b.span.start
  template_kind : ∀ b ∈ c.template, b.kind = .template
  script_kind : ∀ b ∈ c.script, b.kind = .script ∧ ∀ a ∈ b.attrs, a.name ≠ "setup".toList
  setupScript_kind : ∀ b ∈ c.setupScript,
    b.kind = .script ∧ ∃ a ∈ b.attrs, a.name = "setup".toList
  styles_kind : ∀ b ∈ c.styles, b.kind = .style

section OfBlocks

variable {bs : List Block} {b : Block}

lemma mem_of_getLast?_filter {p : Block → Bool} (h : b ∈ (bs.filter p).getLast?) :
    b ∈ bs ∧ p b = true :=
  List.mem_filter.1 (List.mem_of_getLast? h)

lemma of_mem_template (h : b ∈ (ofBlocks bs).template) : b ∈ bs ∧ b.kind = .template := by
  obtain ⟨hmem, hkind⟩ := mem_of_getLast?_filter h
  exact ⟨hmem, by simpa using hkind⟩

lemma of_mem_script (h : b ∈ (ofBlocks bs).script) :
    b ∈ bs ∧ b.kind = .script ∧ b.isSetup = false := by
  obtain ⟨hmem, hkind⟩ := mem_of_getLast?_filter h
  exact ⟨hmem, by simpa using hkind⟩

lemma of_mem_setupScript (h : b ∈ (ofBlocks bs).setupScript) :
    b ∈ bs ∧ b.kind = .script ∧ b.isSetup = true := by
  obtain ⟨hmem, hkind⟩ := mem_of_getLast?_filter h
  exact ⟨hmem, by simpa using hkind⟩

lemma of_mem_styles (h : b ∈ (ofBlocks bs).styles) : b ∈ bs ∧ b.kind = .style := by
  obtain ⟨hmem, hkind⟩ := List.mem_filter.1 h
  exact ⟨hmem, by simpa using hkind⟩

lemma mem_of_mem_blocks (h : b ∈ (ofBlocks bs).blocks) : b ∈ bs := by
  simp only [blocks, List.mem_append, Option.mem_toList] at h
  rcases h with h | h | h | h
  · exact (of_mem_template h).1
  · exact (of_mem_script h).1
  · exact (of_mem_setupScript h).1
  · exact (of_mem_styles h).1

lemma pairwise_toList {α : Type} (R : α → α → Prop) (o : Option α) : o.toList.Pairwise R := by
  cases o with
  | none => exact .nil
  | some a => exact List.pairwise_singleton R a

/-- What holds of any two different blocks of a file holds of any two blocks of the component: no
block has two of its places. -/
lemma pairwise_blocks {R : Block → Block → Prop}
    (hR : ∀ a ∈ bs, ∀ b ∈ bs, a ≠ b → R a b) (hstyles : (ofBlocks bs).styles.Pairwise R) :
    (ofBlocks bs).blocks.Pairwise R := by
  have hkinds {a b : Block} (ha : a ∈ bs) (hb : b ∈ bs) (hne : a.kind ≠ b.kind) : R a b :=
    hR a ha b hb fun heq => hne (congrArg Block.kind heq)
  have hsetup : ((ofBlocks bs).setupScript.toList ++ (ofBlocks bs).styles).Pairwise R := by
    refine List.pairwise_append.2 ⟨pairwise_toList R _, hstyles, fun a ha b hb => ?_⟩
    obtain ⟨hmem, hkind, -⟩ := of_mem_setupScript (Option.mem_toList.1 ha)
    obtain ⟨hmem', hkind'⟩ := of_mem_styles hb
    exact hkinds hmem hmem' (by simp [hkind, hkind'])
  have hscript : ((ofBlocks bs).script.toList ++
      ((ofBlocks bs).setupScript.toList ++ (ofBlocks bs).styles)).Pairwise R := by
    refine List.pairwise_append.2 ⟨pairwise_toList R _, hsetup, fun a ha b hb => ?_⟩
    obtain ⟨hmem, hkind, hplain⟩ := of_mem_script (Option.mem_toList.1 ha)
    rcases List.mem_append.1 hb with hb | hb
    · obtain ⟨hmem', -, hsetup'⟩ := of_mem_setupScript (Option.mem_toList.1 hb)
      exact hR a hmem b hmem' (by rintro rfl; simp [hplain] at hsetup')
    · obtain ⟨hmem', hkind'⟩ := of_mem_styles hb
      exact hkinds hmem hmem' (by simp [hkind, hkind'])
  refine List.pairwise_append.2 ⟨pairwise_toList R _, hscript, fun a ha b hb => ?_⟩
  obtain ⟨hmem, hkind⟩ := of_mem_template (Option.mem_toList.1 ha)
  rcases List.mem_append.1 hb with hb | hb
  · obtain ⟨hmem', hkind', -⟩ := of_mem_script (Option.mem_toList.1 hb)
    exact hkinds hmem hmem' (by simp [hkind, hkind'])
  · rcases List.mem_append.1 hb with hb | hb
    · obtain ⟨hmem', hkind', -⟩ := of_mem_setupScript (Option.mem_toList.1 hb)
      exact hkinds hmem hmem' (by simp [hkind, hkind'])
    · obtain ⟨hmem', hkind'⟩ := of_mem_styles hb
      exact hkinds hmem hmem' (by simp [hkind, hkind'])

end OfBlocks

/-- **A component is split soundly from its file.**  Whenever a file can be split, the span of each
block of the component cuts its content out of the file, between an opening tag with its attributes
and a closing tag of its kind, the first such one for scripts and style sheets; no two blocks
overlap, the style sheets keep their order, and of the two scripts the setup script is the one with
an attribute `setup`. -/
theorem splitFrom_of_ofText {source : Text} {component : Component}
    (h : ofText source = some component) : component.SplitFrom source := by
  obtain ⟨bs, hbs, rfl⟩ := Option.map_eq_some_iff.1 h
  have hinside : Cursor.Inside source ⟨0, source⟩ := ⟨[], [], by simp, rfl⟩
  obtain ⟨hframed, hpairs⟩ := framed_of_readBlocks hinside hbs
  have hordered : (ofBlocks bs).styles.Pairwise fun a b => a.span.stop < b.span.start :=
    hpairs.filter _
  have hapart : bs.Pairwise fun a b => a.span.Apart b.span :=
    hpairs.imp fun hlt => .inl (Nat.le_of_lt hlt)
  refine
    { cut := fun b hb => ?_
      framed := fun b hb => (hframed b (mem_of_mem_blocks hb)).1
      endsFirst := fun b hb => (hframed b (mem_of_mem_blocks hb)).2.1
      apart := pairwise_blocks ?_ (hordered.imp fun hlt => .inl (Nat.le_of_lt hlt))
      ordered := hordered
      template_kind := fun b hb => (of_mem_template hb).2
      script_kind := fun b hb => ?_
      setupScript_kind := fun b hb => ?_
      styles_kind := fun b hb => (of_mem_styles hb).2 }
  · have hstands := (hframed b (mem_of_mem_blocks hb)).1.standsIn
    exact ⟨hstands.fits, hstands.slice_eq⟩
  · intro a ha b hb hne
    have hsymm : Std.Symm fun a b : Block => a.span.Apart b.span := ⟨fun _ _ => Span.Apart.symm⟩
    exact hapart.forall ha hb hne
  · obtain ⟨-, hkind, hsetup⟩ := of_mem_script hb
    rw [Block.isSetup_eq] at hsetup
    exact ⟨hkind, by simpa using hsetup⟩
  · obtain ⟨-, hkind, hsetup⟩ := of_mem_setupScript hb
    rw [Block.isSetup_eq] at hsetup
    exact ⟨hkind, by simpa using hsetup⟩

/-- A file with two plain scripts, the first one of which is replaced, a nested template, a style
sheet whose tag is not written like one, and tags in comments, literals and other blocks. -/
def scatteredFile : Text :=
  "<!--<style>é-->\n<script lang = 'ts'>1</script><script setup>'</style>'</script >".toList ++
    "<script a=b>2</script>\n<template #x='a>b'>".toList ++
    "<template/><template>ü</template></template\t>".toList ++
    "<style !>p</style><docs><style>q</style></docs>".toList ++
    "<style scoped >r</style\n><style module=\"m\"></style>".toList

/-- The component in that file. -/
def scatteredComponent : Component where
  template := some ⟨.template, [⟨"#x".toList, some "a>b".toList⟩],
    "<template/><template>ü</template>".toList, ⟨123, 157⟩⟩
  script := some ⟨.script, [⟨"a".toList, some "b".toList⟩], "2".toList, ⟨93, 94⟩⟩
  setupScript := some ⟨.script, [⟨"setup".toList, none⟩], "'</style>'".toList, ⟨61, 71⟩⟩
  styles := [⟨.style, [⟨"scoped".toList, none⟩], "r".toList, ⟨231, 232⟩⟩,
    ⟨.style, [⟨"module".toList, some "m".toList⟩], [], ⟨259, 259⟩⟩]

theorem splitFrom_of_ofText_scattered :
    ofText scatteredFile = some scatteredComponent ∧
      scatteredComponent.SplitFrom scatteredFile := by
  have h : ofText scatteredFile = some scatteredComponent := by decide +kernel
  exact ⟨h, splitFrom_of_ofText h⟩

end Component

end ClassFold
