import ClassFold.Component.Basic
import ClassFold.Proofs.Text.Reading

/-!
Where the blocks of a component stand.

Every reader of component files only moves on in the text, so the content of a block is what stands
between two cursors: `Block.StandsIn source b` says that the content of `b` is a part of `source`
and that its span is the place of that part.  All blocks of a component stand in its file
(`Component.template_standsIn` is the case of the template).
-/

namespace ClassFold

open Text

/-! ### Tags -/

lemma reaches_of_readBlockValue {c d : Cursor} {v : Text} (h : readBlockValue c = some (v, d)) :
    c.Reaches d := by
  rw [readBlockValue] at h
  split at h
  · simp at h
  · split at h
    · exact (c.reaches_advance 1).trans (Cursor.reads_of_cut? h).reaches
    · simp only at h
      split at h
      · simp at h
      · obtain ⟨-, rfl⟩ := Prod.mk.inj (Option.some.inj h)
        exact c.reaches_skipUntil endsBareBlockValue

lemma reaches_of_readAssignedValue {c d : Cursor} {v : Text}
    (h : readAssignedValue c = some (v, d)) : c.Reaches d := by
  obtain ⟨e, he, hv⟩ := Option.bind_eq_some_iff.1 h
  have hequals := (c.reaches_skipWhile isLayout).trans (Cursor.reads_of_skip? he).reaches
  exact hequals.trans ((e.reaches_skipWhile isLayout).trans (reaches_of_readBlockValue hv))

lemma reaches_of_readBlockAttr {c d : Cursor} {a : BlockAttr}
    (h : readBlockAttr c = some (a, d)) : c.Reaches d := by
  rw [readBlockAttr] at h
  have hnamed := c.reaches_skipWhile isBlockAttrChar
  split at h
  · simp at h
  · split at h
    · rename_i value stop hv
      obtain ⟨-, rfl⟩ := Prod.mk.inj (Option.some.inj h)
      exact hnamed.trans (reaches_of_readAssignedValue hv)
    · obtain ⟨-, rfl⟩ := Prod.mk.inj (Option.some.inj h)
      exact hnamed

lemma reaches_readBlockAttrs (c : Cursor) : c.Reaches (readBlockAttrs c).2 := by
  fun_induction readBlockAttrs c with
  | case1 c hc a d h more ih =>
      exact (c.reaches_skipWhile isLayout).trans ((reaches_of_readBlockAttr h).trans ih)
  | case2 => exact Cursor.Reaches.refl _
  | case3 => exact Cursor.Reaches.refl _

lemma reaches_of_skipTagName {name : Text} {c d : Cursor} (h : skipTagName name c = some d) :
    c.Reaches d :=
  (Cursor.reads_of_skip? (Option.filter_eq_some_iff.1 h).1).reaches

lemma reaches_of_readOpenTag {name : Text} {c d : Cursor} {attrs : List BlockAttr}
    (h : readOpenTag name c = some (attrs, d)) : c.Reaches d := by
  obtain ⟨e, he, hd⟩ := Option.bind_eq_some_iff.1 h
  obtain ⟨f, hf, hp⟩ := Option.map_eq_some_iff.1 hd
  obtain ⟨-, rfl⟩ := Prod.mk.inj hp
  have hattrs := (reaches_of_skipTagName he).trans (reaches_readBlockAttrs e)
  exact hattrs.trans
    ((Cursor.reaches_skipWhile isLayout _).trans (Cursor.reads_of_skip? hf).reaches)

lemma reaches_of_skipCloseTag {name : Text} {c d : Cursor} (h : skipCloseTag name c = some d) :
    c.Reaches d := by
  obtain ⟨e, he, hd⟩ := Option.bind_eq_some_iff.1 h
  exact (Cursor.reads_of_skip? he).reaches.trans
    ((e.reaches_skipWhile isLayout).trans (Cursor.reads_of_skip? hd).reaches)

lemma reaches_of_skipQuoted {c d : Cursor} (h : skipQuoted c = some d) : c.Reaches d := by
  rw [skipQuoted] at h
  split at h
  · simp at h
  · split at h
    · obtain ⟨⟨v, e⟩, he, rfl⟩ := Option.map_eq_some_iff.1 h
      exact (c.reaches_advance 1).trans (Cursor.reads_of_cut? he).reaches
    · simp at h

lemma reaches_skipOutsideQuotes (stop : Text → Bool) (c : Cursor) :
    c.Reaches (skipOutsideQuotes stop c) := by
  fun_induction skipOutsideQuotes stop c with
  | case1 => exact Cursor.Reaches.refl _
  | case2 => exact Cursor.Reaches.refl _
  | case3 c hc hs d hq ih => exact (reaches_of_skipQuoted hq).trans ih
  | case4 c hc hs hq ih => exact (c.reaches_advance 1).trans ih

/-! ### Content -/

lemma reaches_of_readNestedTag {c d : Cursor} {b : Bool} (h : readNestedTag c = some (b, d)) :
    c.Reaches d := by
  obtain ⟨e, he, hd⟩ := Option.bind_eq_some_iff.1 h
  have hstop := (reaches_of_skipTagName he).trans (reaches_skipOutsideQuotes
    (fun s => startsWith ">".toList s || startsWith "/>".toList s) e)
  simp only at hd
  split at hd
  · rename_i f hf
    obtain ⟨-, rfl⟩ := Prod.mk.inj (Option.some.inj hd)
    exact hstop.trans (Cursor.reads_of_skip? hf).reaches
  · obtain ⟨f, hf, hp⟩ := Option.map_eq_some_iff.1 hd
    obtain ⟨-, rfl⟩ := Prod.mk.inj hp
    exact hstop.trans (Cursor.reads_of_skip? hf).reaches

lemma reaches_skipTemplateContent (c : Cursor) : c.Reaches (skipTemplateContent c).1 := by
  fun_induction skipTemplateContent c with
  | case1 c hc => exact Cursor.Reaches.refl c
  | case2 c hc plain hn ih =>
      simp only [plain]
      split
      · exact Cursor.Reaches.refl c
      · exact (c.reaches_advance 1).trans ih
  | case3 c hc inside hn hlt d ih' ih => exact (reaches_of_readNestedTag hn).trans ih
  | case4 c hc plain inside hn hlt closing hs ih ih' =>
      simp only [plain]
      split
      · exact Cursor.Reaches.refl c
      · exact (c.reaches_advance 1).trans ih
  | case5 c hc inside hn hlt closing next hs hlt' d ih'' ih' ih =>
      have hclosing := (reaches_of_readNestedTag hn).trans ih'
      exact hclosing.trans ((reaches_of_skipCloseTag hs).trans ih)

lemma reaches_skipContent (kind : BlockKind) (c : Cursor) : c.Reaches (skipContent kind c) := by
  cases kind with
  | template => exact reaches_skipTemplateContent c
  | script => exact c.reaches_skipUntil _
  | style => exact c.reaches_skipUntil _

/-! ### Blocks -/

/-- The content of a block is a part of `source`, and its span is the place of that part. -/
def Block.StandsIn (source : Text) (b : Block) : Prop :=
  ∃ front back, source = front ++ b.content ++ back ∧
    b.span = ⟨byteSize front, byteSize front + byteSize b.content⟩

lemma standsIn_of_readBlock {source : Text} {kind : BlockKind} {c d : Cursor} {b : Block}
    (hc : c.Inside source) (h : readBlock kind c = some (b, d)) :
    b.StandsIn source ∧ c.Reaches d := by
  obtain ⟨⟨attrs, start⟩, ho, hd⟩ := Option.bind_eq_some_iff.1 h
  obtain ⟨e, he, hp⟩ := Option.map_eq_some_iff.1 hd
  obtain ⟨rfl, rfl⟩ := Prod.mk.inj hp
  have hstart := reaches_of_readOpenTag ho
  obtain ⟨content, hcontent⟩ := reaches_skipContent kind start
  refine ⟨?_, hstart.trans (hcontent.reaches.trans (reaches_of_skipCloseTag he))⟩
  obtain ⟨front, back, hs, hf⟩ := hc.of_reaches hstart
  refine ⟨front, (skipContent kind start).rest ++ back, ?_, ?_⟩
  · rw [hs, hcontent.takeBytes_eq, hcontent.rest_eq]
    simp
  · rw [hcontent.takeBytes_eq, hf, hcontent.offset_eq]

lemma reaches_of_skipOtherBlock {c d : Cursor} (h : skipOtherBlock c = some d) : c.Reaches d := by
  obtain ⟨e, he, hd⟩ := Option.bind_eq_some_iff.1 h
  simp only at hd
  split at hd
  · obtain ⟨f, hf, hg⟩ := Option.bind_eq_some_iff.1 hd
    obtain ⟨⟨t, g⟩, hcut, rfl⟩ := Option.map_eq_some_iff.1 hg
    have hname := (Cursor.reads_of_skip? he).reaches.trans (e.reaches_skipWhile isBlockTagChar)
    have htag := hname.trans ((reaches_skipOutsideQuotes (startsWith ">".toList) _).trans
      (Cursor.reads_of_skip? hf).reaches)
    exact htag.trans (Cursor.reads_of_cut? hcut).reaches
  · simp at hd

lemma reaches_of_skipComment {c d : Cursor} (h : skipComment c = some d) : c.Reaches d := by
  obtain ⟨e, he, hd⟩ := Option.bind_eq_some_iff.1 h
  obtain ⟨⟨t, f⟩, hcut, rfl⟩ := Option.map_eq_some_iff.1 hd
  exact (Cursor.reads_of_skip? he).reaches.trans (Cursor.reads_of_cut? hcut).reaches

/-- A piece of a file is passed over, and the block in it, if any, stands in the file. -/
lemma standsIn_of_readPiece {source : Text} {c d : Cursor} {b? : Option Block}
    (hc : c.Inside source) (h : readPiece c = some (b?, d)) :
    (∀ b ∈ b?, b.StandsIn source) ∧ c.Reaches d := by
  rw [readPiece] at h
  split at h
  · obtain ⟨rfl, rfl⟩ := Prod.mk.inj (Option.some.inj h)
    exact ⟨by simp, c.reaches_skipWhile isLayout⟩
  · split at h
    · rename_i e he
      obtain ⟨rfl, rfl⟩ := Prod.mk.inj (Option.some.inj h)
      exact ⟨by simp, reaches_of_skipComment he⟩
    · split at h
      · rename_i b e hb
        obtain ⟨rfl, rfl⟩ := Prod.mk.inj (Option.some.inj h)
        obtain ⟨kind, -, hk⟩ := List.exists_of_findSome?_eq_some hb
        obtain ⟨hstands, hreach⟩ := standsIn_of_readBlock hc hk
        refine ⟨fun b' hb' => ?_, hreach⟩
        obtain rfl : b = b' := by simpa using hb'
        exact hstands
      · obtain ⟨e, he, hp⟩ := Option.map_eq_some_iff.1 h
        obtain ⟨rfl, rfl⟩ := Prod.mk.inj hp
        exact ⟨by simp, reaches_of_skipOtherBlock he⟩

/-- **All blocks of a file stand in it.** -/
theorem standsIn_of_readBlocks {source : Text} {c : Cursor} {blocks : List Block}
    (hc : c.Inside source) (h : readBlocks c = some blocks) : ∀ b ∈ blocks, b.StandsIn source := by
  fun_induction readBlocks c generalizing blocks with
  | case1 c hnil =>
      obtain rfl := Option.some.inj h
      simp
  | case2 => simp at h
  | case3 c hne b? d hpiece ih =>
      obtain ⟨more, hmore, rfl⟩ := Option.map_eq_some_iff.1 h
      obtain ⟨hb, hd⟩ := standsIn_of_readPiece hc hpiece
      intro b hmem
      rcases List.mem_append.1 hmem with hmem | hmem
      · exact hb b (by simpa using hmem)
      · exact ih (hc.of_reaches hd) hmore b hmem

lemma Component.template_standsIn {source : Text} {component : Component} {t : Block}
    (h : Component.ofText source = some component) (ht : component.template = some t) :
    t.StandsIn source := by
  obtain ⟨blocks, hblocks, rfl⟩ := Option.map_eq_some_iff.1 h
  have hmem : t ∈ blocks := (List.mem_filter.1 (List.mem_of_getLast? ht)).1
  exact standsIn_of_readBlocks ⟨[], [], by simp, rfl⟩ hblocks t hmem

end ClassFold
