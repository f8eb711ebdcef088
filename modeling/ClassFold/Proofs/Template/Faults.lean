import ClassFold.Proofs.Template.Agreement

/-!
What is wrong with a template that cannot be read.

Each of the three errors says something about the template (`TemplateError.Witnessed`): a comment
without an end starts at its offset, or a quotation mark behind an equals sign that does not come
again stands there, or the template ends in a longer character and has an interpolation without an
end.  A reader reports an error for the text behind its cursor, and what it says there it says of
the text behind any earlier cursor as well (`TemplateError.Witnessed.of_reaches`), so that
`witnessed_of_nextToken` carries over to whole templates.

`parseTemplate_outcome` puts this together with the reading by byte positions.
-/

namespace ClassFold

open Text

/-- What an error says about a template that starts at `base`. -/
def TemplateError.Witnessed (base : Nat) (source : Text) : TemplateError → Prop
  | unterminatedComment offset =>
    ∃ front back, source = front ++ ("<!--".toList ++ back) ∧ offset = base + byteSize front ∧
      Free "-->".toList back
  | unterminatedAttribute offset =>
    ∃ front gap back, ∃ q : Quote, source = front ++ '=' :: gap ++ q.mark :: back ∧
      offset = base + byteSize (front ++ '=' :: gap) ∧ (∀ c ∈ gap, isSpace c = true) ∧
      q.mark ∉ back
  | danglingInterpolation =>
    (∃ last, source.getLast? = some last ∧ last.utf8Size ≠ 1) ∧
      ∃ front back, source = front ++ (['{', '{'] ++ back) ∧ Free ['}', '}'] back

/-- An error says the same of the text behind an earlier cursor. -/
lemma TemplateError.Witnessed.of_reaches {c d : Cursor} {e : TemplateError} (h : c.Reaches d)
    (he : e.Witnessed d.offset d.rest) : e.Witnessed c.offset c.rest := by
  obtain ⟨t, ht⟩ := h
  cases e with
  | unterminatedComment offset =>
      obtain ⟨front, back, hrest, rfl, hfree⟩ := he
      refine ⟨t ++ front, back, by rw [ht.rest_eq, hrest, List.append_assoc], ?_, hfree⟩
      rw [ht.offset_eq, byteSize_append, Nat.add_assoc]
  | unterminatedAttribute offset =>
      obtain ⟨front, gap, back, q, hrest, rfl, hgap, hfree⟩ := he
      refine ⟨t ++ front, gap, back, q, by rw [ht.rest_eq, hrest]; simp, ?_, hgap, hfree⟩
      rw [ht.offset_eq, List.append_assoc, byteSize_append t, Nat.add_assoc]
  | danglingInterpolation =>
      obtain ⟨⟨last, hlast, hlonger⟩, front, back, hrest, hfree⟩ := he
      have hne : d.rest ≠ [] := by simp [hrest]
      refine ⟨⟨last, ?_, hlonger⟩, t ++ front, back, ?_, hfree⟩
      · rw [ht.rest_eq, List.getLast?_append_of_ne_nil t hne, hlast]
      · rw [ht.rest_eq, hrest, List.append_assoc]

section Readers

variable {c : Cursor} {e : TemplateError}

/-- A value is not read when it starts with a quotation mark that does not come again. -/
lemma exists_quote_of_readValue (h : readValue c = .error e) :
    e = .unterminatedAttribute c.offset ∧ ∃ q : Quote, ∃ s, c.rest = q.mark :: s ∧ q.mark ∉ s := by
  rw [readValue] at h
  split at h
  · simp at h
  · rename_i m hm
    obtain ⟨s, hs⟩ := List.head?_eq_some_iff.1 hm
    split at h
    · rename_i hmark
      obtain ⟨q, rfl⟩ := exists_quote_of_mark hmark
      split at h
      · rename_i hcut
        have hnone : cut? [q.mark] s = none := by simpa [Cursor.cut?, hs] using hcut
        exact ⟨(Except.error.inj h).symm, q, s, hs,
          notMem_of_free (free_of_cut?_eq_none (by simp) hnone)⟩
      · simp at h
    · simp at h

lemma witnessed_of_readAttr (h : readAttr c = .error e) : e.Witnessed c.offset c.rest := by
  rw [readAttr] at h
  simp only at h
  split at h
  · simp at h
  · split at h
    · simp at h
    · rename_i equals hequals
      split at h
      · rename_i e' hvalue
        obtain rfl := Except.error.inj h
        obtain ⟨rfl, q, s, hs, hfree⟩ := exists_quote_of_readValue hvalue
        -- the value stands behind an equals sign and white space
        have hsign := Cursor.reads_of_skip? hequals
        have hgap := equals.reads_skipWhile isSpace
        refine .of_reaches ((c.reaches_skipWhile isAttrNameChar).trans
          (Cursor.reaches_skipWhile isSpace _)) ?_
        refine ⟨[], equals.rest.takeWhile isSpace, s, q, ?_, ?_,
          forall_mem_takeWhile isSpace equals.rest, hfree⟩
        · have hrest := hgap.rest_eq
          rw [hs] at hrest
          exact hsign.rest_eq.trans (congrArg (List.cons '=') hrest)
        · rw [hgap.offset_eq, hsign.offset_eq, Nat.add_assoc, ← byteSize_append]
          rfl
      · simp at h

lemma witnessed_of_readTagTail (h : readTagTail c = .error e) : e.Witnessed c.offset c.rest := by
  fun_induction readTagTail c with
  | case1 => simp at h
  | case2 => simp at h
  | case3 => simp at h
  | case4 c first s hc hf hg e' ha =>
      obtain rfl := Except.error.inj h
      exact witnessed_of_readAttr ha
  | case5 c first s hc hf hg ha ih => exact (ih h).of_reaches (c.reaches_advance 1)
  | case6 c first s hc hf hg a d ha e' ht ih =>
      obtain rfl := Except.error.inj h
      exact (ih ht).of_reaches (reads_of_readAttr ha).1.reaches
  | case7 => simp at h

lemma witnessed_of_readOpening (h : readOpening c = .error e) : e.Witnessed c.offset c.rest := by
  rw [readOpening] at h
  split at h
  · rename_i e' ht
    obtain rfl := Except.error.inj h
    exact (witnessed_of_readTagTail ht).of_reaches
      ((c.reaches_advance 1).trans (Cursor.reaches_skipWhile isTagChar _))
  · simp at h

lemma witnessed_of_readComment (hlead : Lead.of c.rest = .comment)
    (h : readComment c = .error e) : e.Witnessed c.offset c.rest := by
  obtain ⟨s, hs⟩ := Lead.exists_of_eq hlead
  rw [readComment] at h
  split at h
  · rename_i hcut
    obtain rfl := Except.error.inj h
    have hinside : (c.advance 4).rest = s := by rw [Cursor.rest_advance, hs]; rfl
    have hnone : cut? "-->".toList s = none := by
      rw [← hinside]
      exact Option.map_eq_none_iff.1 hcut
    exact ⟨[], s, hs, rfl, free_of_cut?_eq_none (by decide) hnone⟩
  · simp at h

lemma witnessed_of_readInterpolation (hlead : Lead.of c.rest = .interpolation)
    (h : readInterpolation c = .error e) : e.Witnessed c.offset c.rest := by
  obtain ⟨s, hs⟩ := Lead.exists_of_eq hlead
  have hinside : (c.advance 2).rest = s := by rw [Cursor.rest_advance, hs]; rfl
  rw [readInterpolation] at h
  simp only at h
  split at h
  · simp at h
  · rename_i hcut
    have hnone : cut? ['}', '}'] s = none := by
      rw [← hinside]
      exact Option.map_eq_none_iff.1 hcut
    split at h
    · simp at h
    · rename_i last hlast
      split at h
      · simp at h
      · rename_i hlonger
        obtain rfl := Except.error.inj h
        rw [hinside] at hlast
        refine ⟨⟨last, ?_, hlonger⟩, [], s, hs, free_of_cut?_eq_none (by simp) hnone⟩
        have hne : s ≠ [] := by
          rintro rfl
          simp at hlast
        rw [hs, List.getLast?_append_of_ne_nil _ hne, hlast]

/-- **One token**: an error says what is wrong with the text behind the cursor. -/
lemma witnessed_of_nextToken (h : nextToken c = .error e) : e.Witnessed c.offset c.rest := by
  rw [nextToken] at h
  split at h
  · rename_i hlead
    exact witnessed_of_readComment hlead h
  · simp at h
  · simp at h
  · exact witnessed_of_readOpening h
  · rename_i hlead
    exact witnessed_of_readInterpolation hlead h
  · simp at h

/-- **A whole template**: an error says what is wrong with it. -/
lemma witnessed_of_scan (h : scan c = .error e) : e.Witnessed c.offset c.rest := by
  fun_induction scan c with
  | case1 => simp at h
  | case2 c hc e' ht =>
      obtain rfl := Except.error.inj h
      exact witnessed_of_nextToken ht
  | case3 c hc t d ht e' hs ih =>
      obtain rfl := Except.error.inj h
      exact (ih hs).of_reaches (laid_of_nextToken ht).reaches
  | case4 => simp at h

end Readers

lemma witnessed_of_readTemplate {base : Nat} {source : Text} {e : TemplateError}
    (h : readTemplate base source = .error e) : e.Witnessed base source := by
  rw [readTemplate] at h
  split at h
  · rename_i e' hscan
    obtain rfl := Except.error.inj h
    exact witnessed_of_scan hscan
  · simp at h

end ClassFold
