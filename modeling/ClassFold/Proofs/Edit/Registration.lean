import Mathlib.Data.List.Induction
import ClassFold.Proofs.Edit.Splicing

/-!
Edit lists as they are registered.

An edit list is built by calls, each of which replaces or removes the text of a span
(`EditCall`, `EditList.ofCalls`).  All that counts of the calls is the text that the last one of
them leaves for each span (`EditCall.lastText?`).

* `EditList.nodup_ofCalls`: no span is held twice, whatever the calls.
* `EditList.text?_ofCalls`: a list holds for each span what the last call said.
* `EditList.apply_eq_of_text?_eq`: lists that hold the same texts are the same list once sorted.
* `EditList.ofCalls_congr`: calls that leave the same texts give lists of the same size with the
  same outcome for every source, be it a text or an error.
-/

namespace ClassFold

open Text

/-- A call that registers an edit. -/
inductive EditCall where
  /-- Replace the text of a span. -/
  | update (span : Span) (text : Text)
  /-- Remove the text of a span. -/
  | remove (span : Span)
  deriving DecidableEq, Repr

namespace EditCall

/-- The span that a call names. -/
def span : EditCall → Span
  | update span _ => span
  | remove span => span

/-- The text that a call leaves in the place of its span. -/
def text : EditCall → Text
  | update _ text => text
  | remove _ => []

@[simp] lemma span_update (s : Span) (t : Text) : (update s t).span = s := rfl

@[simp] lemma span_remove (s : Span) : (remove s).span = s := rfl

@[simp] lemma text_update (s : Span) (t : Text) : (update s t).text = t := rfl

@[simp] lemma text_remove (s : Span) : (remove s).text = [] := rfl

/-- An edit list behind one more call. -/
def perform (l : EditList) : EditCall → EditList
  | update span text => l.update ⟨span, text⟩
  | remove span => l.remove span

lemma perform_eq_update (l : EditList) (c : EditCall) :
    c.perform l = l.update ⟨c.span, c.text⟩ := by
  cases c <;> rfl

/-- The text that the last one of the calls for a span leaves there; nothing when no call names the
span. -/
def lastText? (calls : List EditCall) (s : Span) : Option Text :=
  (calls.reverse.find? (·.span == s)).map text

lemma lastText?_concat (calls : List EditCall) (c : EditCall) (s : Span) :
    lastText? (calls ++ [c]) s = if c.span = s then some c.text else lastText? calls s := by
  rw [lastText?, List.reverse_concat]
  by_cases h : c.span = s
  · rw [List.find?_cons_of_pos (by simpa using h), if_pos h, Option.map_some]
  · rw [List.find?_cons_of_neg (by simpa using h), if_neg h, lastText?]

end EditCall

lemma Edit.eq_of_parts {e f : Edit} (hspan : e.span = f.span) (htext : e.text = f.text) :
    e = f := by
  obtain ⟨s, t⟩ := e
  obtain ⟨s', t'⟩ := f
  exact Edit.mk.injEq s t s' t' ▸ ⟨hspan, htext⟩

namespace EditList

/-- The edit list that calls build up from nothing. -/
def ofCalls (calls : List EditCall) : EditList := calls.foldl EditCall.perform empty

lemma ofCalls_concat (calls : List EditCall) (c : EditCall) :
    ofCalls (calls ++ [c]) = (ofCalls calls).update ⟨c.span, c.text⟩ := by
  rw [ofCalls, List.foldl_concat, EditCall.perform_eq_update, ofCalls]

/-! ### One edit for each span -/

lemma map_span_insert (e : Edit) (es : List Edit) :
    (insert e es).map Edit.span =
      if e.span ∈ es.map Edit.span then es.map Edit.span else es.map Edit.span ++ [e.span] := by
  induction es with
  | nil => simp [insert]
  | cons f fs ih =>
      by_cases hf : f.span = e.span
      · simp [insert, hf]
      · rw [insert, if_neg hf, List.map_cons, ih]
        by_cases hmem : e.span ∈ fs.map Edit.span
        · simp [hmem]
        · simp [hmem, Ne.symm hf]

/-- **Step.** A call keeps the spans of a list different from each other. -/
lemma nodup_update {l : EditList} (h : (l.edits.map Edit.span).Nodup) (e : Edit) :
    ((l.update e).edits.map Edit.span).Nodup := by
  rw [update, map_span_insert]
  split
  · exact h
  · rename_i hnew
    exact List.nodup_append.2 ⟨h, by simp, fun s hs t ht hst => hnew (by simp_all)⟩

/-- **Run.** No span is held twice, whatever the calls. -/
theorem nodup_ofCalls (calls : List EditCall) : ((ofCalls calls).edits.map Edit.span).Nodup := by
  induction calls using List.reverseRecOn with
  | nil => exact List.nodup_nil
  | append_singleton calls c ih =>
      rw [ofCalls_concat]
      exact nodup_update ih _

/-- **The last call counts.** A list holds for each span the text that the last call for it left. -/
theorem text?_ofCalls (calls : List EditCall) (s : Span) :
    (ofCalls calls).text? s = EditCall.lastText? calls s := by
  induction calls using List.reverseRecOn with
  | nil => rfl
  | append_singleton calls c ih =>
      rw [ofCalls_concat, text?_update, EditCall.lastText?_concat, ih]

/-! ### Lists that hold the same texts -/

/-- A list with one edit for each span holds an edit exactly when it holds its text for its span. -/
lemma mem_edits_iff {l : EditList} (h : (l.edits.map Edit.span).Nodup) {e : Edit} :
    e ∈ l.edits ↔ l.text? e.span = some e.text := by
  rw [text?, Option.map_eq_some_iff]
  constructor
  · intro he
    obtain ⟨f, hf⟩ : ∃ f, l.edits.find? (·.span == e.span) = some f := by
      rw [← Option.isSome_iff_exists, List.find?_isSome]
      exact ⟨e, he, by simp⟩
    have hspan : f.span = e.span := by simpa using List.find?_some hf
    have hfe : f = e := List.inj_on_of_nodup_map h (List.mem_of_find?_eq_some hf) he hspan
    exact ⟨f, hf, by rw [hfe]⟩
  · rintro ⟨f, hf, htext⟩
    have hspan : f.span = e.span := by simpa using List.find?_some hf
    have hfe : f = e := Edit.eq_of_parts hspan htext
    exact hfe ▸ List.mem_of_find?_eq_some hf

section SameTexts

variable {l m : EditList}

/-- Lists that hold the same texts have the same edits, in some order. -/
lemma perm_of_text?_eq (hl : (l.edits.map Edit.span).Nodup) (hm : (m.edits.map Edit.span).Nodup)
    (h : ∀ s, l.text? s = m.text? s) : l.edits.Perm m.edits := by
  refine (List.perm_ext_iff_of_nodup hl.of_map hm.of_map).2 fun e => ?_
  rw [mem_edits_iff hl, mem_edits_iff hm, h]

/-- Sorting undoes the order of registration, since no two edits have the same span. -/
lemma apply_eq_of_text?_eq (hl : (l.edits.map Edit.span).Nodup)
    (hm : (m.edits.map Edit.span).Nodup) (h : ∀ s, l.text? s = m.text? s) (source : Text) :
    l.apply source = m.apply source := by
  have hperm : (l.edits.mergeSort Edit.precedes).Perm (m.edits.mergeSort Edit.precedes) :=
    (List.mergeSort_perm _ _).trans
      ((perm_of_text?_eq hl hm h).trans (List.mergeSort_perm _ _).symm)
  have hnodup : ((m.edits.mergeSort Edit.precedes).map Edit.span).Nodup :=
    ((List.mergeSort_perm m.edits _).map Edit.span).nodup_iff.2 hm
  rw [apply, apply, eq_of_pairwise_precedes hperm hnodup (sorted_mergeSort _) (sorted_mergeSort _)]

end SameTexts

/-- **Calls are a map from spans to texts in which the last writer wins**, and their order does not
matter beyond that: calls that leave the same text for every span give lists of the same size, in
which no span is held twice, and for every source the same outcome. -/
theorem ofCalls_congr {calls calls' : List EditCall}
    (h : ∀ s, EditCall.lastText? calls s = EditCall.lastText? calls' s) :
    (∀ s, (ofCalls calls).text? s = EditCall.lastText? calls s) ∧
      (ofCalls calls).size = (ofCalls calls').size ∧
      ((ofCalls calls).edits.map Edit.span).Nodup ∧
      ((ofCalls calls').edits.map Edit.span).Nodup ∧
      ∀ source, (ofCalls calls).apply source = (ofCalls calls').apply source := by
  have hnodup := nodup_ofCalls calls
  have hnodup' := nodup_ofCalls calls'
  have htext : ∀ s, (ofCalls calls).text? s = (ofCalls calls').text? s := by
    intro s
    rw [text?_ofCalls, text?_ofCalls, h s]
  exact ⟨text?_ofCalls calls, (perm_of_text?_eq hnodup hnodup' htext).length_eq, hnodup, hnodup',
    apply_eq_of_text?_eq hnodup hnodup' htext⟩

/-- Calls in another order, one of which is overruled later. -/
theorem ofCalls_congr_reordered :
    let calls : List EditCall :=
      [.update ⟨6, 11⟩ "there".toList, .remove ⟨0, 1⟩, .update ⟨5, 5⟩ ",".toList]
    let calls' : List EditCall :=
      [.update ⟨5, 5⟩ "!".toList, .remove ⟨0, 1⟩, .update ⟨6, 11⟩ "there".toList,
        .update ⟨5, 5⟩ ",".toList]
    (∀ s, EditCall.lastText? calls s = EditCall.lastText? calls' s) ∧
      (ofCalls calls).edits ≠ (ofCalls calls').edits ∧
      (ofCalls calls).size = (ofCalls calls').size ∧
      (ofCalls calls').apply "hello world".toList = .ok "ello, there".toList ∧
      (ofCalls calls').apply "hello".toList = .error (.outOfBounds ⟨6, 11⟩ 5) := by
  intro calls calls'
  have hlast : ∀ s, EditCall.lastText? calls s = EditCall.lastText? calls' s := by
    intro s
    by_cases h : (⟨5, 5⟩ : Span) = s
    · simp [EditCall.lastText?, calls, calls', h]
    · by_cases h' : (⟨0, 1⟩ : Span) = s
      · simp [EditCall.lastText?, calls, calls', ← h']
      · by_cases h'' : (⟨6, 11⟩ : Span) = s <;>
          simp [EditCall.lastText?, calls, calls', h, h', h'']
  obtain ⟨-, hsize, -, -, happly⟩ := ofCalls_congr hlast
  have hsorted : (ofCalls calls).edits.mergeSort Edit.precedes =
      [⟨⟨0, 1⟩, []⟩, ⟨⟨5, 5⟩, ",".toList⟩, ⟨⟨6, 11⟩, "there".toList⟩] :=
    eq_of_pairwise_precedes ((List.mergeSort_perm _ _).trans (by decide)) (by decide)
      (sorted_mergeSort _) (by decide)
  have hok : (ofCalls calls).apply "hello world".toList = .ok "ello, there".toList := by
    rw [apply, hsorted]
    rfl
  have herror : (ofCalls calls).apply "hello".toList = .error (.outOfBounds ⟨6, 11⟩ 5) := by
    rw [apply, hsorted]
    rfl
  refine ⟨hlast, by decide, hsize, ?_, ?_⟩
  · rw [← happly, hok]
  · rw [← happly, herror]

end EditList

end ClassFold
