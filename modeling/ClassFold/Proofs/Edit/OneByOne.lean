import Mathlib.Data.List.Pairwise
import ClassFold.Proofs.Edit.Registration

/-!
Carrying out edits one by one.

An edit list is carried out in one pass from left to right that compares each edit only with the one
before it.  This is measured against editing by hand: `Edit.replaceIn` replaces one span of a text,
and edits from right to left do not move the spans that are still to come.

* `Spliced.foldr_replaceIn`: splicing is replacing span by span, from right to left.
* `FirstFault`: the first one of ordered edits that fails its own check, with its error.
* `applyOrdered_eq_error_iff`: the pass stops at the first fault.
* `EditList.apply_eq_ok_iff`: the pass succeeds exactly when all spans fit and any two lie apart.
* `EditList.apply_ofCalls`: the outcome for every list that calls can build.
-/

namespace ClassFold

open Text

/-! ### Replacing one span -/

/-- A text in which the span of an edit is replaced by the text of the edit. -/
def Edit.replaceIn (source : Text) (e : Edit) : Text :=
  takeBytes e.span.start source ++ e.text ++ dropBytes e.span.stop source

lemma Edit.replaceIn_append {e : Edit} {front old : Text}
    (hs : e.span = ⟨byteSize front, byteSize front + byteSize old⟩) (back : Text) :
    e.replaceIn (front ++ old ++ back) = front ++ e.text ++ back := by
  rw [replaceIn, hs, ← byteSize_append, dropBytes_byteSize_append, List.append_assoc front,
    takeBytes_byteSize_append]

/-- **Splicing is replacing span by span**, the last one first: what has been replaced already lies
behind every span that is still to come. -/
lemma Spliced.foldr_replaceIn {pos : Nat} {source out : Text} {es : List Edit}
    (h : Spliced pos source es out) (front : Text) (hfront : byteSize front = pos) :
    es.foldr (fun e s => e.replaceIn s) (front ++ source) = front ++ out := by
  induction h generalizing front with
  | nil pos source => rfl
  | @cons pos kept old rest out e es hs h ih =>
      have hspan : e.span =
          ⟨byteSize (front ++ kept), byteSize (front ++ kept) + byteSize old⟩ := by
        rw [hs, byteSize_append, hfront]
      have hstop : byteSize (front ++ kept ++ old) = e.span.stop := by
        rw [hspan, byteSize_append (front ++ kept)]
      calc (e :: es).foldr (fun e s => e.replaceIn s) (front ++ (kept ++ old ++ rest))
          = e.replaceIn (es.foldr (fun e s => e.replaceIn s) (front ++ kept ++ old ++ rest)) := by
            simp
        _ = e.replaceIn (front ++ kept ++ old ++ out) := by rw [ih _ hstop]
        _ = front ++ kept ++ e.text ++ out := Edit.replaceIn_append hspan out
        _ = front ++ (kept ++ e.text ++ out) := by simp

/-- The spans of edits that splice a text fit it. -/
lemma Spliced.fits {pos : Nat} {source out : Text} {es : List Edit} (h : Spliced pos source es out)
    (front : Text) (hfront : byteSize front = pos) :
    ∀ e ∈ es, e.span.Fits (front ++ source) := by
  induction h generalizing front with
  | nil pos source => simp
  | @cons pos kept old rest out e es hs h ih =>
      intro f hf
      rcases List.mem_cons.1 hf with rfl | hf
      · refine Span.fits_iff_exists.2 ⟨front ++ kept, old, rest, by simp, ?_⟩
        rw [hs, byteSize_append, hfront]
      · have hstop : byteSize (front ++ kept ++ old) = e.span.stop := by
          rw [hs, byteSize_append, byteSize_append, hfront]
        simpa using ih _ hstop f hf

/-! ### The first fault -/

/-- The span of the last one of some edits, and `previous` when there are none. -/
def spanOfLast (previous : Option Span) (es : List Edit) : Option Span :=
  (es.map fun e => some e.span).getLastD previous

@[simp] lemma spanOfLast_nil (previous : Option Span) : spanOfLast previous [] = previous := rfl

@[simp] lemma spanOfLast_cons (previous : Option Span) (e : Edit) (es : List Edit) :
    spanOfLast previous (e :: es) = spanOfLast (some e.span) es := by
  rw [spanOfLast, List.map_cons, List.getLastD_cons, spanOfLast]

/-- Of edits in a row behind the span `previous`, the first one with a fault has the fault `err`:
it is the fault of an edit in front of which no edit has one. -/
def FirstFault (source : Text) (previous : Option Span) (es : List Edit) (err : EditError) : Prop :=
  ∃ before e after, es = before ++ e :: after ∧ e.Fault source (spanOfLast previous before) err ∧
    ∀ front f back, before = front ++ f :: back →
      ∀ err', ¬ f.Fault source (spanOfLast previous front) err'

lemma not_firstFault_nil (source : Text) (previous : Option Span) (err : EditError) :
    ¬ FirstFault source previous [] err := by
  rintro ⟨before, e, after, hes, -⟩
  simp at hes

lemma firstFault_cons_iff {source : Text} {previous : Option Span} {e : Edit} {es : List Edit}
    {err : EditError} :
    FirstFault source previous (e :: es) err ↔ e.Fault source previous err ∨
      (∀ err', ¬ e.Fault source previous err') ∧ FirstFault source (some e.span) es err := by
  constructor
  · rintro ⟨before, f, after, hes, hfault, hfirst⟩
    cases before with
    | nil =>
        obtain ⟨rfl, rfl⟩ := List.cons.inj hes
        exact .inl hfault
    | cons g before =>
        obtain ⟨rfl, rfl⟩ := List.cons.inj hes
        refine .inr ⟨hfirst [] e before rfl, before, f, after, rfl, by simpa using hfault, ?_⟩
        intro front f' back hbefore
        simpa using hfirst (e :: front) f' back (by simp [hbefore])
  · rintro (hfault | ⟨hnone, before, f, after, rfl, hfault, hfirst⟩)
    · exact ⟨[], e, es, rfl, hfault, by simp⟩
    · refine ⟨e :: before, f, after, rfl, by simpa using hfault, ?_⟩
      intro front f' back hbefore
      cases front with
      | nil =>
          obtain ⟨rfl, rfl⟩ := List.cons.inj hbefore
          exact hnone
      | cons g front =>
          obtain ⟨rfl, rfl⟩ := List.cons.inj hbefore
          simpa using hfirst front f' back rfl

/-- **The pass stops at the first fault.** -/
theorem applyOrdered_eq_error_iff {source : Text} {previous : Option Span} {es : List Edit}
    {err : EditError} :
    applyOrdered source (byteSize source) previous es = .error err ↔
      FirstFault source previous es err := by
  induction es generalizing previous with
  | nil => simp [applyOrdered, not_firstFault_nil]
  | cons e es ih =>
      rw [firstFault_cons_iff, Edit.forall_not_fault_iff, ← Edit.fault?_eq_some_iff, applyOrdered,
        ← ih]
      cases e.fault? source (byteSize source) previous with
      | some err' => simp
      | none => cases applyOrdered source (byteSize source) (some e.span) es <;> simp

/-! ### Every list that can be built -/

/-- An edit stands below another one when it starts earlier, or starts at the same place and ends
earlier. -/
def Edit.Below (e f : Edit) : Prop :=
  e.span.start < f.span.start ∨ e.span.start = f.span.start ∧ e.span.stop < f.span.stop

namespace EditList

/-- Sorting leads to ascending spans, since none is held twice. -/
lemma pairwise_below_mergeSort {l : EditList} (h : (l.edits.map Edit.span).Nodup) :
    (l.edits.mergeSort Edit.precedes).Pairwise Edit.Below := by
  have hperm := List.mergeSort_perm l.edits Edit.precedes
  have hne : (l.edits.mergeSort Edit.precedes).Pairwise fun e f => e.span ≠ f.span :=
    List.pairwise_map.1 ((hperm.map Edit.span).nodup_iff.2 h)
  refine ((sorted_mergeSort l.edits).and hne).imp fun {e f} hef => ?_
  obtain ⟨hprec, hspan⟩ := hef
  rw [Edit.precedes_iff] at hprec
  have hends : ¬ (e.span.start = f.span.start ∧ e.span.stop = f.span.stop) :=
    fun heq => hspan (Span.eq_of_ends heq.1 heq.2)
  rw [Edit.Below]
  omega

/-- Any two edits lie apart when they do so along the list. -/
lemma forall_apart_iff {es : List Edit} (h : es.Nodup) :
    (∀ e ∈ es, ∀ f ∈ es, e ≠ f → e.span.Apart f.span) ↔
      es.Pairwise fun e f => e.span.Apart f.span := by
  constructor
  · intro hall
    exact h.pairwise_of_forall_ne hall
  · intro hpair e he f hf hne
    have : Std.Symm fun e f : Edit => e.span.Apart f.span := ⟨fun _ _ hef => hef.symm⟩
    exact hpair.forall he hf hne

/-- **A list is carried out exactly when it fits**, and what comes out is the text with its spans
replaced from right to left. -/
theorem apply_eq_ok_iff (l : EditList) (source out : Text) :
    l.apply source = .ok out ↔ l.Fits source ∧
      out = (l.edits.mergeSort Edit.precedes).foldr (fun e s => e.replaceIn s) source := by
  have hperm := List.mergeSort_perm l.edits Edit.precedes
  have hout {out : Text} (h : l.apply source = .ok out) :
      (l.edits.mergeSort Edit.precedes).foldr (fun e s => e.replaceIn s) source = out :=
    (spliced_of_apply h).foldr_replaceIn [] rfl
  constructor
  · intro h
    have hspliced := spliced_of_apply h
    refine ⟨⟨fun e he => ?_, ?_⟩, (hout h).symm⟩
    · exact hspliced.fits [] rfl e (hperm.mem_iff.2 he)
    · have hsort := hspliced.pairwise.2.imp fun h => (Or.inl h : Span.Apart _ _)
      exact (hperm.pairwise_iff fun h => h.symm).1 hsort
  · rintro ⟨hfits, rfl⟩
    obtain ⟨out, h⟩ := hfits.exists_apply
    rw [h, hout h]

/-- **Applying edits is editing by hand.**  Let `es` be the edits of a list that calls have built,
in ascending order.  The list is carried out exactly when every span fits the text and any two
different edits lie apart; the outcome is the text in which the spans are replaced one at a time, in
descending order.  Otherwise the error is that of the first edit of `es` that fails its check. -/
theorem apply_ofCalls (calls : List EditCall) (source : Text) :
    ∃ es, es.Perm (ofCalls calls).edits ∧ es.Pairwise Edit.Below ∧
      (∀ out, (ofCalls calls).apply source = .ok out ↔
        (∀ e ∈ es, e.span.Fits source) ∧ (∀ e ∈ es, ∀ f ∈ es, e ≠ f → e.span.Apart f.span) ∧
          out = es.reverse.foldl Edit.replaceIn source) ∧
      ∀ err, (ofCalls calls).apply source = .error err ↔ FirstFault source none es err := by
  have hnodup := nodup_ofCalls calls
  have hperm := List.mergeSort_perm (ofCalls calls).edits Edit.precedes
  refine ⟨_, hperm, pairwise_below_mergeSort hnodup, fun out => ?_, fun err => ?_⟩
  · have hapart := (hperm.pairwise_iff fun {e f : Edit} (h : e.span.Apart f.span) => h.symm)
    rw [apply_eq_ok_iff, forall_apart_iff (hperm.nodup_iff.2 hnodup.of_map), List.foldl_reverse,
      hapart, ← and_assoc]
    refine and_congr_left fun _ => ?_
    exact ⟨fun h => ⟨fun e he => h.each e (hperm.mem_iff.1 he), h.apart⟩,
      fun h => ⟨fun e he => h.1 e (hperm.mem_iff.2 he), h.2⟩⟩
  · exact applyOrdered_eq_error_iff

end EditList

end ClassFold
