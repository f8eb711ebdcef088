import Mathlib.Data.List.Nodup
import Mathlib.Data.List.Perm.Subperm
import ClassFold.Edit.Apply
import ClassFold.Proofs.Text.Bytes

/-!
Texts before and after edits.

`Spliced pos source es out` says what edits do: `source`, which starts at byte `pos`, and `out`
consist of the same kept parts in the same order, and between two kept parts stands the text of an
edit in `out` where the text of its span stands in `source`.

* `Spliced.unique`, `Spliced.embed`: edits have one outcome, and edits of a part of a text, moved to
  where the part stands, change that part only.
* `Spliced.append`, `Spliced.mergeSort_eq`: edits of texts side by side, and what sorting does to
  the edits of a text.
* `Edit.Fault`: what an edit can be refused for, and `Edit.fault?_eq_none_iff`: when it is not.
* `EditList.spliced_of_apply`: carrying out edits splices the text.
* `EditList.Fits.exists_apply`: edits whose spans fit the text and lie apart from each other are
  carried out without an error, whatever order they were registered in.
* `EditList.edits_updateAll`: edits of different spans are all kept, in their order.
-/

namespace ClassFold

open Text

/-- The same edit of the stretch that lies `base` bytes further on. -/
def Edit.shift (base : Nat) (e : Edit) : Edit := ⟨e.span.shift base, e.text⟩

@[simp] lemma Edit.text_shift (base : Nat) (e : Edit) : (e.shift base).text = e.text := rfl

@[simp] lemma Edit.span_shift (base : Nat) (e : Edit) :
    (e.shift base).span = e.span.shift base := rfl

/-! ### Splicing -/

/-- The text `source` from byte `pos` on becomes `out` by the edits `es`, from left to right. -/
inductive Spliced : (pos : Nat) → (source : Text) → List Edit → (out : Text) → Prop where
  | nil (pos : Nat) (source : Text) : Spliced pos source [] source
  | cons {pos : Nat} (kept old : Text) {rest out : Text} {e : Edit} {es : List Edit}
      (hs : e.span = ⟨pos + byteSize kept, pos + byteSize kept + byteSize old⟩)
      (h : Spliced e.span.stop rest es out) :
      Spliced pos (kept ++ old ++ rest) (e :: es) (kept ++ e.text ++ out)

lemma Spliced.cons_inv {pos : Nat} {source out : Text} {e : Edit} {es : List Edit}
    (h : Spliced pos source (e :: es) out) :
    ∃ kept old rest out', source = kept ++ (old ++ rest) ∧ out = kept ++ e.text ++ out' ∧
      e.span = ⟨pos + byteSize kept, pos + byteSize kept + byteSize old⟩ ∧
      Spliced e.span.stop rest es out' := by
  cases h with
  | @cons _ kept old rest out' _ _ hs h => exact ⟨kept, old, rest, out', by simp, rfl, hs, h⟩

/-- Edits have one outcome. -/
lemma Spliced.unique {pos : Nat} {source out out' : Text} {es : List Edit}
    (h : Spliced pos source es out) (h' : Spliced pos source es out') : out = out' := by
  induction es generalizing pos source out out' with
  | nil => cases h; cases h'; rfl
  | cons e es ih =>
      obtain ⟨kept, old, rest, u, hsource, rfl, hspan, hu⟩ := h.cons_inv
      obtain ⟨kept', old', rest', u', hsource', rfl, hspan', hu'⟩ := h'.cons_inv
      -- the span tells how long the kept part and the old text are
      have hsize : byteSize kept = byteSize kept' ∧ byteSize old = byteSize old' := by
        rw [hspan, Span.mk.injEq] at hspan'
        omega
      rw [hsource] at hsource'
      obtain ⟨rfl, hrest⟩ := append_inj_of_byteSize hsource' hsize.1
      obtain ⟨rfl, rfl⟩ := append_inj_of_byteSize hrest hsize.2
      rw [ih hu hu']

/-- A text with more text around it becomes its outcome with the same text around it, by the same
edits moved on by the size of the text in front. -/
lemma Spliced.embed {pos : Nat} {source out : Text} {es : List Edit} (h : Spliced pos source es out)
    (base start : Nat) (front back : Text) (hb : start + byteSize front = base + pos) :
    Spliced start (front ++ source ++ back) (es.map (Edit.shift base)) (front ++ out ++ back) := by
  induction h generalizing front start with
  | nil pos source => exact .nil _ _
  | @cons pos kept old rest out e es hs h ih =>
      have hmore := ih (base + e.span.stop) [] (by simp)
      have hspan : (e.shift base).span =
          ⟨start + byteSize (front ++ kept), start + byteSize (front ++ kept) + byteSize old⟩ := by
        have hstart : base + (pos + byteSize kept) = start + byteSize (front ++ kept) := by
          rw [byteSize_append]
          omega
        rw [Edit.shift, Span.shift, hs, ← hstart, Nat.add_assoc base]
      have hall := Spliced.cons (front ++ kept) old hspan hmore
      simpa using hall

/-- Text in front of the edits is kept. -/
lemma Spliced.keep_front {pos : Nat} {source out : Text} {es : List Edit} (front : Text)
    (h : Spliced (pos + byteSize front) source es out) :
    Spliced pos (front ++ source) es (front ++ out) := by
  cases h with
  | nil => exact .nil _ _
  | @cons _ kept old rest out e es hs h =>
      have hspan : e.span = ⟨pos + byteSize (front ++ kept),
          pos + byteSize (front ++ kept) + byteSize old⟩ := by
        rw [hs, byteSize_append, Nat.add_assoc pos]
      simpa using Spliced.cons (front ++ kept) old hspan h

/-- Edits of two texts that stand side by side change each of them on its own. -/
lemma Spliced.append {pos : Nat} {source source' out out' : Text} {es es' : List Edit}
    (h : Spliced pos source es out) (h' : Spliced (pos + byteSize source) source' es' out') :
    Spliced pos (source ++ source') (es ++ es') (out ++ out') := by
  induction h with
  | nil pos source => exact h'.keep_front source
  | @cons pos kept old rest out e es hs h ih =>
      have hstop : e.span.stop + byteSize rest = pos + byteSize (kept ++ old ++ rest) := by
        rw [hs]
        simp [Nat.add_assoc]
      have hmore := ih (by rw [hstop]; exact h')
      simpa using Spliced.cons kept old hs hmore

/-- Edits from left to right start behind the place where the text starts, and end before the next
ones start. -/
lemma Spliced.pairwise {pos : Nat} {source out : Text} {es : List Edit}
    (h : Spliced pos source es out) :
    (∀ e ∈ es, pos ≤ e.span.start ∧ e.span.start ≤ e.span.stop) ∧
      es.Pairwise fun e f => e.span.stop ≤ f.span.start := by
  induction h with
  | nil pos source => simp
  | @cons pos kept old rest out e es hs h ih =>
      have hspan : pos ≤ e.span.start ∧ e.span.start ≤ e.span.stop := by
        rw [hs]
        exact ⟨Nat.le_add_right _ _, Nat.le_add_right _ _⟩
      refine ⟨fun f hf => ?_, List.Pairwise.cons (fun f hf => (ih.1 f hf).1) ih.2⟩
      rcases List.mem_cons.1 hf with rfl | hf
      · exact hspan
      · have := ih.1 f hf
        omega

/-! ### Carrying out edits in order -/

/-- What an edit of `source` behind the span `previous` is refused for.  The bounds are checked
first, then the boundaries, then the place behind `previous`. -/
inductive Edit.Fault (source : Text) (previous : Option Span) (e : Edit) : EditError → Prop where
  | outOfBounds (h : ¬ (e.span.start ≤ e.span.stop ∧ e.span.stop ≤ byteSize source)) :
      Fault source previous e (.outOfBounds e.span (byteSize source))
  | notBoundary (hin : e.span.start ≤ e.span.stop ∧ e.span.stop ≤ byteSize source)
      (h : ¬ (isBoundary source e.span.start = true ∧ isBoundary source e.span.stop = true)) :
      Fault source previous e (.notBoundary e.span)
  | overlap (hfits : e.span.Fits source) {p : Span} (hp : p ∈ previous)
      (h : e.span.start < p.stop) : Fault source previous e (.overlap p e.span)

lemma Edit.fault?_eq_some_iff {source : Text} {previous : Option Span} {e : Edit}
    {err : EditError} :
    e.fault? source (byteSize source) previous = some err ↔ e.Fault source previous err := by
  constructor
  · intro h
    rw [fault?.eq_def] at h
    split at h
    · rename_i hout
      obtain rfl := Option.some.inj h
      refine .outOfBounds fun hin => ?_
      simp only [Bool.or_eq_true, decide_eq_true_eq] at hout
      omega
    · rename_i hout
      simp only [Bool.or_eq_true, decide_eq_true_eq, not_or, Nat.not_lt] at hout
      split at h
      · rename_i hb
        obtain rfl := Option.some.inj h
        refine .notBoundary hout fun hboth => ?_
        simp [hboth.1, hboth.2] at hb
      · rename_i hb
        have hboth : isBoundary source e.span.start = true ∧ isBoundary source e.span.stop = true :=
          by simpa using hb
        cases previous with
        | none => simp at h
        | some p =>
            obtain ⟨hlt, rfl⟩ : e.span.start < p.stop ∧ EditError.overlap p e.span = err := by
              simpa using h
            exact .overlap ⟨hout.1, hout.2, hboth.1, hboth.2⟩ rfl hlt
  · intro h
    rw [fault?.eq_def]
    cases h with
    | outOfBounds h =>
        rw [if_pos]
        simp only [Bool.or_eq_true, decide_eq_true_eq]
        omega
    | notBoundary hin h =>
        rw [if_neg, if_pos]
        · rw [Bool.not_eq_true', Bool.and_eq_false_iff, ← Bool.not_eq_true, ← Bool.not_eq_true]
          exact not_and_or.1 h
        · simp only [Bool.or_eq_true, decide_eq_true_eq]
          omega
    | overlap hfits hp h =>
        obtain rfl := Option.mem_def.1 hp
        have hin : ¬ (e.span.stop < e.span.start ∨ byteSize source < e.span.stop) := by
          have := hfits.start_le_stop
          have := hfits.stop_le
          omega
        simp [hin, hfits.start_boundary, hfits.stop_boundary, h]

lemma Edit.forall_not_fault_iff {source : Text} {previous : Option Span} {e : Edit} :
    (∀ err, ¬ e.Fault source previous err) ↔ e.fault? source (byteSize source) previous = none := by
  rw [Option.eq_none_iff_forall_ne_some]
  exact forall_congr' fun err => not_congr Edit.fault?_eq_some_iff.symm

/-- An edit of a span that fits and starts at or behind the end of the previous one has no fault. -/
lemma Edit.fault?_eq_none_iff {source : Text} {previous : Option Span} {e : Edit} :
    e.fault? source (byteSize source) previous = none ↔
      e.span.Fits source ∧ resumeAt previous ≤ e.span.start := by
  rw [← forall_not_fault_iff]
  constructor
  · intro h
    have hin : e.span.start ≤ e.span.stop ∧ e.span.stop ≤ byteSize source :=
      by_contra fun hout => h _ (.outOfBounds hout)
    have hboth : isBoundary source e.span.start = true ∧ isBoundary source e.span.stop = true :=
      by_contra fun hinside => h _ (.notBoundary hin hinside)
    have hfits : e.span.Fits source := ⟨hin.1, hin.2, hboth.1, hboth.2⟩
    refine ⟨hfits, ?_⟩
    cases previous with
    | none => exact Nat.zero_le _
    | some p => exact Nat.le_of_not_lt fun hlt => h _ (.overlap hfits rfl hlt)
  · rintro ⟨hfits, hle⟩ err hfault
    cases hfault with
    | outOfBounds h => exact h ⟨hfits.start_le_stop, hfits.stop_le⟩
    | notBoundary _ h => exact h ⟨hfits.start_boundary, hfits.stop_boundary⟩
    | overlap _ hp h =>
        obtain rfl := Option.mem_def.1 hp
        exact absurd h (Nat.not_lt_of_le hle)

/-- Between two boundaries a text is the slice between them and what comes behind. -/
lemma dropBytes_eq_slice_append {source : Text} {p : Nat} {s : Span}
    (hp : isBoundary source p = true) (hs : s.Fits source) (hle : p ≤ s.start) :
    ∃ old, dropBytes p source = slice source p s.start ++ old ++ dropBytes s.stop source ∧
      s.start = p + byteSize (slice source p s.start) ∧ s.stop = s.start + byteSize old := by
  obtain ⟨a, old, c, rfl, rfl⟩ := Span.fits_iff_exists.1 hs
  have hfit : Span.Fits (a ++ old ++ c) ⟨p, byteSize a⟩ :=
    ⟨hle, by simp only [byteSize_append]; omega, hp, hs.start_boundary⟩
  obtain ⟨front, kept, back, hback, hspan⟩ := Span.fits_iff_exists.1 hfit
  simp only [Span.mk.injEq] at hspan
  obtain ⟨rfl, hk⟩ := hspan
  -- the text in front of the span is cut at the first boundary
  have ha : a = front ++ kept := by
    have h1 := takeBytes_byteSize_append a (old ++ c)
    rw [← List.append_assoc, hback, hk, ← byteSize_append, takeBytes_byteSize_append] at h1
    exact h1.symm
  subst ha
  have hslice : slice (front ++ kept ++ old ++ c) (byteSize front) (byteSize (front ++ kept)) =
      kept := by
    rw [byteSize_append, List.append_assoc _ old c, slice_append]
  refine ⟨old, ?_, ?_, rfl⟩
  · rw [hslice, ← byteSize_append, dropBytes_byteSize_append]
    simp only [List.append_assoc, dropBytes_byteSize_append]
  · rw [hslice, byteSize_append]

lemma applyOrdered_cons_eq_ok_iff {source out : Text} {n : Nat} {previous : Option Span} {e : Edit}
    {es : List Edit} :
    applyOrdered source n previous (e :: es) = .ok out ↔
      e.fault? source n previous = none ∧ ∃ rest,
        applyOrdered source n (some e.span) es = .ok rest ∧
        out = slice source (resumeAt previous) e.span.start ++ e.text ++ rest := by
  rw [applyOrdered]
  cases e.fault? source n previous with
  | some err => simp
  | none =>
      cases applyOrdered source n (some e.span) es with
      | error err => simp
      | ok rest => simp [eq_comm]

/-- What ordered edits give is the spliced text. -/
lemma spliced_of_applyOrdered {source out : Text} {previous : Option Span} {es : List Edit}
    (hp : isBoundary source (resumeAt previous) = true)
    (h : applyOrdered source (byteSize source) previous es = .ok out) :
    Spliced (resumeAt previous) (dropBytes (resumeAt previous) source) es out := by
  induction es generalizing previous out with
  | nil =>
      rw [applyOrdered] at h
      obtain rfl := Except.ok.inj h
      exact .nil _ _
  | cons e es ih =>
      obtain ⟨hfault, rest, hrest, rfl⟩ := applyOrdered_cons_eq_ok_iff.1 h
      obtain ⟨hfits, hle⟩ := Edit.fault?_eq_none_iff.1 hfault
      obtain ⟨old, hd, hstart, hstop⟩ := dropBytes_eq_slice_append hp hfits hle
      rw [hd]
      refine .cons _ old ?_ (@ih _ (some e.span) hfits.stop_boundary hrest)
      rw [← hstart, ← hstop]

/-- Edits that fit and end before the next ones start are carried out. -/
lemma exists_applyOrdered {source : Text} {previous : Option Span} {es : List Edit}
    (hfits : ∀ e ∈ es, e.span.Fits source) (hle : ∀ e ∈ es, resumeAt previous ≤ e.span.start)
    (hsort : es.Pairwise fun e f => e.span.stop ≤ f.span.start) :
    ∃ out, applyOrdered source (byteSize source) previous es = .ok out := by
  induction es generalizing previous with
  | nil => exact ⟨_, rfl⟩
  | cons e es ih =>
      obtain ⟨hlast, hsort⟩ := List.pairwise_cons.1 hsort
      obtain ⟨rest, hrest⟩ := @ih (some e.span) (fun f hf => hfits f (by simp [hf]))
        (fun f hf => hlast f hf) hsort
      refine ⟨_, applyOrdered_cons_eq_ok_iff.2 ⟨?_, rest, hrest, rfl⟩⟩
      exact Edit.fault?_eq_none_iff.2 ⟨hfits e (by simp), hle e (by simp)⟩

/-! ### Edits in any order -/

lemma Edit.precedes_iff {e f : Edit} :
    e.precedes f = true ↔ e.span.start < f.span.start ∨
      e.span.start = f.span.start ∧ e.span.stop ≤ f.span.stop := by
  simp [precedes]

lemma Edit.precedes_trans (e f g : Edit) (h : e.precedes f = true) (h' : f.precedes g = true) :
    e.precedes g = true := by
  rw [precedes_iff] at h h' ⊢
  omega

lemma Edit.precedes_total (e f : Edit) : (e.precedes f || f.precedes e) = true := by
  rw [Bool.or_eq_true, precedes_iff, precedes_iff]
  omega

lemma sorted_mergeSort (es : List Edit) :
    (es.mergeSort Edit.precedes).Pairwise fun e f => e.precedes f = true :=
  List.pairwise_mergeSort Edit.precedes_trans Edit.precedes_total es

/-- Spans that lie apart are brought into order by sorting: each one ends before the next one
starts. -/
lemma pairwise_mergeSort_precedes {es : List Edit}
    (hle : ∀ e ∈ es, e.span.start ≤ e.span.stop)
    (hapart : es.Pairwise fun e f => e.span.Apart f.span) :
    (es.mergeSort Edit.precedes).Pairwise fun e f => e.span.stop ≤ f.span.start := by
  have hperm := es.mergeSort_perm Edit.precedes
  have hsorted := sorted_mergeSort es
  have happ := (hperm.pairwise_iff fun h => h.symm).2 hapart
  refine (hsorted.and happ).imp_of_mem fun {e f} he hf h => ?_
  have h1 := hle e (hperm.mem_iff.1 he)
  have h2 := hle f (hperm.mem_iff.1 hf)
  obtain ⟨hprec, hap⟩ := h
  rw [Edit.precedes_iff] at hprec
  rcases hap with hap | hap <;> omega

/-- Edits of different spans stand in the order of their spans in one way only. -/
lemma eq_of_pairwise_precedes {es fs : List Edit} (hperm : es.Perm fs)
    (hnodup : (fs.map Edit.span).Nodup) (hes : es.Pairwise fun e f => e.precedes f = true)
    (hfs : fs.Pairwise fun e f => e.precedes f = true) : es = fs := by
  refine List.Perm.eq_of_pairwise (fun e f he hf hef hfe => ?_) hes hfs hperm
  rw [Edit.precedes_iff] at hef hfe
  have hspan : e.span = f.span := Span.eq_of_ends (by omega) (by omega)
  exact List.inj_on_of_nodup_map hnodup (hperm.mem_iff.1 he) hf hspan

/-- Sorting edits of different spans leads to their order from left to right. -/
lemma Spliced.mergeSort_eq {pos : Nat} {source out : Text} {es fs : List Edit}
    (h : Spliced pos source es out) (hperm : es.Perm fs) (hnodup : (fs.map Edit.span).Nodup) :
    fs.mergeSort Edit.precedes = es := by
  obtain ⟨hle, hsort⟩ := h.pairwise
  have hes : es.Pairwise fun e f => e.precedes f = true := by
    refine hsort.imp_of_mem fun {e f} he hf hef => ?_
    have := (hle e he).2
    have := (hle f hf).2
    rw [Edit.precedes_iff]
    omega
  exact eq_of_pairwise_precedes ((List.mergeSort_perm fs _).trans hperm.symm)
    ((hperm.map Edit.span).nodup_iff.2 hnodup) (sorted_mergeSort fs) hes

namespace EditList

/-- The edits of a list fit a text: every span fits it, and any two lie apart. -/
structure Fits (source : Text) (l : EditList) : Prop where
  each : ∀ e ∈ l.edits, e.span.Fits source
  apart : l.edits.Pairwise fun e f => e.span.Apart f.span

/-- **Edits that fit are carried out**, whatever their order. -/
theorem Fits.exists_apply {source : Text} {l : EditList} (h : l.Fits source) :
    ∃ out, l.apply source = .ok out := by
  have hperm := l.edits.mergeSort_perm Edit.precedes
  refine exists_applyOrdered (fun e he => h.each e (hperm.mem_iff.1 he)) (fun e he => Nat.zero_le _)
    (pairwise_mergeSort_precedes (fun e he => (h.each e he).start_le_stop) h.apart)

/-- What edits give is the text spliced by them in the order of their spans. -/
lemma spliced_of_apply {source out : Text} {l : EditList} (h : l.apply source = .ok out) :
    Spliced 0 source (l.edits.mergeSort Edit.precedes) out := by
  have hs := spliced_of_applyOrdered (isBoundary_iff_exists.2 ⟨[], source, rfl, rfl⟩) h
  simpa [resumeAt] using hs

/-- An edit of a new span is put behind all others. -/
lemma insert_eq_append {e : Edit} {es : List Edit} (h : e.span ∉ es.map Edit.span) :
    insert e es = es ++ [e] := by
  induction es with
  | nil => rfl
  | cons f fs ih =>
      obtain ⟨hf, hfs⟩ : e.span ≠ f.span ∧ e.span ∉ fs.map Edit.span := by simpa using h
      rw [insert, if_neg (Ne.symm hf), ih hfs, List.cons_append]

/-- **Edits of different spans** are all kept, in the order in which they come. -/
theorem edits_updateAll {l : EditList} {es : List Edit}
    (h : ((l.edits ++ es).map Edit.span).Nodup) : (l.updateAll es).edits = l.edits ++ es := by
  induction es generalizing l with
  | nil => simp [updateAll]
  | cons e es ih =>
      have hins : (l.update e).edits = l.edits ++ [e] := by
        refine insert_eq_append fun hmem => ?_
        rw [List.map_append, List.map_cons] at h
        exact (List.nodup_append.1 h).2.2 _ hmem _ (by simp) rfl
      have hrest := @ih (l.update e) (by rw [hins]; simpa using h)
      rw [hins] at hrest
      simpa [updateAll] using hrest

end EditList

end ClassFold
