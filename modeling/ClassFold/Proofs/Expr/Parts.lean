import Mathlib.Data.List.TakeWhile
import ClassFold.Expr.ClassValue
import ClassFold.Expr.Combine

/-!
Characters of the parts of an expression.

The marks of a text are its quotation marks, backticks and backslashes (`isLiteralMark`).  An
expression is taken apart at other characters only, so all marks of an expression are in its parts,
and each part has the marks that it has in the expression.  There is one lemma for each way of
taking a text apart: trimming, splitting at commas, cutting at a colon or an operator, and taking
off delimiters or quotes.
-/

namespace ClassFold

open Text

/-- The characters that matter for where a literal ends. -/
def isLiteralMark (c : Char) : Bool := Nesting.isMark c || c == '\\'

lemma isLiteralMark_iff {x : Char} :
    isLiteralMark x = true ↔ ((x = '\'' ∨ x = '"') ∨ x = backtick) ∨ x = '\\' := by
  simp only [isLiteralMark, Nesting.isMark, Bool.or_eq_true, beq_iff_eq]

lemma Quote.isLiteralMark_mark (q : Quote) : isLiteralMark q.mark = true := by
  cases q <;> rfl

/-- A text of other characters has no mark. -/
lemma notMem_of_any {x : Char} (hx : isLiteralMark x = true) {w : Text}
    (hw : w.any isLiteralMark = false) : x ∉ w := by
  intro h
  rw [List.any_eq_false] at hw
  exact hw x h hx

section Parts

variable {x : Char}

lemma ne_of_isLiteralMark (hx : isLiteralMark x = true) {c : Char}
    (hc : isLiteralMark c = false) : x ≠ c := by
  rintro rfl
  rw [hx] at hc
  simp at hc

lemma isBlank_of_isLiteralMark (hx : isLiteralMark x = true) : isBlank x = false := by
  rcases isLiteralMark_iff.1 hx with ((rfl | rfl) | rfl) | rfl <;> decide

/-! ### Marks in parts of a text -/

lemma mem_trim (hx : isBlank x = false) {s : Text} : x ∈ trim s ↔ x ∈ s := by
  have hdrop (t : Text) : x ∈ t.dropWhile isBlank ↔ x ∈ t := by
    constructor
    · exact fun h => (List.dropWhile_sublist _).mem h
    · intro h
      rw [← List.takeWhile_append_dropWhile (p := isBlank) (l := t), List.mem_append] at h
      rcases h with h | h
      · have := List.mem_takeWhile_imp h
        rw [hx] at this
        simp at this
      · exact h
  rw [trim, trimEnd, trimStart, List.mem_reverse, hdrop, List.mem_reverse, hdrop]

lemma mem_joinWith {sep : Char} (hx : x ≠ sep) (parts : List Text) :
    x ∈ joinWith sep parts ↔ ∃ t ∈ parts, x ∈ t := by
  fun_induction joinWith sep parts with
  | case1 => simp
  | case2 s => simp
  | case3 s t rest ih => simp [hx, ih]

lemma mem_commaJoin (hx : isLiteralMark x = true) (parts : List Text) :
    x ∈ commaJoin parts ↔ ∃ t ∈ parts, x ∈ t :=
  mem_joinWith (ne_of_isLiteralMark hx (by decide)) parts

lemma mem_splitFrom {sep : Char} (hx : x ≠ sep) (n : Nesting) (s : Text) :
    (∃ p ∈ splitFrom sep n s, x ∈ p) ↔ x ∈ s := by
  induction s generalizing n with
  | nil => simp [splitFrom]
  | cons c s ih =>
      rw [splitFrom]
      split
      · rename_i hc
        have hne : x ≠ c := by
          rw [Bool.and_eq_true, beq_iff_eq] at hc
          rw [hc.2]
          exact hx
        simp [ih, hne]
      · have hs := ih (n.next c)
        cases hp : splitFrom sep (n.next c) s with
        | nil => exact absurd hp (splitFrom_ne_nil sep _ s)
        | cons p ps =>
            rw [hp] at hs
            simp only [List.mem_cons, exists_eq_or_imp] at hs
            simp only [List.modifyHead_cons, List.mem_cons, exists_eq_or_imp, ← hs, or_assoc]

/-- Splitting into items keeps the marks. -/
lemma mem_topItems (hx : isLiteralMark x = true) (s : Text) :
    (∃ i ∈ topItems s, x ∈ i) ↔ x ∈ s := by
  have hcomma : x ≠ ',' := ne_of_isLiteralMark hx (by decide)
  rw [← mem_splitFrom hcomma .top s, topItems, ← splitTop]
  constructor
  · rintro ⟨i, hi, hxi⟩
    obtain ⟨p, hp, rfl⟩ := List.mem_map.1 (List.mem_filter.1 hi).1
    exact ⟨p, hp, (mem_trim (isBlank_of_isLiteralMark hx)).1 hxi⟩
  · rintro ⟨p, hp, hxp⟩
    have hxt : x ∈ trim p := (mem_trim (isBlank_of_isLiteralMark hx)).2 hxp
    refine ⟨trim p, List.mem_filter.2 ⟨List.mem_map_of_mem hp, ?_⟩, hxt⟩
    simpa using List.ne_nil_of_mem hxt

/-- The parts around an exposed character have no other characters than the whole. -/
lemma mem_of_cutFrom {sep : Char} {n : Nesting} {s a b : Text}
    (h : cutFrom sep n s = some (a, b)) (hx : x ∈ a ∨ x ∈ b) : x ∈ s := by
  fun_induction cutFrom sep n s generalizing a b with
  | case1 => simp at h
  | case2 n c s hc =>
      obtain ⟨rfl, rfl⟩ : [] = a ∧ s = b := by simpa using h
      simpa using Or.inr hx
  | case3 n c s hc ih =>
      obtain ⟨⟨a', b'⟩, hp, he⟩ := Option.map_eq_some_iff.1 h
      obtain ⟨rfl, rfl⟩ : c :: a' = a ∧ b' = b := by simpa using he
      rw [List.mem_cons, or_assoc] at hx
      rcases hx with rfl | hx
      · exact List.mem_cons_self
      · exact List.mem_cons_of_mem _ (ih hp hx)

lemma mem_of_between? {left right : Char} {s t : Text} (h : between? left right s = some t)
    (hx : x ∈ t) : x ∈ s := by
  rw [between?_eq_some.1 h]
  simp [hx]

lemma mem_of_unquote? {s t : Text} (h : unquote? s = some t) (hx : x ∈ t) : x ∈ s := by
  rw [unquote?] at h
  split at h
  · simp at h
  · split at h
    · exact mem_of_between? (Option.filter_eq_some_iff.1 h).1 hx
    · simp at h

lemma mem_of_splitOnP {p : Char → Bool} {s part : Text} (h : part ∈ s.splitOnP p)
    (hx : x ∈ part) : x ∈ s := by
  induction s generalizing part with
  | nil =>
      rw [List.splitOnP_nil, List.mem_singleton] at h
      exact h ▸ hx
  | cons c s ih =>
      rw [List.splitOnP_cons_eq_if_modifyHead] at h
      split at h
      · rcases List.mem_cons.1 h with rfl | h
        · simp at hx
        · exact List.mem_cons_of_mem c (ih h hx)
      · cases hs : s.splitOnP p with
        | nil => exact absurd hs (List.splitOnP_ne_nil p s)
        | cons q qs =>
            rw [hs] at h
            rcases List.mem_cons.1 h with rfl | h
            · rcases List.mem_cons.1 hx with rfl | hx
              · exact List.mem_cons_self
              · exact List.mem_cons_of_mem c (ih (by simp [hs]) hx)
            · exact List.mem_cons_of_mem c (ih (by simp [hs, h]) hx)

lemma mem_of_classNames {s name : Text} (h : name ∈ classNames s) (hx : x ∈ name) : x ∈ s :=
  mem_of_splitOnP (List.mem_filter.1 h).1 hx

lemma mem_of_splitLast (hblank : isBlank x = false) {ops : List Operator} {s l r : Text}
    {o : Operator} (h : splitLast ops s = some (l, o, r)) (hx : x ∈ l ∨ x ∈ r) : x ∈ s := by
  rw [splitLast] at h
  split at h
  · rename_i l' o' r' hs
    split at h
    · simp at h
    · obtain ⟨rfl, rfl, rfl⟩ : trim l' = l ∧ o' = o ∧ trim r' = r := by simpa using h
      rw [mem_trim hblank, mem_trim hblank] at hx
      rw [eq_of_lastOperatorFrom hs, List.mem_append, List.mem_append]
      rcases hx with hx | hx
      · exact .inl (.inl hx)
      · exact .inr hx
  · simp at h

lemma mem_braced (hx : isLiteralMark x = true) (content : Text) :
    x ∈ braced content ↔ x ∈ content := by
  have hopen : x ≠ '{' := ne_of_isLiteralMark hx (by decide)
  have hclose : x ≠ '}' := ne_of_isLiteralMark hx (by decide)
  simp [braced, hopen, hclose]

lemma mem_bracketed (hx : isLiteralMark x = true) (content : Text) :
    x ∈ bracketed content ↔ x ∈ content := by
  have hopen : x ≠ '[' := ne_of_isLiteralMark hx (by decide)
  have hclose : x ≠ ']' := ne_of_isLiteralMark hx (by decide)
  simp [bracketed, hopen, hclose]

/-- The shape of a binding keeps its marks. -/
lemma Binding.mem_content (hx : isLiteralMark x = true) (s : Text) :
    x ∈ (Binding.ofText s).content ↔ x ∈ s := by
  rw [← mem_trim (isBlank_of_isLiteralMark hx) (s := s), Binding.ofText]
  cases hobj : between? '{' '}' (trim s) with
  | some content =>
      rw [between?_eq_some.1 hobj]
      exact (mem_braced hx content).symm
  | none =>
      cases harr : between? '[' ']' (trim s) with
      | some content =>
          rw [between?_eq_some.1 harr]
          exact (mem_bracketed hx content).symm
      | none => rfl

end Parts

end ClassFold
