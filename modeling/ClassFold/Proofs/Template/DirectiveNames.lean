import Mathlib.Data.List.DropRight
import ClassFold.Proofs.Text.Words
import ClassFold.Template.Attr

/-!
The normal form of directive names.

A directive can be spelled in several ways, with capitals or underscores at the starts of words and
with any number of dashes between them.  All spellings have the same normal form, and a name in
normal form is the normal form of itself only.

* `IsDirectiveName`: names in normal form.
* `isDirectiveName_directiveName`, `directiveName_eq_self`: every name is brought to normal form, and
  a name in normal form stays as it is.
* `directiveName_dashedChar`: another spelling makes no difference.
-/

namespace ClassFold

open Text

/-- The names of directives in normal form: in lower case, with single dashes between the words. -/
structure IsDirectiveName (s : Text) : Prop where
  underscore : '_' ∉ s
  upper : ∀ c ∈ s, c.isUpper = false
  double : Free "--".toList s
  head : s.head? ≠ some '-'
  last : s.getLast? ≠ some '-'

/-! ### Spelling out -/

/-- A capital in lower case is a small letter. -/
lemma toNat_toLower {c : Char} (hc : c.isUpper = true) :
    97 ≤ c.toLower.toNat ∧ c.toLower.toNat ≤ 122 := by
  have hrange : 'A'.val ≤ c.val ∧ c.val ≤ 'Z'.val := of_decide_eq_true hc
  have hvalue : c.toLower.val = c.val + 32 := congrArg Char.val (dif_pos hrange)
  have hlow : 65 ≤ c.val.toNat := UInt32.le_iff_toNat_le.1 hrange.1
  have hhigh : c.val.toNat ≤ 90 := UInt32.le_iff_toNat_le.1 hrange.2
  have hsum : c.toLower.toNat = (c.val.toNat + 32) % 2 ^ 32 := by
    rw [Char.toNat, hvalue, UInt32.toNat_add]
    rfl
  omega

lemma isUpper_eq_false {c : Char} (hc : 97 ≤ c.toNat) : c.isUpper = false := by
  refine decide_eq_false fun hrange => ?_
  have hhigh : c.toNat ≤ 90 := UInt32.le_iff_toNat_le.1 hrange.2
  omega

lemma mem_dashedChar {c d : Char} (h : d ∈ dashedChar c) : d ≠ '_' ∧ d.isUpper = false := by
  rw [dashedChar] at h
  split at h
  · obtain rfl := List.mem_singleton.1 h
    decide
  · rename_i hscore
    split at h
    · rename_i hupper
      rcases List.mem_cons.1 h with rfl | h
      · decide
      · obtain rfl := List.mem_singleton.1 h
        have hlow := (toNat_toLower hupper).1
        refine ⟨fun hscore => ?_, isUpper_eq_false hlow⟩
        rw [hscore] at hlow
        exact absurd hlow (by decide)
    · rename_i hupper
      obtain rfl := List.mem_singleton.1 h
      exact ⟨hscore, by simpa using hupper⟩

lemma flatMap_dashedChar {s : Text} (hscore : '_' ∉ s) (hupper : ∀ c ∈ s, c.isUpper = false) :
    s.flatMap dashedChar = s := by
  have hkept : ∀ c ∈ s, dashedChar c = [c] := by
    intro c hc
    have hne : c ≠ '_' := by rintro rfl; exact hscore hc
    rw [dashedChar, if_neg hne, hupper c hc, if_neg Bool.false_ne_true]
  rw [List.flatMap_congr hkept, List.flatMap_singleton']

/-! ### Single dashes -/

lemma mem_of_mem_singleDashesFrom {dash : Bool} {s : Text} {c : Char}
    (h : c ∈ singleDashesFrom dash s) : c ∈ s := by
  induction s generalizing dash with
  | nil => exact h
  | cons d s ih =>
      rw [singleDashesFrom] at h
      split at h
      · rename_i hd
        rcases List.mem_append.1 h with h | h
        · cases dash with
          | true => simp at h
          | false => simpa [hd] using Or.inl h
        · exact List.mem_cons_of_mem d (ih h)
      · rcases List.mem_cons.1 h with rfl | h
        · exact List.mem_cons_self
        · exact List.mem_cons_of_mem d (ih h)

lemma free_double_cons {c : Char} {s : Text} :
    Free "--".toList (c :: s) ↔ (c = '-' → s.head? ≠ some '-') ∧ Free "--".toList s := by
  have hstart : "--".toList <+: c :: s ↔ c = '-' ∧ s.head? = some '-' := by
    cases s with
    | nil => simp [List.prefix_cons_iff]
    | cons d s => simp [List.cons_prefix_cons, eq_comm]
  rw [Free, Free, List.infix_cons_iff, not_or, hstart, not_and]

/-- No two dashes are left next to each other, and none in front when a dash has just been read. -/
lemma free_singleDashesFrom (dash : Bool) (s : Text) :
    Free "--".toList (singleDashesFrom dash s) ∧
      (dash = true → (singleDashesFrom dash s).head? ≠ some '-') := by
  induction s generalizing dash with
  | nil =>
      have hnil : singleDashesFrom dash [] = [] := rfl
      rw [hnil]
      exact ⟨by decide, by simp⟩
  | cons c s ih =>
      rw [singleDashesFrom]
      split
      · obtain ⟨hfree, hhead⟩ := ih true
        cases dash with
        | true => exact ⟨hfree, fun _ => hhead rfl⟩
        | false => exact ⟨free_double_cons.2 ⟨fun _ => hhead rfl, hfree⟩, by simp⟩
      · rename_i hc
        exact ⟨free_double_cons.2 ⟨fun h => absurd h hc, (ih false).1⟩, by simp [hc]⟩

lemma singleDashesFrom_eq_self {dash : Bool} {s : Text} (hfree : Free "--".toList s)
    (hhead : dash = true → s.head? ≠ some '-') : singleDashesFrom dash s = s := by
  induction s generalizing dash with
  | nil => rfl
  | cons c s ih =>
      obtain ⟨hnext, hrest⟩ := free_double_cons.1 hfree
      rw [singleDashesFrom]
      split
      · rename_i hc
        have hdash : dash = false := by
          by_contra h
          exact hhead (by simpa using h) (by rw [hc]; rfl)
        rw [hdash, ih hrest fun _ => hnext hc, hc]
        rfl
      · rw [ih hrest (by simp)]

/-! ### The ends -/

lemma trimDashes_eq (s : Text) :
    trimDashes s = (s.dropWhile (· == '-')).rdropWhile (· == '-') := rfl

lemma trimDashes_isInfix (s : Text) : trimDashes s <:+: s := by
  rw [trimDashes_eq]
  exact (List.rdropWhile_prefix _ _).isInfix.trans (List.dropWhile_suffix _).isInfix

lemma head?_trimDashes (s : Text) : (trimDashes s).head? ≠ some '-' := by
  intro h
  obtain ⟨r, hr⟩ := List.head?_eq_some_iff.1 h
  obtain ⟨t, ht⟩ := List.rdropWhile_prefix (· == '-') (s.dropWhile (· == '-'))
  have hfirst := List.head?_dropWhile_not (· == '-') s
  rw [← ht, ← trimDashes_eq, hr] at hfirst
  simp at hfirst

lemma getLast?_trimDashes (s : Text) : (trimDashes s).getLast? ≠ some '-' := by
  intro h
  have hne : trimDashes s ≠ [] := by
    intro hnil
    rw [hnil] at h
    simp at h
  have hlast := List.rdropWhile_last_not (· == '-') (s.dropWhile (· == '-')) hne
  rw [List.getLast?_eq_getLast_of_ne_nil hne] at h
  exact hlast (beq_iff_eq.2 (Option.some.inj h))

lemma trimDashes_eq_self {s : Text} (hhead : s.head? ≠ some '-') (hlast : s.getLast? ≠ some '-') :
    trimDashes s = s := by
  have hstart : s.dropWhile (· == '-') = s := by
    cases s with
    | nil => rfl
    | cons c s => exact List.dropWhile_cons_of_neg (by simpa using hhead)
  rw [trimDashes_eq, hstart, List.rdropWhile_eq_self_iff]
  intro hne
  rw [List.getLast?_eq_getLast_of_ne_nil hne] at hlast
  simpa using hlast

/-! ### Normal forms -/

/-- Every name is brought to normal form. -/
lemma isDirectiveName_directiveName (s : Text) : IsDirectiveName (directiveName s) := by
  have hpart := trimDashes_isInfix (singleDashesFrom false (s.flatMap dashedChar))
  have hmem : ∀ c ∈ directiveName s, c ≠ '_' ∧ c.isUpper = false := by
    intro c hc
    obtain ⟨d, -, hd⟩ :=
      List.mem_flatMap.1 (mem_of_mem_singleDashesFrom (hpart.subset hc))
    exact mem_dashedChar hd
  refine ⟨fun h => (hmem _ h).1 rfl, fun c hc => (hmem c hc).2, ?_, head?_trimDashes _,
    getLast?_trimDashes _⟩
  intro hdouble
  exact (free_singleDashesFrom false _).1 (hdouble.trans hpart)

/-- A name in normal form stays as it is. -/
lemma directiveName_eq_self {s : Text} (h : IsDirectiveName s) : directiveName s = s := by
  rw [directiveName, flatMap_dashedChar h.underscore h.upper,
    singleDashesFrom_eq_self h.double (by simp), trimDashes_eq_self h.head h.last]

/-- A character may just as well be spelled out already. -/
lemma directiveName_dashedChar (a : Text) (c : Char) (b : Text) :
    directiveName (a ++ (dashedChar c ++ b)) = directiveName (a ++ c :: b) := by
  have hspelled : (dashedChar c).flatMap dashedChar = dashedChar c :=
    flatMap_dashedChar (fun h => (mem_dashedChar h).1 rfl) fun d hd => (mem_dashedChar hd).2
  rw [directiveName, directiveName, List.flatMap_append, List.flatMap_append, List.flatMap_append,
    List.flatMap_cons, hspelled]

/-- **Directive names have a normal form.**  Every name is brought to normal form, doing so twice is
doing it once, and the names in normal form are the ones that stay as they are.  The form does not
depend on whether a word starts with an underscore or a dash, or with a capital or a dash and the
letter in lower case. -/
theorem directiveName_normal :
    (∀ s, IsDirectiveName (directiveName s) ∧
      directiveName (directiveName s) = directiveName s ∧
      (directiveName s = s ↔ IsDirectiveName s)) ∧
    (∀ a b, directiveName (a ++ '-' :: b) = directiveName (a ++ '_' :: b)) ∧
    ∀ a c b, c.isUpper = true →
      directiveName (a ++ '-' :: c.toLower :: b) = directiveName (a ++ c :: b) := by
  refine ⟨fun s => ?_, fun a b => directiveName_dashedChar a '_' b, fun a c b hc => ?_⟩
  · have hnormal := isDirectiveName_directiveName s
    refine ⟨hnormal, directiveName_eq_self hnormal, fun h => ?_, directiveName_eq_self⟩
    rw [h] at hnormal
    exact hnormal
  · have hscore : c ≠ '_' := by rintro rfl; exact absurd hc (by decide)
    have hdashed : dashedChar c = ['-', c.toLower] := by rw [dashedChar, if_neg hscore, if_pos hc]
    have hsame := directiveName_dashedChar a c b
    rw [hdashed] at hsame
    exact hsame

/-- Runs of dashes, underscores and capitals at the ends and in the middle of a name. -/
theorem directiveName_normal_runs :
    directiveName "_-else_IF--X_".toList = "else-i-f-x".toList ∧
      IsDirectiveName "else-i-f-x".toList ∧
      directiveName "_-else_-iF--X_".toList = "else-i-f-x".toList := by
  obtain ⟨hall, -, hupper⟩ := directiveName_normal
  have hform : directiveName "_-else_IF--X_".toList = "else-i-f-x".toList := by decide
  have hnormal := (hall "_-else_IF--X_".toList).1
  rw [hform] at hnormal
  exact ⟨hform, hnormal, (hupper "_-else_".toList 'I' "F--X_".toList (by decide)).trans hform⟩

end ClassFold
