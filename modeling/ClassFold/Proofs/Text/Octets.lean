import Mathlib.Data.List.TakeWhile
import ClassFold.Proofs.Text.Words

/-!
Texts byte by byte.

`octets s` lists the bytes of a text in UTF-8, each as the character with its number.  This is what
a reader sees that compares single bytes: the characters of one byte are themselves, and every other
character is a row of bytes that are no characters of one byte.  So a loop over bytes stops between
two characters, provided that its test does not tell the bytes of longer characters apart:

* `length_takeWhile_octets`: a loop that goes on while a byte passes a test (`Coarse`).
* `length_takeUntil_octets`: a loop that stops where a suffix passes a test, with look-ahead
  (`Sharp`).
-/

namespace ClassFold.Text

/-! ### Characters of one byte -/

lemma utf8Size_eq_one_iff {c : Char} : c.utf8Size = 1 ↔ c.toNat ≤ 127 := by
  rw [Char.utf8Size_eq_one_iff, UInt32.le_iff_toNat_le]
  rfl

lemma ne_of_utf8Size {c d : Char} (hc : c.utf8Size ≠ 1) (hd : d.utf8Size = 1) : c ≠ d := by
  rintro rfl
  exact hc hd

lemma beq_of_utf8Size {c d : Char} (hc : c.utf8Size ≠ 1) (hd : d.utf8Size = 1) :
    (c == d) = false :=
  beq_eq_false_iff_ne.2 (ne_of_utf8Size hc hd)

lemma utf8Size_of_isAlphanum {c : Char} (h : c.isAlphanum = true) : c.utf8Size = 1 := by
  have hle {d : Char} (hd : d.toNat ≤ 127) (hc : c.val ≤ d.val) : c.utf8Size = 1 :=
    utf8Size_eq_one_iff.2 (Nat.le_trans (UInt32.le_iff_toNat_le.1 hc) hd)
  -- letters and digits come before a letter or a digit of one byte
  rcases Bool.or_eq_true_iff.1 h with hletter | hdigit
  · rcases Bool.or_eq_true_iff.1 hletter with hupper | hlower
    · exact hle (d := 'Z') (by decide) (of_decide_eq_true hupper).2
    · exact hle (d := 'z') (by decide) (of_decide_eq_true (Bool.and_eq_true_iff.1 hlower).2)
  · exact hle (d := '9') (by decide) (of_decide_eq_true (Bool.and_eq_true_iff.1 hdigit).2)

/-- Whether all characters of a text take one byte. -/
def isSingle (s : Text) : Bool := s.all (·.utf8Size == 1)

lemma isSingle_cons {c : Char} {s : Text} :
    isSingle (c :: s) = true ↔ c.utf8Size = 1 ∧ isSingle s = true := by
  simp [isSingle]

/-! ### Bytes -/

/-- The bytes of a text, each as the character with its number. -/
def octets (s : Text) : Text := s.flatMap fun c => (String.utf8EncodeChar c).map Char.ofUInt8

@[simp] lemma octets_append (s t : Text) : octets (s ++ t) = octets s ++ octets t :=
  List.flatMap_append

@[simp] lemma length_octets (s : Text) : (octets s).length = byteSize s := by
  induction s with
  | nil => rfl
  | cons c s ih =>
      rw [← List.singleton_append, octets_append, List.length_append, ih]
      simp [octets, String.length_utf8EncodeChar]

lemma toNat_ofUInt8 (b : UInt8) : (Char.ofUInt8 b).toNat = b.toNat := UInt8.toNat_toUInt32 b

lemma octets_cons_of_single {c : Char} (hc : c.utf8Size = 1) (s : Text) :
    octets (c :: s) = c :: octets s := by
  have hsmall := utf8Size_eq_one_iff.1 hc
  have hbyte : Char.ofUInt8 (UInt8.ofNat c.toNat) = c := by
    apply Char.toNat_inj.1
    rw [toNat_ofUInt8, UInt8.toNat_ofNat']
    omega
  have hencode : String.utf8EncodeChar c = [UInt8.ofNat c.toNat] := if_pos hsmall
  rw [octets, List.flatMap_cons, hencode, List.map_singleton, hbyte]
  rfl

/-- The bytes of a longer character are no characters of one byte. -/
lemma utf8Size_of_mem_octets {c d : Char} (hc : c.utf8Size ≠ 1) (hd : d ∈ octets [c]) :
    d.utf8Size ≠ 1 := by
  have hlarge : ¬ c.val.toNat ≤ 127 := fun h => hc (utf8Size_eq_one_iff.2 h)
  rw [ne_eq, utf8Size_eq_one_iff]
  simp only [octets, List.flatMap_cons, List.flatMap_nil, List.append_nil, List.mem_map] at hd
  obtain ⟨b, hb, rfl⟩ := hd
  rw [toNat_ofUInt8]
  simp only [String.utf8EncodeChar, hlarge, if_false] at hb
  split_ifs at hb <;> simp only [List.mem_cons, List.not_mem_nil, or_false] at hb <;>
    rcases hb with rfl | rfl | rfl | rfl <;> rw [UInt8.toNat_ofNat'] <;> omega

/-- A longer character starts with a byte of its own. -/
lemma octets_cons_of_longer {c : Char} (hc : c.utf8Size ≠ 1) (s : Text) :
    ∃ d w, octets (c :: s) = d :: (w ++ octets s) ∧ d.utf8Size ≠ 1 ∧
      w.length + 1 = c.utf8Size ∧ ∀ x ∈ w, x.utf8Size ≠ 1 := by
  have hlength : (octets [c]).length = c.utf8Size := by simp
  cases hw : octets [c] with
  | nil =>
      have := c.utf8Size_pos
      simp [hw] at hlength
      omega
  | cons d w =>
      have hmem : ∀ x ∈ d :: w, x.utf8Size ≠ 1 := by
        rw [← hw]
        exact fun x hx => utf8Size_of_mem_octets hc hx
      refine ⟨d, w, ?_, hmem d (by simp), by simpa [hw] using hlength,
        fun x hx => hmem x (by simp [hx])⟩
      rw [← List.singleton_append, octets_append, hw, List.cons_append]

lemma startsWith_octets {w : Text} (hw : isSingle w = true) (s : Text) :
    startsWith w (octets s) = startsWith w s := by
  induction w generalizing s with
  | nil => rfl
  | cons a w ih =>
      cases s with
      | nil => rfl
      | cons c s =>
          obtain ⟨ha, hw⟩ := isSingle_cons.1 hw
          by_cases hc : c.utf8Size = 1
          · have hmore := ih hw s
            rw [octets_cons_of_single hc]
            by_cases hac : a = c
            · simpa [startsWith, strip?, hac] using hmore
            · simp [startsWith, strip?, hac]
          · obtain ⟨d, v, hv, hd, -⟩ := octets_cons_of_longer hc s
            rw [hv]
            simp [startsWith, strip?, (ne_of_utf8Size hc ha).symm, (ne_of_utf8Size hd ha).symm]

/-! ### Loops over bytes -/

/-- A test of characters that does not tell longer characters apart. -/
def Coarse (p : Char → Bool) : Prop :=
  ∀ c d : Char, c.utf8Size ≠ 1 → d.utf8Size ≠ 1 → p c = p d

/-- A loop that goes on while a byte passes a test stops between two characters. -/
lemma length_takeWhile_octets {p : Char → Bool} (hp : Coarse p) (s : Text) :
    ((octets s).takeWhile p).length = byteSize (s.takeWhile p) := by
  induction s with
  | nil => rfl
  | cons c s ih =>
      by_cases hc : c.utf8Size = 1
      · rw [octets_cons_of_single hc]
        by_cases hpc : p c = true
        · simp [hpc, ih, hc, Nat.add_comm]
        · simp [hpc]
      · obtain ⟨d, w, hw, hd, hlength, hmem⟩ := octets_cons_of_longer hc s
        rw [hw]
        by_cases hpc : p c = true
        · -- all bytes of the character pass the test as the character does
          have hall : ∀ x ∈ d :: w, p x = true := by
            intro x hx
            rw [hp x c _ hc, hpc]
            rcases List.mem_cons.1 hx with rfl | hx
            · exact hd
            · exact hmem x hx
          rw [← List.cons_append, List.takeWhile_append_of_pos hall]
          simp only [List.length_append, List.length_cons, ih, List.takeWhile_cons, hpc, if_true,
            byteSize_cons]
          omega
        · have hpd : p d = false := by
            rw [hp d c hd hc]
            simpa using hpc
          simp [hpc, hpd]

/-- A loop over bytes that no longer character passes reads characters. -/
lemma takeWhile_octets {p : Char → Bool} (hp : ∀ c : Char, c.utf8Size ≠ 1 → p c = false)
    (s : Text) : (octets s).takeWhile p = s.takeWhile p := by
  induction s with
  | nil => rfl
  | cons c s ih =>
      by_cases hc : c.utf8Size = 1
      · rw [octets_cons_of_single hc]
        by_cases hpc : p c = true
        · simp [hpc, ih]
        · simp [hpc]
      · obtain ⟨d, w, hw, hd, -⟩ := octets_cons_of_longer hc s
        simp [hw, hp c hc, hp d hd]

lemma coarse_of_longer {p : Char → Bool} {b : Bool}
    (hp : ∀ c : Char, c.utf8Size ≠ 1 → p c = b) : Coarse p :=
  fun c d hc hd => by rw [hp c hc, hp d hd]

/-- A test of suffixes that holds in front of characters of one byte only, and holds of the bytes of
a text where it holds of the text. -/
structure Sharp (p : Text → Bool) : Prop where
  longer : ∀ (c : Char) (s : Text), c.utf8Size ≠ 1 → p (c :: s) = false
  octets : ∀ s : Text, p (octets s) = p s

lemma takeUntil_of_longer {p : Text → Bool} (hp : Sharp p) {w : Text}
    (hw : ∀ x ∈ w, x.utf8Size ≠ 1) (s : Text) : takeUntil p (w ++ s) = w ++ takeUntil p s := by
  induction w with
  | nil => rfl
  | cons c w ih =>
      have hmore := ih fun x hx => hw x (by simp [hx])
      simp [takeUntil, hp.longer c (w ++ s) (hw c (by simp)), hmore]

/-- A loop that stops where a suffix passes a test stops between two characters. -/
lemma length_takeUntil_octets {p : Text → Bool} (hp : Sharp p) (s : Text) :
    (takeUntil p (octets s)).length = byteSize (takeUntil p s) := by
  induction s with
  | nil => rfl
  | cons c s ih =>
      by_cases hc : c.utf8Size = 1
      · have hstop := hp.octets (c :: s)
        rw [octets_cons_of_single hc] at hstop ⊢
        by_cases hpc : p (c :: s) = true
        · simp [takeUntil, hstop, hpc]
        · simp [takeUntil, hstop, hpc, ih, hc, Nat.add_comm]
      · obtain ⟨d, w, hw, hd, hlength, hmem⟩ := octets_cons_of_longer hc s
        rw [hw, takeUntil, hp.longer d _ hd, takeUntil, hp.longer c s hc]
        simp only [Bool.false_eq_true, if_false, List.length_cons, takeUntil_of_longer hp hmem,
          List.length_append, ih, byteSize_cons]
        omega

lemma dropUntil_octets_eq_nil_iff {p : Text → Bool} (hp : Sharp p) (s : Text) :
    dropUntil p (octets s) = [] ↔ dropUntil p s = [] := by
  have hlength := length_takeUntil_octets hp s
  have hbytes := congrArg List.length (takeUntil_append_dropUntil p (octets s))
  have hsize := congrArg byteSize (takeUntil_append_dropUntil p s)
  rw [List.length_append, length_octets] at hbytes
  rw [byteSize_append] at hsize
  constructor
  · intro hnil
    rw [hnil, List.length_nil] at hbytes
    by_contra hne
    have := byteSize_pos hne
    omega
  · intro hnil
    rw [hnil, byteSize_nil] at hsize
    exact List.length_eq_zero_iff.1 (by omega)

/-- A loop that also stops in front of the last byte stops there if it does not stop before. -/
lemma takeUntil_short_or {q : Text → Bool} (hq : ∀ s, q s = true → 1 < s.length) (s : Text) :
    takeUntil (fun s => decide (s.length ≤ 1) || q s) s =
      if dropUntil q s = [] then s.dropLast else takeUntil q s := by
  induction s with
  | nil => rfl
  | cons c s ih =>
      cases s with
      | nil =>
          have hno : q [c] = false := Bool.eq_false_iff.2 fun h => by simpa using hq [c] h
          simp [takeUntil, dropUntil, hno]
      | cons d s =>
          by_cases hstop : q (c :: d :: s) = true
          · simp [takeUntil, dropUntil, hstop]
          · rw [Bool.not_eq_true] at hstop
            have htake : takeUntil q (c :: d :: s) = c :: takeUntil q (d :: s) :=
              if_neg (by simp [hstop])
            have hdrop : dropUntil q (c :: d :: s) = dropUntil q (d :: s) :=
              if_neg (by simp [hstop])
            rw [takeUntil, if_neg (by simp [hstop]), ih, htake, hdrop, List.dropLast_cons_cons]
            split <;> rfl

end ClassFold.Text
