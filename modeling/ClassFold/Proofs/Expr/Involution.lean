import Mathlib.Data.List.Infix
import ClassFold.Proofs.Expr.Exchange

/-!
Exchanging quotation marks twice.

Which characters of an expression are exchanged depends on the text in front of them: on the
backslashes that it ends in, and on the backticks in it that are not escaped.  The exchange changes
neither of these, and so it is undone by a second one.

* `EndsEscaping`, `EndsInTemplate`: what the text in front of a character says about it.
* `swapQuotes_append`: the flags of the exchange behind a text are these two.
* `getElem?_swapQuotes`: which characters are exchanged.
* `swapQuotesFrom_swapQuotesFrom`: the exchange is undone from whichever flags it starts.
-/

namespace ClassFold

open Text

/-! ### The text in front of a character -/

/-- A text escapes the character behind it when it ends in an odd number of backslashes. -/
def EndsEscaping (s : Text) : Prop := (s.rtakeWhile (· == '\\')).length % 2 = 1

instance (s : Text) : Decidable (EndsEscaping s) :=
  inferInstanceAs (Decidable ((s.rtakeWhile (· == '\\')).length % 2 = 1))

/-- The number of backticks in a text that are not escaped. -/
def freeTicks (s : Text) : Nat :=
  s.inits.countP fun p => p.getLast? = some backtick ∧ ¬ EndsEscaping p.dropLast

/-- A text ends inside of a stretch between backticks when the number of backticks in it that are not
escaped is odd. -/
def EndsInTemplate (s : Text) : Prop := freeTicks s % 2 = 1

instance (s : Text) : Decidable (EndsInTemplate s) :=
  inferInstanceAs (Decidable (freeTicks s % 2 = 1))

lemma endsEscaping_concat (s : Text) (c : Char) :
    EndsEscaping (s ++ [c]) ↔ ¬ EndsEscaping s ∧ c = '\\' := by
  rw [EndsEscaping, EndsEscaping, List.rtakeWhile_concat]
  by_cases hslash : c = '\\'
  · rw [if_pos (by simp [hslash]), List.length_append, List.length_singleton]
    simp only [hslash, and_true]
    omega
  · rw [if_neg (by simp [hslash])]
    simp [hslash]

lemma freeTicks_concat (s : Text) (c : Char) :
    freeTicks (s ++ [c]) = freeTicks s + if ¬ EndsEscaping s ∧ c = backtick then 1 else 0 := by
  have hinits : (s ++ [c]).inits = s.inits ++ [s ++ [c]] := by simp [List.inits_append]
  rw [freeTicks, hinits, List.countP_append, freeTicks]
  by_cases htick : ¬ EndsEscaping s ∧ c = backtick
  · simp [htick]
  · rw [if_neg htick]
    rw [not_and] at htick
    simpa using fun hc hs => htick hs hc

lemma endsInTemplate_concat (s : Text) (c : Char) :
    EndsInTemplate (s ++ [c]) ↔
      if ¬ EndsEscaping s ∧ c = backtick then ¬ EndsInTemplate s else EndsInTemplate s := by
  rw [EndsInTemplate, freeTicks_concat, EndsInTemplate]
  split <;> omega

/-! ### What is exchanged -/

lemma length_swapQuotesFrom (t e : Bool) (s : Text) :
    (swapQuotesFrom t e s).length = s.length := by
  induction s generalizing t e with
  | nil => rfl
  | cons c s ih => rw [swapQuotesFrom_cons, List.length_cons, ih, List.length_cons]

/-- **The flags of the exchange** behind a text say whether it ends inside of a stretch between
backticks and whether it escapes what follows. -/
lemma swapQuotes_append (s r : Text) :
    swapQuotes (s ++ r) =
      swapQuotes s ++ swapQuotesFrom (EndsInTemplate s) (EndsEscaping s) r := by
  induction s using List.reverseRecOn generalizing r with
  | nil => rfl
  | append_singleton s c ih =>
      have hescape : escapeBehind (EndsEscaping s) c = decide (EndsEscaping (s ++ [c])) := by
        rw [decide_eq_decide.2 (endsEscaping_concat s c), escapeBehind, Bool.decide_and, decide_not]
      have htemplate : templateBehind (EndsInTemplate s) (EndsEscaping s) c =
          decide (EndsInTemplate (s ++ [c])) := by
        rw [Bool.eq_iff_iff, decide_eq_true_iff, endsInTemplate_concat, templateBehind,
          ← decide_not, ← Bool.decide_and]
        by_cases htick : ¬ EndsEscaping s ∧ c = backtick
        · simp [htick]
        · simp [if_neg htick]
      rw [List.append_assoc, ih, ih [c], List.singleton_append, swapQuotesFrom_cons,
        swapQuotesFrom_cons, hescape, htemplate, swapQuotesFrom, List.append_assoc,
        List.singleton_append]

/-- A character is exchanged unless it stands between backticks or is escaped. -/
lemma getElem?_swapQuotes (s : Text) (i : Nat) :
    (swapQuotes s)[i]? =
      if EndsInTemplate (s.take i) ∨ EndsEscaping (s.take i) then s[i]? else s[i]?.map swapMark := by
  rcases Nat.lt_or_ge i s.length with hi | hi
  · have hsplit : s = s.take i ++ s[i] :: s.drop (i + 1) := by
      rw [← List.drop_eq_getElem_cons hi, List.take_append_drop]
    have hfront : (swapQuotes (s.take i)).length = i := by
      rw [swapQuotes, length_swapQuotesFrom, List.length_take_of_le (Nat.le_of_lt hi)]
    have hswap : (swapQuotes s)[i]? =
        some (swapAt (EndsInTemplate (s.take i)) (EndsEscaping (s.take i)) s[i]) := by
      conv_lhs => rw [hsplit]
      rw [swapQuotes_append, List.getElem?_append_right (Nat.le_of_eq hfront), hfront, Nat.sub_self,
        swapQuotesFrom_cons, List.getElem?_cons_zero]
    rw [hswap, List.getElem?_eq_getElem hi, swapAt, ← Bool.decide_or]
    split <;> simp_all
  · have hlong : (swapQuotes s).length ≤ i := by
      rwa [swapQuotes, length_swapQuotesFrom]
    rw [List.getElem?_eq_none hlong, List.getElem?_eq_none hi, Option.map_none, ite_self]

/-! ### Twice -/

/-- The exchange comes by the same flags on the exchanged text, and a second one undoes it. -/
lemma swapQuotesFrom_swapQuotesFrom (t e : Bool) (s : Text) :
    swapQuotesFrom t e (swapQuotesFrom t e s) = s := by
  induction s generalizing t e with
  | nil => rfl
  | cons c s ih =>
      have hescape : escapeBehind e (swapAt t e c) = escapeBehind e c :=
        apply_swapAt (p := escapeBehind e) (by simp [escapeBehind]) t e c
      have htemplate : templateBehind t e (swapAt t e c) = templateBehind t e c :=
        apply_swapAt (p := templateBehind t e) (by simp [templateBehind, backtick]) t e c
      have hswap : swapAt t e (swapAt t e c) = c := by
        rw [swapAt, swapAt]
        split
        · rfl
        · exact swapMark_swapMark c
      rw [swapQuotesFrom_cons, swapQuotesFrom_cons, hescape, htemplate, hswap, ih]

/-- **The exchange of quotation marks is an involution that changes nothing else.**  A second one
undoes it, it keeps the number of characters, and at every place the character stays as it is when it
stands in a stretch between backticks or is escaped, and otherwise has its mark exchanged. -/
theorem swapQuotes_swapQuotes (s : Text) :
    swapQuotes (swapQuotes s) = s ∧ (swapQuotes s).length = s.length ∧
    ∀ i, (swapQuotes s)[i]? =
      if EndsInTemplate (s.take i) ∨ EndsEscaping (s.take i) then s[i]?
      else s[i]?.map fun c => if c = '\'' then '"' else if c = '"' then '\'' else c :=
  ⟨swapQuotesFrom_swapQuotesFrom false false s, length_swapQuotesFrom false false s,
    getElem?_swapQuotes s⟩

-- a literal with an escaped mark, an escaped backtick, and a template literal that is never closed
example : swapQuotes "'\\'' \\\x60 \"\x60'".toList = "\"\\'\" \\\x60 '\x60'".toList := by decide

end ClassFold
