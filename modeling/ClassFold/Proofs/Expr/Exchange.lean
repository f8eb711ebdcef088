import Mathlib.Data.List.DropRight
import ClassFold.Proofs.Expr.Items
import ClassFold.Proofs.Expr.Marks

/-!
Exchanging quotation marks.

`swapQuotes` reads an expression by flags of its own: whether a template literal is open and whether
the next character is escaped.  It does not know about literals in quotation marks.  So a mark in
code behind a backslash misleads it, and so does a quotation mark inside or at the end of a literal
in quotation marks behind an odd number of backticks of that literal (`misled`).  Everywhere else
its flags and the nesting stay in step.

* `swapQuotesFrom_cons`: one character of the exchange.
* `Nesting.InStep`: the flags that can belong to a nesting.
* `Nesting.InStep.next`, `Nesting.InStep.after_eq`: a character, and a text, that does not mislead
  keeps them in step, and the exchanged text is nested as the text is, with the marks exchanged.
* `splitTop_swapQuotes`, `topItems_map_swapQuotes`: the exchanged text is split where the text is.
* `topItems_swapQuotes_append_iff`, `Unmarked.topItems_swapQuotes_iff`: a text that does not mislead
  can be left out, and a literal misleads if and only if its number of backticks is odd.
-/

namespace ClassFold

open Text Nesting

/-! ### One character -/

/-- A character after the exchange, where `t` says whether a template literal is open and `e`
whether the character is escaped. -/
def swapAt (t e : Bool) (c : Char) : Char := if t || e then c else swapMark c

/-- Whether a template literal is open behind a character. -/
def templateBehind (t e : Bool) (c : Char) : Bool := if !e && decide (c = backtick) then !t else t

/-- Whether the character behind a character is escaped. -/
def escapeBehind (e : Bool) (c : Char) : Bool := !e && decide (c = '\\')

lemma swapQuotesFrom_cons (t e : Bool) (c : Char) (s : Text) :
    swapQuotesFrom t e (c :: s) =
      swapAt t e c :: swapQuotesFrom (templateBehind t e c) (escapeBehind e c) s := by
  cases e with
  | true => simp [swapQuotesFrom, swapAt, templateBehind, escapeBehind]
  | false =>
      by_cases hslash : c = '\\'
      · subst hslash
        simp [swapQuotesFrom, swapAt, templateBehind, escapeBehind, swapMark, backtick]
      · by_cases htick : c = backtick
        · subst htick
          simp [swapQuotesFrom, swapAt, templateBehind, escapeBehind, swapMark, backtick]
        · simp [swapQuotesFrom, swapAt, templateBehind, escapeBehind, hslash, htick]

lemma swapMark_swapMark (c : Char) : swapMark (swapMark c) = c := by
  rw [swapMark, swapMark]
  split_ifs <;> simp_all

lemma swapMark_inj {c d : Char} : swapMark c = swapMark d ↔ c = d := by
  refine ⟨fun h => ?_, congrArg swapMark⟩
  rw [← swapMark_swapMark c, h, swapMark_swapMark d]

lemma swapMark_eq_self {c : Char} (hc : isMark c = false) : swapMark c = c := by
  simp only [isMark, Bool.or_eq_false_iff, beq_eq_false_iff_ne] at hc
  rw [swapMark, if_neg hc.1.1, if_neg hc.1.2]

lemma swapMark_ne_self {c : Char} (hc : isMark c = true) (htick : c ≠ backtick) :
    swapMark c ≠ c := by
  obtain rfl | rfl : c = '\'' ∨ c = '"' := by simpa [isMark, htick] using hc
  · decide
  · decide

/-- The exchange keeps every property of characters that both quotation marks share. -/
lemma apply_swapAt {p : Char → Bool} (hp : p '\'' = p '"') (t e : Bool) (c : Char) :
    p (swapAt t e c) = p c := by
  rw [swapAt, swapMark]
  split_ifs with hkeep hsingle hdouble
  · rfl
  · rw [hsingle, hp]
  · rw [hdouble, hp]
  · rfl

lemma swapAt_of_isMark {c : Char} (hc : isMark c = false) (t e : Bool) : swapAt t e c = c := by
  rw [swapAt, swapMark_eq_self hc, ite_self]

/-! ### In step -/

namespace Nesting

/-- The same place with the mark of an open literal exchanged. -/
def exchanged : Nesting → Nesting
  | code d => code d
  | literal m d => literal (swapMark m) d
  | escaped m d => escaped (swapMark m) d

/-- Whether the exchange misreads a character: a mark in code that it takes for an escaped one, or a
quotation mark in a literal in quotation marks that it takes for a part of a template literal. -/
def misreads : Nesting → (template escape : Bool) → Char → Bool
  | code _, _, e, c => e && isMark c
  | literal m _, t, _, c => t && m != backtick && swapMark c != c
  | escaped _ _, _, _, _ => false

/-- Whether the exchange misreads some character of a text. -/
def misledFrom : Nesting → (template escape : Bool) → Text → Bool
  | _, _, _, [] => false
  | n, t, e, c :: s =>
    n.misreads t e c || misledFrom (n.next c) (templateBehind t e c) (escapeBehind e c) s

/-- The flags of the exchange that can belong to a nesting.  A backslash in code counts as an escape,
and the backticks of a literal in quotation marks turn the flag for template literals over; both do
no harm as long as nothing is misread. -/
inductive InStep : Nesting → (template escape : Bool) → Prop where
  | code {d : Nat} {e : Bool} : InStep (code d) false e
  | literal {m : Char} {d : Nat} {t : Bool} (hm : isMark m = true) (ht : m = backtick → t = true) :
      InStep (literal m d) t false
  | escaped {m : Char} {d : Nat} {t : Bool} (hm : isMark m = true) (ht : m = backtick → t = true) :
      InStep (escaped m d) t true

namespace InStep

variable {n : Nesting} {t e : Bool} {c : Char} {s : Text}

/-- **Step in code.** -/
lemma next_code {d : Nat} (h : InStep (Nesting.code d) t e)
    (hc : (Nesting.code d).misreads t e c = false) :
    InStep ((Nesting.code d).next c) (templateBehind t e c) (escapeBehind e c) ∧
      (Nesting.code d).exchanged.next (swapAt t e c) = ((Nesting.code d).next c).exchanged := by
  cases h with
  | code =>
      cases hm : isMark c with
      | true =>
          -- a literal starts, and its mark is not escaped
          obtain rfl : e = false := by simpa [misreads, hm] using hc
          have hslash : c ≠ '\\' := by rintro rfl; exact absurd hm (by decide)
          have hescape : escapeBehind false c = false := by simp [escapeBehind, hslash]
          have hswap : isMark (swapMark c) = true := by
            rw [← hm]
            exact apply_swapAt (p := isMark) (by decide) false false c
          rw [hescape]
          simp only [Nesting.next, exchanged, swapAt, hm, hswap, if_true, Bool.or_self,
            Bool.false_eq_true, if_false, and_true]
          exact .literal hm fun htick => by simp [templateBehind, htick]
      | false =>
          have htick : c ≠ backtick := by rintro rfl; exact absurd hm (by decide)
          obtain ⟨k, hk⟩ : ∃ k, (Nesting.code d).next c = .code k := by
            simp only [Nesting.next, hm, Bool.false_eq_true, if_false]
            split
            · exact ⟨_, rfl⟩
            · split <;> exact ⟨_, rfl⟩
          have htemplate : templateBehind false e c = false := by simp [templateBehind, htick]
          rw [swapAt_of_isMark hm, htemplate, exchanged, hk]
          exact ⟨.code, rfl⟩

/-- The exchanged character ends the exchanged literal if and only if the character ends the
literal. -/
lemma swapAt_eq_swapMark_iff {m : Char} {d : Nat} (h : InStep (Nesting.literal m d) t e)
    (hc : (Nesting.literal m d).misreads t e c = false) : swapAt t e c = swapMark m ↔ c = m := by
  cases h with
  | literal hm ht =>
      cases t with
      | false =>
          rw [swapAt, Bool.or_self, if_neg Bool.false_ne_true, swapMark_inj]
      | true =>
          rw [swapAt, Bool.true_or, if_pos rfl]
          by_cases htick : m = backtick
          · rw [htick]
            rfl
          · -- a kept quotation mark would be misread, and other characters end no literal
            have hkept : swapMark c = c := by simpa [misreads, htick] using hc
            rw [← swapMark_inj, swapMark_swapMark, hkept]

/-- **Step in a literal.** -/
lemma next_literal {m : Char} {d : Nat} (h : InStep (Nesting.literal m d) t e)
    (hc : (Nesting.literal m d).misreads t e c = false) :
    InStep ((Nesting.literal m d).next c) (templateBehind t e c) (escapeBehind e c) ∧
      (Nesting.literal m d).exchanged.next (swapAt t e c) =
        ((Nesting.literal m d).next c).exchanged := by
  have hends := h.swapAt_eq_swapMark_iff hc
  cases h with
  | literal hm ht =>
      by_cases hslash : c = '\\'
      · subst hslash
        have htemplate : templateBehind t false '\\' = t := by simp [templateBehind, backtick]
        rw [htemplate, swapAt_of_isMark (by decide)]
        exact ⟨.escaped hm ht, rfl⟩
      · have hescape : escapeBehind false c = false := by simp [escapeBehind, hslash]
        have hkept : swapAt t false c ≠ '\\' := by
          intro hswap
          refine hslash ?_
          have hsame := apply_swapAt (p := (· == '\\')) (by decide) t false c
          simpa [hswap] using hsame
        rw [hescape]
        simp only [Nesting.next, exchanged, hslash, hkept, hends, if_false]
        by_cases hend : c = m
        · subst hend
          have htemplate : templateBehind t false c = false := by
            by_cases htick : c = backtick
            · simp [templateBehind, htick, ht htick]
            · obtain rfl : t = false := by
                simpa [misreads, htick, swapMark_ne_self hm htick] using hc
              simp [templateBehind, htick]
          rw [if_pos rfl, if_pos rfl, htemplate]
          exact ⟨.code, rfl⟩
        · rw [if_neg hend, if_neg hend]
          refine ⟨.literal hm fun htick => ?_, rfl⟩
          have hmore : c ≠ backtick := by rwa [htick] at hend
          simp [templateBehind, hmore, ht htick]

/-- **Step.** A character that is not misread keeps the flags and the nesting in step, and the
exchanged character is read as the character is, with the marks exchanged. -/
lemma next (h : InStep n t e) (hc : n.misreads t e c = false) :
    InStep (n.next c) (templateBehind t e c) (escapeBehind e c) ∧
      n.exchanged.next (swapAt t e c) = (n.next c).exchanged := by
  cases n with
  | code d => exact h.next_code hc
  | literal m d => exact h.next_literal hc
  | escaped m d =>
      cases h with
      | escaped hm ht => exact ⟨.literal hm ht, rfl⟩

/-- The exchange exposes nothing and hides nothing. -/
lemma exposes_eq (n : Nesting) (t e : Bool) (c : Char) :
    n.exchanged.exposes (swapAt t e c) = n.exposes c := by
  cases n with
  | code d =>
      cases d with
      | zero => exact apply_swapAt (p := top.exposes) (by decide) t e c
      | succ d => rfl
  | literal m d => rfl
  | escaped m d => rfl

/-- **Run.** A text that does not mislead is nested after the exchange as before, with the marks
exchanged. -/
lemma after_eq (h : InStep n t e) (hs : n.misledFrom t e s = false) :
    n.exchanged.after (swapQuotesFrom t e s) = (n.after s).exchanged := by
  induction s generalizing n t e with
  | nil => rfl
  | cons c s ih =>
      obtain ⟨hc, hmore⟩ := Bool.or_eq_false_iff.1 hs
      obtain ⟨hstep, hnext⟩ := h.next hc
      rw [swapQuotesFrom_cons, after_cons, hnext, ih hstep hmore, after_cons]

lemma overcloses_eq (h : InStep n t e) (hs : n.misledFrom t e s = false) :
    n.exchanged.overcloses (swapQuotesFrom t e s) = n.overcloses s := by
  induction s generalizing n t e with
  | nil => rfl
  | cons c s ih =>
      obtain ⟨hc, hmore⟩ := Bool.or_eq_false_iff.1 hs
      obtain ⟨hstep, hnext⟩ := h.next hc
      have htop : n.exchanged = top ↔ n = top := by cases n <;> simp [exchanged]
      rw [swapQuotesFrom_cons, overcloses, overcloses, hnext, ih hstep hmore,
        apply_swapAt (p := isClosing) (by decide), decide_eq_decide.2 htop]

/-- The parts of the exchanged text are the exchanged parts.  Behind a separator the exchange starts
anew, since no literal is open there. -/
lemma splitFrom_eq {sep : Char} (hsep : sep ≠ '\\') (h : InStep n t e)
    (hs : n.misledFrom t e s = false) :
    ∃ p ps, splitFrom sep n s = p :: ps ∧
      splitFrom sep n.exchanged (swapQuotesFrom t e s) =
        swapQuotesFrom t e p :: ps.map swapQuotes := by
  induction s generalizing n t e with
  | nil => exact ⟨[], [], rfl, rfl⟩
  | cons c s ih =>
      obtain ⟨hc, hmore⟩ := Bool.or_eq_false_iff.1 hs
      obtain ⟨hstep, hnext⟩ := h.next hc
      obtain ⟨p, ps, hsplit, hswap⟩ := ih hstep hmore
      have hexposes := exposes_eq n t e c
      rw [swapQuotesFrom_cons, splitFrom, splitFrom, hnext, hexposes, hsplit, hswap]
      cases hexposed : n.exposes c with
      | false => exact ⟨c :: p, ps, by simp, by simp [swapQuotesFrom_cons]⟩
      | true =>
          obtain ⟨rfl, htop⟩ := eq_top_of_exposes hexposed
          have hmark : isMark c = false := by
            simp only [exposes, Bool.not_eq_true', Bool.or_eq_false_iff] at hexposed
            exact hexposed.1.1
          rw [swapAt_of_isMark hmark]
          by_cases hcut : c = sep
          · subst hcut
            have htick : c ≠ backtick := by rintro rfl; exact absurd hmark (by decide)
            obtain rfl : t = false := by cases h; rfl
            have htemplate : templateBehind false e c = false := by simp [templateBehind, htick]
            have hescape : escapeBehind e c = false := by simp [escapeBehind, hsep]
            rw [htemplate, hescape]
            exact ⟨[], p :: ps, by simp, by simp [swapQuotesFrom, swapQuotes]⟩
          · refine ⟨c :: p, ps, by simp [hcut], ?_⟩
            simp [hcut, swapQuotesFrom_cons, swapAt_of_isMark hmark]

/-- Behind a text that ends at the top no template literal is open for the exchange. -/
lemma swapQuotesFrom_append_comma (h : InStep n t e) (hs : n.misledFrom t e s = false)
    (hend : n.after s = top) (r : Text) :
    swapQuotesFrom t e (s ++ ',' :: r) = swapQuotesFrom t e s ++ ',' :: swapQuotes r := by
  induction s generalizing n t e with
  | nil =>
      obtain rfl : n = top := hend
      obtain rfl : t = false := by cases h; rfl
      have hcomma : swapAt false e ',' = ',' ∧ templateBehind false e ',' = false ∧
          escapeBehind e ',' = false := by
        cases e <;> decide
      rw [List.nil_append, swapQuotesFrom_cons, hcomma.1, hcomma.2.1, hcomma.2.2, swapQuotesFrom,
        List.nil_append, swapQuotes]
  | cons c s ih =>
      obtain ⟨hc, hmore⟩ := Bool.or_eq_false_iff.1 hs
      rw [List.cons_append, swapQuotesFrom_cons, ih (h.next hc).1 hmore hend, swapQuotesFrom_cons,
        List.cons_append]

end InStep

end Nesting

/-- Whether the exchange misreads some character of an expression. -/
def misled (s : Text) : Bool := top.misledFrom false false s

lemma Nesting.Closed.swapQuotes {s : Text} (h : Closed s) (hs : misled s = false) :
    Closed (swapQuotes s) := by
  have hopen := InStep.code.overcloses_eq hs
  have hend := InStep.code.after_eq hs
  rw [h.opened] at hopen
  rw [h.settled] at hend
  exact ⟨hopen, hend⟩

/-! ### Parts and items -/

/-- The exchanged text is split where the text is. -/
lemma splitTop_swapQuotes {sep : Char} (hsep : sep ≠ '\\') {s : Text} (hs : misled s = false) :
    splitTop sep (swapQuotes s) = (splitTop sep s).map swapQuotes := by
  obtain ⟨p, ps, hsplit, hswap⟩ := InStep.code.splitFrom_eq hsep hs
  rw [splitTop, splitTop, hsplit, List.map_cons]
  exact hswap

lemma trimStart_swapQuotes (s : Text) : trimStart (swapQuotes s) = swapQuotes (trimStart s) := by
  induction s with
  | nil => rfl
  | cons c s ih =>
      have hblank : isBlank (swapAt false false c) = isBlank c :=
        apply_swapAt (by decide) false false c
      by_cases hc : isBlank c = true
      · have htick : c ≠ backtick := by rintro rfl; exact absurd hc (by decide)
        have hslash : c ≠ '\\' := by rintro rfl; exact absurd hc (by decide)
        have hflags : templateBehind false false c = false ∧ escapeBehind false c = false := by
          simp [templateBehind, escapeBehind, htick, hslash]
        rw [swapQuotes, swapQuotesFrom_cons, hflags.1, hflags.2, trimStart,
          List.dropWhile_cons_of_pos (by rw [hblank, hc]), trimStart,
          List.dropWhile_cons_of_pos hc]
        exact ih
      · rw [swapQuotes, swapQuotesFrom_cons, trimStart,
          List.dropWhile_cons_of_neg (by rw [hblank]; exact hc), trimStart,
          List.dropWhile_cons_of_neg hc, swapQuotes, swapQuotesFrom_cons]

/-- The last character of a text is exchanged or kept, whatever comes before it. -/
lemma swapQuotesFrom_concat (t e : Bool) (s : Text) (c : Char) :
    ∃ t' e', swapQuotesFrom t e (s ++ [c]) = swapQuotesFrom t e s ++ [swapAt t' e' c] := by
  induction s generalizing t e with
  | nil => exact ⟨t, e, by simp [swapQuotesFrom_cons, swapQuotesFrom]⟩
  | cons b s ih =>
      obtain ⟨t', e', hs⟩ := ih (templateBehind t e b) (escapeBehind e b)
      refine ⟨t', e', ?_⟩
      rw [List.cons_append, swapQuotesFrom_cons, hs, swapQuotesFrom_cons, List.cons_append]

lemma trimEnd_swapQuotesFrom (t e : Bool) (s : Text) :
    trimEnd (swapQuotesFrom t e s) = swapQuotesFrom t e (trimEnd s) := by
  have htrim (r : Text) : trimEnd r = r.rdropWhile isBlank := rfl
  rw [htrim, htrim]
  induction s using List.reverseRecOn with
  | nil => rfl
  | append_singleton s c ih =>
      obtain ⟨t', e', hs⟩ := swapQuotesFrom_concat t e s c
      rw [hs, List.rdropWhile_concat, List.rdropWhile_concat,
        apply_swapAt (p := isBlank) (by decide)]
      split
      · exact ih
      · exact hs.symm

lemma trim_swapQuotes (s : Text) : trim (swapQuotes s) = swapQuotes (trim s) := by
  rw [trim, trimStart_swapQuotes, swapQuotes, trimEnd_swapQuotesFrom, trim, swapQuotes]

lemma isEmpty_swapQuotes (s : Text) : (swapQuotes s).isEmpty = s.isEmpty := by
  cases s with
  | nil => rfl
  | cons c s => rw [swapQuotes, swapQuotesFrom_cons, List.isEmpty_cons, List.isEmpty_cons]

/-- **The items of the exchanged text are the exchanged items**, unless the text misleads the
exchange. -/
lemma topItems_map_swapQuotes {s : Text} (hs : misled s = false) :
    topItems (swapQuotes s) = (topItems s).map swapQuotes := by
  have htrim : trim ∘ swapQuotes = swapQuotes ∘ trim := funext trim_swapQuotes
  have hempty : (fun x : Text => !x.isEmpty) ∘ swapQuotes = fun x => !x.isEmpty := by
    funext x
    simp [isEmpty_swapQuotes]
  rw [topItems, topItems, splitTop_swapQuotes (by decide) hs, List.map_map, htrim, ← List.map_map,
    List.filter_map, hempty]

/-- In front of a comma, a closed text that does not mislead has no part in whether the items are
found again. -/
lemma topItems_swapQuotes_append_iff {s : Text} (hclosed : Closed s) (hs : misled s = false)
    (r : Text) :
    topItems (swapQuotes (s ++ ',' :: r)) = (topItems (s ++ ',' :: r)).map swapQuotes ↔
      topItems (swapQuotes r) = (topItems r).map swapQuotes := by
  have hswap : swapQuotes (s ++ ',' :: r) = swapQuotes s ++ ',' :: swapQuotes r :=
    InStep.code.swapQuotesFrom_append_comma hs hclosed.settled r
  rw [hswap, topItems_append_comma (hclosed.swapQuotes hs).settled,
    topItems_append_comma hclosed.settled, List.map_append, topItems_map_swapQuotes hs,
    List.append_cancel_left_eq]

/-! ### Literals that mislead -/

/-- A literal that is never closed is one item with all that follows. -/
lemma length_topItems_le_one {m : Char} {body : Text} (hm : isMark m = true)
    (hbody : ∀ c ∈ body, c ≠ m ∧ c ≠ '\\') : (topItems (m :: body)).length ≤ 1 := by
  have hopen : top.next m = literal m 0 := by simp [next, hm]
  have hhidden : ',' ∉ top.exposed (m :: body) := by
    rw [exposed, hopen, exposed_literal hbody, exposes, hm]
    exact List.not_mem_nil
  rw [topItems, splitTop_eq_singleton hhidden]
  exact List.length_filter_le _ _

/-- A text without quotation marks and backslashes. -/
def Unmarked (s : Text) : Prop := ∀ c ∈ s, c ≠ '\'' ∧ c ≠ '"' ∧ c ≠ '\\'

instance (s : Text) : Decidable (Unmarked s) :=
  List.decidableBAll (fun c => c ≠ '\'' ∧ c ≠ '"' ∧ c ≠ '\\') s

namespace Unmarked

variable {s u : Text}

lemma ne_mark (hs : Unmarked s) (q : Quote) : ∀ c ∈ s, c ≠ q.mark ∧ c ≠ '\\' := by
  intro c hc
  obtain ⟨hsingle, hdouble, hslash⟩ := hs c hc
  cases q with
  | double => exact ⟨hdouble, hslash⟩
  | single => exact ⟨hsingle, hslash⟩

/-- Where there are no quotation marks, nothing is exchanged, and each backtick turns the flag for
template literals over. -/
lemma swapQuotesFrom_append (hs : Unmarked s) (t : Bool) (r : Text) :
    swapQuotesFrom t false (s ++ r) =
      s ++ swapQuotesFrom (t ^^ decide (s.count backtick % 2 = 1)) false r := by
  induction s generalizing t with
  | nil => simp
  | cons c s ih =>
      obtain ⟨hsingle, hdouble, hslash⟩ := hs c List.mem_cons_self
      have ih := ih (fun d hd => hs d (List.mem_cons_of_mem c hd)) (templateBehind t false c)
      have hkept : swapAt t false c = c := by simp [swapAt, swapMark, hsingle, hdouble]
      have hescape : escapeBehind false c = false := by simp [escapeBehind, hslash]
      have hflag : (templateBehind t false c ^^ decide (s.count backtick % 2 = 1)) =
          (t ^^ decide ((c :: s).count backtick % 2 = 1)) := by
        by_cases htick : c = backtick
        · have hcount : decide ((c :: s).count backtick % 2 = 1) =
              !decide (s.count backtick % 2 = 1) := by
            rw [← decide_not, decide_eq_decide, htick, List.count_cons_self]
            omega
          rw [hcount]
          simp [templateBehind, htick]
        · rw [List.count_cons_of_ne htick]
          simp [templateBehind, htick]
      rw [List.cons_append, swapQuotesFrom_cons, hkept, hescape, ih, hflag, List.cons_append]

lemma swapQuotesFrom_eq (hs : Unmarked s) (t : Bool) : swapQuotesFrom t false s = s := by
  simpa [swapQuotesFrom] using hs.swapQuotesFrom_append t []

lemma map_topItems (hs : Unmarked s) : (topItems s).map swapQuotes = topItems s := by
  have hkept : ∀ i ∈ topItems s, swapQuotes i = i := by
    intro i hi
    have hmem {x : Char} (hx : isLiteralMark x = true) (hxi : x ∈ i) : x ∈ s :=
      (mem_topItems hx s).1 ⟨i, hi, hxi⟩
    have hitem : Unmarked i := by
      intro c hc
      refine ⟨?_, ?_, ?_⟩ <;> rintro rfl
      · exact (hs _ (hmem (by decide) hc)).1 rfl
      · exact (hs _ (hmem (by decide) hc)).2.1 rfl
      · exact (hs _ (hmem (by decide) hc)).2.2 rfl
    exact hitem.swapQuotesFrom_eq false
  rw [List.map_congr_left hkept, List.map_id']

/-- A literal in quotation marks is one item. -/
lemma topItems_wrap (hs : Unmarked s) (q : Quote) :
    top.after (q.wrap s) = top ∧ topItems (q.wrap s) = [q.wrap s] := by
  have hmark : isMark q.mark = true := by cases q <;> rfl
  have hblank : isBlank q.mark = false := by cases q <;> decide
  have hclosed : Closed (q.wrap s) := (Balanced.quoted hmark (hs.ne_mark q) .nil).closed
  have hhidden : ',' ∉ top.exposed (q.wrap s) := by
    rw [show top.exposed (q.wrap s) = [] from exposed_quoted hmark (hs.ne_mark q)]
    exact List.not_mem_nil
  have hsolid : Solid (q.wrap s) := solid_wrap hblank hblank s
  exact ⟨hclosed.settled, (ListItem.mk hsolid.ne_nil hsolid.trim_self hclosed hhidden).topItems_eq⟩

/-- The last mark of a literal is left alone when the number of backticks in front of it is odd. -/
lemma swapQuotes_wrap_append (hs : Unmarked s) (hu : Unmarked u) (q : Quote) :
    swapQuotes (q.wrap s ++ u) = q.opposite.mark ::
      (s ++ (if s.count backtick % 2 = 0 then q.opposite.mark else q.mark) :: u) := by
  have hshape : q.wrap s ++ u = q.mark :: (s ++ q.mark :: u) := by simp [Quote.wrap]
  have hflags (t : Bool) :
      templateBehind t false q.mark = t ∧ escapeBehind false q.mark = false ∧
        swapAt t false q.mark = if t then q.mark else q.opposite.mark := by
    cases q <;> cases t <;> decide
  obtain ⟨htemplate, hescape, hfirst⟩ := hflags false
  obtain ⟨htemplate', -, hlast⟩ := hflags (decide (s.count backtick % 2 = 1))
  rw [hshape, swapQuotes, swapQuotesFrom_cons, htemplate, hescape, hfirst,
    hs.swapQuotesFrom_append, Bool.false_xor, swapQuotesFrom_cons, htemplate', hescape, hlast,
    hu.swapQuotesFrom_eq]
  rcases Nat.mod_two_eq_zero_or_one (s.count backtick) with heven | hodd
  · simp [heven]
  · simp [hodd]

/-- Behind a literal, the items of a list are found again after the exchange if and only if the
number of backticks in the literal is even.  Otherwise the literal starts with one mark and ends
with the other one, and all that follows is taken for a part of it. -/
lemma topItems_swapQuotes_iff (hs : Unmarked s) (hu : Unmarked u) (hne : topItems u ≠ [])
    (q : Quote) :
    topItems (swapQuotes (q.wrap s ++ ',' :: u)) =
        (topItems (q.wrap s ++ ',' :: u)).map swapQuotes ↔
      s.count backtick % 2 = 0 := by
  have hitems (q' : Quote) : topItems (q'.wrap s ++ ',' :: u) = q'.wrap s :: topItems u := by
    rw [topItems_append_comma (hs.topItems_wrap q').1, (hs.topItems_wrap q').2,
      List.singleton_append]
  have hcomma : Unmarked (',' :: u) := List.forall_mem_cons.2 ⟨by decide, hu⟩
  have hself := hs.swapQuotes_wrap_append (List.forall_mem_nil _) q
  rw [List.append_nil] at hself
  rw [hitems, List.map_cons, hu.map_topItems, hs.swapQuotes_wrap_append hcomma, hself]
  rcases Nat.mod_two_eq_zero_or_one (s.count backtick) with heven | hodd
  · have hwrap (r : Text) : q.opposite.mark :: (s ++ q.opposite.mark :: r) =
        q.opposite.wrap s ++ r := by simp [Quote.wrap]
    rw [if_pos heven, hwrap, hwrap, List.append_nil, hitems]
    exact iff_of_true rfl heven
  · have hodd' : ¬ s.count backtick % 2 = 0 := by omega
    rw [if_neg hodd']
    refine iff_of_false (fun hall => ?_) hodd'
    have hbody : ∀ c ∈ s ++ q.mark :: ',' :: u, c ≠ q.opposite.mark ∧ c ≠ '\\' := by
      intro c hc
      rcases List.mem_append.1 hc with hc | hc
      · exact hs.ne_mark q.opposite c hc
      · rcases List.mem_cons.1 hc with rfl | hc
        · cases q <;> decide
        · exact hcomma.ne_mark q.opposite c hc
    have hone := length_topItems_le_one (by cases q <;> rfl) hbody
    have hmore := List.length_pos_iff.2 hne
    rw [hall, List.length_cons] at hone
    omega

end Unmarked

end ClassFold
