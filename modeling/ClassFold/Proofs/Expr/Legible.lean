import ClassFold.Proofs.Expr.Items
import ClassFold.Proofs.Expr.Parts
import ClassFold.Proofs.Expr.Source
import ClassFold.Proofs.Template.Quoted

/-!
What can be told from a class expression as written.

Names, literals, arrays and objects are words: they are balanced and expose no other characters than
those of identifiers.  Words with operators between them make up operands, choices and conditionals,
and each of these forms shows the readers of expressions what they look for and nothing else.

* `EntrySource.ofText_print`: an entry of an object is read back.
* `ClassSource.legible`: what the readers find in a well-formed expression.
-/

namespace ClassFold

open Text Nesting

/-! ### Words -/

/-- A text that stands between operators: only characters of identifiers are exposed. -/
structure IsWord (s : Text) : Prop where
  solid : Solid s
  balanced : Balanced s
  exposed : ∀ c ∈ top.exposed s, isIdentChar c = true

namespace IsWord

variable {s : Text}

lemma notMem (h : IsWord s) {c : Char} (hc : isIdentChar c = false) : c ∉ top.exposed s := by
  intro hmem
  rw [h.exposed c hmem] at hc
  simp at hc

lemma append {t : Text} (hs : IsWord s) (ht : IsWord t) : IsWord (s ++ t) := by
  refine ⟨by simpa using hs.solid.append ht.solid [], hs.balanced.append ht.balanced, ?_⟩
  rw [exposed_append, hs.balanced.after_eq]
  exact List.forall_mem_append.2 ⟨hs.exposed, ht.exposed⟩

lemma unasking (h : IsWord s) : Unasking s := unasking_of_notMem (h.notMem (by decide))

lemma even (h : IsWord s) : Even s := even_of_notMem (h.notMem (by decide)) (h.notMem (by decide))

lemma isItem (h : IsWord s) : IsItem s := ⟨h.solid, h.balanced, h.notMem (by decide)⟩

end IsWord

lemma isWord_of_forall {s : Text} (hne : s ≠ []) (h : ∀ c ∈ s, isIdentChar c = true) :
    IsWord s := by
  have hplain : ∀ c ∈ s, isPlain c = true := fun c hc => (Bool.and_eq_true_iff.1 (h c hc)).1
  refine ⟨solid_of_forall hne fun c hc => ?_, balanced_of_forall hplain, ?_⟩
  · have hc := h c hc
    simp only [isIdentChar, Bool.and_eq_true, Bool.not_eq_true', Bool.or_eq_false_iff] at hc
    exact hc.2.1.1.1.1.1
  · rw [exposed_of_forall hplain]
    exact h

namespace Ident

variable (x : Ident)

lemma isIdentChar_of_mem {c : Char} (hc : c ∈ x.text) : isIdentChar c = true :=
  List.all_eq_true.1 (Bool.and_eq_true_iff.1 x.isIdent).2 c hc

lemma ne_nil : x.text ≠ [] := by
  intro h
  have := (Bool.and_eq_true_iff.1 x.isIdent).1
  simp [h] at this

lemma isPlain_of_mem {c : Char} (hc : c ∈ x.text) : isPlain c = true :=
  (Bool.and_eq_true_iff.1 (x.isIdentChar_of_mem hc)).1

lemma isWord : IsWord x.text := isWord_of_forall x.ne_nil fun _ => x.isIdentChar_of_mem

end Ident

lemma Quote.isMark_mark (q : Quote) : isMark q.mark = true := by
  cases q <;> decide

/-- The characters between the marks of a literal. -/
lemma mem_literal {names : List ClassToken} {c : Char}
    (hc : c ∈ joinWith ' ' (names.map ClassToken.text)) : c = ' ' ∨ isTokenChar c = true := by
  by_contra hnot
  rw [not_or] at hnot
  rw [mem_joinWith hnot.1] at hc
  obtain ⟨t, ht, hct⟩ := hc
  obtain ⟨token, -, rfl⟩ := List.mem_map.1 ht
  exact hnot.2 (List.all_eq_true.1 (Bool.and_eq_true_iff.1 token.isToken).2 c hct)

lemma ne_of_mem_literal {names : List ClassToken} {c : Char}
    (hc : c ∈ joinWith ' ' (names.map ClassToken.text)) (q : Quote) : c ≠ q.mark ∧ c ≠ '\\' := by
  have hspace : ' ' ≠ q.mark := by cases q <;> decide
  rcases mem_literal hc with rfl | hc
  · exact ⟨hspace, by decide⟩
  · simp only [isTokenChar, Bool.not_eq_true', Bool.or_eq_false_iff, beq_eq_false_iff_ne] at hc
    refine ⟨?_, hc.2⟩
    rintro rfl
    rw [q.isMark_mark] at hc
    simp at hc

lemma isWord_literal (q : Quote) (names : List ClassToken) : IsWord (printLiteral q names) := by
  have hbody : ∀ c ∈ joinWith ' ' (names.map ClassToken.text), c ≠ q.mark ∧ c ≠ '\\' :=
    fun c hc => ne_of_mem_literal hc q
  refine ⟨solid_wrap q.isBlank_mark q.isBlank_mark _, .quoted q.isMark_mark hbody .nil, ?_⟩
  rw [printLiteral, Quote.wrap, List.cons_append, exposed_quoted q.isMark_mark hbody]
  simp

lemma isWord_brackets {left right : Char} {s : Text} (hl : isOpening left = true)
    (hr : isClosing right = true) (hs : Balanced s) : IsWord (left :: (s ++ [right])) := by
  have hleft : isBlank left = false := by
    simp only [isOpening, Bool.or_eq_true, beq_iff_eq] at hl
    rcases hl with (rfl | rfl) | rfl <;> decide
  have hright : isBlank right = false := by
    simp only [isClosing, Bool.or_eq_true, beq_iff_eq] at hr
    rcases hr with (rfl | rfl) | rfl <;> decide
  refine ⟨solid_wrap hleft hright s, .brackets hl hr hs .nil, ?_⟩
  rw [hs.exposed_brackets hl hr]
  simp

/-! ### Lists -/

lemma eq_space_of_mem_spaces {n : Nat} {c : Char} (h : c ∈ spaces n) : c = ' ' :=
  (List.mem_replicate.1 h).2

lemma balanced_spaces (n : Nat) : Balanced (spaces n) :=
  (exposed_blanks fun _ => eq_space_of_mem_spaces).1

lemma balanced_commaGap {gap : Text} (hgap : Balanced gap) {parts : List Text}
    (h : ∀ p ∈ parts, Balanced p) : Balanced (commaGap gap parts) := by
  fun_induction commaGap gap parts with
  | case1 => exact .nil
  | case2 s => exact h s (by simp)
  | case3 s t rest ih =>
      have hrest := ih fun p hp => h p (by simp [hp])
      exact (h s (by simp)).append (.plain (by decide) (hgap.append hrest))

lemma Layout.balanced_list (layout : Layout) {parts : List Text} (h : ∀ p ∈ parts, Balanced p) :
    Balanced (layout.list parts) :=
  (balanced_spaces _).append ((balanced_commaGap (balanced_spaces _) h).append (balanced_spaces _))

lemma Layout.topItems_list (layout : Layout) {parts : List Text} (h : ∀ p ∈ parts, IsItem p) :
    topItems (layout.list parts) = parts :=
  topItems_listing h (fun _ => eq_space_of_mem_spaces) (fun _ => eq_space_of_mem_spaces)
    fun _ => eq_space_of_mem_spaces

lemma trim_spaces {s : Text} (hs : Solid s) (n : Nat) : trim (spaces n ++ s) = s := by
  have hblank : ∀ c ∈ spaces n, isBlank c = true := by
    intro c hc
    rw [eq_space_of_mem_spaces hc]
    decide
  simpa using @Solid.trim_eq s (spaces n) [] hs hblank (by simp)

/-! ### Operators between words -/

section Binary

variable {left right : Text} (op : Operator)

lemma Text.Solid.binary (hl : Solid left) (hr : Solid right) :
    Solid (printBinary left op right) := by
  simpa [printBinary] using hl.append hr (' ' :: (op.text ++ [' ']))

lemma Nesting.Balanced.binary (hl : Balanced left) (hr : Balanced right) :
    Balanced (printBinary left op right) :=
  hl.append (.plain (by decide) ((balanced_operator op).append (.plain (by decide) hr)))

lemma Nesting.Unasking.binary (hl : Unasking left) (hbal : Balanced left) (hr : Unasking right) :
    Unasking (printBinary left op right) :=
  hl.append hbal ((unasking_operator op).append (balanced_operator op) hr)

lemma Nesting.Even.binary (hl : Even left) (hbal : Balanced left) (hr : Even right) :
    Even (printBinary left op right) :=
  hl.append hbal ((even_operator op).append (balanced_operator op) hr)

lemma exposed_printBinary (hbal : Balanced left) (right : Text) :
    top.exposed (printBinary left op right) =
      top.exposed left ++ ' ' :: (op.text ++ ' ' :: top.exposed right) := by
  have hspace : isPlain ' ' = true := by decide
  have hmark : isPlain op.mark = true := by cases op <;> decide
  rw [printBinary, exposed_append, hbal.after_eq]
  simp [exposed, exposes_of_isPlain, next_of_isPlain, hspace, hmark, Operator.text]

end Binary

/-- A text that can be the test of a conditional. -/
structure IsTest (s : Text) : Prop extends IsItem s where
  unasking : Unasking s
  even : Even s

lemma IsWord.isTest {s : Text} (h : IsWord s) : IsTest s := ⟨h.isItem, h.unasking, h.even⟩

lemma IsItem.binary {left right : Text} (op : Operator) (hl : IsItem left) (hr : IsItem right) :
    IsItem (printBinary left op right) := by
  refine ⟨hl.solid.binary op hr.solid, hl.balanced.binary op hr.balanced, ?_⟩
  have hmark : op.mark ≠ ',' := by cases op <;> decide
  rw [exposed_printBinary op hl.balanced]
  simp [Operator.text, hl.hidden, hr.hidden, Ne.symm hmark]

lemma IsTest.binary {left right : Text} (op : Operator) (hl : IsTest left) (hr : IsTest right) :
    IsTest (printBinary left op right) :=
  ⟨hl.toIsItem.binary op hr.toIsItem, hl.unasking.binary op hl.balanced hr.unasking,
    hl.even.binary op hl.balanced hr.even⟩

lemma isTest_foldl {s : Text} (hs : IsTest s) (more : List (Operator × Ident)) :
    IsTest (more.foldl (fun s p => printBinary s p.1 p.2.text) s) := by
  induction more generalizing s with
  | nil => exact hs
  | cons p more ih => exact ih (hs.binary p.1 p.2.isWord.isTest)

lemma Test.isTest (t : Test) : IsTest t.print := isTest_foldl t.first.isWord.isTest t.more

/-- Names joined by `&&` expose no other operator. -/
lemma Test.exposed_all (first : Ident) (more : List Ident) :
    ∀ c ∈ top.exposed (Test.all first more).print, isIdentChar c = true ∨ c = ' ' ∨ c = '&' := by
  have hfold {s : Text} (hs : IsTest s)
      (hc : ∀ c ∈ top.exposed s, isIdentChar c = true ∨ c = ' ' ∨ c = '&') :
      ∀ c ∈ top.exposed ((more.map fun x => (Operator.and, x)).foldl
        (fun s p => printBinary s p.1 p.2.text) s),
          isIdentChar c = true ∨ c = ' ' ∨ c = '&' := by
    induction more generalizing s with
    | nil => exact hc
    | cons x more ih =>
        refine ih (hs.binary .and x.isWord.isTest) fun c hmem => ?_
        rw [exposed_printBinary _ hs.balanced] at hmem
        simp only [List.mem_append, List.mem_cons, Operator.text, Operator.mark, List.not_mem_nil,
          or_false, or_self] at hmem
        rcases hmem with h | rfl | rfl | rfl | h
        · exact hc c h
        · exact .inr (.inl rfl)
        · exact .inr (.inr rfl)
        · exact .inr (.inl rfl)
        · exact .inl (x.isWord.exposed c h)
  exact hfold first.isWord.isTest fun c h => .inl (first.isWord.exposed c h)

lemma IsItem.conditional {test yes no : Text} (ht : IsItem test) (hy : IsItem yes)
    (hn : IsItem no) : IsItem (printConditional test yes no) := by
  have hspace : isPlain ' ' = true := by decide
  have hquestion : isPlain '?' = true := by decide
  have hcolon : isPlain ':' = true := by decide
  refine ⟨?_, ?_, ?_⟩
  · simpa [printConditional] using ht.solid.append hn.solid
      (' ' :: '?' :: ' ' :: (yes ++ [' ', ':', ' ']))
  · exact ht.balanced.append (.plain hspace (.plain hquestion (.plain hspace
      (hy.balanced.append (.plain hspace (.plain hcolon (.plain hspace hn.balanced)))))))
  · rw [printConditional, exposed_append, ht.balanced.after_eq]
    simp [exposed, exposes_of_isPlain, next_of_isPlain, hspace, hquestion, hcolon, exposed_append,
      hy.balanced.after_eq, ht.hidden, hy.hidden, hn.hidden]

/-! ### Literals and entries -/

/-- A class list gives its class names. -/
lemma classNames_join (names : List ClassToken) :
    classNames (joinWith ' ' (names.map ClassToken.text)) = names.map ClassToken.text := by
  have hspace : isNameSeparator ' ' = true := by decide
  have hone (t : ClassToken) :
      (t.text.splitOnP isNameSeparator).filter (!·.isEmpty) = [t.text] := by
    obtain ⟨hne, hchars⟩ := Bool.and_eq_true_iff.1 t.isToken
    have hnot : ∀ c ∈ t.text, isNameSeparator c = false := by
      intro c hc
      have h := List.all_eq_true.1 hchars c hc
      simp only [isTokenChar, Bool.not_eq_true', Bool.or_eq_false_iff] at h
      exact h.1.1
    rw [List.splitOnP_eq_singleton hnot, List.filter_cons, hne]
    rfl
  induction names with
  | nil => rfl
  | cons t names ih =>
      cases names with
      | nil => exact hone t
      | cons u names =>
          rw [classNames] at ih ⊢
          rw [List.map_cons, List.map_cons, joinWith, List.splitOnP_append_cons _ _ hspace,
            List.filter_append, hone, ← List.map_cons, ih]
          rfl

lemma unquote?_literal (q : Quote) (names : List ClassToken) :
    unquote? (printLiteral q names) = some (joinWith ' ' (names.map ClassToken.text)) := by
  have hbetween : between? q.mark q.mark (printLiteral q names) =
      some (joinWith ' ' (names.map ClassToken.text)) :=
    between?_eq_some.2 (by simp [printLiteral, Quote.wrap])
  have hmark : q.mark ∉ joinWith ' ' (names.map ClassToken.text) := fun h =>
    (ne_of_mem_literal h q).1 rfl
  have htick : (q.mark == backtick) = false := by cases q <;> decide
  have hhead : (printLiteral q names).head? = some q.mark := rfl
  rw [unquote?, hhead]
  simp only [q.isMark_mark, if_true, hbetween]
  simp [hmark, htick]

lemma unquote?_eq_none_of_head {s : Text} (h : ∀ c ∈ s.head?, isMark c = false) :
    unquote? s = none := by
  cases s with
  | nil => rfl
  | cons c s =>
      rw [unquote?, List.head?_cons]
      simp [h c (by simp)]

lemma Ident.head (x : Ident) : ∃ c, x.text.head? = some c ∧ isPlain c = true ∧ c ≠ '.' := by
  obtain ⟨hdot, -⟩ := Bool.and_eq_true_iff.1 x.isIdent
  cases hx : x.text with
  | nil => exact absurd hx x.ne_nil
  | cons c s =>
      refine ⟨c, rfl, x.isPlain_of_mem (by simp [hx]), ?_⟩
      rw [hx] at hdot
      simpa using hdot

lemma isMark_of_isPlain {c : Char} (h : isPlain c = true) :
    isMark c = false ∧ c ≠ '{' ∧ c ≠ '[' := by
  simp only [isPlain, Bool.not_eq_true', Bool.or_eq_false_iff] at h
  refine ⟨h.1.1, ?_, ?_⟩
  · rintro rfl
    exact absurd h.1.2 (by decide)
  · rintro rfl
    exact absurd h.1.2 (by decide)

lemma EntryValue.isItem (v : EntryValue) : IsItem v.print := by
  cases v with
  | ident x => exact x.isWord.isItem
  | conditional test yes no =>
      exact test.isWord.isItem.conditional yes.isWord.isItem no.isWord.isItem

namespace EntrySource

variable (layout : Layout)

lemma isItem_printKeyed {key : Text} (hkey : IsWord key) (value : EntryValue) :
    IsItem (printKeyed layout key value) := by
  have hcolon : isPlain ':' = true := by decide
  obtain ⟨hspaces, hcomma⟩ := exposed_blanks (s := spaces layout.afterColon)
    fun _ => eq_space_of_mem_spaces
  refine ⟨?_, ?_, ?_⟩
  · simpa [printKeyed] using hkey.solid.append value.isItem.solid
      (':' :: spaces layout.afterColon)
  · exact hkey.balanced.append (.plain hcolon (hspaces.append value.isItem.balanced))
  · rw [printKeyed, exposed_append, hkey.balanced.after_eq]
    simp [exposed, exposes_of_isPlain, next_of_isPlain, hcolon, exposed_append, hspaces.after_eq,
      hkey.isItem.hidden, value.isItem.hidden, hcomma]

lemma isItem_print (e : EntrySource) : IsItem (e.print layout) := by
  cases e with
  | named key value => exact isItem_printKeyed layout key.isWord value
  | quoted q names value => exact isItem_printKeyed layout (isWord_literal q names) value
  | computed key value =>
      exact isItem_printKeyed layout (isWord_brackets (by decide) (by decide) key.isWord.balanced)
        value
  | shorthand name => exact name.isWord.isItem
  | spread rest =>
      have hdots : ∀ c ∈ "...".toList ++ rest.text, isIdentChar c = true :=
        List.forall_mem_append.2 ⟨List.all_eq_true.1 (by decide), fun _ => rest.isIdentChar_of_mem⟩
      exact (isWord_of_forall (by simp) hdots).isItem

lemma startsWith_dots_eq_false {s : Text} (h : s.head? ≠ some '.') :
    startsWith "...".toList s = false := by
  cases s with
  | nil => rfl
  | cons c s =>
      have hc : c ≠ '.' := by simpa using h
      simp [startsWith, strip?, Ne.symm hc]

/-- A key and a value are read back. -/
lemma ofText_printKeyed {key : Text} (hkey : IsWord key) (hdot : key.head? ≠ some '.')
    (value : EntryValue) :
    Entry.ofText (printKeyed layout key value) = Entry.ofKeyValue key value.print := by
  have hstart : (printKeyed layout key value).head? ≠ some '.' := by
    obtain ⟨c, hc, -⟩ := hkey.solid.head
    simp_all [printKeyed]
  have hcut : cutTop ':' (printKeyed layout key value) =
      some (key, spaces layout.afterColon ++ value.print) := by
    rw [cutTop, printKeyed, cutFrom_append (hkey.notMem (by decide)), hkey.balanced.after_eq,
      cutFrom]
    simp [exposes_colon]
  rw [Entry.ofText, startsWith_dots_eq_false hstart, hcut]
  simp only [Bool.false_eq_true, if_false]
  rw [hkey.solid.trim_self, trim_spaces value.isItem.solid]

/-- **An entry is read back.** -/
theorem ofText_print (e : EntrySource) : Entry.ofText (e.print layout) = e.entry := by
  cases e with
  | named key value =>
      obtain ⟨c, hc, hplain, hdot⟩ := key.head
      obtain ⟨hmark, -, hbracket⟩ := isMark_of_isPlain hplain
      rw [print, ofText_printKeyed layout key.isWord (by simp [hc, hdot]), Entry.ofKeyValue,
        between?_eq_none_of_head (by simp [hc, hbracket]),
        unquote?_eq_none_of_head (by simp [hc, hmark])]
      rfl
  | quoted q names value =>
      have hhead : (printLiteral q names).head? = some q.mark := rfl
      have hdot : q.mark ≠ '.' := by cases q <;> decide
      have hbracket : q.mark ≠ '[' := by cases q <;> decide
      rw [print, ofText_printKeyed layout (isWord_literal q names) (by simp [hhead, hdot]),
        Entry.ofKeyValue, between?_eq_none_of_head (by simp [hhead, hbracket]), unquote?_literal]
      simp only [classNames_join, entry]
  | computed key value =>
      have hword : IsWord (bracketed key.text) :=
        isWord_brackets (by decide) (by decide) key.isWord.balanced
      have hbetween : between? '[' ']' (bracketed key.text) = some key.text :=
        between?_eq_some.2 (by simp [bracketed])
      rw [print, ofText_printKeyed layout hword (by simp [bracketed]), Entry.ofKeyValue, hbetween]
      simp only [key.isWord.solid.trim_self, entry]
  | shorthand name =>
      obtain ⟨c, hc, -, hdot⟩ := name.head
      rw [print, Entry.ofText, startsWith_dots_eq_false (by simp [hc, hdot]), cutTop,
        cutFrom_eq_none (name.isWord.notMem (by decide))]
      rfl
  | spread rest =>
      rw [print, Entry.ofText, startsWith_append]
      rfl

end EntrySource

/-! ### Expressions as written -/

namespace ClassSource

/-- What readers can tell from an expression as written: it is an item and even.  A choice or an
operand asks nothing, an operand exposes no `||` or `??`, and an atom is a word. -/
structure Legible (layout : Layout) (v : ClassSource) : Prop where
  item : IsItem (v.print layout)
  even : Even (v.print layout)
  unasking : (v.isOperand || v.isLeftOperand) = true → Unasking (v.print layout)
  operand : v.isOperand = true →
    ∀ c ∈ top.exposed (v.print layout), isIdentChar c = true ∨ c = ' ' ∨ c = '&'
  atom : v.isAtom = true → IsWord (v.print layout)

lemma legible_of_isWord {layout : Layout} {v : ClassSource} (h : IsWord (v.print layout)) :
    Legible layout v :=
  ⟨h.isItem, h.even, fun _ => h.unasking, fun _ c hc => .inl (h.exposed c hc), fun _ => h⟩

mutual

/-- **Well-formed expressions are legible.** -/
theorem legible (layout : Layout) {v : ClassSource} (hv : v.isWellFormed = true) :
    Legible layout v := by
  cases v with
  | ident x => exact legible_of_isWord (by simpa [print] using x.isWord)
  | literal q names => exact legible_of_isWord (by simpa [print] using isWord_literal q names)
  | array items =>
      refine legible_of_isWord ?_
      rw [print]
      refine isWord_brackets (by decide) (by decide) (layout.balanced_list fun p hp => ?_)
      exact (isItem_of_mem layout (by simpa [isWellFormed] using hv) p hp).balanced
  | object entries =>
      refine legible_of_isWord ?_
      rw [print]
      refine isWord_brackets (by decide) (by decide) (layout.balanced_list fun p hp => ?_)
      obtain ⟨e, -, rfl⟩ := List.mem_map.1 hp
      exact (e.isItem_print layout).balanced
  | guarded first more value =>
      simp only [isWellFormed, Bool.and_eq_true] at hv
      have hguard := (Test.all first more).isTest
      have hword := (legible layout hv.2).atom hv.1
      have hall := hguard.binary .and hword.isTest
      refine ⟨by simpa only [print] using hall.toIsItem, by simpa only [print] using hall.even,
        fun _ => by simpa only [print] using hall.unasking, fun _ c hc => ?_,
        fun h => by simp [isAtom, isDelimited] at h⟩
      rw [print, exposed_printBinary _ hguard.balanced] at hc
      simp only [List.mem_append, List.mem_cons, Operator.text, Operator.mark, List.not_mem_nil,
        or_false, or_self] at hc
      rcases hc with h | rfl | rfl | rfl | h
      · exact Test.exposed_all first more c h
      · exact .inr (.inl rfl)
      · exact .inr (.inr rfl)
      · exact .inr (.inl rfl)
      · exact .inl (hword.exposed c h)
  | choice left op right =>
      simp only [isWellFormed, Bool.and_eq_true] at hv
      have hl := legible layout hv.1.2
      have hr := legible layout hv.2
      have hleft : IsTest (left.print layout) :=
        ⟨hl.item, hl.unasking (by simp [hv.1.1.1.1]), hl.even⟩
      have hright : IsTest (right.print layout) :=
        ⟨hr.item, hr.unasking (by simp [hv.1.1.2]), hr.even⟩
      have hall := hleft.binary op hright
      exact ⟨by simpa only [print] using hall.toIsItem, by simpa only [print] using hall.even,
        fun _ => by simpa only [print] using hall.unasking,
        fun h => by simp [isOperand, isAtom, isDelimited] at h,
        fun h => by simp [isAtom, isDelimited] at h⟩
  | conditional test yes no =>
      simp only [isWellFormed, Bool.and_eq_true] at hv
      have ht := test.isTest
      have hyes := legible layout hv.1
      have hno := legible layout hv.2
      refine ⟨by simpa only [print] using ht.toIsItem.conditional hyes.item hno.item, ?_,
        fun h => by simp [isOperand, isLeftOperand, isAtom, isDelimited] at h,
        fun h => by simp [isOperand, isAtom, isDelimited] at h,
        fun h => by simp [isAtom, isDelimited] at h⟩
      simpa only [print, printConditional] using
        ht.even.conditional ht.balanced hyes.even hyes.item.balanced hno.even

/-- Well-formed expressions are items of arrays. -/
theorem isItem_of_mem (layout : Layout) {vs : List ClassSource} (hvs : areWellFormed vs = true) :
    ∀ p ∈ printAll layout vs, IsItem p := by
  cases vs with
  | nil => simp [printAll]
  | cons v vs =>
      simp only [areWellFormed, Bool.and_eq_true] at hvs
      intro p hp
      rw [printAll, List.mem_cons] at hp
      rcases hp with rfl | hp
      · exact (legible layout hvs.1).item
      · exact isItem_of_mem layout hvs.2 p hp

end

end ClassSource

end ClassFold
