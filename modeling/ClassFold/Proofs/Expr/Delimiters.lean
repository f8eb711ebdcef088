import ClassFold.Proofs.Expr.Classless
import ClassFold.Proofs.Expr.Combining
import ClassFold.Proofs.Expr.Pairs

/-!
Delimiters of bindings.

The shape of a binding is read off its first and its last character.  In an expression whose
brackets are paired, these two may still belong to different pairs, as in `[a] || [b]`.

* `closed_iff_topItems`: a text is closed if and only if its items are.
* `Joined`: an expression that starts with one delimited text and ends with another one.
* `paired_content_iff`: the delimiters of an object or an array belong together unless it is such an
  expression; then it is cut open, and what comes in ends up inside of the last operand.
-/

namespace ClassFold

open Text Nesting

/-! ### Items -/

/-- A text is closed if and only if its items are. -/
lemma closed_iff_topItems {s : Text} : Closed s ↔ ∀ i ∈ topItems s, Closed i := by
  constructor
  · intro h i hi
    exact (listItem_of_mem_topItems h hi).closed
  · intro h
    have hparts : ∀ p ∈ splitTop ',' s, Closed p := by
      intro p hp
      have htrim : Closed (trim p) := by
        by_cases hnil : trim p = []
        · rw [hnil]
          exact .nil
        · exact h _ (List.mem_filter.2 ⟨List.mem_map_of_mem hp, by simpa using hnil⟩)
      obtain ⟨front, back, hshape, hfront, hback⟩ := exists_trim p
      rw [hshape]
      exact (Closed.of_forall fun c hc => isPlain_of_isBlank (hfront c hc)).append
        (htrim.append (Closed.of_forall fun c hc => isPlain_of_isBlank (hback c hc)))
    have hjoin := closed_commaJoin hparts
    rwa [commaJoin, splitTop, joinWith_splitFrom] at hjoin

/-! ### Bindings that are cut open -/

/-- An expression starts with one delimited text and ends with another one, like `[a] || [b]`. -/
def Joined (wrap : Text → Text) (expr : Text) : Prop :=
  ∃ a mid b, expr = wrap a ++ (mid ++ wrap b) ∧ Paired a ∧ Paired mid ∧ Paired b

section Wrap

variable {left : Char} {wrap : Text → Text} (hl : isOpening left = true)
  (hwrap : ∀ t, wrap t = left :: (t ++ [partner left]))

include hwrap

lemma content_of_joined {a mid b content : Text}
    (h : wrap content = wrap a ++ (mid ++ wrap b)) :
    content = a ++ partner left :: (mid ++ left :: b) := by
  have hshape : left :: (content ++ [partner left]) =
      left :: ((a ++ partner left :: (mid ++ left :: b)) ++ [partner left]) := by
    simpa [hwrap] using h
  exact List.append_cancel_right (List.cons.inj hshape).2

lemma not_closed_of_joined {content : Text} (h : Joined wrap (wrap content)) :
    ¬ Closed content := by
  obtain ⟨a, mid, b, hshape, ha, -⟩ := h
  rw [content_of_joined hwrap hshape]
  exact ha.closed.not_closed_append (isClosing_partner left) _

/-- What is put behind the content of an expression that is cut open stands in its last operand. -/
lemma wrap_leading {a mid b content : Text} (h : wrap content = wrap a ++ (mid ++ wrap b))
    (t : Text) : wrap (leading content ++ t) = wrap a ++ (mid ++ wrap (b ++ ',' :: t)) := by
  have hblank : isBlank (partner left) = false := by
    rw [partner]
    split_ifs <;> decide
  have hcontent := content_of_joined hwrap h
  have hleading : leading content = content ++ [','] :=
    leading_of_allBlank (allBlank_eq_false.2 ⟨partner left, by simp [hcontent], hblank⟩)
  rw [hleading, hcontent]
  simp [hwrap]

include hl

lemma paired_iff_not_joined {content : Text} (h : Paired (wrap content)) :
    Paired content ↔ ¬ Joined wrap (wrap content) := by
  constructor
  · intro hcontent hjoined
    exact not_closed_of_joined hwrap hjoined hcontent.closed
  · intro hjoined
    rw [hwrap] at h
    rcases h.delimited_cases hl with hpaired | ⟨a, mid, b, hcontent, ha, hmid, hb⟩
    · exact hpaired
    · refine absurd ⟨a, mid, b, ?_, ha, hmid, hb⟩ hjoined
      simp [hwrap, hcontent]

/-- Inside of delimiters, content whose items close only what they have opened has paired
brackets. -/
lemma paired_iff_topItems {content : Text} (h : Paired (wrap content)) :
    Paired content ↔ ∀ i ∈ topItems content, Closed i := by
  rw [← closed_iff_topItems]
  refine ⟨Paired.closed, fun hclosed => (paired_iff_not_joined hl hwrap h).2 fun hjoined => ?_⟩
  exact not_closed_of_joined hwrap hjoined hclosed

end Wrap

/-- **Delimiters belong together unless an expression joins two delimited texts.**  For an
expression with paired brackets in the shape of an object or an array, the text between the
delimiters has paired brackets unless the expression starts with one object or array and ends with
another one.  In that case it is cut open: some of the items into which it is taken apart hold a
bracket without its partner, and what is combined with it ends up inside of the last operand. -/
theorem paired_content_iff {e : Text} (he : Paired e) :
    (∀ content, Binding.ofText e = .object content →
      (Paired content ↔ ¬ Joined braced (trim e)) ∧
      (Paired content ↔ ∀ i ∈ topItems content, Closed i) ∧
      ClassValue.ofText e = .object ((topItems content).map Entry.ofText) ∧
      ∀ a mid b t, trim e = braced a ++ (mid ++ braced b) →
        combine e (.entries t) = braced a ++ (mid ++ braced (b ++ ',' :: t))) ∧
    ∀ content, Binding.ofText e = .array content →
      (Paired content ↔ ¬ Joined bracketed (trim e)) ∧
      (Paired content ↔ ∀ i ∈ topItems content, Closed i) ∧
      ClassValue.ofText e = .array ((topItems content).map ClassValue.ofText) ∧
      ∀ a mid b xs, trim e = bracketed a ++ (mid ++ bracketed b) →
        combine e (.items xs) =
          bracketed a ++ (mid ++ bracketed (b ++ ',' :: commaJoin xs)) := by
  have hpaired := he.trim
  have hbrace : ∀ t, braced t = '{' :: (t ++ [partner '{']) := fun _ => rfl
  have hbracket : ∀ t, bracketed t = '[' :: (t ++ [partner '[']) := fun _ => rfl
  constructor
  · intro content hshape
    have htrim := Binding.ofText_eq_object_iff.1 hshape
    rw [htrim] at hpaired ⊢
    refine ⟨paired_iff_not_joined rfl hbrace hpaired, paired_iff_topItems rfl hbrace hpaired,
      ClassValue.ofText_of_object hshape, fun a mid b t hjoined => ?_⟩
    rw [combine_entries, hshape]
    exact wrap_leading hbrace hjoined t
  · intro content hshape
    have htrim := Binding.ofText_eq_array_iff.1 hshape
    rw [htrim] at hpaired ⊢
    refine ⟨paired_iff_not_joined rfl hbracket hpaired, paired_iff_topItems rfl hbracket hpaired,
      ClassValue.ofText_of_array hshape, fun a mid b xs hjoined => ?_⟩
    rw [combine_items_of_not_isObject (by rw [hshape]; rfl), hshape]
    exact wrap_leading hbracket hjoined (commaJoin xs)

/-- An array with a bracket in a literal, joined with another one, and an array around such an
expression. -/
theorem paired_content_iff_nullish :
    Paired " [ 'x]', f(y) ] ?? [z]".toList ∧ ¬ Paired " 'x]', f(y) ] ?? [z".toList ∧
      combine " [ 'x]', f(y) ] ?? [z]".toList (.items ["v".toList, "w".toList]) =
        "[ 'x]', f(y) ] ?? [z,v,w]".toList ∧
      Paired "[[x] ?? [z]]".toList ∧ ¬ Joined bracketed "[[x] ?? [z]]".toList := by
  have hjoined : Paired " [ 'x]', f(y) ] ?? [z]".toList := by decide
  have hwhole : Paired "[[x] ?? [z]]".toList := by decide
  obtain ⟨hpaired, -, -, hcombine⟩ :=
    (paired_content_iff hjoined).2 " 'x]', f(y) ] ?? [z".toList (by decide)
  have hinside := (paired_content_iff hwhole).2 "[x] ?? [z]".toList (by decide)
  refine ⟨hjoined, ?_, ?_, hwhole, hinside.1.1 (by decide)⟩
  · rw [hpaired, not_not]
    exact ⟨" 'x]', f(y) ".toList, " ?? ".toList, "z".toList, by decide, by decide, by decide,
      by decide⟩
  · exact hcombine " 'x]', f(y) ".toList " ?? ".toList "z".toList _ (by decide)

/-- Two arrays with an operator between them have paired brackets, but they are taken for one array
and cut open in the middle. -/
theorem ofText_joined_arrays :
    Paired "[a] || [b]".toList ∧
      Binding.ofText "[a] || [b]".toList = .array "a] || [b".toList ∧
      ¬ Paired "a] || [b".toList ∧
      combine "[a] || [b]".toList (.items ["x".toList]) = "[a] || [b,x]".toList ∧
      combine "[a] || [b]".toList (.entries "c: d".toList) =
        braced "[a] || [b]:true,c: d".toList ∧
      resolveExpression ⟨"m".toList, .single⟩ "[a] || [b]".toList =
        some "m[a]] || m[[b]".toList := by
  refine ⟨by decide, by decide, by decide, by decide, by decide +kernel, by decide +kernel⟩

end ClassFold
