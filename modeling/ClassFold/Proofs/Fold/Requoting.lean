import ClassFold.Fold.Element
import ClassFold.Proofs.Expr.Exchange
import ClassFold.Proofs.Template.Quoted

/-!
Shorthands with other quotation marks than the class binding.

A bound shorthand that is folded into a class binding with the other quotation marks is exchanged
first and split into items afterwards.  This gives the exchanged items of the shorthand as long as
nothing in it misleads the exchange (`topItems_swapQuotes`).  A literal with two backticks does not,
and one with a lone backtick does (`topItems_swapQuotes_misled`).
-/

namespace ClassFold

open Text Nesting

/-- A bound shorthand other than an object is absorbed by its items, which are taken from the
exchanged text. -/
lemma Folding.target_addBound {moduleName : Text} {f : Folding} {target : Target} {a : Attr}
    {s : Text} (htarget : f.target = some target) (hquote : target.quote ≠ Quote.ofAttribute a.raw)
    (hobject : (Binding.ofText a.valueText).isObject = false)
    (hs : resolveExpression ⟨moduleName, (Quote.ofAttribute a.raw).opposite⟩ a.valueText = some s) :
    (f.addBound moduleName a).target =
      some (target.absorb (.items (topItems (swapQuotes s)))) := by
  simp only [addBound, hs, htarget, hobject, if_neg hquote, incoming, Bool.false_eq_true, if_false]

/-- **The exchange of quotation marks keeps the items of an expression** that does not mislead it:
the exchanged text is closed, its items are the exchanged items, and so a shorthand that is absorbed
by a class binding with the other marks brings the same items, exchanged one by one.  When such an
expression is continued by a literal without escapes and further items, this stays so if and only if
the number of backticks in the literal is even. -/
theorem topItems_swapQuotes {s : Text} (hclosed : Closed s) (hs : misled s = false) :
    Closed (swapQuotes s) ∧ topItems (swapQuotes s) = (topItems s).map swapQuotes ∧
    (∀ (moduleName : Text) (f : Folding) (target : Target) (a : Attr),
      f.target = some target → target.quote ≠ Quote.ofAttribute a.raw →
      (Binding.ofText a.valueText).isObject = false →
      resolveExpression ⟨moduleName, (Quote.ofAttribute a.raw).opposite⟩ a.valueText = some s →
      (f.addBound moduleName a).target =
        some (target.absorb (.items ((topItems s).map swapQuotes)))) ∧
    ∀ (q : Quote) (b u : Text), Unmarked b → Unmarked u → topItems u ≠ [] →
      (topItems (swapQuotes (s ++ ',' :: (q.wrap b ++ ',' :: u))) =
          (topItems (s ++ ',' :: (q.wrap b ++ ',' :: u))).map swapQuotes ↔
        b.count backtick % 2 = 0) := by
  have hitems := topItems_map_swapQuotes hs
  refine ⟨hclosed.swapQuotes hs, hitems, ?_, ?_⟩
  · intro moduleName f target a htarget hquote hobject hr
    rw [Folding.target_addBound htarget hquote hobject hr, hitems]
  · intro q b u hb hu hne
    exact (topItems_swapQuotes_append_iff hclosed hs _).trans (hb.topItems_swapQuotes_iff hu hne q)

/-- A shorthand in double quotes, with a literal of two backticks and a template literal that holds
an apostrophe and a comma, absorbed by a class binding in single quotes; and the same with another
literal of two backticks behind it. -/
theorem topItems_swapQuotes_template :
    let s := "m['\x60b\x60'],m[f(\x60it's, $\x7by\x7d\x60)]".toList
    let a := Attr.quoted 14 ":cls".toList .double
      "['\x60b\x60', f(\x60it's, $\x7by\x7d\x60)]".toList
    Closed s ∧ misled s = false ∧
      topItems (swapQuotes s) =
        ["m[\"\x60b\x60\"]".toList, "m[f(\x60it's, $\x7by\x7d\x60)]".toList] ∧
      (Folding.addBound "m".toList ⟨some ⟨⟨3, 13⟩, .single, "x".toList, false⟩, []⟩ a).target =
        some ⟨⟨3, 13⟩, .single,
          "[x,m[\"\x60b\x60\"],m[f(\x60it's, $\x7by\x7d\x60)]]".toList, true⟩ ∧
      topItems (swapQuotes (s ++ ",'c\x60d\x60',x".toList)) =
        ["m[\"\x60b\x60\"]".toList, "m[f(\x60it's, $\x7by\x7d\x60)]".toList,
          "\"c\x60d\x60\"".toList, "x".toList] := by
  intro s a
  have hclosed : Closed s := by decide
  have hclear : misled s = false := by decide
  obtain ⟨-, hitems, habsorb, hliteral⟩ := topItems_swapQuotes hclosed hclear
  refine ⟨hclosed, hclear, ?_, ?_, ?_⟩
  · rw [hitems]
    decide
  · rw [habsorb "m".toList _ _ a rfl (by decide) (by decide) (by decide +kernel)]
    decide +kernel
  · have heven := (hliteral .single "c\x60d\x60".toList "x".toList (by decide) (by decide)
      (by decide)).2 (by decide)
    refine heven.trans ?_
    decide +kernel

/-- A backtick in a literal, and a backslash in front of a backtick in code: the items behind are
lost or left as they were.  In the class binding the apostrophes that were left end the value. -/
theorem topItems_swapQuotes_misled :
    (Closed "'\x60','b'".toList ∧
      topItems (swapQuotes "'\x60','b'".toList) = ["\"\x60','b'".toList] ∧
      (topItems "'\x60','b'".toList).map swapQuotes = ["\"\x60'".toList, "\"b\"".toList]) ∧
    (Closed "\\\x60a\x60,'b'".toList ∧
      topItems (swapQuotes "\\\x60a\x60,'b'".toList) = ["\\\x60a\x60".toList, "'b'".toList] ∧
      (topItems "\\\x60a\x60,'b'".toList).map swapQuotes =
        ["\\\x60a\x60".toList, "\"b\"".toList]) ∧
    Slots.edits "m".toList ⟨some (Attr.quoted 3 ":class".toList .single "x".toList), none,
        some (Attr.quoted 14 ":cls".toList .double "[f('\x60'), 'b']".toList)⟩ =
      [⟨⟨3, 13⟩, ":class='[x,m[f(\"\x60')],m['b']]'".toList⟩, ⟨⟨14, 34⟩, []⟩] := by
  refine ⟨by decide, by decide, ?_⟩
  decide +kernel

end ClassFold
