import ClassFold.Component.Tag

/-!
The content of blocks.

The content of a script or a style sheet ends at the first closing tag of its kind.  The content of
a template may hold further templates with their own closing tags; a nested `<template` that is
never closed counts as plain text.
-/

namespace ClassFold

open Text

/-- The opening tag of a nested template at the cursor: the cursor behind it, and whether the tag
closes itself. -/
def readNestedTag (c : Cursor) : Option (Bool × Cursor) :=
  (skipTagName BlockKind.template.tag c).bind fun d =>
    let stop := skipOutsideQuotes (fun s => startsWith ">".toList s || startsWith "/>".toList s) d
    match stop.skip? "/>".toList with
    | some e => some (true, e)
    | none => (stop.skip? ">".toList).map fun e => (false, e)

theorem length_rest_lt_of_readNestedTag {c d : Cursor} {b : Bool}
    (h : readNestedTag c = some (b, d)) : d.rest.length < c.rest.length := by
  obtain ⟨e, he, hd⟩ := Option.bind_eq_some_iff.1 h
  have h1 := length_rest_lt_of_skipTagName he
  have h2 := length_rest_skipOutsideQuotes_le
    (fun s => startsWith ">".toList s || startsWith "/>".toList s) e
  simp only at hd
  split at hd
  · rename_i f hf
    obtain ⟨-, rfl⟩ := Prod.mk.inj (Option.some.inj hd)
    have h3 := Cursor.length_rest_of_skip? hf
    omega
  · obtain ⟨f, hf, hp⟩ := Option.map_eq_some_iff.1 hd
    obtain ⟨-, rfl⟩ := Prod.mk.inj hp
    have h3 := Cursor.length_rest_of_skip? hf
    omega

/-- The cursor behind the content of a template, which never lies before the cursor given. -/
def skipTemplateContent (c : Cursor) : { d : Cursor // d.rest.length ≤ c.rest.length } :=
  if hc : c.rest = [] then ⟨c, Nat.le_refl _⟩
  else
    let plain : Unit → { d : Cursor // d.rest.length ≤ c.rest.length } := fun _ =>
      if startsCloseTag BlockKind.template.tag c.rest then ⟨c, Nat.le_refl _⟩
      else
        have hlt := Cursor.length_rest_advance_lt (n := 1) (by decide) hc
        let d := skipTemplateContent (c.advance 1)
        ⟨d.1, Nat.le_trans d.2 (Nat.le_of_lt hlt)⟩
    match hn : readNestedTag c with
    | none => plain ()
    | some (true, inside) =>
      have hlt := length_rest_lt_of_readNestedTag hn
      let d := skipTemplateContent inside
      ⟨d.1, Nat.le_trans d.2 (Nat.le_of_lt hlt)⟩
    | some (false, inside) =>
      have hlt := length_rest_lt_of_readNestedTag hn
      let closing := skipTemplateContent inside
      match hs : skipCloseTag BlockKind.template.tag closing.1 with
      | none => plain ()
      | some next =>
        have hlt' : next.rest.length < c.rest.length :=
          Nat.lt_trans (length_rest_lt_of_skipCloseTag hs) (Nat.lt_of_le_of_lt closing.2 hlt)
        let d := skipTemplateContent next
        ⟨d.1, Nat.le_trans d.2 (Nat.le_of_lt hlt')⟩
termination_by c.rest.length

/-- The cursor behind the content of a block of the given kind. -/
def skipContent : BlockKind → Cursor → Cursor
  | .template, c => (skipTemplateContent c).1
  | .script, c => c.skipUntil (startsCloseTag BlockKind.script.tag)
  | .style, c => c.skipUntil (startsCloseTag BlockKind.style.tag)

theorem length_rest_skipContent_le (kind : BlockKind) (c : Cursor) :
    (skipContent kind c).rest.length ≤ c.rest.length := by
  cases kind with
  | template => exact (skipTemplateContent c).2
  | script => exact Cursor.length_rest_skipUntil_le _ _
  | style => exact Cursor.length_rest_skipUntil_le _ _

end ClassFold
