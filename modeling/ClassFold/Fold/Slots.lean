import ClassFold.Template.Attr

/-!
The attributes of an element that take part in folding.

Three attributes of an element matter: the binding of `class`, and the plain and the bound form of
the shorthand attribute.  When one of them is given several times, the last one counts.
-/

namespace ClassFold

/-- The attributes of an element that take part in folding. -/
structure Slots where
  /-- `:class="…"`. -/
  boundClass : Option Attr
  /-- `cls="…"`. -/
  plainShorthand : Option Attr
  /-- `:cls="…"`. -/
  boundShorthand : Option Attr
  deriving DecidableEq, Repr

namespace Slots

/-- No attribute in any slot. -/
def empty : Slots := ⟨none, none, none⟩

/-- Whether the element has a shorthand. -/
def hasShorthand (s : Slots) : Bool := s.plainShorthand.isSome || s.boundShorthand.isSome

/-- Puts an attribute into the slot it belongs to, if any.  A binding of `class` is never a
shorthand. -/
def add (shorthand : Text) (s : Slots) (a : Attr) : Slots :=
  if a.binds "class".toList then { s with boundClass := some a }
  else if a.isStatic shorthand then { s with plainShorthand := some a }
  else if a.binds shorthand then { s with boundShorthand := some a }
  else s

/-- The slots of an element with the given attributes. -/
def ofAttrs (shorthand : Text) (attrs : List Attr) : Slots := attrs.foldl (add shorthand) empty

end Slots

end ClassFold
