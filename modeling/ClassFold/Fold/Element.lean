import ClassFold.Edit.Basic
import ClassFold.Expr.Lookup
import ClassFold.Fold.Slots
import ClassFold.Template.Node

/-!
Folding the shorthands of an element into its class binding.

The bound shorthand is folded first and the plain one on top of it.  A shorthand that holds classes
is added to the class binding of the element and removed; if the element has no class binding, the
shorthand itself becomes one.  A shorthand without classes is removed.
-/

namespace ClassFold

open Text

/-- The class binding of an element while shorthands are folded into it. -/
structure Target where
  /-- The attribute that holds the binding. -/
  span : Span
  /-- The marks around its value. -/
  quote : Quote
  expr : Text
  /-- Whether anything has been folded into it. -/
  changed : Bool
  deriving DecidableEq, Repr

namespace Target

/-- The binding that an element has. -/
def ofAttr (a : Attr) : Target := ⟨a.span, Quote.ofAttribute a.raw, trim a.valueText, false⟩

/-- The binding that takes the place of a shorthand. -/
def inPlaceOf (a : Attr) (expr : Text) : Target := ⟨a.span, Quote.ofAttribute a.raw, expr, true⟩

/-- A binding with further classes. -/
def absorb (t : Target) (incoming : Incoming) : Target :=
  { t with expr := combine t.expr incoming, changed := true }

/-- The attribute that a binding is written as. -/
def render (t : Target) : Text := ":class=".toList ++ t.quote.wrap t.expr

/-- The edit that writes a binding. -/
def edit (t : Target) : Edit := ⟨t.span, t.render⟩

end Target

/-- The state of folding at one element: its class binding, if it has one by now, and the spans to
be removed. -/
structure Folding where
  target : Option Target
  removed : List Span
  deriving DecidableEq, Repr

namespace Folding

/-- Removes a shorthand. -/
def drop (f : Folding) (a : Attr) : Folding := { f with removed := f.removed ++ [a.span] }

/-- The classes that a resolved shorthand brings: entries if it is an object, items otherwise. -/
def incoming (object : Bool) (resolved : Text) : Incoming :=
  if object then .entries resolved else .items (topItems resolved)

/-- Folds a bound shorthand.  Its lookups are written with the marks that its own quotes leave
free; they are exchanged when the class binding has the other quotes. -/
def addBound (moduleName : Text) (f : Folding) (a : Attr) : Folding :=
  let quote := Quote.ofAttribute a.raw
  let object := (Binding.ofText a.valueText).isObject
  match resolveExpression ⟨moduleName, quote.opposite⟩ a.valueText with
  | none => f.drop a
  | some resolved =>
    match f.target with
    | some target =>
      let resolved := if target.quote = quote then resolved else swapQuotes resolved
      { f.drop a with target := some (target.absorb (incoming object resolved)) }
    | none =>
      { f with
        target := some (.inPlaceOf a (if object then braced resolved else bracketed resolved)) }

/-- Folds a plain shorthand. -/
def addPlain (moduleName : Text) (f : Folding) (a : Attr) : Folding :=
  let names := classNames a.valueText
  if names.isEmpty then f.drop a
  else
    match f.target with
    | some target =>
      let style : LookupStyle := ⟨moduleName, target.quote.opposite⟩
      { f.drop a with target := some (target.absorb (.items (names.map style.named))) }
    | none =>
      let style : LookupStyle := ⟨moduleName, (Quote.ofAttribute a.raw).opposite⟩
      { f with target := some (.inPlaceOf a (bracketed (commaJoin (names.map style.named)))) }

/-- The edits of an element: the class binding first, if it has changed, then the removals. -/
def edits (f : Folding) : List Edit :=
  ((f.target.filter Target.changed).map Target.edit).toList ++ f.removed.map fun s => ⟨s, []⟩

end Folding

namespace Slots

/-- The folding of both shorthands of an element. -/
def fold (moduleName : Text) (s : Slots) : Folding :=
  let start : Folding := ⟨s.boundClass.map Target.ofAttr, []⟩
  let bound := s.boundShorthand.elim start (start.addBound moduleName)
  s.plainShorthand.elim bound (bound.addPlain moduleName)

/-- The edits that fold the shorthands of an element. -/
def edits (moduleName : Text) (s : Slots) : List Edit := (s.fold moduleName).edits

end Slots

/-- The edits of all elements with a shorthand, in document order. -/
def foldEdits (shorthand moduleName : Text) (nodes : List Node) : List Edit :=
  (((Node.attrListsOf nodes).map (Slots.ofAttrs shorthand)).filter Slots.hasShorthand).flatMap
    (Slots.edits moduleName)

end ClassFold
