import ClassFold.Edit.Basic

/-!
Carrying out edits.

All positions refer to the text before any edit.  Edits are carried out in the order of their
spans; each has to lie inside the text, to start and end between characters, and to start no
earlier than the one before it ends.
-/

namespace ClassFold

open Text

/-- What can be wrong with an edit of a text. -/
inductive EditError where
  /-- The span does not lie inside a text of `size` bytes. -/
  | outOfBounds (span : Span) (size : Nat)
  /-- The span starts or ends inside a character. -/
  | notBoundary (span : Span)
  /-- The span starts before the one in front of it ends. -/
  | overlap (first second : Span)
  deriving DecidableEq, Repr

namespace EditError

/-- The message for an error in an edit. -/
def message : EditError → String
  | outOfBounds ⟨start, stop⟩ size =>
    s!"edit {start}..{stop} is outside the source (len {size})"
  | notBoundary ⟨start, stop⟩ => s!"edit {start}..{stop} does not fall on a character boundary"
  | overlap ⟨start, stop⟩ ⟨start', stop'⟩ =>
    "edits (" ++ toString start ++ ", " ++ toString stop ++ ") and (" ++ toString start' ++ ", " ++
      toString stop' ++ ") overlap"

end EditError

/-- The order of edits: by the start of their spans, then by the end. -/
def Edit.precedes (e f : Edit) : Bool :=
  decide (e.span.start < f.span.start) ||
    (e.span.start == f.span.start && decide (e.span.stop ≤ f.span.stop))

/-- What is wrong with an edit of `source`, a text of `size` bytes, that comes behind the span
`previous`, if anything. -/
def Edit.fault? (source : Text) (size : Nat) (previous : Option Span) (e : Edit) :
    Option EditError :=
  if e.span.stop < e.span.start || size < e.span.stop then some (.outOfBounds e.span size)
  else if !(isBoundary source e.span.start && isBoundary source e.span.stop) then
    some (.notBoundary e.span)
  else
    match previous with
    | some p => if e.span.start < p.stop then some (.overlap p e.span) else none
    | none => none

/-- Where the text behind an edit starts that has not been looked at. -/
def resumeAt (previous : Option Span) : Nat := (previous.map Span.stop).getD 0

/-- Carries out edits of `source`, a text of `size` bytes, that stand in order; `previous` is the
span of the last edit before them. -/
def applyOrdered (source : Text) (size : Nat) :
    (previous : Option Span) → List Edit → Except EditError Text
  | previous, [] => .ok (dropBytes (resumeAt previous) source)
  | previous, e :: es =>
    match e.fault? source size previous with
    | some err => .error err
    | none =>
      match applyOrdered source size (some e.span) es with
      | .error err => .error err
      | .ok rest => .ok (slice source (resumeAt previous) e.span.start ++ e.text ++ rest)

/-- The text after all edits. -/
def EditList.apply (l : EditList) (source : Text) : Except EditError Text :=
  applyOrdered source (byteSize source) none (l.edits.mergeSort Edit.precedes)

end ClassFold
