/-!
Errors in template markup.

Only three things can be wrong with a template: a quoted value or a comment that is never closed,
and an interpolation that is never closed in a template whose last character takes several bytes.
-/

namespace ClassFold

/-- What can be wrong with a template. -/
inductive TemplateError where
  /-- A quoted value without an end; its opening quote stands at `offset`. -/
  | unterminatedAttribute (offset : Nat)
  /-- A comment without an end; it starts at `offset`. -/
  | unterminatedComment (offset : Nat)
  /-- An interpolation without an end, cut in the middle of the last character. -/
  | danglingInterpolation
  deriving DecidableEq, Repr

namespace TemplateError

/-- The message for an error in a template. -/
def message : TemplateError → String
  | unterminatedAttribute offset =>
    s!"unterminated attribute value starting at byte {offset}"
  | unterminatedComment offset => s!"unterminated comment starting at byte {offset}"
  | danglingInterpolation => "unterminated interpolation ends inside a character"

/-- The error with its offset changed. -/
def relocate (f : Nat → Nat) : TemplateError → TemplateError
  | unterminatedAttribute offset => unterminatedAttribute (f offset)
  | unterminatedComment offset => unterminatedComment (f offset)
  | danglingInterpolation => danglingInterpolation

end TemplateError

/-- The outcome of reading with the offsets of its error changed, where `g` changes what has been
read. -/
def relocated {α β : Type} (f : Nat → Nat) (g : α → β) :
    Except TemplateError α → Except TemplateError β
  | .ok a => .ok (g a)
  | .error e => .error (e.relocate f)

end ClassFold
