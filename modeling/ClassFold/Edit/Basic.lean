import ClassFold.Text.Span
import ClassFold.Text.Basic

/-!
Edits and collections of them.

An edit replaces the text of a span.  An edit list holds at most one edit for each span: a later
edit of the same span takes the place of the earlier one and keeps its rank.
-/

namespace ClassFold

/-- The replacement of a stretch of a text. -/
structure Edit where
  span : Span
  text : Text
  deriving DecidableEq, Repr

/-- Edits of one text, in the order in which their spans were first named. -/
structure EditList where
  edits : List Edit
  deriving DecidableEq, Repr

namespace EditList

/-- No edits. -/
def empty : EditList := ⟨[]⟩

/-- A list of edits with one more; an edit of the same span is replaced in place. -/
def insert (e : Edit) : List Edit → List Edit
  | [] => [e]
  | f :: fs => if f.span = e.span then e :: fs else f :: insert e fs

/-- Replaces the text of a span. -/
def update (l : EditList) (e : Edit) : EditList := ⟨insert e l.edits⟩

/-- Removes the text of a span. -/
def remove (l : EditList) (span : Span) : EditList := l.update ⟨span, []⟩

/-- Adds edits one after the other. -/
def updateAll (l : EditList) (es : List Edit) : EditList := es.foldl update l

/-- The text that a span is to be replaced by, if any. -/
def text? (l : EditList) (span : Span) : Option Text :=
  (l.edits.find? (·.span == span)).map Edit.text

theorem find?_insert (e : Edit) (span : Span) (es : List Edit) :
    (insert e es).find? (·.span == span) =
      if e.span = span then some e else es.find? (·.span == span) := by
  induction es with
  | nil => by_cases h : e.span = span <;> simp [insert, h]
  | cons f fs ih =>
    by_cases hf : f.span = e.span
    · by_cases h : e.span = span <;> simp [insert, hf, h]
    · rw [insert, if_neg hf]
      by_cases h : f.span = span
      · have he : e.span ≠ span := fun he => hf (h.trans he.symm)
        simp [h, he]
      · simp [h, ih]

/-- The last edit of a span counts, and other spans are left alone. -/
theorem text?_update (l : EditList) (e : Edit) (span : Span) :
    (l.update e).text? span = if e.span = span then some e.text else l.text? span := by
  rw [text?, update, find?_insert]
  by_cases h : e.span = span <;> simp [h, text?]

/-- The number of edits. -/
def size (l : EditList) : Nat := l.edits.length

/-- Whether there are no edits. -/
def isEmpty (l : EditList) : Bool := l.edits.isEmpty

end EditList

end ClassFold
