import ClassFold.Expr.Nesting

/-!
The outer shape of a class binding.

A class binding is an object, an array or any other expression.  The shape is read off the first
and the last character of the trimmed expression alone.
-/

namespace ClassFold

open Text

/-- What stands between `left` at the front and `right` at the end of a text. -/
def between? (left right : Char) : Text → Option Text
  | [] => none
  | c :: s => if c = left ∧ s.getLast? = some right then some s.dropLast else none

theorem between?_eq_some {left right : Char} {s t : Text} :
    between? left right s = some t ↔ s = left :: (t ++ [right]) := by
  cases s with
  | nil => simp [between?]
  | cons c s =>
    simp only [between?, Option.ite_none_right_eq_some, Option.some.injEq, List.cons.injEq]
    constructor
    · rintro ⟨⟨rfl, h⟩, rfl⟩
      obtain ⟨t, rfl⟩ := List.getLast?_eq_some_iff.1 h
      simp
    · rintro ⟨rfl, rfl⟩
      simp

/-- A class binding by its outer shape. -/
inductive Binding where
  /-- An object, with the text between its braces. -/
  | object (content : Text)
  /-- An array, with the text between its brackets. -/
  | array (content : Text)
  /-- Any other expression, trimmed. -/
  | plain (expr : Text)
  deriving DecidableEq, Repr

namespace Binding

/-- The shape of an expression. -/
def ofText (s : Text) : Binding :=
  match between? '{' '}' (trim s) with
  | some content => object content
  | none =>
    match between? '[' ']' (trim s) with
    | some content => array content
    | none => plain (trim s)

/-- The text inside the outer delimiters, and the whole expression when there are none. -/
def content : Binding → Text
  | object s => s
  | array s => s
  | plain s => s

/-- Whether a binding is an object. -/
def isObject : Binding → Bool
  | object _ => true
  | _ => false

/-- Whether a binding is an array. -/
def isArray : Binding → Bool
  | array _ => true
  | _ => false

theorem length_of_ofText_eq_array {s t : Text} (h : ofText s = array t) :
    t.length < s.length := by
  unfold ofText at h
  split at h
  · simp at h
  · split at h
    · rename_i u hu
      obtain rfl : u = t := by simpa using h
      have hs := between?_eq_some.1 hu
      have := length_trim_le s
      rw [hs] at this
      simp only [List.length_cons, List.length_append, List.length_nil] at this
      omega
    · simp at h

end Binding

end ClassFold
