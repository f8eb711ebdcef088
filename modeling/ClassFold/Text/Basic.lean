/-!
Texts, their size in bytes, and the elementary ways of cutting them.

A text is a list of characters, so that every reader of texts is a recursion on the list.
Positions are counted in bytes of the UTF-8 encoding: `byteSize` measures a text, `takeBytes` and
`dropBytes` cut it at a byte position, and `isBoundary` says which positions fall between two
characters.  `takeUntil` and `dropUntil` cut a text at the first suffix with a given property, and
`strip?` and `cut?` remove a fixed word from the front or at its first occurrence.
-/

namespace ClassFold

/-- A text is the list of its characters. -/
abbrev Text := List Char

namespace Text

/-! ### Bytes -/

/-- The number of bytes a text takes in UTF-8. -/
def byteSize : Text → Nat
  | [] => 0
  | c :: s => c.utf8Size + byteSize s

@[simp] theorem byteSize_nil : byteSize [] = 0 := rfl

@[simp] theorem byteSize_cons (c : Char) (s : Text) :
    byteSize (c :: s) = c.utf8Size + byteSize s := rfl

@[simp] theorem byteSize_append (s t : Text) : byteSize (s ++ t) = byteSize s + byteSize t := by
  induction s with
  | nil => simp
  | cons c s ih => simp [ih, Nat.add_assoc]

/-- The longest beginning of a text that takes at most `n` bytes. -/
def takeBytes : Nat → Text → Text
  | _, [] => []
  | n, c :: s => if c.utf8Size ≤ n then c :: takeBytes (n - c.utf8Size) s else []

/-- What is left of a text after its longest beginning of at most `n` bytes. -/
def dropBytes : Nat → Text → Text
  | _, [] => []
  | n, c :: s => if c.utf8Size ≤ n then dropBytes (n - c.utf8Size) s else c :: s

theorem takeBytes_append_dropBytes (n : Nat) (s : Text) :
    takeBytes n s ++ dropBytes n s = s := by
  induction s generalizing n with
  | nil => rfl
  | cons c s ih =>
    by_cases h : c.utf8Size ≤ n
    · simp [takeBytes, dropBytes, h, ih]
    · simp [takeBytes, dropBytes, h]

/-- A byte position is a boundary when it falls between two characters or at an end. -/
def isBoundary : Text → Nat → Bool
  | _, 0 => true
  | [], _ + 1 => false
  | c :: s, n + 1 => c.utf8Size ≤ n + 1 && isBoundary s (n + 1 - c.utf8Size)

theorem isBoundary_iff {s : Text} {n : Nat} :
    isBoundary s n = true ↔ byteSize (takeBytes n s) = n := by
  induction s generalizing n with
  | nil => cases n <;> simp [isBoundary, takeBytes]
  | cons c s ih =>
    have hc := Char.utf8Size_pos c
    cases n with
    | zero => simp [isBoundary, takeBytes, Nat.ne_of_gt hc]
    | succ n =>
      by_cases h : c.utf8Size ≤ n + 1
      · simp only [isBoundary, takeBytes, h, decide_true, Bool.true_and, ih, if_true, byteSize_cons]
        omega
      · simp [isBoundary, takeBytes, h]

/-- The part of a text from byte `start` up to byte `stop`. -/
def slice (s : Text) (start stop : Nat) : Text := takeBytes (stop - start) (dropBytes start s)

/-! ### Cutting at a suffix -/

/-- The characters in front of the first non-empty suffix that satisfies `p`. -/
def takeUntil (p : Text → Bool) : Text → Text
  | [] => []
  | c :: s => if p (c :: s) then [] else c :: takeUntil p s

/-- The first non-empty suffix that satisfies `p`, or nothing. -/
def dropUntil (p : Text → Bool) : Text → Text
  | [] => []
  | c :: s => if p (c :: s) then c :: s else dropUntil p s

theorem takeUntil_append_dropUntil (p : Text → Bool) (s : Text) :
    takeUntil p s ++ dropUntil p s = s := by
  induction s with
  | nil => rfl
  | cons c s ih => by_cases h : p (c :: s) <;> simp [takeUntil, dropUntil, h, ih]

theorem length_dropUntil_le (p : Text → Bool) (s : Text) :
    (dropUntil p s).length ≤ s.length := by
  have h := congrArg List.length (takeUntil_append_dropUntil p s)
  rw [List.length_append] at h
  omega

theorem length_dropUntil_lt {p : Text → Bool} {s : Text} (hs : s ≠ []) (hp : p s = false) :
    (dropUntil p s).length < s.length := by
  cases s with
  | nil => exact absurd rfl hs
  | cons c s => simpa [dropUntil, hp, Nat.lt_succ_iff] using length_dropUntil_le p s

theorem dropUntil_eq_nil_or (p : Text → Bool) (s : Text) :
    dropUntil p s = [] ∨ p (dropUntil p s) = true := by
  induction s with
  | nil => exact .inl rfl
  | cons c s ih => by_cases h : p (c :: s) <;> simp [dropUntil, h, ih]

/-! ### Fixed words -/

/-- What follows the word `w` at the front of a text. -/
def strip? : (w : Text) → Text → Option Text
  | [], s => some s
  | _ :: _, [] => none
  | a :: w, c :: s => if a = c then strip? w s else none

theorem strip?_eq_some {w s r : Text} : strip? w s = some r ↔ s = w ++ r := by
  induction w generalizing s with
  | nil => simp [strip?]
  | cons a w ih =>
    cases s with
    | nil => simp [strip?]
    | cons c s => by_cases h : a = c <;> simp [strip?, h, ih, eq_comm]

/-- Whether the word `w` stands at the front of a text. -/
def startsWith (w s : Text) : Bool := (strip? w s).isSome

/-- The parts of a text before and after the first occurrence of the word `w`. -/
def cut? (w s : Text) : Option (Text × Text) :=
  (strip? w (dropUntil (startsWith w) s)).map fun r => (takeUntil (startsWith w) s, r)

theorem eq_of_cut? {w s a b : Text} (h : cut? w s = some (a, b)) : s = a ++ w ++ b := by
  obtain ⟨r, hr, he⟩ := Option.map_eq_some_iff.1 h
  obtain ⟨rfl, rfl⟩ := Prod.mk.inj he
  rw [List.append_assoc, ← strip?_eq_some.1 hr, takeUntil_append_dropUntil]

/-- The first line of a text, without the line feed that ends it or a carriage return in front of
that. -/
def firstLine (s : Text) : Text :=
  let line := s.takeWhile (· != '\n')
  if line.getLast? = some '\r' then line.dropLast else line

/-- The texts of a list, one after the other, with `sep` between any two. -/
def joinWith (sep : Char) : List Text → Text
  | [] => []
  | [s] => s
  | s :: t :: rest => s ++ sep :: joinWith sep (t :: rest)

end Text

end ClassFold
