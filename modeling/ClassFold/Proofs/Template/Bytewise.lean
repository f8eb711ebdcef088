import ClassFold.Proofs.Text.Octets
import ClassFold.Template.Forest

/-!
Reading a template by byte positions.

The readers of this module keep a byte position in a template, look at the bytes there one by one,
and cut texts out of the template between two positions.  They come to no outcome at all when they

* look at a byte outside of the template (`byteAt`),
* cut outside of the template or inside a character (`cut`, `bytesBetween`), since a loop over bytes
  knows nothing of characters,
* add a position to the start of the template and no word holds the sum (`Overflow.add`), unless
  sums wrap around.

Every loop over bytes is a `seek`.  Each reader makes progress (`lt_of_readAttr`, `lt_of_nextToken`),
so that the loops over attributes (`readTagTail`) and over tokens (`build`) end.
-/

namespace ClassFold.Bytewise

open Text

/-! ### Outcomes -/

/-- The outcome of a reader, or nothing if the program stops in the middle of it. -/
abbrev Outcome (α : Type) := Option (Except TemplateError α)

/-- Goes on with what has been read. -/
def Outcome.andThen {α β : Type} (r : Outcome α) (f : α → Outcome β) : Outcome β :=
  match r with
  | none => none
  | some (.error e) => some (.error e)
  | some (.ok a) => f a

@[simp] lemma Outcome.andThen_ok {α β : Type} (a : α) (f : α → Outcome β) :
    Outcome.andThen (some (.ok a)) f = f a := rfl

lemma Outcome.exists_of_andThen {α β : Type} {r : Outcome α} {f : α → Outcome β} {b : β}
    (h : r.andThen f = some (.ok b)) : ∃ a, r = some (.ok a) ∧ f a = some (.ok b) := by
  match r, h with
  | some (.ok a), h => exact ⟨a, rfl, h⟩

/-- What becomes of a sum that no word holds. -/
inductive Overflow where
  /-- The sum wraps around. -/
  | wraps
  /-- The program stops. -/
  | stops
  deriving DecidableEq, Repr

/-- The sum of two offsets. -/
def Overflow.add (o : Overflow) (m n : Nat) : Outcome Nat :=
  match o with
  | wraps => some (.ok ((m + n) % wordSize))
  | stops => if m + n < wordSize then some (.ok (m + n)) else none

section Readers

variable (o : Overflow) (source : Text) (base : Nat)

/-! ### Bytes -/

/-- The byte at a position, which has to lie inside the template. -/
def byteAt (i : Nat) : Outcome Char := (octets source)[i]?.map .ok

/-- Whether the byte at a position passes a test. -/
def testAt (p : Char → Bool) (i : Nat) : Outcome Bool :=
  (byteAt source i).andThen fun b => some (.ok (p b))

/-- Whether there is a byte at a position and it passes a test. -/
def passesAt (p : Char → Bool) (i : Nat) : Outcome Bool :=
  if i < byteSize source then testAt source p i else some (.ok false)

/-- The first position that passes a test, or the limit of the search if none does. -/
def seek (limit : Nat) (test : Nat → Outcome Bool) (i : Nat) : Outcome Nat :=
  if _hi : i < limit then
    (test i).andThen fun found => if found then some (.ok i) else seek limit test (i + 1)
  else some (.ok i)
termination_by limit - i

/-- The position behind the bytes that pass a test. -/
def skipWhile (p : Char → Bool) (i : Nat) : Outcome Nat :=
  seek (byteSize source) (testAt source (!p ·)) i

/-- The position behind a byte, if this one comes next. -/
def skipOptional (b : Char) (i : Nat) : Outcome Nat :=
  (passesAt source (· == b) i).andThen fun present => some (.ok (if present then i + 1 else i))

/-- The bytes between two positions, which have to lie in the template in this order. -/
def bytesBetween (i j : Nat) : Outcome Text :=
  if i ≤ j ∧ j ≤ byteSize source then some (.ok (((octets source).drop i).take (j - i))) else none

/-- The text between two positions, which have to lie between characters and in this order. -/
def cut (i j : Nat) : Outcome Text :=
  if i ≤ j ∧ isBoundary source i = true ∧ isBoundary source j = true then
    some (.ok (slice source i j))
  else none

lemma le_of_seek {limit i j : Nat} {test : Nat → Outcome Bool}
    (h : seek limit test i = some (.ok j)) : i ≤ j := by
  fun_induction seek limit test i with
  | case1 i hi ih =>
      obtain ⟨found, -, hfound⟩ := Outcome.exists_of_andThen h
      split at hfound
      · obtain rfl := Except.ok.inj (Option.some.inj hfound)
        exact Nat.le_refl _
      · have := ih hfound
        omega
  | case2 i hi =>
      obtain rfl := Except.ok.inj (Option.some.inj h)
      exact Nat.le_refl _

variable {source} in
lemma le_of_skipWhile {p : Char → Bool} {i j : Nat}
    (h : skipWhile source p i = some (.ok j)) : i ≤ j := le_of_seek h

variable {source} in
lemma le_of_skipOptional {b : Char} {i j : Nat}
    (h : skipOptional source b i = some (.ok j)) : i ≤ j := by
  obtain ⟨present, -, hj⟩ := Outcome.exists_of_andThen h
  obtain rfl := Except.ok.inj (Option.some.inj hj)
  split <;> omega

/-! ### Attributes -/

/-- Whether a value without quotes ends at a position. -/
def bareEndAt (i : Nat) : Outcome Bool :=
  (byteAt source i).andThen fun b =>
    if isSpace b || b == '>' then some (.ok true)
    else if b == '/' then passesAt source (· == '>') (i + 1)
    else some (.ok false)

/-- The value of an attribute behind its equals sign. -/
def readValue (i : Nat) : Outcome (Text × Nat) :=
  if i < byteSize source then
    (byteAt source i).andThen fun q =>
      if q == '"' || q == '\'' then
        (skipWhile source (· != q) (i + 1)).andThen fun stop =>
          if stop < byteSize source then
            (cut source (i + 1) stop).andThen fun value => some (.ok (value, stop + 1))
          else
            (o.add base i).andThen fun offset => some (.error (.unterminatedAttribute offset))
      else
        (seek (byteSize source) (bareEndAt source) i).andThen fun stop =>
          (cut source i stop).andThen fun value => some (.ok (value, stop))
  else some (.ok ([], i))

/-- The attribute between two positions. -/
def attrBetween (start stop : Nat) (rawName : Text) (value : Option Text) :
    Outcome (Option (Attr × Nat)) :=
  (o.add base start).andThen fun first =>
    (o.add base stop).andThen fun last =>
      (cut source start stop).andThen fun raw =>
        some (.ok (some (⟨(kindAndName rawName).1, (kindAndName rawName).2, value,
          ⟨first, last⟩, raw⟩, stop)))

/-- The attribute at a position, or nothing if no name starts there. -/
def readAttr (i : Nat) : Outcome (Option (Attr × Nat)) :=
  (skipWhile source isAttrNameChar i).andThen fun named =>
    if named = i then some (.ok none)
    else
      (cut source i named).andThen fun rawName =>
        (skipWhile source isSpace named).andThen fun equals =>
          (passesAt source (· == '=') equals).andThen fun present =>
            if present then
              (skipWhile source isSpace (equals + 1)).andThen fun start =>
                (readValue o source base start).andThen fun v =>
                  attrBetween o source base i v.2 rawName (some v.1)
            else attrBetween o source base i named rawName none

variable {o source base}

lemma le_of_readValue {i j : Nat} {v : Text} (h : readValue o source base i = some (.ok (v, j))) :
    i ≤ j := by
  rw [readValue] at h
  split at h
  · obtain ⟨q, -, h⟩ := Outcome.exists_of_andThen h
    split at h
    · obtain ⟨stop, hstop, h⟩ := Outcome.exists_of_andThen h
      have hle := le_of_skipWhile hstop
      split at h
      · obtain ⟨value, -, hv⟩ := Outcome.exists_of_andThen h
        obtain ⟨-, rfl⟩ := Prod.mk.inj (Except.ok.inj (Option.some.inj hv))
        omega
      · obtain ⟨offset, -, he⟩ := Outcome.exists_of_andThen h
        simp at he
    · obtain ⟨stop, hstop, h⟩ := Outcome.exists_of_andThen h
      obtain ⟨value, -, hv⟩ := Outcome.exists_of_andThen h
      obtain ⟨-, rfl⟩ := Prod.mk.inj (Except.ok.inj (Option.some.inj hv))
      exact le_of_seek hstop
  · obtain ⟨-, rfl⟩ := Prod.mk.inj (Except.ok.inj (Option.some.inj h))
    exact Nat.le_refl _

lemma eq_of_attrBetween {start stop j : Nat} {rawName : Text} {value : Option Text} {a : Attr}
    (h : attrBetween o source base start stop rawName value = some (.ok (some (a, j)))) :
    j = stop := by
  obtain ⟨first, -, h⟩ := Outcome.exists_of_andThen h
  obtain ⟨last, -, h⟩ := Outcome.exists_of_andThen h
  obtain ⟨raw, -, ha⟩ := Outcome.exists_of_andThen h
  exact (Prod.mk.inj (Option.some.inj (Except.ok.inj (Option.some.inj ha)))).2.symm

lemma lt_of_readAttr {i j : Nat} {a : Attr}
    (h : readAttr o source base i = some (.ok (some (a, j)))) : i < j := by
  obtain ⟨named, hnamed, h⟩ := Outcome.exists_of_andThen h
  have hname := le_of_skipWhile hnamed
  split at h
  · simp at h
  · obtain ⟨rawName, -, h⟩ := Outcome.exists_of_andThen h
    obtain ⟨equals, hequals, h⟩ := Outcome.exists_of_andThen h
    obtain ⟨present, -, h⟩ := Outcome.exists_of_andThen h
    have hspace := le_of_skipWhile hequals
    split at h
    · obtain ⟨start, hstart, h⟩ := Outcome.exists_of_andThen h
      obtain ⟨⟨v, k⟩, hv, ha⟩ := Outcome.exists_of_andThen h
      obtain rfl := eq_of_attrBetween ha
      have hgap := le_of_skipWhile hstart
      have hvalue := le_of_readValue hv
      omega
    · obtain rfl := eq_of_attrBetween h
      omega

variable (o source base)

/-! ### Tags -/

/-- What is found next in an opening tag, with the position behind it. -/
inductive TagStep where
  /-- The end of the tag. -/
  | stop (selfClosing : Bool) (next : Nat)
  | attr (a : Attr) (next : Nat)
  /-- A character that belongs to no attribute. -/
  | stray (next : Nat)

/-- What comes next in an opening tag. -/
def tagStep (i : Nat) : Outcome TagStep :=
  (skipWhile source isSpace i).andThen fun next =>
    if next < byteSize source then
      (byteAt source next).andThen fun b =>
        if b = '/' then
          (skipWhile source isSpace (next + 1)).andThen fun behind =>
            (skipOptional source '>' behind).andThen fun stop => some (.ok (.stop true stop))
        else if b = '>' then some (.ok (.stop false (next + 1)))
        else
          (readAttr o source base next).andThen fun r =>
            match r with
            | none => some (.ok (.stray (next + 1)))
            | some (a, j) => some (.ok (.attr a j))
    else some (.ok (.stop false next))

variable {o source base} in
/-- A tag ends at the position or behind it, and everything else in it is read from the template. -/
lemma tagStep_progress {i : Nat} {t : TagStep} (h : tagStep o source base i = some (.ok t)) :
    (∃ selfClosing stop, t = .stop selfClosing stop ∧ i ≤ stop) ∨
      i < byteSize source ∧
        ((∃ a next, t = .attr a next ∧ i < next) ∨ ∃ next, t = .stray next ∧ i < next) := by
  obtain ⟨next, hnext, h⟩ := Outcome.exists_of_andThen h
  have hle := le_of_skipWhile hnext
  split at h
  · obtain ⟨b, -, h⟩ := Outcome.exists_of_andThen h
    split_ifs at h
    · obtain ⟨behind, hbehind, h⟩ := Outcome.exists_of_andThen h
      obtain ⟨stop, hstop, h⟩ := Outcome.exists_of_andThen h
      obtain rfl := Except.ok.inj (Option.some.inj h)
      have hgap := le_of_skipWhile hbehind
      have hend := le_of_skipOptional hstop
      exact .inl ⟨true, stop, rfl, by omega⟩
    · obtain rfl := Except.ok.inj (Option.some.inj h)
      exact .inl ⟨false, next + 1, rfl, by omega⟩
    · obtain ⟨r, hr, h⟩ := Outcome.exists_of_andThen h
      split at h
      · obtain rfl := Except.ok.inj (Option.some.inj h)
        exact .inr ⟨by omega, .inr ⟨next + 1, rfl, by omega⟩⟩
      · obtain rfl := Except.ok.inj (Option.some.inj h)
        have hattr := lt_of_readAttr hr
        exact .inr ⟨by omega, .inl ⟨_, _, rfl, by omega⟩⟩
  · obtain rfl := Except.ok.inj (Option.some.inj h)
    exact .inl ⟨false, next, rfl, hle⟩

/-- The rest of an opening tag from a position on. -/
def readTagTail (i : Nat) : Outcome (TagTail × Nat) :=
  match _h : tagStep o source base i with
  | none => none
  | some (.error e) => some (.error e)
  | some (.ok (.stop selfClosing stop)) => some (.ok (⟨[], selfClosing⟩, stop))
  | some (.ok (.stray next)) => readTagTail next
  | some (.ok (.attr a next)) =>
    (readTagTail next).andThen fun r => some (.ok (⟨a :: r.1.attrs, r.1.selfClosing⟩, r.2))
termination_by byteSize source - i
decreasing_by
  all_goals
    have := tagStep_progress _h
    simp at this
    omega

variable {o source base} in
lemma le_of_readTagTail {i j : Nat} {t : TagTail}
    (h : readTagTail o source base i = some (.ok (t, j))) : i ≤ j := by
  fun_induction readTagTail o source base i generalizing t j with
  | case1 => simp at h
  | case2 => simp at h
  | case3 i selfClosing stop hstep =>
      obtain ⟨-, rfl⟩ := Prod.mk.inj (Except.ok.inj (Option.some.inj h))
      have := tagStep_progress hstep
      simpa using this
  | case4 i next hstep ih =>
      have hnext := tagStep_progress hstep
      have := ih h
      simp at hnext
      omega
  | case5 i a next hstep ih =>
      obtain ⟨⟨tail, stop⟩, htail, hr⟩ := Outcome.exists_of_andThen h
      obtain ⟨-, rfl⟩ := Prod.mk.inj (Except.ok.inj (Option.some.inj hr))
      have hnext := tagStep_progress hstep
      have := ih htail
      simp at hnext
      omega

/-! ### Tokens -/

/-- The comment at a position. -/
def readComment (i : Nat) : Outcome (Token × Nat) :=
  (cut source (i + 4) (byteSize source)).andThen fun behind =>
    match Text.cut? "-->".toList behind with
    | none => (o.add base i).andThen fun offset => some (.error (.unterminatedComment offset))
    | some (content, _) =>
      let stop := i + 4 + byteSize content
      (cut source (i + 4) stop).andThen fun text => some (.ok (.comment text, stop + 3))

/-- The tag name at a position. -/
def readName (i : Nat) : Outcome (Text × Nat) :=
  (skipWhile source isTagChar i).andThen fun stop =>
    (bytesBetween source i stop).andThen fun name => some (.ok (name, stop))

/-- The closing tag at a position.  Its end stays a position, to be added to the start of the
template when it closes an element. -/
def readClosing (i : Nat) : Outcome (Token × Nat) :=
  (readName source (i + 2)).andThen fun name =>
    (skipWhile source isSpace name.2).andThen fun behind =>
      (skipOptional source '>' behind).andThen fun stop => some (.ok (.closing name.1 stop, stop))

/-- The opening tag at a position. -/
def readOpening (i : Nat) : Outcome (Token × Nat) :=
  (readName source (i + 1)).andThen fun name =>
    (readTagTail o source base name.2).andThen fun r =>
      (o.add base i).andThen fun first =>
        (o.add base r.2).andThen fun last =>
          some (.ok (.opening name.1 r.1.attrs r.1.selfClosing ⟨first, last⟩, r.2))

/-- Whether two closing braces stand at a position that is not the last one. -/
def bracesAt (i : Nat) : Outcome Bool :=
  (byteAt source i).andThen fun b =>
    if b == '}' then testAt source (· == '}') (i + 1) else some (.ok false)

/-- The interpolation at a position.  It ends at two closing braces or at the last byte. -/
def readInterpolation (i : Nat) : Outcome (Token × Nat) :=
  (seek (byteSize source - 1) (bracesAt source) (i + 2)).andThen fun stop =>
    (cut source (i + 2) (min stop (byteSize source))).andThen fun expr =>
      some (.ok (.interpolation (trim expr),
        if stop + 1 < byteSize source then stop + 2 else byteSize source))

/-- Whether markup starts at a position.  Comments and declarations start alike. -/
def markupAt (i : Nat) : Outcome Bool :=
  (byteAt source i).andThen fun b =>
    if b = '<' then passesAt source (fun c => c.isAlpha || c == '/' || c == '!') (i + 1)
    else if b = '{' then passesAt source (· == '{') (i + 1)
    else some (.ok false)

/-- The text at a position, of which the first byte is not looked at. -/
def readText (i : Nat) : Outcome (Token × Nat) :=
  (seek (byteSize source) (markupAt source) (i + 1)).andThen fun stop =>
    (cut source i stop).andThen fun text => some (.ok (.text (nodeText text), stop))

/-- What starts at a position.  Behind an opening bracket the rest of the template is cut off to look
for a comment. -/
def leadAt (i : Nat) : Outcome Lead :=
  (byteAt source i).andThen fun b =>
    if b = '<' then
      (cut source i (byteSize source)).andThen fun rest =>
        if startsWith "<!--".toList rest then some (.ok .comment)
        else if i + 1 < byteSize source then
          (byteAt source (i + 1)).andThen fun c =>
            some (.ok (if c == '!' then .declaration else if c == '/' then .closing
              else if c.isAlpha then .opening else .text))
        else some (.ok .text)
    else if b = '{' then
      (passesAt source (· == '{') (i + 1)).andThen fun double =>
        some (.ok (if double then .interpolation else .text))
    else some (.ok .text)

/-- The next token at a position. -/
def nextToken (i : Nat) : Outcome (Token × Nat) :=
  (leadAt source i).andThen fun lead =>
    match lead with
    | .comment => readComment o source base i
    | .declaration =>
      (skipWhile source (· != '>') i).andThen fun stop => some (.ok (.declaration, stop + 1))
    | .closing => readClosing source i
    | .opening => readOpening o source base i
    | .interpolation => readInterpolation source i
    | .text => readText source i

variable {source} in
lemma le_of_readName {i j : Nat} {name : Text} (h : readName source i = some (.ok (name, j))) :
    i ≤ j := by
  obtain ⟨stop, hstop, h⟩ := Outcome.exists_of_andThen h
  obtain ⟨bytes, -, h⟩ := Outcome.exists_of_andThen h
  obtain ⟨-, rfl⟩ := Prod.mk.inj (Except.ok.inj (Option.some.inj h))
  exact le_of_skipWhile hstop

variable {o source base} in
lemma lt_of_nextToken {i j : Nat} {t : Token} (hi : i < byteSize source)
    (h : nextToken o source base i = some (.ok (t, j))) : i < j := by
  obtain ⟨lead, -, h⟩ := Outcome.exists_of_andThen h
  cases lead with
  | comment =>
      obtain ⟨behind, -, h⟩ := Outcome.exists_of_andThen h
      split at h
      · obtain ⟨offset, -, he⟩ := Outcome.exists_of_andThen h
        simp at he
      · obtain ⟨text, -, h⟩ := Outcome.exists_of_andThen h
        obtain ⟨-, rfl⟩ := Prod.mk.inj (Except.ok.inj (Option.some.inj h))
        omega
  | declaration =>
      obtain ⟨stop, hstop, h⟩ := Outcome.exists_of_andThen h
      obtain ⟨-, rfl⟩ := Prod.mk.inj (Except.ok.inj (Option.some.inj h))
      have := le_of_skipWhile hstop
      omega
  | closing =>
      obtain ⟨⟨name, named⟩, hname, h⟩ := Outcome.exists_of_andThen h
      obtain ⟨behind, hbehind, h⟩ := Outcome.exists_of_andThen h
      obtain ⟨stop, hstop, h⟩ := Outcome.exists_of_andThen h
      obtain ⟨-, rfl⟩ := Prod.mk.inj (Except.ok.inj (Option.some.inj h))
      have hnamed := le_of_readName hname
      have hgap := le_of_skipWhile hbehind
      have hend := le_of_skipOptional hstop
      simp only at hgap
      omega
  | opening =>
      obtain ⟨⟨name, named⟩, hname, h⟩ := Outcome.exists_of_andThen h
      obtain ⟨⟨tail, stop⟩, htail, h⟩ := Outcome.exists_of_andThen h
      obtain ⟨first, -, h⟩ := Outcome.exists_of_andThen h
      obtain ⟨last, -, h⟩ := Outcome.exists_of_andThen h
      obtain ⟨-, rfl⟩ := Prod.mk.inj (Except.ok.inj (Option.some.inj h))
      have hnamed := le_of_readName hname
      have hstop := le_of_readTagTail htail
      simp only at hstop ⊢
      omega
  | interpolation =>
      obtain ⟨stop, hstop, h⟩ := Outcome.exists_of_andThen h
      obtain ⟨expr, -, h⟩ := Outcome.exists_of_andThen h
      obtain ⟨-, rfl⟩ := Prod.mk.inj (Except.ok.inj (Option.some.inj h))
      have := le_of_seek hstop
      split <;> omega
  | text =>
      obtain ⟨stop, hstop, h⟩ := Outcome.exists_of_andThen h
      obtain ⟨text, -, h⟩ := Outcome.exists_of_andThen h
      obtain ⟨-, rfl⟩ := Prod.mk.inj (Except.ok.inj (Option.some.inj h))
      have := le_of_seek hstop
      omega

/-! ### Trees -/

/-- Reads one token.  The end of a closing tag becomes an offset if the tag closes an element. -/
def step (b : Builder) (t : Token) : Outcome Builder :=
  match t with
  | .closing tag i =>
    if b.stack.any (·.tag == tag) then
      (o.add base i).andThen fun stop => some (.ok (b.step (.closing tag stop)))
    else some (.ok b)
  | t => some (.ok (b.step t))

/-- Reads the tokens of a template from a position on. -/
def build (b : Builder) (i : Nat) : Outcome Builder :=
  if _hi : i < byteSize source then
    match _ht : nextToken o source base i with
    | none => none
    | some (.error e) => some (.error e)
    | some (.ok (t, j)) => (step o base b t).andThen fun b' => build b' j
  else some (.ok b)
termination_by byteSize source - i
decreasing_by
  have := lt_of_nextToken _hi _ht
  omega

/-- The nodes of a template that has been read up to its end, where the elements that are still open
are closed. -/
def finish (b : Builder) : Outcome (List Node) :=
  if b.stack.isEmpty then some (.ok (b.roots.filter (!·.isBlankText)))
  else (o.add base (byteSize source)).andThen fun stop => some (.ok (b.finish stop))

/-- The nodes of a template that starts at byte `base` of a file. -/
def parseTemplate : Outcome (List Node) :=
  (build o source base .empty 0).andThen (finish o source base)

end Readers

end ClassFold.Bytewise
