import ClassFold.Files.Tree
import Mathlib.Data.List.Basic
import Mathlib.Data.Set.Insert

/-!
Trees that grow.

Creating directories and writing a file only add to a tree, the file that is written over apart.
Where a path led before, it leads afterwards.

* `FileTree.Grown`: a tree that came out of another one, with the places that were written to.
* `FileTree.grown_createDirs`: creating directories changes no file, whether it succeeds or not.
* `FileTree.locate`: the place that a path leads to, with `Grown.locate_eq` and `Grown.read?_eq`.
* `FileTree.grown_of_write?`: what writing a file does.
-/

namespace ClassFold

open Text

namespace FileTree

/-- A tree `t'` that came out of the tree `t`: directories were added, and files were put at the
places of `written`, where no directory stood. -/
structure Grown (written : Set Place) (t t' : FileTree) : Prop where
  workDir_eq : t'.workDir = t.workDir
  /-- Every directory stays. -/
  directory : ∀ p, t.get? p = some .directory → t'.get? p = some .directory
  /-- Elsewhere there are the same files with the same content, no more and no fewer. -/
  file : ∀ p ∉ written, ∀ content,
    t'.get? p = some (.file content) ↔ t.get? p = some (.file content)
  /-- No place is cleared. -/
  present : ∀ p, t.get? p ≠ none → t'.get? p ≠ none

namespace Grown

variable {written : Set Place} {t t' t'' : FileTree}

lemma refl (written : Set Place) (t : FileTree) : Grown written t t where
  workDir_eq := rfl
  directory _ h := h
  file _ _ _ := Iff.rfl
  present _ h := h

lemma trans (h : Grown written t t') (h' : Grown written t' t'') : Grown written t t'' where
  workDir_eq := h'.workDir_eq.trans h.workDir_eq
  directory p hp := h'.directory p (h.directory p hp)
  file p hp content := (h'.file p hp content).trans (h.file p hp content)
  present p hp := h'.present p (h.present p hp)

lemma mono {written' : Set Place} (h : Grown written t t') (hsub : written ⊆ written') :
    Grown written' t t' :=
  { h with file := fun p hp => h.file p fun hmem => hp (hsub hmem) }

end Grown

/-! ### One entry -/

variable {t t' : FileTree}

/-- A new directory where nothing stood. -/
lemma grown_set_directory {p : Place} (hp : p ≠ []) (hnone : t.get? p = none) :
    Grown ∅ t (t.set p .directory) where
  workDir_eq := rfl
  directory q hq := by
    rw [get?_set t hp]
    split <;> simp [hq]
  file q _ content := by
    rw [get?_set t hp]
    split
    · rename_i heq
      simp [heq, hnone]
    · exact Iff.rfl
  present q hq := by
    rw [get?_set t hp]
    split <;> simp [hq]

/-- A file where no directory stands. -/
lemma grown_set_file {p : Place} (hp : p ≠ []) (hdir : t.get? p ≠ some .directory)
    (content : ByteArray) : Grown {p} t (t.set p (.file content)) where
  workDir_eq := rfl
  directory q hq := by
    have hne : q ≠ p := fun heq => hdir (heq ▸ hq)
    rw [get?_set t hp, if_neg hne, hq]
  file q hq content' := by
    rw [get?_set t hp, if_neg (Set.notMem_singleton_iff.1 hq)]
  present q hq := by
    rw [get?_set t hp]
    split <;> simp [hq]

/-! ### Creating directories -/

/-- **Step.** A directory is created only where nothing stands. -/
lemma grown_of_createDir {absolute : Bool} {names : List Text}
    (h : t.createDir absolute names = .created t') : Grown ∅ t t' := by
  unfold createDir at h
  repeat' split at h
  -- only the branch in which nothing stands at the place creates something
  all_goals cases h
  rename_i hnone
  exact grown_set_directory (by simp) hnone

/-- **Run.** Creating a directory and those around it adds directories and changes nothing else,
even when it comes to a halt on the way. -/
lemma grown_createNames (t : FileTree) (absolute : Bool) (names : List Text) :
    Grown ∅ t (t.createNames absolute names).2 := by
  fun_induction createNames t absolute names with
  | case1 | case3 | case4 => exact .refl _ _
  | case2 names hne t' h => exact grown_of_createDir h
  -- the directory around is made first, then a second attempt follows
  | case5 names hne h outer hmade t' hinner ih => exact ih.trans (grown_of_createDir hinner)
  | case6 | case7 | case8 | case9 =>
      rename_i ih
      exact ih

lemma grown_createDirs (t : FileTree) (path : Text) : Grown ∅ t (t.createDirs path).2 := by
  unfold createDirs
  split
  · exact grown_createNames t _ _
  · exact .refl _ _

/-! ### Where paths lead -/

/-- The place that a path leads to. -/
def locate (t : FileTree) (path : Text) : Except Obstacle Place :=
  let p := Path.ofText path
  t.follow (t.origin p.absolute) (if p.slash then p.names ++ [Path.here] else p.names)

lemma read?_eq_some_iff {path : Text} {content : ByteArray} :
    t.read? path = some content ↔ (path ≠ [] ∧ Path.isUsable path = true) ∧
      ∃ place, t.locate path = .ok place ∧ t.get? place = some (.file content) := by
  unfold read? locate
  by_cases hpath : path ≠ [] ∧ Path.isUsable path = true
  · rw [if_neg (by simpa using hpath)]
    split
    · rename_i heq
      simp [heq]
    · rename_i place heq
      simp only [heq, hpath, true_and, ne_eq, not_false_eq_true]
      cases hget : t.get? place with
      | none => simp [hget]
      | some e => cases e <;> simp [hget]
  · rw [if_pos (by simpa [or_iff_not_imp_left] using hpath)]
    simp [hpath]

lemma follow_append (t : FileTree) (p : Place) (xs ys : List Text) :
    t.follow p (xs ++ ys) = (t.follow p xs).bind (t.follow · ys) := by
  fun_induction follow t p xs with
  | case1 p => rfl
  | case2 | case5 | case6 => simp_all [follow, Except.bind]
  | case3 | case4 | case7 => simp_all [follow]

lemma isDirectory_iff {p : Place} : t.isDirectory p = true ↔ t.get? p = some .directory := by
  simp [isDirectory]

namespace Grown

variable {written : Set Place}

lemma isDirectory (h : Grown written t t') {p : Place} (hp : t.isDirectory p = true) :
    t'.isDirectory p = true :=
  isDirectory_iff.2 (h.directory p (isDirectory_iff.1 hp))

/-- Names that lead somewhere lead there still when the tree has grown. -/
lemma follow_eq (h : Grown written t t') {p q : Place} {names : List Text}
    (hq : t.follow p names = .ok q) : t'.follow p names = .ok q := by
  fun_induction follow t p names with
  | case1 p => exact hq
  | case2 | case5 | case6 => cases hq
  | case3 p names hp ih =>
      have hp' := h.isDirectory (by simpa using hp)
      simpa [follow, hp'] using ih hq
  | case4 p names hp hhere ih =>
      have hp' := h.isDirectory (by simpa using hp)
      simpa [follow, hp', hhere] using ih hq
  | case7 p name names hp hhere hup hfits hsome ih =>
      have hp' := h.isDirectory (by simpa using hp)
      have hsome' := h.present (p ++ [name]) (by simpa using hsome)
      rw [follow, if_neg (by simpa using hp'), if_neg hhere, if_neg hup, if_neg hfits,
        if_neg (by simpa using hsome')]
      exact ih hq

lemma origin_eq (h : Grown written t t') (absolute : Bool) :
    t'.origin absolute = t.origin absolute := by
  simp [origin, h.workDir_eq]

lemma locate_eq (h : Grown written t t') {path : Text} {place : Place}
    (hplace : t.locate path = .ok place) : t'.locate path = .ok place := by
  rw [locate, h.origin_eq]
  exact h.follow_eq hplace

/-- What could be read at a path is read there still, unless the path leads to a place that was
written to. -/
lemma read?_eq (h : Grown written t t') {path : Text} {content : ByteArray}
    (hread : t.read? path = some content) (hoff : ∀ place ∈ written, t.locate path ≠ .ok place) :
    t'.read? path = some content := by
  obtain ⟨husable, place, hplace, hget⟩ := read?_eq_some_iff.1 hread
  have hmem : place ∉ written := fun hmem => hoff place hmem hplace
  exact read?_eq_some_iff.2 ⟨husable, place, h.locate_eq hplace, (h.file place hmem content).2 hget⟩

end Grown

/-! ### Writing -/

lemma enclosing_eq_ok_iff {absolute : Bool} {names : List Text} {dir : Place} :
    t.enclosing absolute names = .ok dir ↔
      t.follow (t.origin absolute) names.dropLast = .ok dir ∧ t.isDirectory dir = true := by
  unfold enclosing
  cases t.follow (t.origin absolute) names.dropLast with
  | error e => simp
  | ok p =>
      by_cases hp : t.isDirectory p
      · simp only [hp, if_true, Except.ok.injEq]
        constructor
        · rintro rfl
          exact ⟨rfl, hp⟩
        · exact fun h => h.1
      · simp only [hp, Bool.false_eq_true, if_false, reduceCtorEq, Except.ok.injEq, false_iff]
        rintro ⟨rfl, hp'⟩
        exact hp hp'

/-- From a directory, the name of something that stands in it leads there. -/
lemma follow_singleton {dir : Place} {name : Text} (hdir : t.isDirectory dir = true)
    (hhere : name ≠ Path.here) (hup : name ≠ Path.up) (hfits : Path.nameFits name = true)
    (hsome : t.get? (dir ++ [name]) ≠ none) : t.follow dir [name] = .ok (dir ++ [name]) := by
  rw [follow, if_neg (by simpa using hdir), if_neg hhere, if_neg hup, if_neg (by simpa using hfits),
    if_neg (by simpa using hsome), follow]

/-- A path at whose end a file can be written: `name` in the directory `dir`. -/
structure Writable (t : FileTree) (path : Text) (dir : Place) (name : Text) : Prop where
  last : (Path.ofText path).names.getLast? = some name
  slash : (Path.ofText path).slash = false
  ne_here : name ≠ Path.here
  ne_up : name ≠ Path.up
  usable : Path.isUsable path = true
  fits : Path.nameFits name = true
  enclosing : t.enclosing (Path.ofText path).absolute (Path.ofText path).names = .ok dir
  free : t.get? (dir ++ [name]) ≠ some .directory

lemma writable_of_write? {path : Text} {content : ByteArray}
    (h : t.write? path content = some t') :
    ∃ dir name, t.Writable path dir name ∧ t' = t.set (dir ++ [name]) (.file content) := by
  simp only [write?] at h
  split at h
  · cases h
  rename_i name hlast
  split_ifs at h with hname husable
  split at h
  · cases h
  rename_i dir hdir
  split_ifs at h with hfree
  cases h
  simp only [Bool.or_eq_true, beq_iff_eq, not_or, Bool.not_eq_true] at hname
  obtain ⟨⟨hslash, hhere⟩, hup⟩ := hname
  simp only [Bool.not_eq_true', Bool.not_eq_false, Bool.and_eq_true] at husable
  obtain ⟨husable, hfits⟩ := husable
  exact ⟨dir, name, ⟨hlast, hslash, hhere, hup, husable, hfits, hdir,
    fun h => hfree (isDirectory_iff.2 h)⟩, rfl⟩

/-- Such a path leads to the file as soon as there is one. -/
lemma Writable.locate_eq {path : Text} {dir : Place} {name : Text} (h : t.Writable path dir name)
    {written : Set Place} (hgrown : Grown written t t') (hsome : t'.get? (dir ++ [name]) ≠ none) :
    t'.locate path = .ok (dir ++ [name]) := by
  obtain ⟨hfollow, hdir⟩ := enclosing_eq_ok_iff.1 h.enclosing
  have hnames : (Path.ofText path).names = (Path.ofText path).names.dropLast ++ [name] :=
    (List.dropLast_append_getLast? name h.last).symm
  have horigin := hgrown.origin_eq (Path.ofText path).absolute
  calc t'.locate path
      = t'.follow (t.origin (Path.ofText path).absolute)
          ((Path.ofText path).names.dropLast ++ [name]) := by
        rw [locate, h.slash, if_neg Bool.false_ne_true, horigin, ← hnames]
    _ = t'.follow dir [name] := by
        rw [follow_append, hgrown.follow_eq hfollow]
        rfl
    _ = .ok (dir ++ [name]) :=
        follow_singleton (hgrown.isDirectory hdir) h.ne_here h.ne_up h.fits hsome

/-- Writing a file puts the content at one place, where no directory stood.  That is the place where
the path leads from then on, and where the content is read. -/
lemma grown_of_write? {path : Text} {content : ByteArray} (h : t.write? path content = some t') :
    ∃ place, Grown {place} t t' ∧ t'.locate path = .ok place ∧ t'.read? path = some content := by
  obtain ⟨dir, name, hwritable, rfl⟩ := writable_of_write? h
  have hgrown := grown_set_file (by simp) hwritable.free content
  have hget : (t.set (dir ++ [name]) (.file content)).get? (dir ++ [name]) =
      some (.file content) := by
    rw [get?_set t (by simp), if_pos rfl]
  have hplace := hwritable.locate_eq hgrown (by simp [hget])
  have hpath : path ≠ [] := by
    rintro rfl
    have hlast := hwritable.last
    simp [Path.ofText] at hlast
  exact ⟨dir ++ [name], hgrown, hplace,
    read?_eq_some_iff.2 ⟨⟨hpath, hwritable.usable⟩, dir ++ [name], hplace, hget⟩⟩

end FileTree

end ClassFold
