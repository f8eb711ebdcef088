import ClassFold.Files.Job
import ClassFold.Proofs.Files.Growth

/-!
What building a file does to the tree.

A file is read and folded before anything is created, and the outcome is written in one go.  A job
that fails leaves every file as it was, and one that succeeds changes the file at its answer alone.

* `run_foldFile`, `run_writeInto`, `run_buildFile`: the jobs as functions on trees.
* `Written`: the outcomes of writing into a directory, with `written_writeInto`.
* `buildFile_effect`: every outcome of building a file, with the tree behind it.
-/

namespace ClassFold

open Text FileTree

/-! ### Jobs as functions on trees -/

section Run

variable (t : FileTree)

/-- One step of a job behind the other. -/
lemma run_tree_bind {α β : Type} (x : StateM FileTree α) (f : α → StateM FileTree β) :
    (x >>= f).run t = (f (x.run t).1).run (x.run t).2 := rfl

lemma run_readFile (path : Text) :
    (FileSystem.readFile path : StateM FileTree _).run t = (t.read? path, t) := rfl

lemma run_createDirs (path : Text) :
    (FileSystem.createDirs path : StateM FileTree _).run t = t.createDirs path := rfl

lemma run_writeFile (path : Text) (content : ByteArray) :
    (FileSystem.writeFile path content : StateM FileTree _).run t =
      match t.write? path content with
      | some t' => (true, t')
      | none => (false, t) := rfl

/-- Folding a file leaves the tree alone. -/
lemma run_foldFile (options : Options) (input : Text) :
    (foldFile options input : StateM FileTree _).run t =
      (match (t.read? input).bind decode? with
        | none => .error (.read input)
        | some source => foldText options input source, t) := by
  rw [foldFile, run_tree_bind, run_readFile]
  cases (t.read? input).bind decode? with
  | none => rfl
  | some source => rfl

lemma run_writeInto (outDir name code : Text) :
    (writeInto outDir name code : StateM FileTree _).run t =
      let made := t.createDirs outDir
      if made.1 then
        match made.2.write? (Path.join outDir name) (encode code) with
        | some t' => (.ok (Path.join outDir name), t')
        | none => (.error (.write (Path.join outDir name)), made.2)
      else (.error (.create outDir), made.2) := by
  rw [writeInto, run_tree_bind, run_createDirs]
  dsimp only
  split
  · rw [run_tree_bind, run_writeFile]
    cases (t.createDirs outDir).2.write? (Path.join outDir name) (encode code) with
    | none => rfl
    | some t' => rfl
  · rfl

lemma run_buildFile (options : Options) (outDir : Option Text) (input : Text) :
    (buildFile options outDir input : StateM FileTree _).run t =
      match ((foldFile options input : StateM FileTree _).run t).1 with
      | .error e => (.error e, t)
      | .ok folded =>
        match Path.fileName? input with
        | none => (.error .unnamed, t)
        | some name =>
          (writeInto (outDir.getD defaultOutDir) name folded.code : StateM FileTree _).run t := by
  have htree : ((foldFile options input : StateM FileTree _).run t).2 = t := by rw [run_foldFile]
  rw [buildFile, run_tree_bind, htree]
  cases ((foldFile options input : StateM FileTree _).run t).1 with
  | error e => rfl
  | ok folded =>
      cases Path.fileName? input with
      | none => rfl
      | some name => rfl

end Run

/-! ### What jobs leave behind -/

variable {t : FileTree}

/-- A file that cannot be folded is named in the error. -/
lemma foldFile_error {options : Options} {input : Text} {e : FileError}
    (h : ((foldFile options input : StateM FileTree _).run t).1 = .error e) :
    e = .read input ∨ ∃ cause, e = .fold input cause := by
  rw [run_foldFile] at h
  dsimp only at h
  split at h
  · cases h
    exact .inl rfl
  · rename_i source _
    rw [foldText] at h
    generalize (if isComponentFile input then foldComponent options source
      else foldTemplate options source) = outcome at h
    cases outcome with
    | error cause =>
        cases h
        exact .inr ⟨cause, rfl⟩
    | ok outcome => cases h

/-- The outcomes of writing a text to a file in a directory.  Only the last one changes a file. -/
inductive Written (t : FileTree) (outDir name code : Text) :
    Except FileError Text × FileTree → Prop where
  | uncreated (failed : (t.createDirs outDir).1 = false)
      (grown : Grown ∅ t (t.createDirs outDir).2) :
      Written t outDir name code (.error (.create outDir), (t.createDirs outDir).2)
  | unwritten (made : (t.createDirs outDir).1 = true)
      (failed : (t.createDirs outDir).2.write? (Path.join outDir name) (encode code) = none)
      (grown : Grown ∅ t (t.createDirs outDir).2) :
      Written t outDir name code
        (.error (.write (Path.join outDir name)), (t.createDirs outDir).2)
  | written {t' : FileTree} {place : Place} (made : (t.createDirs outDir).1 = true)
      (wrote : (t.createDirs outDir).2.write? (Path.join outDir name) (encode code) = some t')
      (grown : Grown {place} t t') (leads : t'.locate (Path.join outDir name) = .ok place)
      (reads : t'.read? (Path.join outDir name) = some (encode code)) :
      Written t outDir name code (.ok (Path.join outDir name), t')

/-- The directories that were made on the way stay, whatever comes of the file. -/
lemma written_writeInto (outDir name code : Text) (t : FileTree) :
    Written t outDir name code ((writeInto outDir name code : StateM FileTree _).run t) := by
  have hgrown := grown_createDirs t outDir
  rw [run_writeInto]
  dsimp only
  split
  · rename_i hmade
    split
    · rename_i t' hwrite
      obtain ⟨place, hplace, hleads, hreads⟩ := grown_of_write? hwrite
      exact .written hmade hwrite ((hgrown.mono (Set.empty_subset _)).trans hplace) hleads hreads
    · rename_i hwrite
      exact .unwritten hmade hwrite hgrown
  · rename_i hmade
    exact .uncreated (by simpa using hmade) hgrown

/-- **Building changes only the file it answers with, and only after success.**  When the input
cannot be read or folded, or has no file name, the tree is as it was.  When the output directory
cannot be created, or can be created and the file cannot be written, directories may have been
added, and every file is as it was.  Otherwise the answer is the path of the input's file name in
the output directory, that path leads to a file with the text that folding the input in the old tree
gives, and every other file is as it was, at its place and behind every path that led to it. -/
theorem buildFile_effect (options : Options) (outDir : Option Text) (input : Text)
    (t : FileTree) :
    let dir := outDir.getD defaultOutDir
    let folded := ((foldFile options input : StateM FileTree _).run t).1
    let made := t.createDirs dir
    match (buildFile options outDir input : StateM FileTree _).run t with
    | (.error (.read path), t') => path = input ∧ folded = .error (.read input) ∧ t' = t
    | (.error (.fold path cause), t') =>
      path = input ∧ folded = .error (.fold input cause) ∧ t' = t
    | (.error .unnamed, t') =>
      Path.fileName? input = none ∧ (∃ outcome, folded = .ok outcome) ∧ t' = t
    | (.error (.create path), t') =>
      path = dir ∧ (∃ outcome, folded = .ok outcome) ∧ made.1 = false ∧ t' = made.2 ∧ Grown ∅ t t'
    | (.error (.write path), t') =>
      ∃ name outcome, Path.fileName? input = some name ∧ path = Path.join dir name ∧
        folded = .ok outcome ∧ made.1 = true ∧ made.2.write? path (encode outcome.code) = none ∧
        t' = made.2 ∧ Grown ∅ t t'
    | (.ok path, t') =>
      ∃ name outcome place, Path.fileName? input = some name ∧ path = Path.join dir name ∧
        folded = .ok outcome ∧ made.1 = true ∧
        made.2.write? path (encode outcome.code) = some t' ∧ t'.locate path = .ok place ∧
        t'.read? path = some (encode outcome.code) ∧ Grown {place} t t' ∧
        ∀ other content, t.read? other = some content → t.locate other ≠ .ok place →
          t'.read? other = some content := by
  intro dir folded made
  rw [run_buildFile]
  cases hfold : ((foldFile options input : StateM FileTree _).run t).1 with
  | error e =>
      rcases foldFile_error hfold with rfl | ⟨cause, rfl⟩
      · exact ⟨rfl, hfold, rfl⟩
      · exact ⟨rfl, hfold, rfl⟩
  | ok outcome =>
      cases Path.fileName? input with
      | none => exact ⟨rfl, ⟨outcome, hfold⟩, rfl⟩
      | some name =>
          dsimp only
          have hwritten := written_writeInto dir name outcome.code t
          generalize (writeInto dir name outcome.code : StateM FileTree _).run t = r at hwritten ⊢
          cases hwritten with
          | uncreated failed grown => exact ⟨rfl, ⟨outcome, hfold⟩, failed, rfl, grown⟩
          | unwritten hmade failed grown =>
              exact ⟨name, outcome, rfl, rfl, hfold, hmade, failed, rfl, grown⟩
          | written hmade wrote grown leads reads =>
              refine ⟨name, outcome, _, rfl, rfl, hfold, hmade, wrote, leads, reads, grown, ?_⟩
              intro other content hread hother
              exact grown.read?_eq hread (by simpa using hother)

/-- A file is folded into a new directory, next to itself.  The input is as it was. -/
theorem buildFile_effect_written :
    let code := encode "<p cls=x></p>".toList
    let t : FileTree := ⟨[(["a".toList], .file code)], []⟩
    let built := (buildFile {} (some "o".toList) "a".toList : StateM FileTree _).run t
    built.1 = .ok "o/a".toList ∧
      built.2.read? "o/a".toList = some (encode "<p :class=\"[$style['x']]\"></p>".toList) ∧
      built.2.read? "a".toList = some code := by
  intro code t built
  have hbuilt : built.1 = .ok "o/a".toList := by decide +kernel
  have hplace : built.2.locate "o/a".toList = .ok ["o".toList, "a".toList] := by decide +kernel
  have hcode : ((foldFile {} "a".toList : StateM FileTree _).run t).1.map (·.code) =
      .ok "<p :class=\"[$style['x']]\"></p>".toList := by decide +kernel
  have heffect := buildFile_effect {} (some "o".toList) "a".toList t
  have hpair : (buildFile {} (some "o".toList) "a".toList : StateM FileTree _).run t =
      (.ok "o/a".toList, built.2) := Prod.ext hbuilt rfl
  rw [hpair] at heffect
  obtain ⟨name, outcome, place, -, -, hfolded, -, -, hleads, hreads, -, hothers⟩ := heffect
  have hsame : outcome.code = "<p :class=\"[$style['x']]\"></p>".toList := by
    rw [hfolded] at hcode
    exact Except.ok.inj hcode
  rw [hsame] at hreads
  refine ⟨hbuilt, hreads, hothers "a".toList code (by decide +kernel) ?_⟩
  rw [← hleads, hplace]
  decide +kernel

/-- The output directory may be the one that the input is in.  The input is written over then. -/
example :
    let t : FileTree := ⟨[(["a".toList], .file (encode "<p cls=x></p>".toList))], []⟩
    ((buildFile {} (some ".".toList) "a".toList : StateM FileTree _).run t).2 =
      t.set ["a".toList] (.file (encode "<p :class=\"[$style['x']]\"></p>".toList)) := by
  decide +kernel

/-- A name that is too long stops the creation behind its first directory, which stays. -/
example :
    let t : FileTree := ⟨[(["a".toList], .file (encode "<p></p>".toList))], []⟩
    let dir : Text := "n/".toList ++ List.replicate 256 'x'
    ((buildFile {} (some dir) "a".toList : StateM FileTree _).run t).2 =
      t.set ["n".toList] .directory := by
  decide +kernel

end ClassFold
