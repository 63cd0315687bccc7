import ScreenCompiler.Project.Output
import ScreenCompiler.Proofs.Project.Places

/-!
# What writing leaves alone

Writing only adds: a directory stays a directory, and a file keeps its content unless
it is the one that is written.  So a path that leads somewhere leads there afterwards,
and a text that has been written is found again as long as nothing else is written to
its place.
-/

namespace ScreenCompiler

namespace FileTree

variable {tree later : FileTree} {path : Path} {place : Place} {text : String}

theorem entryAt?_of_ne_nil (below : place ≠ []) : tree.entryAt? place = tree.entries.lookup place :=
  if_neg below

theorem ne_nil_of_entryAt? (other : tree.entryAt? place ≠ some .directory) : place ≠ [] := by
  rintro rfl
  exact other rfl

/-- What a later tree has kept of a tree when only the given places have been written. -/
structure Keeps (written : List Place) (tree later : FileTree) : Prop where
  directory : ∀ place, tree.entryAt? place = some .directory →
    later.entryAt? place = some .directory
  file : ∀ place, place ∉ written → ∀ content, tree.entryAt? place = some (.file content) →
    later.entryAt? place = some (.file content)
  working : later.working = tree.working
  /-- A list of files that leaves out the written places is the same list. -/
  seen : ∀ see : Place × FileEntry → Option Place, (∀ place, see (place, .directory) = none) →
    (∀ place ∈ written, ∀ content, see (place, .file content) = none) →
      later.entries.filterMap see = tree.entries.filterMap see

namespace Keeps

variable {written : List Place}

theorem refl (tree : FileTree) : Keeps [] tree tree where
  directory _ isDirectory := isDirectory
  file _ _ _ isFile := isFile
  working := rfl
  seen _ _ _ := rfl

theorem trans {middle : FileTree} {more : List Place} (first : Keeps written tree middle)
    (second : Keeps more middle later) : Keeps (written ++ more) tree later where
  directory place isDirectory := second.directory place (first.directory place isDirectory)
  file place unwritten content isFile := by
    obtain ⟨notFirst, notSecond⟩ := not_or.mp (mt List.mem_append.mpr unwritten)
    exact second.file place notSecond content (first.file place notFirst content isFile)
  working := second.working.trans first.working
  seen see blind unseen := by
    obtain ⟨unseenFirst, unseenSecond⟩ := List.forall_mem_append.mp unseen
    rw [second.seen see blind unseenSecond, first.seen see blind unseenFirst]

/-- A tree that has kept all but some places has kept all but more. -/
theorem widen {more : List Place} (keeps : Keeps written tree later) (wider : written ⊆ more) :
    Keeps more tree later where
  directory := keeps.directory
  file place unwritten := keeps.file place fun inside => unwritten (wider inside)
  working := keeps.working
  seen see blind unseen := keeps.seen see blind fun place inside => unseen place (wider inside)

/-- A path through directories leads where it led. -/
theorem resolveFrom (keeps : Keeps written tree later) {parts : List (List Char)}
    {start : Place} (found : tree.resolveFrom start parts = .ok place) :
    later.resolveFrom start parts = .ok place := by
  induction parts generalizing start with
  | nil => exact found
  | cons part parts inductionHypothesis =>
      rw [FileTree.resolveFrom] at found ⊢
      cases entry : tree.entryAt? start with
      | none => simp [entry] at found
      | some entryThere =>
          cases entryThere with
          | file content => simp [entry] at found
          | directory =>
              simp only [entry] at found
              simp only [keeps.directory start entry]
              split
              · rename_i isTrivial
                rw [if_pos isTrivial] at found
                exact inductionHypothesis found
              · rename_i solid
                rw [if_neg solid] at found
                split
                · rename_i isParent
                  rw [if_pos isParent] at found
                  exact inductionHypothesis found
                · rename_i isNamed
                  rw [if_neg isNamed] at found
                  exact inductionHypothesis found

theorem start (keeps : Keeps written tree later) (starts : tree.start path = .ok place) :
    later.start path = .ok place := by
  rw [FileTree.start] at starts ⊢
  split
  · rename_i isAbsolute
    rwa [if_pos isAbsolute] at starts
  · rename_i relative
    rw [if_neg relative] at starts
    rw [keeps.working]
    exact keeps.resolveFrom starts

theorem resolve (keeps : Keeps written tree later) (found : tree.resolve path = .ok place) :
    later.resolve path = .ok place := by
  obtain ⟨nonempty, reached⟩ := resolve_ok.mp found
  obtain ⟨from_, starts, along⟩ := reach_ok.mp reached
  exact resolve_ok.mpr
    ⟨nonempty, reach_ok.mpr ⟨from_, keeps.start starts, keeps.resolveFrom along⟩⟩

end Keeps

theorem filterMap_setEntry {entries : List (Place × FileEntry)} {entry : FileEntry}
    {see : Place × FileEntry → Option Place} (unseen : see (place, entry) = none)
    (unseenBefore : ∀ previous, entries.lookup place = some previous →
      see (place, previous) = none) :
    (setEntry place entry entries).filterMap see = entries.filterMap see := by
  induction entries with
  | nil => simp [setEntry, unseen]
  | cons head entries inductionHypothesis =>
      obtain ⟨other, previous⟩ := head
      by_cases same : other = place
      · subst same
        have unseenHere : see (other, previous) = none :=
          unseenBefore previous List.lookup_cons_self
        simp [setEntry, unseen, unseenHere]
      · have later : (setEntry place entry entries).filterMap see = entries.filterMap see := by
          apply inductionHypothesis
          intro found isThere
          apply unseenBefore
          rwa [List.lookup_cons, beq_eq_false_iff_ne.mpr (Ne.symm same)]
        simp only [setEntry, if_neg same, List.filterMap_cons, later]

theorem keeps_set_directory (free : tree.entryAt? place = none) :
    Keeps [] tree (tree.set place .directory) := by
  have notDirectory : tree.entryAt? place ≠ some .directory := by simp [free]
  have below : place ≠ [] := ne_nil_of_entryAt? notDirectory
  refine ⟨?_, ?_, rfl, ?_⟩
  · intro other isDirectory
    rw [entryAt?_set tree other .directory below]
    split
    · rfl
    · exact isDirectory
  · intro other _ content isFile
    rw [entryAt?_set tree other .directory below, if_neg]
    · exact isFile
    · rintro rfl
      rw [free] at isFile
      exact absurd isFile (by simp)
  · intro see blind _
    apply filterMap_setEntry (blind place)
    intro previous isThere
    rw [entryAt?_of_ne_nil below] at free
    rw [free] at isThere
    exact absurd isThere (by simp)

theorem keeps_set_file (notDirectory : tree.entryAt? place ≠ some .directory)
    (content : ByteArray) : Keeps [place] tree (tree.set place (.file content)) := by
  have below : place ≠ [] := ne_nil_of_entryAt? notDirectory
  refine ⟨?_, ?_, rfl, ?_⟩
  · intro other isDirectory
    rw [entryAt?_set tree other _ below, if_neg]
    · exact isDirectory
    · rintro rfl
      exact notDirectory isDirectory
  · intro other unwritten previous isFile
    rw [entryAt?_set tree other _ below, if_neg]
    · exact isFile
    · rintro rfl
      exact unwritten List.mem_cons_self
  · intro see _ unseen
    have unseenHere := unseen place List.mem_cons_self
    apply filterMap_setEntry (unseenHere content)
    intro previous isThere
    rw [← entryAt?_of_ne_nil below] at isThere
    cases previous with
    | directory => exact absurd isThere notDirectory
    | file old => exact unseenHere old

theorem keeps_createFrom (made : Bool) (place : Place) (tree : FileTree)
    (parts : List (List Char)) : Keeps [] tree (createFrom made place tree parts).2 := by
  induction parts generalizing made place tree with
  | nil => exact .refl tree
  | cons part parts inductionHypothesis =>
      rw [createFrom]
      split
      · exact inductionHypothesis made place tree
      · split
        · exact inductionHypothesis made place.dropLast tree
        · split
          · exact inductionHypothesis made (place ++ [part]) tree
          · exact .refl tree
          · rename_i free
            exact (keeps_set_directory free).trans (inductionHypothesis true (place ++ [part]) _)

theorem keeps_createParent (tree : FileTree) (path : Path) :
    Keeps [] tree (tree.createParent path).2 := by
  have keepsCreate : ∀ parent, Keeps [] tree (tree.create parent).2 := by
    intro parent
    rw [create]
    split
    · exact .refl tree
    · split
      · exact .refl tree
      · exact keeps_createFrom false _ tree _
  rw [createParent]
  split
  · exact .refl tree
  · rename_i parent _
    have keeps := keepsCreate parent
    split
    · rename_i created
      rwa [created] at keeps
    · rename_i created
      rwa [created] at keeps

theorem readText_ok :
    tree.readText path = .ok text ↔
      ∃ place content, tree.resolve path = .ok place ∧
        tree.entryAt? place = some (.file content) ∧ String.fromUTF8? content = some text := by
  rw [readText, read, find]
  cases tree.resolve path with
  | error error => simp
  | ok place =>
      cases entry : tree.entryAt? place with
      | none => simp [entry]
      | some entryThere =>
          cases entryThere with
          | directory => simp [entry]
          | file content =>
              cases isText : String.fromUTF8? content <;> simp [entry, isText]

theorem Keeps.readText {written : List Place} (keeps : Keeps written tree later)
    (found : tree.readText path = .ok text)
    (unwritten : ∀ place, tree.resolve path = .ok place → place ∉ written) :
    later.readText path = .ok text := by
  obtain ⟨place, content, leads, isFile, isText⟩ := readText_ok.mp found
  exact readText_ok.mpr
    ⟨place, content, keeps.resolve leads, keeps.file place (unwritten place leads) content isFile,
      isText⟩

theorem holdsText_iff {wanted : String} :
    tree.holdsText path wanted = true ↔
      ∃ existing, tree.readText path = .ok existing ∧
        Digest.ofText existing = Digest.ofText wanted := by
  rw [holdsText]
  cases tree.readText path with
  | error error => simp
  | ok existing => simp

theorem Keeps.holdsText {written : List Place} (keeps : Keeps written tree later)
    (holds : tree.holdsText path text = true)
    (unwritten : ∀ place, tree.resolve path = .ok place → place ∉ written) :
    later.holdsText path text = true := by
  obtain ⟨existing, found, same⟩ := holdsText_iff.mp holds
  exact holdsText_iff.mpr ⟨existing, keeps.readText found unwritten, same⟩

theorem withoutEnd_eq_self (noSlash : path.text.getLast? ≠ some '/') : path.withoutEnd = path := by
  have kept : (path.text.reverse.dropWhile (· == '/')).reverse = path.text := by
    cases turned : path.text.reverse with
    | nil => simpa using turned.symm
    | cons last front =>
        have split : path.text = front.reverse ++ [last] := by
          simpa using congrArg List.reverse turned
        have solid : last ≠ '/' := by simpa [split] using noSlash
        simp [split, solid]
  rw [Path.withoutEnd, kept]
  cases path with
  | mk text => cases text <;> rfl

/-- A file that has been written stands where its path leads. -/
theorem write_ok {content : ByteArray} (success : tree.write path content = .ok later) :
    ∃ place, tree.resolve path = .ok place ∧ later.entryAt? place = some (.file content) ∧
      Keeps [place] tree later := by
  unfold write at success
  split at success
  · exact absurd success (by simp)
  · rename_i place leads
    have setFile : tree.entryAt? place ≠ some .directory →
        path.text.getLast? ≠ some '/' → later = tree.set place (.file content) →
        ∃ place, tree.resolve path = .ok place ∧ later.entryAt? place = some (.file content) ∧
          Keeps [place] tree later := by
      rintro notDirectory noSlash rfl
      rw [withoutEnd_eq_self noSlash] at leads
      refine ⟨place, leads, ?_, keeps_set_file notDirectory content⟩
      rw [entryAt?_set tree place _ (ne_nil_of_entryAt? notDirectory), if_pos rfl]
    split at success
    · exact absurd success (by simp)
    · rename_i notDirectory
      split at success
      · exact absurd success (by simp)
      · rename_i noSlash
        exact setFile notDirectory noSlash (Except.ok.inj success).symm

theorem fromUTF8?_toUTF8 (text : String) : String.fromUTF8? text.toUTF8 = some text :=
  dif_pos text.isValidUTF8

theorem emitText_ok (success : tree.emitText path text = (.ok (), later)) :
    ∃ place, later.resolve path = .ok place ∧ later.readText path = .ok text ∧
      Keeps [place] tree later := by
  have keepsParent := keeps_createParent tree path
  unfold emitText at success
  split at success
  · exact absurd success (by simp)
  · rename_i changed created
    rw [created] at keepsParent
    split at success
    · rename_i final written
      obtain rfl : final = later := (Prod.mk.inj success).2
      obtain ⟨place, leads, isFile, keeps⟩ := write_ok written
      have leadsStill := keeps.resolve leads
      refine ⟨place, leadsStill, ?_, keepsParent.trans keeps⟩
      exact readText_ok.mpr ⟨place, _, leadsStill, isFile, fromUTF8?_toUTF8 text⟩
    · exact absurd success (by simp)

/-- Whatever the outcome, a file with the digest of the text stands in the end where the path
leads, and nothing else has been written. -/
theorem writeIfChanged_ok {outcome : WriteOutcome}
    (success : tree.writeIfChanged path text = (.ok outcome, later)) :
    ∃ place, later.resolve path = .ok place ∧ later.holdsText path text = true ∧
      Keeps [place] tree later := by
  unfold writeIfChanged at success
  split at success
  · rename_i holds
    obtain rfl : tree = later := (Prod.mk.inj success).2
    obtain ⟨existing, found, -⟩ := holdsText_iff.mp holds
    obtain ⟨place, -, leads, -⟩ := readText_ok.mp found
    exact ⟨place, leads, holds, (Keeps.refl tree).widen (List.nil_subset _)⟩
  · split at success
    · rename_i changed written
      obtain rfl : changed = later := (Prod.mk.inj success).2
      obtain ⟨place, leads, found, keeps⟩ := emitText_ok written
      exact ⟨place, leads, holdsText_iff.mpr ⟨text, found, rfl⟩, keeps⟩
    · exact absurd success (by simp)

/-- A text that can be written is held or gets written. -/
theorem writeIfChanged_of_emitText (emitted : tree.emitText path text = (.ok (), later)) :
    ∃ outcome, tree.writeIfChanged path text = (.ok outcome, tree) ∨
      tree.writeIfChanged path text = (.ok outcome, later) := by
  unfold writeIfChanged
  split
  · exact ⟨.unchanged, .inl rfl⟩
  · rw [emitted]
    exact ⟨.written, .inr rfl⟩

/-- A text that is held is not written again. -/
theorem writeIfChanged_of_holdsText (holds : tree.holdsText path text = true) :
    tree.writeIfChanged path text = (.ok .unchanged, tree) :=
  if_pos holds

end FileTree

end ScreenCompiler
