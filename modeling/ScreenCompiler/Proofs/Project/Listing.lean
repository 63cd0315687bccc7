import ScreenCompiler.Project.Pass
import ScreenCompiler.Proofs.Project.Writing

/-!
# The sources of a project

The sources below a directory come in the order of their names.  A tree that keeps
all files but some that are no sources has the same sources.
-/

namespace ScreenCompiler

section Sorting

variable {Value : Type} [Ord Value] [Std.TransOrd Value]

theorem isLE_total (first second : Value) :
    ((compare first second).isLE || (compare second first).isLE) = true := by
  rw [Std.OrientedOrd.eq_swap (a := first) (b := second)]
  cases compare second first <;> rfl

theorem pairwise_sorted (values : List Value) :
    (values.mergeSort fun first second => (compare first second).isLE).Pairwise
      fun first second => (compare first second).isLE = true :=
  List.pairwise_mergeSort (fun _ _ _ => Std.TransCmp.isLE_trans) isLE_total values

variable [Std.LawfulEqOrd Value]

theorem isLE_antisymm {first second : Value} (before : (compare first second).isLE = true)
    (behind : (compare second first).isLE = true) : first = second := by
  apply Std.LawfulEqOrd.eq_of_compare
  rw [Std.OrientedOrd.eq_swap (a := first) (b := second)] at before ⊢
  cases order : compare second first <;> simp_all

/-- Leaving values out and sorting can be exchanged. -/
theorem filter_mergeSort (keep : Value → Bool) (values : List Value) :
    (values.mergeSort fun first second => (compare first second).isLE).filter keep =
      (values.filter keep).mergeSort fun first second => (compare first second).isLE := by
  apply List.Perm.eq_of_pairwise (fun _ _ _ _ => isLE_antisymm)
  · exact (pairwise_sorted values).filter keep
  · exact pairwise_sorted (values.filter keep)
  · exact ((List.mergeSort_perm values _).filter keep).trans (List.mergeSort_perm _ _).symm

end Sorting

namespace FileTree

variable {tree later : FileTree} {path : Path} {place : Place}

/-- Every name on the way to an entry is one that a directory can give. -/
def IsNamed (tree : FileTree) : Prop :=
  ∀ entry ∈ tree.entries, ∀ name ∈ entry.1, Path.IsName name

instance (tree : FileTree) : Decidable tree.IsNamed :=
  inferInstanceAs (Decidable (∀ entry ∈ tree.entries, ∀ name ∈ entry.1, Path.IsName name))

theorem isDirectory_iff :
    tree.isDirectory path = true ↔ ∃ place, tree.find path = .ok (place, .directory) := by
  rw [isDirectory]
  cases tree.find path with
  | error error => simp
  | ok found =>
      obtain ⟨place, entry⟩ := found
      cases entry <;> simp

theorem Keeps.find_directory {written : List Place} (keeps : Keeps written tree later)
    (found : tree.find path = .ok (place, .directory)) :
    later.find path = .ok (place, .directory) := by
  obtain ⟨leads, isDirectory⟩ := find_ok.mp found
  exact find_ok.mpr ⟨keeps.resolve leads, keeps.directory place isDirectory⟩

/-- Where the sources below a directory lie, in the order of their names. -/
def sourcesBelow (tree : FileTree) (place : Place) (ending : String) (ignored : List String) :
    List Place :=
  (tree.filesBelow place).filter (Sources.isSource ending ignored)

theorem sourcesBelow_pairwise (tree : FileTree) (place : Place) (ending : String)
    (ignored : List String) :
    (tree.sourcesBelow place ending ignored).Pairwise
      fun first second => (compare first second).isLE = true :=
  (pairwise_sorted _).filter _

/-- The names on the way to a source, the last of which has the extension of sources. -/
theorem sourcesBelow_spec (isNamed : tree.IsNamed) {ending : String} {ignored : List String}
    {names : Place} (membership : names ∈ tree.sourcesBelow place ending ignored) :
    (∀ name ∈ names, Path.IsName name) ∧
      names.getLast?.bind Path.extensionOf? = some ending.toList := by
  obtain ⟨isFile, isSource⟩ := List.mem_filter.mp membership
  constructor
  · rw [filesBelow, List.mem_mergeSort] at isFile
    obtain ⟨⟨other, entry⟩, isEntry, isBelow⟩ := List.mem_filterMap.mp isFile
    intro name inNames
    apply isNamed (other, entry) isEntry
    cases entry with
    | directory => exact absurd isBelow (by simp [fileBelow?])
    | file content =>
        rw [fileBelow?] at isBelow
        split at isBelow
        · obtain rfl := Option.some.inj isBelow
          exact List.drop_subset _ _ inNames
        · exact absurd isBelow (by simp)
  · rw [Sources.isSource, Bool.and_eq_true] at isSource
    simpa using isSource.2

/-- Writing files that have another extension adds no source and takes none away. -/
theorem Keeps.sourcesBelow {written : List Place} (keeps : Keeps written tree later)
    {ending : String} {ignored : List String}
    (unlisted : ∀ other ∈ written, other.getLast?.bind Path.extensionOf? ≠ some ending.toList) :
    later.sourcesBelow place ending ignored = tree.sourcesBelow place ending ignored := by
  have sameEntries :
      (later.entries.filterMap (fileBelow? place)).filter (Sources.isSource ending ignored) =
        (tree.entries.filterMap (fileBelow? place)).filter (Sources.isSource ending ignored) := by
    rw [List.filter_filterMap, List.filter_filterMap]
    apply keeps.seen
    · intro other
      rfl
    · intro other isWritten content
      rw [fileBelow?]
      split
      · have ends := unlisted other isWritten
        rw [Option.filter_some, if_neg]
        rw [Sources.isSource, List.getLast?_drop, Bool.and_eq_true, beq_iff_eq]
        rintro ⟨-, extension⟩
        split at extension
        · exact absurd extension (by simp)
        · exact ends extension
      · rfl
  rw [FileTree.sourcesBelow, FileTree.sourcesBelow, filesBelow, filesBelow, filter_mergeSort,
    filter_mergeSort, sameEntries]

end FileTree

namespace Project

variable {project : Project} {catalog : Catalog} {tree : FileTree}

/-- The paths of the sources of a project, in order. -/
def sourcePaths (project : Project) (tree : FileTree) : Except FileError (List Path) :=
  Sources.list tree project.screens project.settings.extension project.settings.ignored

theorem sourcePaths_eq {place : Place}
    (found : tree.find project.screens = .ok (place, .directory)) :
    project.sourcePaths tree =
      .ok ((tree.sourcesBelow place project.settings.extension project.settings.ignored).map
        (Sources.along project.screens)) := by
  rw [sourcePaths, Sources.list, found]
  rfl

/-- A pass reads the sources that are listed. -/
theorem sources_eq_readSources {paths : List Path}
    (isDirectory : tree.isDirectory project.screens = true)
    (listed : project.sourcePaths tree = .ok paths) :
    project.sources catalog tree = project.readSources catalog tree [] paths := by
  rw [sourcePaths] at listed
  rw [sources, if_pos isDirectory, listed]

theorem sources_of_missing (missing : tree.isDirectory project.screens = false) :
    project.sources catalog tree = .error (.screensMissing project.screens) := by
  rw [sources, missing]
  rfl

end Project

end ScreenCompiler
