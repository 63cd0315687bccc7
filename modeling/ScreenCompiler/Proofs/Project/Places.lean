import ScreenCompiler.Project.Sources
import ScreenCompiler.Proofs.Route.Segments

/-!
# Where paths lead

A path that has been extended by names leads from where it led before along these
names, and its text relative to what it extends is the names with slashes between
them.  This needs names that no directory reads as anything else.
-/

namespace ScreenCompiler

open Text

namespace Path

/-- What a directory can call an entry. -/
structure IsName (part : List Char) : Prop where
  nonempty : part ≠ []
  free : '/' ∉ part
  notCurrent : part ≠ ['.']
  notParent : part ≠ ['.', '.']

instance (part : List Char) : Decidable (IsName part) :=
  decidable_of_iff (part ≠ [] ∧ '/' ∉ part ∧ part ≠ ['.'] ∧ part ≠ ['.', '.'])
    ⟨fun ⟨nonempty, free, notCurrent, notParent⟩ => ⟨nonempty, free, notCurrent, notParent⟩,
      fun ⟨nonempty, free, notCurrent, notParent⟩ => ⟨nonempty, free, notCurrent, notParent⟩⟩

namespace IsName

variable {name : List Char}

theorem component?_eq (isName : IsName name) : component? name = some (.name name) := by
  have solid : ¬(name = [] ∨ name = ['.']) := not_or.mpr ⟨isName.nonempty, isName.notCurrent⟩
  rw [component?, if_neg solid, if_neg isName.notParent]

theorem isTrivial_eq (isName : IsName name) : isTrivial name = false := by
  simp [isTrivial, isName.nonempty, isName.notCurrent]

theorem head?_ne (isName : IsName name) : name.head? ≠ some '/' :=
  fun starts => isName.free (List.mem_of_mem_head? starts)

theorem isAbsolute_eq (isName : IsName name) : isAbsolute ⟨name⟩ = false := by
  simpa [isAbsolute] using isName.head?_ne

theorem segments_eq (isName : IsName name) : RoutePath.segments name = [name] :=
  RoutePath.segments_of_notMem isName.free

end IsName

/-- The file name of a module is a name, whatever the module is called. -/
theorem isName_moduleFile {name : List Char} (free : '/' ∉ name) :
    IsName (name ++ ".js".toList) where
  nonempty := by simp
  free := by
    intro inside
    rcases List.mem_append.mp inside with inName | inEnding
    · exact free inName
    · exact absurd inEnding (by decide)
  notCurrent := by
    intro dot
    exact absurd (congrArg List.length dot) (by simp)
  notParent := by
    intro dots
    exact absurd (congrArg List.length dots) (by simp)

/-- What stands behind a slash only adds components. -/
theorem components_slash (front rest : List Char) :
    components ⟨front ++ '/' :: rest⟩ =
      components ⟨front ++ ['/']⟩ ++ (RoutePath.segments rest).filterMap component? := by
  have sameStart : isAbsolute ⟨front ++ '/' :: rest⟩ = isAbsolute ⟨front ++ ['/']⟩ := by
    cases front <;> rfl
  have partsOf : ∀ text, parts ⟨front ++ '/' :: text⟩ =
      RoutePath.segments front ++ RoutePath.segments text :=
    fun text => RoutePath.segments_append_slash front text
  have headOf : ∀ text, (RoutePath.segments front ++ RoutePath.segments text).head? =
      (RoutePath.segments front).head? :=
    fun text => List.head?_append_of_ne_nil _ (RoutePath.segments_ne_nil front)
  have empty : (RoutePath.segments []).filterMap component? = [] := by decide
  simp only [components, sameStart, partsOf, headOf, List.filterMap_append, empty,
    List.append_nil, List.append_assoc]

/-- A slash at the end of a path that is not empty changes no component. -/
theorem components_append_slash {front : List Char} (nonempty : front ≠ []) :
    components ⟨front ++ ['/']⟩ = components ⟨front⟩ := by
  have sameStart : isAbsolute ⟨front ++ ['/']⟩ = isAbsolute ⟨front⟩ := by
    obtain ⟨c, rest, rfl⟩ := List.exists_cons_of_ne_nil nonempty
    rfl
  have parts : parts ⟨front ++ ['/']⟩ = RoutePath.segments front ++ [[]] :=
    RoutePath.segments_append_slash front []
  have sameHead : (RoutePath.segments front ++ [[]]).head? = (RoutePath.segments front).head? :=
    List.head?_append_of_ne_nil _ (RoutePath.segments_ne_nil front)
  have empty : [[]].filterMap component? = [] := by decide
  simp only [components, sameStart, parts, sameHead, List.filterMap_append, empty, List.append_nil]
  rfl

/-- How a name is joined to a path: behind its slash, or behind one of its own. -/
theorem join_name (base : Path) {name : List Char} (isName : IsName name) :
    (base.text = [] ∧ base.join ⟨name⟩ = ⟨name⟩) ∨
      (∃ front, base.text = front ++ ['/'] ∧ base.join ⟨name⟩ = ⟨front ++ '/' :: name⟩) ∨
      (base.text ≠ [] ∧ base.join ⟨name⟩ = ⟨base.text ++ '/' :: name⟩) := by
  rw [join, if_neg (by simp [isName.isAbsolute_eq])]
  by_cases empty : base.text = []
  · left
    simp [empty]
  · by_cases slash : base.text.getLast? = some '/'
    · right; left
      obtain ⟨front, ends⟩ := List.getLast?_eq_some_iff.mp slash
      refine ⟨front, ends, ?_⟩
      simp [ends]
    · right; right
      refine ⟨empty, ?_⟩
      simp [empty, slash]

theorem components_join_name (base : Path) {name : List Char} (isName : IsName name) :
    (base.join ⟨name⟩).components = base.components ++ [.name name] := by
  have behind : (RoutePath.segments name).filterMap component? = [.name name] := by
    simp [isName.segments_eq, isName.component?_eq]
  rcases base.join_name isName with ⟨empty, joined⟩ | ⟨front, ends, joined⟩ | ⟨nonempty, joined⟩
  · have alone : parts ⟨name⟩ = [name] := isName.segments_eq
    have nothing : base.components = [] := by
      rw [show base = ⟨[]⟩ from congrArg Path.mk empty]
      decide
    rw [joined, nothing, components, isName.isAbsolute_eq, alone]
    simp [isName.notCurrent, isName.component?_eq]
  · rw [joined, components_slash, behind, ← ends]
  · rw [joined, components_slash, behind, components_append_slash nonempty]

theorem components_along (base : Path) {names : Place} (named : ∀ name ∈ names, IsName name) :
    (Sources.along base names).components = base.components ++ names.map .name := by
  induction names generalizing base with
  | nil => simp [Sources.along]
  | cons name names inductionHypothesis =>
      obtain ⟨first, later⟩ := List.forall_mem_cons.mp named
      calc (Sources.along base (name :: names)).components
          = (base.join ⟨name⟩).components ++ names.map .name := inductionHypothesis _ later
        _ = base.components ++ (name :: names).map .name := by
          rw [components_join_name base first]
          simp

/-- The relative text of what lies along names below a path. -/
theorem relativeText_along (base : Path) {names : Place} (named : ∀ name ∈ names, IsName name) :
    relativeText base (Sources.along base names) = RoutePath.joinSegments names := by
  have below : relative? base (Sources.along base names) = some (names.map .name) := by
    rw [relative?, components_along base named, if_pos, List.drop_left]
    exact List.isPrefixOf_iff_prefix.mpr (List.prefix_append _ _)
  have texts : (names.map Component.name).map Component.text = names := by
    rw [List.map_map]
    exact List.map_id names
  rw [relativeText, below, Option.getD_some, slashed, texts]
  rfl

end Path

namespace FileTree

variable {tree : FileTree}

theorem resolveFrom_append (tree : FileTree) (place : Place) (first second : List (List Char)) :
    tree.resolveFrom place (first ++ second) =
      (tree.resolveFrom place first).bind fun middle => tree.resolveFrom middle second := by
  induction first generalizing place with
  | nil => rfl
  | cons part parts inductionHypothesis =>
      rw [List.cons_append, resolveFrom, resolveFrom]
      cases tree.entryAt? place with
      | none => rfl
      | some entry =>
          cases entry with
          | file content => rfl
          | directory =>
              simp only [inductionHypothesis]
              split
              · rfl
              · split <;> rfl

/-- One name further, from a directory. -/
theorem resolveFrom_name {place target : Place} {name : List Char} (isName : Path.IsName name) :
    tree.resolveFrom place [name] = .ok target ↔
      tree.entryAt? place = some .directory ∧ target = place ++ [name] := by
  rw [resolveFrom]
  cases tree.entryAt? place with
  | none => simp
  | some entry =>
      cases entry with
      | file content => simp
      | directory => simp [isName.isTrivial_eq, isName.notParent, resolveFrom, eq_comm]

/-- A trivial part leads nowhere else. -/
theorem resolveFrom_empty {place target : Place} :
    tree.resolveFrom place [[]] = .ok target ↔
      tree.entryAt? place = some .directory ∧ target = place := by
  rw [resolveFrom]
  cases tree.entryAt? place with
  | none => simp
  | some entry =>
      cases entry with
      | file content => simp
      | directory => simp [Path.isTrivial, resolveFrom, eq_comm]

/-- An empty part asks for a directory, as any part behind it does. -/
theorem resolveFrom_nil_cons {place : Place} {parts : List (List Char)} (nonempty : parts ≠ []) :
    tree.resolveFrom place ([] :: parts) = tree.resolveFrom place parts := by
  obtain ⟨part, parts, rfl⟩ := List.exists_cons_of_ne_nil nonempty
  rw [resolveFrom, resolveFrom]
  cases isThere : tree.entryAt? place with
  | none => rfl
  | some entry =>
      cases entry with
      | file content => rfl
      | directory => simp [Path.isTrivial]

theorem bind_ok {Fault Value Result : Type} {value : Except Fault Value}
    {next : Value → Except Fault Result} {result : Result} :
    value.bind next = .ok result ↔ ∃ middle, value = .ok middle ∧ next middle = .ok result := by
  cases value with
  | error fault => simp [Except.bind]
  | ok middle => simp [Except.bind]

theorem start_congr {path other : Path} (same : path.isAbsolute = other.isAbsolute) :
    tree.start path = tree.start other := by
  rw [start, start, same]

theorem reach_ok {path : Path} {place : Place} :
    tree.reach path = .ok place ↔
      ∃ start, tree.start path = .ok start ∧ tree.resolveFrom start path.parts = .ok place :=
  bind_ok

theorem resolve_ok {path : Path} {place : Place} :
    tree.resolve path = .ok place ↔ path.text ≠ [] ∧ tree.reach path = .ok place := by
  unfold resolve
  split
  · rename_i empty
    simp [empty]
  · rename_i nonempty
    simp [nonempty]

theorem find_ok {path : Path} {place : Place} {entry : FileEntry} :
    tree.find path = .ok (place, entry) ↔
      tree.resolve path = .ok place ∧ tree.entryAt? place = some entry := by
  rw [find]
  cases leads : tree.resolve path with
  | error error => simp
  | ok other =>
      cases there : tree.entryAt? other with
      | none =>
          simp only [there, reduceCtorEq, Except.ok.injEq, false_iff, not_and]
          rintro rfl
          simp [there]
      | some entryThere =>
          simp only [there, Except.ok.injEq, Prod.mk.injEq]
          constructor
          · rintro ⟨rfl, rfl⟩
            exact ⟨rfl, there⟩
          · rintro ⟨rfl, isEntry⟩
            rw [there] at isEntry
            exact ⟨rfl, Option.some.inj isEntry⟩

/-- A joined name leads one name further than the path. -/
theorem reach_join {base : Path} {place : Place} {name : List Char} (isName : Path.IsName name) :
    tree.reach (base.join ⟨name⟩) = .ok place ↔
      ∃ parent, tree.reach base = .ok parent ∧ tree.entryAt? parent = some .directory ∧
        place = parent ++ [name] := by
  rcases base.join_name isName with ⟨empty, joined⟩ | ⟨front, ends, joined⟩ | ⟨nonempty, joined⟩
  · have sameStart : Path.isAbsolute ⟨name⟩ = base.isAbsolute := by
      rw [isName.isAbsolute_eq, Path.isAbsolute, empty]
      rfl
    have nameParts : Path.parts ⟨name⟩ = [name] := isName.segments_eq
    have baseParts : base.parts = [[]] := by
      rw [Path.parts, empty]
      rfl
    simp only [joined, reach_ok, start_congr sameStart, nameParts, baseParts,
      resolveFrom_name isName, resolveFrom_empty]
    grind
  · have sameStart : Path.isAbsolute ⟨front ++ '/' :: name⟩ = base.isAbsolute := by
      rw [Path.isAbsolute, Path.isAbsolute, ends]
      cases front <;> rfl
    have joinedParts : Path.parts ⟨front ++ '/' :: name⟩ = RoutePath.segments front ++ [name] := by
      rw [← isName.segments_eq]
      exact RoutePath.segments_append_slash front name
    have baseParts : base.parts = RoutePath.segments front ++ [[]] := by
      rw [Path.parts, ends]
      exact RoutePath.segments_append_slash front []
    simp only [joined, reach_ok, start_congr sameStart, joinedParts, baseParts,
      resolveFrom_append, bind_ok, resolveFrom_name isName, resolveFrom_empty]
    grind
  · have sameStart : Path.isAbsolute ⟨base.text ++ '/' :: name⟩ = base.isAbsolute := by
      rw [Path.isAbsolute, Path.isAbsolute, List.head?_append_of_ne_nil _ nonempty]
    have joinedParts : Path.parts ⟨base.text ++ '/' :: name⟩ = base.parts ++ [name] := by
      rw [← isName.segments_eq]
      exact RoutePath.segments_append_slash base.text name
    simp only [joined, reach_ok, start_congr sameStart, joinedParts, resolveFrom_append, bind_ok,
      resolveFrom_name isName]
    grind

/-- Names along a path lead along these names. -/
theorem reach_along {base : Path} {names place : Place}
    (named : ∀ name ∈ names, Path.IsName name)
    (found : tree.reach (Sources.along base names) = .ok place) :
    ∃ parent, tree.reach base = .ok parent ∧ place = parent ++ names := by
  induction names generalizing base with
  | nil => exact ⟨place, found, by simp⟩
  | cons name names inductionHypothesis =>
      obtain ⟨first, later⟩ := List.forall_mem_cons.mp named
      obtain ⟨middle, joined, rfl⟩ := inductionHypothesis later found
      obtain ⟨parent, isParent, -, rfl⟩ := (reach_join first).mp joined
      exact ⟨parent, isParent, by simp⟩

end FileTree

end ScreenCompiler
