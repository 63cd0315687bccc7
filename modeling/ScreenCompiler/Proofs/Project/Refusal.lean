import ScreenCompiler.Proofs.Project.Listing
import ScreenCompiler.Proofs.Project.Pass

/-!
# Projects that are refused

Reading stops at the first source that has no text or whose component name an earlier
source has taken.  A pass that stops while it reads has not written anything yet, and
a pass that writes never complains about a name.
-/

namespace ScreenCompiler

namespace Project

variable {project : Project} {catalog : Catalog} {tree later : FileTree}

/-- The component name of the source at a path. -/
def nameAt (project : Project) (path : Path) : List Char :=
  (RouteIdentity.ofRelative (Path.relativeText project.screens path)).componentName

/-- Why reading stops at a path when the sources before it have been read. -/
inductive StopsAt (project : Project) (tree : FileTree) (before : List Path) (path : Path) :
    ProjectError → Prop where
  | unreadable {error : FileError} :
      tree.readText path = .error error →
      StopsAt project tree before path (.file path error)
  | nameTaken {text : String} {owner : Path} :
      tree.readText path = .ok text →
      owner ∈ before →
      project.nameAt owner = project.nameAt path →
      StopsAt project tree before path
        (.nameTaken (String.ofList (Path.relativeText project.screens path))
          (String.ofList (project.nameAt path))
          (String.ofList (Path.relativeText project.screens owner)))

/-- Reading stops at the first path where it has to: all sources before it have a text, and no two
of them have one component name. -/
def StopsReading (project : Project) (tree : FileTree) (paths : List Path)
    (fault : ProjectError) : Prop :=
  ∃ before path after, paths = before ++ path :: after ∧
    (∀ other ∈ before, ∃ text, tree.readText other = .ok text) ∧
    (before.map project.nameAt).Nodup ∧
    project.StopsAt tree before path fault

/-- Sources that have been read from the given paths, the last one first. -/
structure ReadFrom (project : Project) (paths : List Path) (sources : List ScreenSource) :
    Prop where
  paths : sources.map ScreenSource.path = paths.reverse
  identity : ∀ source ∈ sources, source.identity =
    RouteIdentity.ofRelative (Path.relativeText project.screens source.path)

namespace ReadFrom

variable {paths : List Path} {sources : List ScreenSource}

theorem nil (project : Project) : project.ReadFrom [] [] where
  paths := rfl
  identity := by simp

theorem cons (read : project.ReadFrom paths sources) (path : Path) (document : Document) :
    project.ReadFrom (paths ++ [path])
      (⟨path, RouteIdentity.ofRelative (Path.relativeText project.screens path), document⟩ ::
        sources) where
  paths := by simp [read.paths]
  identity := by
    intro source membership
    rcases List.mem_cons.mp membership with rfl | inSources
    · rfl
    · exact read.identity source inSources

theorem path_mem (read : project.ReadFrom paths sources) {source : ScreenSource}
    (membership : source ∈ sources) : source.path ∈ paths := by
  have listed := List.mem_map_of_mem (f := ScreenSource.path) membership
  rw [read.paths] at listed
  exact List.mem_reverse.mp listed

theorem componentName (read : project.ReadFrom paths sources) {source : ScreenSource}
    (membership : source ∈ sources) :
    source.identity.componentName = project.nameAt source.path :=
  congrArg RouteIdentity.componentName (read.identity source membership)

theorem map_componentName (read : project.ReadFrom paths sources) :
    sources.map (fun source => source.identity.componentName) =
      (paths.map project.nameAt).reverse := by
  rw [← List.map_reverse, ← read.paths, List.map_map]
  exact List.map_congr_left fun source membership => read.componentName membership

theorem owner?_eq_none_iff (read : project.ReadFrom paths sources) {name : List Char} :
    ScreenSource.owner? sources name = none ↔ name ∉ paths.map project.nameAt := by
  rw [← List.mem_reverse, ← read.map_componentName, ScreenSource.owner?, List.find?_eq_none]
  simp

theorem of_owner? (read : project.ReadFrom paths sources) {name : List Char}
    {owner : ScreenSource} (found : ScreenSource.owner? sources name = some owner) :
    owner.path ∈ paths ∧ project.nameAt owner.path = name ∧
      owner.identity.sourceFile = Path.relativeText project.screens owner.path := by
  have membership := List.mem_of_find?_eq_some found
  have sameName : owner.identity.componentName = name := by
    simpa using List.find?_some found
  refine ⟨read.path_mem membership, ?_, ?_⟩
  · rw [← read.componentName membership, sameName]
  · exact congrArg RouteIdentity.sourceFile (read.identity owner membership)

/-- The one source that has a name is found by it. -/
theorem owner?_nameAt (read : project.ReadFrom paths sources)
    (distinct : (paths.map project.nameAt).Nodup) {path : Path} (isPath : path ∈ paths) :
    ∃ owner, ScreenSource.owner? sources (project.nameAt path) = some owner ∧
      owner.identity.sourceFile = Path.relativeText project.screens path := by
  cases found : ScreenSource.owner? sources (project.nameAt path) with
  | none => exact absurd (List.mem_map_of_mem isPath) (read.owner?_eq_none_iff.mp found)
  | some owner =>
      obtain ⟨isOwner, sameName, file⟩ := read.of_owner? found
      obtain rfl := List.inj_on_of_nodup_map distinct isOwner isPath sameName
      exact ⟨owner, rfl, file⟩

end ReadFrom

theorem readSources_error {paths taken : List Path} {earlier : List ScreenSource}
    {fault : ProjectError} (read : project.ReadFrom taken earlier)
    (distinct : (taken.map project.nameAt).Nodup)
    (refused : project.readSources catalog tree earlier paths = .error fault) :
    ∃ before path after, paths = before ++ path :: after ∧
      (∀ other ∈ before, ∃ text, tree.readText other = .ok text) ∧
      ((taken ++ before).map project.nameAt).Nodup ∧
      project.StopsAt tree (taken ++ before) path fault := by
  -- `taken` are the paths that have been read already, so the clash may be with one of them.
  induction paths generalizing earlier taken with
  | nil => exact absurd refused (by simp [readSources])
  | cons path paths inductionHypothesis =>
      unfold readSources at refused
      cases content : tree.readText path with
      | error error =>
          rw [content] at refused
          obtain rfl := Except.error.inj refused
          exact ⟨[], path, paths, rfl, by simp, by simpa using distinct, .unreadable content⟩
      | ok text =>
          simp only [content] at refused
          split at refused
          · rename_i owner found
            obtain ⟨isTaken, sameName, file⟩ := read.of_owner? found
            obtain rfl := Except.error.inj refused
            refine ⟨[], path, paths, rfl, by simp, by simpa using distinct, ?_⟩
            rw [List.append_nil, file]
            exact .nameTaken content isTaken sameName
          · rename_i free
            have fresh := read.owner?_eq_none_iff.mp free
            have distinctHere : ((taken ++ [path]).map project.nameAt).Nodup := by
              rw [List.map_append, List.map_singleton]
              exact distinct.append (List.nodup_singleton _) (List.disjoint_singleton.mpr fresh)
            obtain ⟨before, stop, after, rfl, readable, distinctBefore, stops⟩ :=
              inductionHypothesis (read.cons path _) distinctHere refused
            rw [List.append_assoc, List.singleton_append] at distinctBefore stops
            exact ⟨path :: before, stop, after, rfl,
              List.forall_mem_cons.mpr ⟨⟨text, content⟩, readable⟩, distinctBefore, stops⟩

theorem readSources_of_stopsAt {before taken after : List Path} {path : Path}
    {earlier : List ScreenSource} {fault : ProjectError} (read : project.ReadFrom taken earlier)
    (readable : ∀ other ∈ before, ∃ text, tree.readText other = .ok text)
    (distinct : ((taken ++ before).map project.nameAt).Nodup)
    (stops : project.StopsAt tree (taken ++ before) path fault) :
    project.readSources catalog tree earlier (before ++ path :: after) = .error fault := by
  induction before generalizing earlier taken with
  | nil =>
      rw [List.append_nil] at distinct stops
      cases stops with
      | unreadable content => simp only [List.nil_append, readSources, content]
      | nameTaken content isTaken sameName =>
          obtain ⟨source, found, file⟩ := read.owner?_nameAt distinct isTaken
          rw [sameName] at found
          simp only [nameAt] at found
          simp only [List.nil_append, readSources, content, found, file]
          rfl
  | cons other before inductionHypothesis =>
      obtain ⟨⟨text, content⟩, readableLater⟩ := List.forall_mem_cons.mp readable
      have fresh : project.nameAt other ∉ taken.map project.nameAt := by
        rw [List.map_append, List.map_cons] at distinct
        intro inTaken
        exact List.disjoint_of_nodup_append distinct inTaken List.mem_cons_self
      have free := read.owner?_eq_none_iff.mpr fresh
      simp only [nameAt] at free
      simp only [List.cons_append, readSources, content, free]
      rw [← List.singleton_append, ← List.append_assoc] at distinct stops
      exact inductionHypothesis (read.cons other _) readableLater distinct stops

theorem readSources_eq_error_iff {paths : List Path} {fault : ProjectError} :
    project.readSources catalog tree [] paths = .error fault ↔
      project.StopsReading tree paths fault := by
  constructor
  · intro refused
    obtain ⟨before, path, after, split, readable, distinct, stops⟩ :=
      readSources_error (.nil project) (by simp) refused
    exact ⟨before, path, after, split, readable, distinct, stops⟩
  · rintro ⟨before, path, after, rfl, readable, distinct, stops⟩
    exact readSources_of_stopsAt (.nil project) readable distinct stops

/-- Sources that are all read have distinct names. -/
theorem readSources_ok_nodup {paths : List Path} {sources : List ScreenSource}
    (success : project.readSources catalog tree [] paths = .ok sources) :
    (∀ path ∈ paths, ∃ text, tree.readText path = .ok text) ∧
      (paths.map project.nameAt).Nodup := by
  obtain ⟨inOrder, read, distinct⟩ := readSources_ok success (by simp) (by simp)
  obtain rfl : sources.map ScreenSource.path = paths := inOrder
  constructor
  · intro path membership
    obtain ⟨source, inSources, rfl⟩ := List.mem_map.mp membership
    obtain ⟨text, content, -⟩ := (read source inSources).document
    exact ⟨text, content⟩
  · have sameNames : (sources.map ScreenSource.path).map project.nameAt =
        sources.map fun source => source.identity.componentName := by
      rw [List.map_map]
      apply List.map_congr_left
      intro source inSources
      rw [(read source inSources).identity]
      rfl
    rw [sameNames]
    exact distinct

theorem StopsReading.not_nodup {paths : List Path} {source name earlier : String}
    (stops : project.StopsReading tree paths (.nameTaken source name earlier)) :
    ¬(paths.map project.nameAt).Nodup := by
  obtain ⟨before, path, after, rfl, -, -, stopsAt⟩ := stops
  cases stopsAt with
  | nameTaken content inBefore sameName =>
      intro distinct
      rw [List.map_append, List.map_cons, ← sameName] at distinct
      exact List.disjoint_of_nodup_append distinct (List.mem_map_of_mem inBefore)
        List.mem_cons_self

/-- Reading stops at a name when every source has a text. -/
theorem StopsReading.nameTaken {paths : List Path} {fault : ProjectError}
    (stops : project.StopsReading tree paths fault)
    (readable : ∀ path ∈ paths, ∃ text, tree.readText path = .ok text) :
    ∃ source name earlier, fault = .nameTaken source name earlier := by
  obtain ⟨before, path, after, rfl, -, -, stopsAt⟩ := stops
  cases stopsAt with
  | unreadable noText =>
      obtain ⟨text, content⟩ := readable path (by simp)
      rw [noText] at content
      exact absurd content (by simp)
  | nameTaken => exact ⟨_, _, _, rfl⟩

theorem fault_eq {Value : Type} {fault other : ProjectError}
    (same : ((.error fault, tree) : Except ProjectError Value × FileTree) = (.error other, later)) :
    fault = other :=
  Except.error.inj (Prod.mk.inj same).1

theorem createParent_error {path : Path} {fault : ProjectError}
    (failure : tree.createParent path = (.error fault, later)) :
    ∃ place error, fault = .file place error := by
  unfold FileTree.createParent at failure
  split at failure
  · exact absurd failure (by simp)
  · split at failure
    · exact absurd failure (by simp)
    · exact ⟨_, _, (fault_eq failure).symm⟩

theorem emitText_error {path : Path} {text : String} {fault : ProjectError}
    (failure : tree.emitText path text = (.error fault, later)) :
    ∃ place error, fault = .file place error := by
  unfold FileTree.emitText at failure
  split at failure
  · rename_i madeParent
    obtain rfl := fault_eq failure
    exact createParent_error madeParent
  · split at failure
    · exact absurd failure (by simp)
    · exact ⟨_, _, (fault_eq failure).symm⟩

theorem writeIfChanged_error {path : Path} {text : String} {fault : ProjectError}
    (failure : tree.writeIfChanged path text = (.error fault, later)) :
    ∃ place error, fault = .file place error := by
  unfold FileTree.writeIfChanged at failure
  split at failure
  · exact absurd failure (by simp)
  · split at failure
    · exact absurd failure (by simp)
    · rename_i emitted
      obtain rfl := fault_eq failure
      exact emitText_error emitted

theorem writeComponents_error {routes : List Route} {sources : List ScreenSource}
    {fault : ProjectError}
    (failure : project.writeComponents catalog routes tree sources = (.error fault, later)) :
    ∃ place error, fault = .file place error := by
  induction sources generalizing tree later with
  | nil => exact absurd failure (by simp [writeComponents])
  | cons source sources inductionHypothesis =>
      unfold writeComponents at failure
      simp only at failure
      split at failure
      · rename_i written
        obtain rfl := fault_eq failure
        exact writeIfChanged_error written
      · split at failure
        · rename_i rest
          obtain rfl := fault_eq failure
          exact inductionHypothesis rest
        · exact absurd failure (by simp)

/-- A pass that writes ends with a complaint about a file or with none. -/
theorem writeAll_error {sources : List ScreenSource} {fault : ProjectError}
    (failure : project.writeAll catalog tree sources = (.error fault, later)) :
    ∃ place error, fault = .file place error := by
  unfold writeAll at failure
  simp only at failure
  split at failure
  · rename_i written
    obtain rfl := fault_eq failure
    exact writeComponents_error written
  · split at failure
    · rename_i routed
      obtain rfl := fault_eq failure
      exact writeIfChanged_error routed
    · exact absurd failure (by simp)

theorem compile_of_sources_error {fault : ProjectError}
    (refused : project.sources catalog tree = .error fault) :
    project.compile catalog tree = (.error fault, tree) := by
  rw [compile, refused]

theorem sources_of_nameTaken {source name earlier : String}
    (refused : (project.compile catalog tree).1 = .error (.nameTaken source name earlier)) :
    project.sources catalog tree = .error (.nameTaken source name earlier) := by
  cases found : project.sources catalog tree with
  | error fault =>
      rw [compile_of_sources_error found] at refused
      exact congrArg Except.error (Except.error.inj refused)
  | ok sources =>
      rw [compile, found] at refused
      obtain ⟨place, error, isFile⟩ := writeAll_error (Prod.ext refused rfl)
      exact absurd isFile (by simp)

/-- What a pass makes of the paths at which it finds sources. -/
structure RefusesAmong (project : Project) (catalog : Catalog) (tree : FileTree)
    (paths : List Path) : Prop where
  /-- The paths come in the order of the names below the screens directory. -/
  inOrder : ∃ names : List Place,
    names.Pairwise (fun first second => (compare first second).isLE = true) ∧
      paths = names.map (Sources.along project.screens)
  clash : (∀ path ∈ paths, ∃ text, tree.readText path = .ok text) →
    ((∃ source name earlier,
        (project.compile catalog tree).1 = .error (.nameTaken source name earlier)) ↔
      ¬(paths.map project.nameAt).Nodup)
  first : ∀ source name earlier,
    (project.compile catalog tree).1 = .error (.nameTaken source name earlier) ↔
      project.StopsReading tree paths (.nameTaken source name earlier)
  unreadable : ∀ path ∈ paths, ∀ error, tree.readText path = .error error →
    ∃ fault, project.StopsReading tree paths fault ∧
      project.compile catalog tree = (.error fault, tree)

/-- How a pass fails before it writes: it says what is missing or which source was the first that
it could not take, and leaves the tree as it is. -/
structure Refuses (project : Project) (catalog : Catalog) (tree : FileTree) : Prop where
  missing : tree.isDirectory project.screens = false →
    project.compile catalog tree = (.error (.screensMissing project.screens), tree)
  listed : tree.isDirectory project.screens = true →
    ∃ paths, project.sourcePaths tree = .ok paths ∧ project.RefusesAmong catalog tree paths
  untouched : ∀ source name earlier,
    (project.compile catalog tree).1 = .error (.nameTaken source name earlier) →
      (project.compile catalog tree).2 = tree

/-- Only reading compares names, so a pass complains about one exactly where reading does. -/
theorem compile_nameTaken_iff {paths : List Path} {source name earlier : String}
    (reads : project.sources catalog tree = project.readSources catalog tree [] paths) :
    (project.compile catalog tree).1 = .error (.nameTaken source name earlier) ↔
      project.StopsReading tree paths (.nameTaken source name earlier) := by
  rw [← @readSources_eq_error_iff project catalog, ← reads]
  constructor
  · exact sources_of_nameTaken
  · intro refused
    rw [compile_of_sources_error refused]

theorem refusesAmong {names : List Place} {paths : List Path}
    (sorted : names.Pairwise fun first second => (compare first second).isLE = true)
    (isPaths : paths = names.map (Sources.along project.screens))
    (reads : project.sources catalog tree = project.readSources catalog tree [] paths) :
    project.RefusesAmong catalog tree paths where
  inOrder := ⟨names, sorted, isPaths⟩
  first _ _ _ := compile_nameTaken_iff reads
  clash readable := by
    constructor
    · rintro ⟨source, name, earlier, refused⟩
      exact ((compile_nameTaken_iff reads).mp refused).not_nodup
    · intro clash
      cases result : project.readSources catalog tree [] paths with
      | ok sources => exact absurd (readSources_ok_nodup result).2 clash
      | error fault =>
          have stops := readSources_eq_error_iff.mp result
          obtain ⟨source, name, earlier, rfl⟩ := stops.nameTaken readable
          exact ⟨source, name, earlier, (compile_nameTaken_iff reads).mpr stops⟩
  unreadable path membership error noText := by
    cases result : project.readSources catalog tree [] paths with
    | ok sources =>
        obtain ⟨text, content⟩ := (readSources_ok_nodup result).1 path membership
        rw [noText] at content
        exact absurd content (by simp)
    | error fault =>
        exact ⟨fault, readSources_eq_error_iff.mp result,
          compile_of_sources_error (reads.trans result)⟩

/-- A pass over a project without a screens directory, with a source that has no text or with a
component name that two sources have writes nothing. -/
theorem compile_refuses (project : Project) (catalog : Catalog) (tree : FileTree) :
    project.Refuses catalog tree where
  missing missing := compile_of_sources_error (sources_of_missing missing)
  untouched source name earlier refused := by
    rw [compile_of_sources_error (sources_of_nameTaken refused)]
  listed isDirectory := by
    obtain ⟨place, found⟩ := FileTree.isDirectory_iff.mp isDirectory
    have listed := sourcePaths_eq found
    exact ⟨_, listed, refusesAmong (tree.sourcesBelow_pairwise place _ _) rfl
      (sources_eq_readSources isDirectory listed)⟩

/-- Two index screens, one of them in the tab group, and a screen after them. -/
def twoIndexScreens : FileTree :=
  treeOf [("(tabs)/index.ignite", "Tab"), ("index.ignite", "Root"), ("other.ignite", "Other")]

theorem sourcePaths_twoIndexScreens :
    standard.sourcePaths twoIndexScreens =
      .ok [⟨"./app/(tabs)/index.ignite".toList⟩, ⟨"./app/index.ignite".toList⟩,
        ⟨"./app/other.ignite".toList⟩] := by
  have found : twoIndexScreens.find standard.screens =
      .ok (["project".toList, "app".toList], .directory) := by
    rfl
  have files := @filesBelow_of_listing twoIndexScreens ["project".toList, "app".toList]
    [["(tabs)".toList, "index.ignite".toList], ["index.ignite".toList], ["other.ignite".toList]]
    (by decide +kernel) (by decide +kernel)
  have sources : (twoIndexScreens.sourcesBelow ["project".toList, "app".toList]
      standard.settings.extension standard.settings.ignored).map
        (Sources.along standard.screens) =
      [⟨"./app/(tabs)/index.ignite".toList⟩, ⟨"./app/index.ignite".toList⟩,
        ⟨"./app/other.ignite".toList⟩] := by
    unfold FileTree.sourcesBelow
    rw [files]
    decide +kernel
  exact (sourcePaths_eq found).trans (congrArg Except.ok sources)

theorem stopsReading_twoIndexScreens :
    standard.StopsReading twoIndexScreens
      [⟨"./app/(tabs)/index.ignite".toList⟩, ⟨"./app/index.ignite".toList⟩,
        ⟨"./app/other.ignite".toList⟩]
      (.nameTaken "index.ignite" "Index" "(tabs)/index.ignite") := by
  have group : twoIndexScreens.readText ⟨"./app/(tabs)/index.ignite".toList⟩ =
      .ok "Tab" := by
    rfl
  have root : twoIndexScreens.readText ⟨"./app/index.ignite".toList⟩ = .ok "Root" := by
    rfl
  refine ⟨[⟨"./app/(tabs)/index.ignite".toList⟩], ⟨"./app/index.ignite".toList⟩,
    [⟨"./app/other.ignite".toList⟩], rfl, ?readable, List.nodup_singleton _, ?stops⟩
  case readable =>
    intro other membership
    rw [List.mem_singleton.mp membership]
    exact ⟨"Tab", group⟩
  case stops =>
    have source : String.ofList (Path.relativeText standard.screens
        ⟨"./app/index.ignite".toList⟩) = "index.ignite" := by
      decide +kernel
    have owner : String.ofList (Path.relativeText standard.screens
        ⟨"./app/(tabs)/index.ignite".toList⟩) = "(tabs)/index.ignite" := by
      decide +kernel
    have name : String.ofList (standard.nameAt ⟨"./app/index.ignite".toList⟩) =
        "Index" := by
      decide +kernel
    rw [← source, ← owner, ← name]
    exact .nameTaken root List.mem_cons_self (by decide +kernel)

theorem compile_refuses_twoIndexScreens :
    standard.compile .standard twoIndexScreens =
      (.error (.nameTaken "index.ignite" "Index" "(tabs)/index.ignite"), twoIndexScreens) := by
  have isDirectory : twoIndexScreens.isDirectory standard.screens = true := by decide +kernel
  have refuses := compile_refuses standard .standard twoIndexScreens
  obtain ⟨paths, isPaths, among⟩ := refuses.listed isDirectory
  obtain rfl := Except.ok.inj (isPaths.symm.trans sourcePaths_twoIndexScreens)
  have refused := (among.first _ _ _).mpr stopsReading_twoIndexScreens
  exact Prod.ext refused (refuses.untouched _ _ _ refused)

end Project

end ScreenCompiler
