import ScreenCompiler.Proofs.Project.Listing
import ScreenCompiler.Proofs.Project.Outputs

/-!
# Where modules are placed

In every tree the modules of a pass and the router lie below the output, apart from
each other, under names of which none is the name of a source.
-/

namespace ScreenCompiler

open Text

namespace Path

theorem eq_append_of_extensionOf? {name ending : List Char}
    (found : extensionOf? name = some ending) :
    ∃ stem, stem ≠ [] ∧ '.' ∉ ending ∧ name = stem ++ '.' :: ending := by
  unfold extensionOf? at found
  split at found
  · rename_i first stem other cut
    obtain rfl := Option.some.inj found
    obtain ⟨whole, free⟩ := eq_append_of_splitLast? cut
    exact ⟨first :: stem, List.cons_ne_nil first stem, free, whole⟩
  · exact absurd found (by simp)

/-- The file of a module has no other extension than that of modules. -/
theorem extensionOf?_moduleFile {name ending : List Char} (other : ending ≠ "js".toList) :
    extensionOf? (name ++ ".js".toList) ≠ some ending := by
  have cut : splitLast? '.' (name ++ ".js".toList) = some (name, "js".toList) :=
    splitLast?_append name (by decide)
  unfold extensionOf?
  rw [cut]
  cases name with
  | nil => simp
  | cons first rest =>
      intro same
      exact other (Option.some.inj same).symm

/-- No tree leads two paths to one place. -/
def LeadApart (first second : Path) : Prop :=
  ∀ (tree : FileTree) (place : Place),
    tree.resolve first = .ok place → tree.resolve second ≠ .ok place

end Path

namespace RouteIdentity

open RoutePath

/-- The screen path of a source is its path with the stem of its name. -/
theorem segments_screenPath_of_names {directories : Place} {stem ending : List Char}
    (named : ∀ name ∈ directories, Path.IsName name) (stemNonempty : stem ≠ [])
    (stemFree : '/' ∉ stem) (endingFree : '.' ∉ ending) :
    segments (ofRelative (joinSegments (directories ++ [stem ++ '.' :: ending]))).screenPath =
      directories ++ [stem] := by
  have parts : ∀ part ∈ directories ++ [stem], part ≠ [] ∧ '/' ∉ part := by
    intro part membership
    rcases List.mem_append.mp membership with isDirectory | isStem
    · exact ⟨(named part isDirectory).nonempty, (named part isDirectory).free⟩
    · rw [List.mem_singleton.mp isStem]
      exact ⟨stemNonempty, stemFree⟩
  have solid : IsSolid (joinSegments (directories ++ [stem])) :=
    isSolid_joinSegments (by simp) parts
  have filled : joinSegments (directories ++ [stem]) ≠ [] := by
    intro empty
    rw [empty] at solid
    exact solid [] (by simp [segments]) rfl
  have screenPath : withoutExtension (joinSegments (directories ++ [stem ++ '.' :: ending])) =
      joinSegments (directories ++ [stem]) := by
    rw [← joinSegments_concat_append, withoutExtension, splitLast?_append _ endingFree]
    simp [filled, solid.ends_ne_slash.2]
  rw [ofRelative, screenPath]
  exact segments_joinSegments (by simp) fun part membership => (parts part membership).2

/-- The names that lead to the module of a source are names again. -/
theorem isName_of_mem_fileNames {names : Place} {ending : List Char}
    (named : ∀ name ∈ names, Path.IsName name)
    (ends : names.getLast?.bind Path.extensionOf? = some ending) (isTab : Bool) :
    ∀ name ∈ (ofRelative (joinSegments names)).fileNames isTab, Path.IsName name := by
  obtain ⟨last, isLast, hasEnding⟩ := Option.bind_eq_some_iff.mp ends
  obtain ⟨directories, rfl⟩ := List.getLast?_eq_some_iff.mp isLast
  obtain ⟨stem, stemNonempty, endingFree, rfl⟩ := Path.eq_append_of_extensionOf? hasEnding
  obtain ⟨namedDirectories, namedLast⟩ := List.forall_mem_append.mp named
  have lastFree := (namedLast _ List.mem_cons_self).free
  have stemFree : '/' ∉ stem := fun inside => lastFree (List.mem_append_left _ inside)
  have solid : IsSolid (joinSegments (directories ++ [stem ++ '.' :: ending])) :=
    isSolid_joinSegments (by simp) fun part membership =>
      ⟨(named part membership).nonempty, (named part membership).free⟩
  have screen :=
    segments_screenPath_of_names namedDirectories stemNonempty stemFree endingFree
  intro name membership
  rcases List.mem_append.mp membership with isDirectory | isFile
  · cases isTab with
    | false =>
        rw [outputNames_false solid, screen, List.dropLast_concat] at isDirectory
        exact namedDirectories name isDirectory
    | true =>
        rw [outputNames_true solid, screen] at isDirectory
        rcases List.mem_cons.mp isDirectory with rfl | below
        · decide
        · apply namedDirectories
          by_cases group : stem = tabGroup
          · have onlyDirectories : (directories ++ [stem]).filter (· != tabGroup) =
                directories.filter (· != tabGroup) := by simp [group]
            rw [onlyDirectories] at below
            exact List.mem_of_mem_filter (List.dropLast_subset _ below)
          · have withStem : (directories ++ [stem]).filter (· != tabGroup) =
                directories.filter (· != tabGroup) ++ [stem] := by simp [group]
            rw [withStem, List.dropLast_concat] at below
            exact List.mem_of_mem_filter below
  · rw [List.mem_singleton.mp isFile]
    exact Path.isName_moduleFile (slash_notMem_baseName _)

end RouteIdentity

namespace ScreenSource

theorem outputPath_eq_along (source : ScreenSource) (output : Path) :
    source.outputPath output =
      Sources.along output (source.identity.fileNames source.isTab) := by
  rw [Sources.along, RouteIdentity.fileNames, List.foldl_append]
  rfl

end ScreenSource

namespace Project

variable {project : Project} {catalog : Catalog} {tree later : FileTree}

/-- A source that lies below the screens, along names of which the last has the extension. -/
def LiesAlong (project : Project) (source : ScreenSource) (names : Place) : Prop :=
  source.path = Sources.along project.screens names ∧ (∀ name ∈ names, Path.IsName name) ∧
    names.getLast?.bind Path.extensionOf? = some project.settings.extension.toList

/-- What reading the sources of a project has found. -/
theorem sources_ok_listed {sources : List ScreenSource}
    (success : project.sources catalog tree = .ok sources) :
    ∃ place, tree.find project.screens = .ok (place, .directory) ∧
      sources.map ScreenSource.path =
        (tree.sourcesBelow place project.settings.extension project.settings.ignored).map
          (Sources.along project.screens) := by
  cases isThere : tree.isDirectory project.screens with
  | false =>
      rw [sources_of_missing isThere] at success
      exact absurd success (by simp)
  | true =>
      obtain ⟨place, found⟩ := FileTree.isDirectory_iff.mp isThere
      rw [sources_eq_readSources isThere (sourcePaths_eq found)] at success
      exact ⟨place, found, by simpa using (readSources_ok success (by simp) (by simp)).1⟩

theorem exists_liesAlong (isNamed : tree.IsNamed) {sources : List ScreenSource}
    (success : project.sources catalog tree = .ok sources) :
    ∀ source ∈ sources, ∃ names, project.LiesAlong source names := by
  intro source membership
  obtain ⟨place, -, paths⟩ := sources_ok_listed success
  have listed := List.mem_map_of_mem (f := ScreenSource.path) membership
  rw [paths] at listed
  obtain ⟨names, isSource, isPath⟩ := List.mem_map.mp listed
  exact ⟨names, isPath.symm, FileTree.sourcesBelow_spec isNamed isSource⟩

theorem screensOutput_eq (project : Project) :
    project.screensOutput = project.output.join ⟨"screens".toList⟩ := rfl

theorem routerPath_eq (project : Project) :
    project.routerPath = project.output.join ⟨"router.js".toList⟩ := rfl

theorem resolve_routerPath {place : Place} (leads : later.resolve project.routerPath = .ok place) :
    ∃ output, later.reach project.output = .ok output ∧ place = output ++ ["router.js".toList] := by
  have reached := (FileTree.resolve_ok.mp leads).2
  rw [routerPath_eq] at reached
  obtain ⟨output, leadsOutput, -, rfl⟩ := (FileTree.reach_join (by decide)).mp reached
  exact ⟨output, leadsOutput, rfl⟩

section Source

variable {source : ScreenSource} {names : Place}

theorem identity_of_liesAlong (read : source.IsRead project catalog tree)
    (lies : project.LiesAlong source names) :
    source.identity = RouteIdentity.ofRelative (RoutePath.joinSegments names) := by
  rw [read.identity, lies.1, Path.relativeText_along _ lies.2.1]

theorem isName_of_liesAlong (read : source.IsRead project catalog tree)
    (lies : project.LiesAlong source names) :
    ∀ name ∈ source.identity.fileNames source.isTab, Path.IsName name := by
  rw [identity_of_liesAlong read lies]
  exact RouteIdentity.isName_of_mem_fileNames lies.2.1 lies.2.2 source.isTab

/-- The module of a source is written below the directory of all modules. -/
theorem resolve_outputPath {place : Place} (read : source.IsRead project catalog tree)
    (lies : project.LiesAlong source names)
    (leads : later.resolve (source.outputPath project.screensOutput) = .ok place) :
    ∃ output, later.reach project.output = .ok output ∧
      place = output ++ "screens".toList :: source.identity.fileNames source.isTab := by
  have reached := (FileTree.resolve_ok.mp leads).2
  rw [ScreenSource.outputPath_eq_along] at reached
  obtain ⟨screens, leadsScreens, rfl⟩ :=
    FileTree.reach_along (isName_of_liesAlong read lies) reached
  rw [screensOutput_eq] at leadsScreens
  obtain ⟨output, leadsOutput, -, rfl⟩ := (FileTree.reach_join (by decide)).mp leadsScreens
  exact ⟨output, leadsOutput, by simp⟩

/-- No module is written to the place of the router. -/
theorem leadApart_router (read : source.IsRead project catalog tree)
    (lies : project.LiesAlong source names) :
    Path.LeadApart (source.outputPath project.screensOutput) project.routerPath := by
  intro later place leads leadsRouter
  obtain ⟨output, leadsOutput, rfl⟩ := resolve_outputPath read lies leads
  obtain ⟨other, leadsOther, same⟩ := resolve_routerPath leadsRouter
  rw [leadsOutput] at leadsOther
  obtain rfl := Except.ok.inj leadsOther
  have sameFirst := (List.cons.inj (List.append_cancel_left same)).1
  exact absurd sameFirst (by decide)

/-- What a pass writes is no source. -/
theorem extension_of_written {place : Place} (read : source.IsRead project catalog tree)
    (lies : project.LiesAlong source names)
    (other : project.settings.extension ≠ "js")
    (leads : later.resolve (source.outputPath project.screensOutput) = .ok place) :
    place.getLast?.bind Path.extensionOf? ≠ some project.settings.extension.toList := by
  obtain ⟨output, -, rfl⟩ := resolve_outputPath read lies leads
  have last : (output ++ "screens".toList :: source.identity.fileNames source.isTab).getLast? =
      some (source.identity.baseName ++ ".js".toList) := by
    rw [RouteIdentity.fileNames, ← List.cons_append, ← List.append_assoc, List.getLast?_concat]
  rw [last, Option.bind_some]
  exact Path.extensionOf?_moduleFile fun same => other (String.toList_injective same)

end Source

theorem extension_of_router {place : Place} (other : project.settings.extension ≠ "js")
    (leads : later.resolve project.routerPath = .ok place) :
    place.getLast?.bind Path.extensionOf? ≠ some project.settings.extension.toList := by
  obtain ⟨output, -, rfl⟩ := resolve_routerPath leads
  rw [List.getLast?_concat, Option.bind_some]
  have file : "router.js".toList = "router".toList ++ ".js".toList := by decide
  rw [file]
  exact Path.extensionOf?_moduleFile fun same => other (String.toList_injective same)

/-- Modules of sources with different names lead apart. -/
theorem leadApart_outputs {first second : ScreenSource} {firstNames secondNames : Place}
    (firstRead : first.IsRead project catalog tree)
    (secondRead : second.IsRead project catalog tree)
    (firstLies : project.LiesAlong first firstNames)
    (secondLies : project.LiesAlong second secondNames)
    (firstGroupFree : first.identity.baseName ≠ RoutePath.tabGroup)
    (secondGroupFree : second.identity.baseName ≠ RoutePath.tabGroup)
    (differs : first.identity.componentName ≠ second.identity.componentName) :
    Path.LeadApart (first.outputPath project.screensOutput)
      (second.outputPath project.screensOutput) := by
  have solid : ∀ {source : ScreenSource} {names : Place},
      source.IsRead project catalog tree → project.LiesAlong source names →
        RoutePath.IsSolid source.identity.sourceFile := by
    intro source names read lies
    rw [identity_of_liesAlong read lies]
    apply RoutePath.isSolid_joinSegments
    · rintro rfl
      exact absurd lies.2.2 (by simp)
    · intro name membership
      exact ⟨(lies.2.1 name membership).nonempty, (lies.2.1 name membership).free⟩
  intro later place leads leadsSecond
  obtain ⟨output, leadsOutput, rfl⟩ := resolve_outputPath firstRead firstLies leads
  obtain ⟨other, leadsOther, same⟩ := resolve_outputPath secondRead secondLies leadsSecond
  rw [leadsOutput] at leadsOther
  obtain rfl := Except.ok.inj leadsOther
  have sameNames := (List.cons.inj (List.append_cancel_left same)).2
  apply differs
  apply componentName_eq_of_same firstRead secondRead (solid firstRead firstLies)
    (solid secondRead secondLies) firstGroupFree secondGroupFree
  rw [ScreenSource.outputPath_eq_along, ScreenSource.outputPath_eq_along, sameNames, Path.same,
    beq_self_eq_true]

end Project

end ScreenCompiler
