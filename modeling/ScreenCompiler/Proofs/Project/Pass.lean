import Mathlib.Data.List.Forall2
import Mathlib.Data.List.Nodup
import ScreenCompiler.Catalog.Standard
import ScreenCompiler.Project.Pass
import ScreenCompiler.Proofs.Route.ModulePath
import ScreenCompiler.Proofs.Route.RouterText

/-!
# What a successful pass has done

A pass that ends without an error has read every source, refused no component name,
and written one module for each source in the order of the sources.  So the routes of
a pass have distinct names that were made from paths.
-/

namespace ScreenCompiler

namespace ScreenSource

/-- A source as a pass over a tree reads it. -/
structure IsRead (project : Project) (catalog : Catalog) (tree : FileTree)
    (source : ScreenSource) : Prop where
  identity : source.identity =
    RouteIdentity.ofRelative (Path.relativeText project.screens source.path)
  document : ∃ text, tree.readText source.path = .ok text ∧
    source.document = Document.parse catalog text.toList

theorem componentName_ne_of_owner?_eq_none {sources : List ScreenSource} {name : List Char}
    (free : owner? sources name = none) :
    ∀ source ∈ sources, source.identity.componentName ≠ name := by
  intro source membership
  have other := List.find?_eq_none.mp free source membership
  simpa using other

end ScreenSource

/-- A file as a pass writes it for a source. -/
structure CompiledFile.IsFileOf (project : Project) (catalog : Catalog) (routes : List Route)
    (file : CompiledFile) (source : ScreenSource) : Prop where
  path : file.source = source.path
  place : file.output = source.outputPath project.screensOutput
  name : file.componentName = String.ofList source.identity.componentName
  digest : file.hash = Digest.ofText (Project.componentText catalog routes source)
  faults : file.diagnostics = source.document.diagnostics

namespace Project

variable {project : Project} {catalog : Catalog} {tree later : FileTree}

theorem isOpen_screensOutput (project : Project) : project.screensOutput.IsOpen := by
  have relative : Path.isAbsolute (Path.ofString "screens") = false := by decide
  rw [screensOutput, Path.joinString, Path.join, if_neg (by simp [relative])]
  split
  · exact ⟨project.output.text ++ "screen".toList, 's', by simp [Path.ofString], by decide⟩
  · exact ⟨project.output.text ++ '/' :: "screen".toList, 's', by simp [Path.ofString],
      by decide⟩

/-- The sources read behind the earlier ones: they stand for the paths in order, and no component
name is taken twice. -/
theorem readSources_ok {paths : List Path} {earlier sources : List ScreenSource}
    (success : project.readSources catalog tree earlier paths = .ok sources)
    (earlierRead : ∀ source ∈ earlier, source.IsRead project catalog tree)
    (distinct : (earlier.map fun source => source.identity.componentName).Nodup) :
    sources.map ScreenSource.path = earlier.reverse.map ScreenSource.path ++ paths ∧
      (∀ source ∈ sources, source.IsRead project catalog tree) ∧
      (sources.map fun source => source.identity.componentName).Nodup := by
  induction paths generalizing earlier with
  | nil =>
      obtain rfl : earlier.reverse = sources := by simpa [readSources] using success
      refine ⟨by simp, by simpa using earlierRead, ?_⟩
      rw [List.map_reverse]
      exact List.nodup_reverse.mpr distinct
  | cons path paths inductionHypothesis =>
      unfold readSources at success
      cases content : tree.readText path with
      | error error => simp [content] at success
      | ok text =>
          simp only [content] at success
          split at success
          · exact absurd success (by simp)
          · rename_i free
            obtain ⟨inOrder, read, distinctSources⟩ := inductionHypothesis success
              (by
                intro source membership
                rcases List.mem_cons.mp membership with rfl | inEarlier
                · exact ⟨rfl, text, content, rfl⟩
                · exact earlierRead source inEarlier)
              (by
                rw [List.map_cons, List.nodup_cons]
                refine ⟨?_, distinct⟩
                intro taken
                obtain ⟨source, membership, same⟩ := List.mem_map.mp taken
                exact ScreenSource.componentName_ne_of_owner?_eq_none free source membership same)
            refine ⟨?_, read, distinctSources⟩
            rw [inOrder]
            simp

theorem sources_ok {sources : List ScreenSource}
    (success : project.sources catalog tree = .ok sources) :
    (∀ source ∈ sources, source.IsRead project catalog tree) ∧
      (sources.map fun source => source.identity.componentName).Nodup := by
  rw [Project.sources] at success
  split at success
  · split at success
    · exact absurd success (by simp)
    · exact (readSources_ok success (by simp) (by simp)).2
  · exact absurd success (by simp)

/-- One file for each source, in order. -/
theorem writeComponents_ok {routes : List Route} {sources : List ScreenSource}
    {files : List CompiledFile}
    (success : (project.writeComponents catalog routes tree sources).1 = .ok files) :
    List.Forall₂ (CompiledFile.IsFileOf project catalog routes) files sources := by
  induction sources generalizing tree files with
  | nil =>
      obtain rfl : [] = files := Except.ok.inj success
      exact .nil
  | cons source sources inductionHypothesis =>
      unfold writeComponents at success
      simp only at success
      split at success
      · exact absurd success (by simp)
      · split at success
        · exact absurd success (by simp)
        · rename_i later final rest
          obtain rfl := Except.ok.inj success
          have laterFiles := inductionHypothesis (congrArg Prod.fst rest)
          exact .cons ⟨rfl, rfl, rfl, rfl, rfl⟩ laterFiles

/-- The steps of a successful pass. -/
theorem compile_ok_steps {report : Report}
    (success : project.compile catalog tree = (.ok report, later)) :
    ∃ sources middle, project.sources catalog tree = .ok sources ∧
      report.routes = sources.map ScreenSource.route ∧
      report.routerPath = project.routerPath ∧
      project.writeComponents catalog report.routes tree sources = (.ok report.files, middle) ∧
      middle.writeIfChanged project.routerPath (Router.generate report.routes) =
        (.ok report.routerOutcome, later) := by
  unfold compile at success
  split at success
  · exact absurd success (by simp)
  · rename_i sources found
    unfold writeAll at success
    simp only at success
    split at success
    · exact absurd success (by simp)
    · rename_i files middle written
      split at success
      · exact absurd success (by simp)
      · rename_i outcome final routed
        obtain ⟨isReport, rfl⟩ := Prod.mk.inj success
        obtain rfl := Except.ok.inj isReport
        exact ⟨sources, middle, found, rfl, rfl, written, routed⟩

/-- The sources behind a report. -/
theorem compile_ok {report : Report} (success : (project.compile catalog tree).1 = .ok report) :
    ∃ sources, project.sources catalog tree = .ok sources ∧
      report.routes = sources.map ScreenSource.route ∧
      List.Forall₂ (CompiledFile.IsFileOf project catalog report.routes) report.files sources := by
  obtain ⟨sources, middle, read, routes, -, written, -⟩ := compile_ok_steps (Prod.ext success rfl)
  exact ⟨sources, read, routes, writeComponents_ok (congrArg Prod.fst written)⟩

/-- The names of a route in the table of a pass come from the path of a source. -/
theorem exists_path_of_mem_routes {report : Report} {route : Route}
    (success : (project.compile catalog tree).1 = .ok report)
    (membership : route ∈ report.routes) :
    ∃ path, route.componentName = String.ofList (RoutePath.componentName path) ∧
      route.logicalPath = String.ofList (RoutePath.logicalPath path) := by
  obtain ⟨sources, found, routes, -⟩ := compile_ok success
  rw [routes] at membership
  obtain ⟨source, inSources, rfl⟩ := List.mem_map.mp membership
  have identity := ((sources_ok found).1 source inSources).identity
  refine ⟨RouteIdentity.ungrouped
    (RouteIdentity.withoutExtension (Path.relativeText project.screens source.path)), ?_, ?_⟩
  · simp only [ScreenSource.route, RouteIdentity.route, identity, RouteIdentity.ofRelative]
  · simp only [ScreenSource.route, RouteIdentity.route, identity, RouteIdentity.ofRelative]

/-- The routes of a pass have distinct names that were made from paths. -/
theorem routes_named {report : Report} (success : (project.compile catalog tree).1 = .ok report) :
    (∀ route ∈ report.routes, route.IsNamed) ∧
      (report.routes.map Route.componentName).Nodup := by
  constructor
  · intro route membership
    obtain ⟨path, name, -⟩ := exists_path_of_mem_routes success membership
    exact ⟨path, name⟩
  · obtain ⟨sources, found, routes, -⟩ := compile_ok success
    have distinct := (sources_ok found).2.map fun _ _ => String.ofList_injective
    have names : report.routes.map Route.componentName =
        (sources.map fun source => source.identity.componentName).map String.ofList := by
      rw [routes, List.map_map, List.map_map]
      rfl
    rwa [names]

theorem ofRelative_sourceFile_route {source : ScreenSource}
    (read : source.IsRead project catalog tree) :
    RouteIdentity.ofRelative source.route.sourceFile.toList = source.identity := by
  rw [ScreenSource.route, RouteIdentity.route, String.toList_ofList, read.identity]
  rfl

theorem filesBelow_of_listing {place : Place} {files : List Place}
    (listing : tree.entries.filterMap (FileTree.fileBelow? place) = files)
    (inOrder : files.Pairwise fun first second => (compare first second).isLE = true) :
    tree.filesBelow place = files := by
  rw [FileTree.filesBelow, listing]
  exact List.mergeSort_of_pairwise inOrder

/-- The sources of a pass over a tree whose files are listed in order. -/
theorem sources_of_listing {place : Place} {files : List Place}
    (isThere : tree.resolve project.screens = .ok place)
    (isDirectory : tree.isDirectory project.screens = true)
    (listing : tree.entries.filterMap (FileTree.fileBelow? place) = files)
    (inOrder : files.Pairwise fun first second => (compare first second).isLE = true) :
    project.sources catalog tree =
      project.readSources catalog tree []
        ((files.filter (Sources.isSource project.settings.extension
          project.settings.ignored)).map (Sources.along project.screens)) := by
  have entry : tree.find project.screens = .ok (place, .directory) := by
    rw [FileTree.isDirectory] at isDirectory
    rw [FileTree.find, isThere] at isDirectory ⊢
    cases found : tree.entryAt? place with
    | none => simp [found] at isDirectory
    | some entry =>
        cases entry with
        | directory => simp only [found]
        | file content => simp [found] at isDirectory
  rw [Project.sources, if_pos isDirectory, Sources.list, entry]
  simp only [filesBelow_of_listing listing inOrder]

theorem eq_ok_of_toOption {Fault Value : Type} {result : Except Fault Value} {value : Value}
    (found : result.toOption = some value) : result = .ok value := by
  cases result with
  | error fault => exact absurd found (by simp [Except.toOption])
  | ok other => exact congrArg Except.ok (Option.some.inj found)

/-- What is seen of the value of a result that is one. -/
theorem exists_ok_of_map {Fault Value Seen : Type} {result : Except Fault Value}
    {see : Value → Seen} {seen : Seen} (found : result.toOption.map see = some seen) :
    ∃ value, result = .ok value ∧ see value = seen := by
  obtain ⟨value, isValue, isSeen⟩ := Option.map_eq_some_iff.mp found
  exact ⟨value, eq_ok_of_toOption isValue, isSeen⟩

/-- The project in the working directory, with the standard settings. -/
def standard : Project :=
  ⟨⟨['.']⟩, .standard⟩

/-- An empty working directory into which the given sources of the standard project have been
written. -/
def treeOf (sources : List (String × String)) : FileTree :=
  sources.foldl
    (fun tree source => (tree.emitText (standard.screens.joinString source.1) source.2).2)
    ⟨[(["project".toList], .directory)], ⟨"/project".toList⟩⟩

/-- A grouped tab that leads to an index screen, and a tab by its own settings. -/
def threeScreens : FileTree :=
  treeOf
    [("(tabs)/home.ignite", "<Button onPress=\"go('/settings')\"/>"),
      ("about.ignite", "screen isTabScreen=true"),
      ("settings/index.ignite", "Settings")]

theorem compile_threeScreens :
    ∃ report, (standard.compile .standard threeScreens).1 = .ok report ∧
      report.routes.map (fun route => (route.sourceFile, route.logicalPath, route.componentName,
        route.modulePath)) =
        [("(tabs)/home.ignite", "home", "Home", "(tabs)/home"),
          ("about.ignite", "about", "About", "(tabs)/about"),
          ("settings/index.ignite", "settings", "SettingsIndex", "settings/index")] ∧
      ∀ route ∈ report.routes, RoutePath.IsSolid route.sourceFile.toList ∧
        '\r' ∉ route.modulePath.toList ∧
        (RouteIdentity.ofRelative route.sourceFile.toList).baseName ≠ RoutePath.tabGroup := by
  have sources := @sources_of_listing standard .standard threeScreens
    ["project".toList, "app".toList]
    [["(tabs)".toList, "home.ignite".toList], ["about.ignite".toList],
      ["settings".toList, "index.ignite".toList]]
    (by decide +kernel) (by decide +kernel) (by decide +kernel) (by decide +kernel)
  have evaluated : ∃ report, (standard.compile .standard threeScreens).1 = .ok report ∧
      report.routes.map (fun route => (route.sourceFile, route.logicalPath, route.componentName,
        route.modulePath)) =
        [("(tabs)/home.ignite", "home", "Home", "(tabs)/home"),
          ("about.ignite", "about", "About", "(tabs)/about"),
          ("settings/index.ignite", "settings", "SettingsIndex", "settings/index")] := by
    apply exists_ok_of_map
    unfold compile
    rw [sources]
    decide +kernel
  obtain ⟨report, success, table⟩ := evaluated
  have spec : ∀ entry ∈ report.routes.map (fun route => (route.sourceFile, route.logicalPath,
      route.componentName, route.modulePath)), RoutePath.IsSolid entry.1.toList ∧
        '\r' ∉ entry.2.2.2.toList ∧
        (RouteIdentity.ofRelative entry.1.toList).baseName ≠ RoutePath.tabGroup := by
    rw [table]
    decide +kernel
  exact ⟨report, success, table, List.forall_mem_map.mp spec⟩

end Project

end ScreenCompiler
