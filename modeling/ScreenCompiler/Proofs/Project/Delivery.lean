import ScreenCompiler.Proofs.Project.Placement
import ScreenCompiler.Proofs.Script.Literals

/-!
# What a pass delivers

After a pass every module stands where it goes, unless the module of a source behind it
goes to the same place, and the router stands beside the modules.  Files and routes of
the report are the same sources in the same order, and the router imports each module
from where it has been written.  Carriage returns are lost in the literal of a module
path, so a module whose path has one is imported from elsewhere.
-/

namespace ScreenCompiler

open Script

/-- The component that a line of a router imports and the file it stands in, where the modules of
all routes stand in one directory. -/
def Router.importedFile? (screens : Path) (line : String) : Option (String × Path) :=
  (Router.screenImport? line).map fun (name, modulePath) =>
    (name, screens.joinString (modulePath ++ ".js"))

/-- A file and a route stand for one source: the module path of the route leads to the file, and
the import of the route names it. -/
structure CompiledFile.Serves (project : Project) (file : CompiledFile) (route : Route) :
    Prop where
  origin : route.sourceFile = String.ofList (Path.relativeText project.screens file.source)
  name : file.componentName = route.componentName
  place : RoutePath.IsSolid route.sourceFile.toList →
    file.output = project.screensOutput.joinString (route.modulePath ++ ".js")
  imported : RoutePath.IsSolid route.sourceFile.toList → '\r' ∉ route.modulePath.toList →
    Router.importedFile? project.screensOutput (Router.importLine route) =
      some (file.componentName, file.output)

namespace Project

variable {project : Project} {catalog : Catalog} {tree later : FileTree} {routes : List Route}

theorem outputPath_of_isRead {source : ScreenSource} (read : source.IsRead project catalog tree)
    (solid : RoutePath.IsSolid (Path.relativeText project.screens source.path)) :
    source.outputPath project.screensOutput =
      project.screensOutput.joinString (source.route.modulePath ++ ".js") := by
  have placed := RouteIdentity.moduleFile_outputPath solid source.isTab project.isOpen_screensOutput
  rw [← read.identity] at placed
  have text : Path.ofString (source.route.modulePath ++ ".js") =
      ⟨source.identity.modulePath source.isTab ++ ".js".toList⟩ := by
    simp [Path.ofString, ScreenSource.route, RouteIdentity.route, ScreenSource.isTab]
  rw [ScreenSource.outputPath, Path.joinString, text, placed]

theorem importedFile?_importLine {route : Route} (named : route.IsNamed)
    (kept : '\r' ∉ route.modulePath.toList) (screens : Path) :
    Router.importedFile? screens (Router.importLine route) =
      some (route.componentName, screens.joinString (route.modulePath ++ ".js")) := by
  rw [Router.importedFile?, Router.screenImport?_importLine named, Quoted.kept_eq_self kept,
    String.ofList_toList]
  rfl

theorem serves_of_isFileOf {file : CompiledFile} {source : ScreenSource}
    (isFile : file.IsFileOf project catalog routes source)
    (read : source.IsRead project catalog tree) (named : source.route.IsNamed) :
    file.Serves project source.route := by
  have place : RoutePath.IsSolid source.route.sourceFile.toList →
      file.output = project.screensOutput.joinString (source.route.modulePath ++ ".js") := by
    intro solid
    rw [isFile.place]
    apply outputPath_of_isRead read
    rw [ScreenSource.route, RouteIdentity.route, read.identity, String.toList_ofList] at solid
    exact solid
  refine ⟨?origin, isFile.name, place, ?imported⟩
  case origin =>
    rw [isFile.path, ScreenSource.route, RouteIdentity.route, read.identity]
    rfl
  case imported =>
    intro solid kept
    rw [importedFile?_importLine named kept, place solid, isFile.name]
    rfl

theorem forall₂_serves {files : List CompiledFile} {sources : List ScreenSource}
    (written : List.Forall₂ (CompiledFile.IsFileOf project catalog routes) files sources)
    (read : ∀ source ∈ sources, source.IsRead project catalog tree)
    (named : ∀ source ∈ sources, source.route.IsNamed) :
    List.Forall₂ (fun file source => file.Serves project source.route) files sources := by
  induction written with
  | nil => exact .nil
  | cons isFile _ inductionHypothesis =>
      obtain ⟨readHere, readLater⟩ := List.forall_mem_cons.mp read
      obtain ⟨namedHere, namedLater⟩ := List.forall_mem_cons.mp named
      exact .cons (serves_of_isFileOf isFile readHere namedHere)
        (inductionHypothesis readLater namedLater)

/-- The module of a source stands where it goes, unless the module of a source behind goes to the
same place. -/
def HoldsModule (project : Project) (catalog : Catalog) (routes : List Route) (later : FileTree)
    (source : ScreenSource) (behind : List ScreenSource) : Prop :=
  later.holdsText (source.outputPath project.screensOutput)
      (componentText catalog routes source) = true ∨
    ∃ other ∈ behind, ∃ place,
      later.resolve (source.outputPath project.screensOutput) = .ok place ∧
        later.resolve (other.outputPath project.screensOutput) = .ok place

/-- Nothing is written but modules, and each of them is there until another is written to its
place. -/
theorem writeComponents_keeps {sources : List ScreenSource} {files : List CompiledFile}
    (success : project.writeComponents catalog routes tree sources = (.ok files, later)) :
    ∃ written, tree.Keeps written later ∧
      (∀ place ∈ written, ∃ source ∈ sources,
        later.resolve (source.outputPath project.screensOutput) = .ok place) ∧
      ∀ before source behind, sources = before ++ source :: behind →
        project.HoldsModule catalog routes later source behind := by
  induction sources generalizing tree files with
  | nil =>
      obtain rfl : tree = later := (Prod.mk.inj success).2
      exact ⟨[], .refl tree, by simp, by simp⟩
  | cons source sources inductionHypothesis =>
      unfold writeComponents at success
      simp only at success
      split at success
      · exact absurd success (by simp)
      · rename_i outcome changed written
        split at success
        · exact absurd success (by simp)
        · rename_i laterFiles final rest
          obtain rfl : final = later := (Prod.mk.inj success).2
          obtain ⟨place, leads, holds, keepsFirst⟩ := FileTree.writeIfChanged_ok written
          obtain ⟨more, keepsRest, fromRest, heldRest⟩ := inductionHypothesis rest
          refine ⟨[place] ++ more, keepsFirst.trans keepsRest, ?origins, ?held⟩
          case origins =>
            intro target membership
            rcases List.mem_append.mp membership with isFirst | inRest
            · rw [List.mem_singleton.mp isFirst]
              exact ⟨source, List.mem_cons_self, keepsRest.resolve leads⟩
            · obtain ⟨other, inSources, leadsOther⟩ := fromRest target inRest
              exact ⟨other, List.mem_cons_of_mem _ inSources, leadsOther⟩
          case held =>
            intro before target behind split
            rcases List.cons_eq_append_iff.mp split with ⟨-, here⟩ | ⟨front, -, later⟩
            · obtain ⟨rfl, rfl⟩ := List.cons.inj here
              by_cases again : place ∈ more
              · obtain ⟨other, inSources, leadsOther⟩ := fromRest place again
                exact .inr ⟨other, inSources, place, keepsRest.resolve leads, leadsOther⟩
              · refine .inl (keepsRest.holdsText holds ?_)
                intro other leadsThere
                rw [leads] at leadsThere
                obtain rfl := Except.ok.inj leadsThere
                exact again
            · exact heldRest front target behind later

/-- What a pass that has read the given sources leaves of a tree. -/
structure Leaves (project : Project) (catalog : Catalog) (routes : List Route)
    (sources : List ScreenSource) (tree later : FileTree) : Prop where
  kept : ∃ written, tree.Keeps written later ∧ ∀ place ∈ written,
    (∃ source ∈ sources, later.resolve (source.outputPath project.screensOutput) = .ok place) ∨
      later.resolve project.routerPath = .ok place
  router : later.holdsText project.routerPath (Router.generate routes) = true
  modules : (∀ source ∈ sources, ∃ names, project.LiesAlong source names) →
    ∀ before source behind, sources = before ++ source :: behind →
      project.HoldsModule catalog routes later source behind

/-- The router is written last, and apart from the modules. -/
theorem leaves_of_written {sources : List ScreenSource} {files : List CompiledFile}
    {middle : FileTree} {outcome : WriteOutcome}
    (read : ∀ source ∈ sources, source.IsRead project catalog tree)
    (written : project.writeComponents catalog routes tree sources = (.ok files, middle))
    (routed : middle.writeIfChanged project.routerPath (Router.generate routes) =
      (.ok outcome, later)) :
    project.Leaves catalog routes sources tree later := by
  obtain ⟨places, keepsModules, fromSources, held⟩ := writeComponents_keeps written
  obtain ⟨routerPlace, leadsRouter, holdsRouter, keepsRouter⟩ := FileTree.writeIfChanged_ok routed
  refine ⟨⟨places ++ [routerPlace], keepsModules.trans keepsRouter, ?written⟩, holdsRouter, ?held⟩
  case written =>
    intro place membership
    rcases List.mem_append.mp membership with isModule | isRouter
    · obtain ⟨source, inSources, leads⟩ := fromSources place isModule
      exact .inl ⟨source, inSources, keepsRouter.resolve leads⟩
    · rw [List.mem_singleton.mp isRouter]
      exact .inr leadsRouter
  case held =>
    intro lies before source behind split
    rcases held before source behind split with holds | ⟨other, isBehind, place, leads, meets⟩
    · left
      have inSources : source ∈ sources := by
        rw [split]
        exact List.mem_append_right _ List.mem_cons_self
      obtain ⟨names, sourceLies⟩ := lies source inSources
      apply keepsRouter.holdsText holds
      intro place leads isRouter
      rw [List.mem_singleton.mp isRouter] at leads
      exact leadApart_router (read source inSources) sourceLies later routerPlace
        (keepsRouter.resolve leads) leadsRouter
    · exact .inr ⟨other, isBehind, place, keepsRouter.resolve leads, keepsRouter.resolve meets⟩

/-- Modules that lead apart are all there. -/
theorem Leaves.holdsText {sources : List ScreenSource}
    (leaves : project.Leaves catalog routes sources tree later)
    (lies : ∀ source ∈ sources, ∃ names, project.LiesAlong source names)
    (apart : sources.Pairwise fun first second =>
      Path.LeadApart (first.outputPath project.screensOutput)
        (second.outputPath project.screensOutput)) :
    ∀ source ∈ sources, later.holdsText (source.outputPath project.screensOutput)
      (componentText catalog routes source) = true := by
  intro source membership
  obtain ⟨before, behind, rfl⟩ := List.append_of_mem membership
  rcases leaves.modules lies before source behind rfl with
    holds | ⟨other, isBehind, place, leads, meets⟩
  · exact holds
  · have apartBehind := (List.pairwise_cons.mp (List.pairwise_append.mp apart).2.1).1
    exact absurd meets (apartBehind other isBehind later place leads)

/-- Without a source that is called like the tab group, all modules of a pass lead apart. -/
theorem pairwise_leadApart {sources : List ScreenSource} (isNamed : tree.IsNamed)
    (found : project.sources catalog tree = .ok sources)
    (groupFree : ∀ route ∈ sources.map ScreenSource.route,
      (RouteIdentity.ofRelative route.sourceFile.toList).baseName ≠ RoutePath.tabGroup) :
    sources.Pairwise fun first second =>
      Path.LeadApart (first.outputPath project.screensOutput)
        (second.outputPath project.screensOutput) := by
  obtain ⟨read, distinct⟩ := sources_ok found
  have lies := exists_liesAlong isNamed found
  have named : ∀ source ∈ sources, source.identity.baseName ≠ RoutePath.tabGroup := by
    intro source membership
    rw [← ofRelative_sourceFile_route (read source membership)]
    exact groupFree source.route (List.mem_map_of_mem membership)
  refine List.Pairwise.imp_of_mem ?_ (List.pairwise_map.mp distinct)
  intro first second firstIn secondIn differs
  obtain ⟨firstNames, firstLies⟩ := lies first firstIn
  obtain ⟨secondNames, secondLies⟩ := lies second secondIn
  exact leadApart_outputs (read first firstIn) (read second secondIn) firstLies secondLies
    (named first firstIn) (named second secondIn) differs

/-- What a pass reports of the sources it has read and what it leaves of the tree: one file and one
route for each source in the same order, imports of exactly those files, and all the texts. -/
structure Delivers (project : Project) (catalog : Catalog) (sources : List ScreenSource)
    (report : Report) (tree later : FileTree) : Prop where
  read : project.sources catalog tree = .ok sources
  routes : report.routes = sources.map ScreenSource.route
  files : List.Forall₂ (CompiledFile.IsFileOf project catalog report.routes) report.files sources
  serves : List.Forall₂ (CompiledFile.Serves project) report.files report.routes
  imports : ((Router.textLines report.routes).filter Router.isScreenImport).Perm
    (report.routes.map Router.importLine)
  router : later.holdsText report.routerPath (Router.generate report.routes) = true
  modules : tree.IsNamed → ∀ before source behind, sources = before ++ source :: behind →
    project.HoldsModule catalog report.routes later source behind
  /-- No module takes the place of another unless a source is called like the tab group. -/
  own : tree.IsNamed →
    (∀ route ∈ report.routes,
      (RouteIdentity.ofRelative route.sourceFile.toList).baseName ≠ RoutePath.tabGroup) →
    ∀ source ∈ sources, later.holdsText (source.outputPath project.screensOutput)
      (componentText catalog report.routes source) = true

/-- The router of a pass imports what the pass has written. -/
theorem compile_serves {report : Report}
    (success : project.compile catalog tree = (.ok report, later)) :
    ∃ sources, project.Delivers catalog sources report tree later := by
  obtain ⟨sources, middle, found, routes, routerPath, written, routed⟩ := compile_ok_steps success
  obtain ⟨read, -⟩ := sources_ok found
  obtain ⟨named, -⟩ := routes_named (congrArg Prod.fst success)
  have files := writeComponents_ok (congrArg Prod.fst written)
  have leaves := leaves_of_written read written routed
  refine ⟨sources, found, routes, files, ?serves, ?imports, ?router, ?modules, ?own⟩
  case serves =>
    rw [routes] at named
    rw [routes, List.forall₂_map_right_iff]
    exact forall₂_serves files read (List.forall_mem_map.mp named)
  case imports =>
    rw [Router.textLines_eq named, Router.filter_isScreenImport_linesOf]
    exact (Route.sorted_perm report.routes).map Router.importLine
  case router =>
    rw [routerPath]
    exact leaves.router
  case modules =>
    intro isNamed
    exact leaves.modules (exists_liesAlong isNamed found)
  case own =>
    intro isNamed groupFree
    rw [routes] at groupFree
    exact leaves.holdsText (exists_liesAlong isNamed found)
      (pairwise_leadApart isNamed found groupFree)

/-- Sources whose modules all stand where the router looks for them. -/
theorem compile_serves_threeScreens :
    ∃ report later sources, standard.compile .standard threeScreens = (.ok report, later) ∧
      report.routes.map Route.modulePath = ["(tabs)/home", "(tabs)/about", "settings/index"] ∧
      (∀ route ∈ report.routes, RoutePath.IsSolid route.sourceFile.toList ∧
        '\r' ∉ route.modulePath.toList ∧
        (RouteIdentity.ofRelative route.sourceFile.toList).baseName ≠ RoutePath.tabGroup) ∧
      threeScreens.IsNamed ∧
      standard.Delivers .standard sources report threeScreens later := by
  obtain ⟨report, success, named, spec⟩ := compile_threeScreens
  have pass : standard.compile .standard threeScreens =
      (.ok report, (standard.compile .standard threeScreens).2) := Prod.ext success rfl
  have modules := congrArg (List.map fun names => names.2.2.2) named
  rw [List.map_map] at modules
  obtain ⟨sources, delivers⟩ := compile_serves pass
  exact ⟨report, _, sources, pass, modules, spec, by decide +kernel, delivers⟩

/-- A source with a carriage return in its name. -/
def returningName : FileTree :=
  treeOf [("a\rb.ignite", "A")]

/-- The module goes to a file with the carriage return in its name, and the router imports it from
one without. -/
theorem compile_misnames_returningName :
    ∃ report, (standard.compile .standard returningName).1 = .ok report ∧
      report.files.map CompiledFile.output = [⟨"./.ignite/screens/a\rb.js".toList⟩] ∧
      ((Router.textLines report.routes).filter Router.isScreenImport).map
          (Router.importedFile? standard.screensOutput) =
        [some ("AB", ⟨"./.ignite/screens/ab.js".toList⟩)] := by
  have sources := @sources_of_listing standard .standard returningName
    ["project".toList, "app".toList] [["a\rb.ignite".toList]]
    (by decide +kernel) (by decide +kernel) (by decide +kernel) (by decide +kernel)
  have evaluated : ∃ report, (standard.compile .standard returningName).1 = .ok report ∧
      (report.files.map CompiledFile.output,
        report.routes.map fun route => (route.componentName, route.modulePath)) =
      ([⟨"./.ignite/screens/a\rb.js".toList⟩], [("AB", "a\rb")]) := by
    apply exists_ok_of_map
    unfold compile
    rw [sources]
    decide +kernel
  obtain ⟨report, success, shape⟩ := evaluated
  obtain ⟨outputs, table⟩ := Prod.mk.inj shape
  refine ⟨report, success, outputs, ?_⟩
  obtain ⟨named, -⟩ := routes_named success
  rw [Router.textLines_eq named, Router.filter_isScreenImport_linesOf]
  obtain ⟨route, isRoute, shape⟩ := List.map_eq_singleton_iff.mp table
  obtain ⟨name, modulePath⟩ := Prod.mk.inj shape
  have imported := Router.screenImport?_importLine (named route (by simp [isRoute]))
  have sorted : Route.sorted report.routes = [route] := by
    rw [isRoute, Route.sorted, List.mergeSort_singleton]
  rw [sorted, List.map_singleton, List.map_singleton, Router.importedFile?, imported, name,
    modulePath]
  decide +kernel

end Project

end ScreenCompiler
