import ScreenCompiler.Catalog.Standard
import ScreenCompiler.Proofs.Project.Pass
import ScreenCompiler.Proofs.Project.Writing

/-!
# Where a pass writes

Each module of a pass goes to a file of its own, as long as no source is called like
the tab group.
-/

namespace ScreenCompiler

namespace Project

variable {project : Project} {catalog : Catalog} {tree : FileTree}

theorem map_output {routes : List Route} {files : List CompiledFile} {sources : List ScreenSource}
    (written : List.Forall₂ (CompiledFile.IsFileOf project catalog routes) files sources) :
    files.map CompiledFile.output =
      sources.map (ScreenSource.outputPath project.screensOutput) := by
  induction written with
  | nil => rfl
  | cons isFile _ inductionHypothesis =>
      rw [List.map_cons, List.map_cons, isFile.place, inductionHypothesis]

theorem map_output_of_sources {report : Report} {sources : List ScreenSource}
    (success : (project.compile catalog tree).1 = .ok report)
    (found : project.sources catalog tree = .ok sources) :
    report.files.map CompiledFile.output =
      sources.map (ScreenSource.outputPath project.screensOutput) := by
  obtain ⟨others, foundAgain, -, files⟩ := compile_ok success
  rw [found] at foundAgain
  obtain rfl := Except.ok.inj foundAgain
  exact map_output files

/-- Two sources with one output have one name, unless one of them is called like the tab group. -/
theorem componentName_eq_of_same {first second : ScreenSource}
    (firstRead : first.IsRead project catalog tree)
    (secondRead : second.IsRead project catalog tree)
    (firstSolid : RoutePath.IsSolid first.identity.sourceFile)
    (secondSolid : RoutePath.IsSolid second.identity.sourceFile)
    (firstNamed : first.identity.baseName ≠ RoutePath.tabGroup)
    (secondNamed : second.identity.baseName ≠ RoutePath.tabGroup)
    (same : (first.outputPath project.screensOutput).same
      (second.outputPath project.screensOutput) = true) :
    first.identity.componentName = second.identity.componentName := by
  rw [Path.same, beq_iff_eq, ScreenSource.outputPath, ScreenSource.outputPath] at same
  rw [firstRead.identity] at firstSolid firstNamed same ⊢
  rw [secondRead.identity] at secondSolid secondNamed same ⊢
  exact RouteIdentity.componentName_eq_of_output_eq firstSolid secondSolid firstNamed secondNamed
    project.isOpen_screensOutput same

/-- No module overwrites another, as long as no source is called like the tab group. -/
theorem compile_outputs_differ {report : Report}
    (success : (project.compile catalog tree).1 = .ok report)
    (solid : ∀ route ∈ report.routes, RoutePath.IsSolid route.sourceFile.toList)
    (named : ∀ route ∈ report.routes,
      (RouteIdentity.ofRelative route.sourceFile.toList).baseName ≠ RoutePath.tabGroup) :
    (report.files.map CompiledFile.output).Pairwise
      fun first second => first.same second = false := by
  obtain ⟨sources, found, routes, -⟩ := compile_ok success
  obtain ⟨read, distinct⟩ := sources_ok found
  have sourceSpec : ∀ source ∈ sources,
      RoutePath.IsSolid source.identity.sourceFile ∧
        source.identity.baseName ≠ RoutePath.tabGroup := by
    intro source membership
    have inRoutes : source.route ∈ report.routes := by
      rw [routes]
      exact List.mem_map_of_mem membership
    have isFrom : source.route.sourceFile.toList = source.identity.sourceFile := by
      simp [ScreenSource.route, RouteIdentity.route]
    have sourceNamed := named source.route inRoutes
    rw [ofRelative_sourceFile_route (read source membership)] at sourceNamed
    exact ⟨isFrom ▸ solid source.route inRoutes, sourceNamed⟩
  rw [map_output_of_sources success found, List.pairwise_map]
  refine List.Pairwise.imp_of_mem ?_ (List.pairwise_map.mp distinct)
  intro first second firstIn secondIn differs
  rw [← Bool.not_eq_true]
  intro same
  exact differs (componentName_eq_of_same (read first firstIn) (read second secondIn)
    (sourceSpec first firstIn).1 (sourceSpec second secondIn).1
    (sourceSpec first firstIn).2 (sourceSpec second secondIn).2 same)

theorem compile_outputs_differ_threeScreens :
    ∃ report, (standard.compile .standard threeScreens).1 = .ok report ∧
      report.files.length = 3 ∧
      (report.files.map CompiledFile.output).Pairwise
        fun first second => first.same second = false := by
  obtain ⟨report, success, named, spec⟩ := compile_threeScreens
  have count : report.files.length = 3 := by
    obtain ⟨sources, -, fromSources, written⟩ := compile_ok success
    rw [written.length_eq, ← List.length_map ScreenSource.route, ← fromSources]
    simpa using congrArg List.length named
  refine ⟨report, success, count, ?_⟩
  exact compile_outputs_differ success (fun route inside => (spec route inside).1)
    fun route inside => (spec route inside).2.2

/-- Two screens called like the tab group, in directories of their own. -/
def twoGroupFiles : FileTree :=
  treeOf [("x/(tabs).ignite", "X"), ("y/(tabs).ignite", "Y")]

/-- Where both modules of the two screens go. -/
def sharedOutput : Path :=
  ⟨"./.ignite/screens/(tabs)/(tabs).js".toList⟩

/-- The second module can be written over the first, and the router beside them. -/
theorem emits_twoGroupFiles (text other : String) :
    ∃ changed, twoGroupFiles.writeIfChanged sharedOutput text = (.ok .written, changed) ∧
      ∃ final, changed.emitText sharedOutput other = (.ok (), final) ∧
        ∀ middle ∈ [changed, final], ∀ router, ∃ outcome later,
          middle.writeIfChanged standard.routerPath router = (.ok outcome, later) := by
  refine ⟨_, rfl, _, rfl, ?_⟩
  simp only [List.forall_mem_cons, List.not_mem_nil, false_imp_iff, implies_true, and_true]
  exact ⟨fun router => ⟨_, _, rfl⟩, fun router => ⟨_, _, rfl⟩⟩

theorem writeAll_twoGroupFiles {first second : ScreenSource}
    (firstOutput : first.outputPath standard.screensOutput = sharedOutput)
    (secondOutput : second.outputPath standard.screensOutput = sharedOutput) :
    ∃ report, (standard.writeAll .standard twoGroupFiles [first, second]).1 = .ok report ∧
      report.routes = [first.route, second.route] := by
  obtain ⟨changed, isWritten, final, isEmitted, routed⟩ := emits_twoGroupFiles
    (componentText .standard [first.route, second.route] first)
    (componentText .standard [first.route, second.route] second)
  -- Whether the second text is written depends on the digests of both.
  obtain ⟨outcome, middle, inEither, again⟩ : ∃ outcome middle, middle ∈ [changed, final] ∧
      changed.writeIfChanged sharedOutput
        (componentText .standard [first.route, second.route] second) = (.ok outcome, middle) := by
    obtain ⟨outcome, held | written⟩ := FileTree.writeIfChanged_of_emitText isEmitted
    · exact ⟨outcome, changed, by simp, held⟩
    · exact ⟨outcome, final, by simp, written⟩
  obtain ⟨routerOutcome, later, routerWritten⟩ :=
    routed middle inEither (Router.generate [first.route, second.route])
  simp only [writeAll, writeComponents, List.map_cons, List.map_nil, firstOutput, secondOutput,
    isWritten, again, routerWritten]
  exact ⟨_, rfl, rfl⟩

/-- The names of two screens that are called like the tab group differ, but their modules lose the
directories that make them differ. -/
theorem outputs_meet_twoGroupFiles :
    ∃ report, (standard.compile .standard twoGroupFiles).1 = .ok report ∧
      report.routes.map (fun route => (route.sourceFile, route.componentName)) =
        [("x/(tabs).ignite", "X"), ("y/(tabs).ignite", "Y")] ∧
      report.files.map CompiledFile.output =
        [⟨"./.ignite/screens/(tabs)/(tabs).js".toList⟩,
          ⟨"./.ignite/screens/(tabs)/(tabs).js".toList⟩] := by
  have listed := @sources_of_listing standard .standard twoGroupFiles
    ["project".toList, "app".toList]
    [["x".toList, "(tabs).ignite".toList], ["y".toList, "(tabs).ignite".toList]]
    (by decide +kernel) (by decide +kernel) (by decide +kernel) (by decide +kernel)
  have evaluated : ∃ sources, standard.sources .standard twoGroupFiles = .ok sources ∧
      sources.map (fun source => (source.route.sourceFile, source.route.componentName,
        source.outputPath standard.screensOutput)) =
        [("x/(tabs).ignite", "X", sharedOutput), ("y/(tabs).ignite", "Y", sharedOutput)] := by
    apply exists_ok_of_map
    rw [listed]
    decide +kernel
  obtain ⟨sources, found, shape⟩ := evaluated
  have count : sources.length = 2 := by
    simpa using congrArg List.length shape
  obtain ⟨first, second, rfl⟩ := List.length_eq_two.mp count
  simp only [List.map_cons, List.map_nil, List.cons.injEq, Prod.mk.injEq] at shape
  obtain ⟨⟨firstFile, firstName, firstOutput⟩, ⟨secondFile, secondName, secondOutput⟩, -⟩ := shape
  obtain ⟨report, written, routes⟩ := writeAll_twoGroupFiles firstOutput secondOutput
  have success : (standard.compile .standard twoGroupFiles).1 = .ok report := by
    rw [compile, found]
    exact written
  refine ⟨report, success, ?table, ?outputs⟩
  case table =>
    simp only [routes, List.map_cons, List.map_nil, firstFile, firstName, secondFile, secondName]
  case outputs =>
    have outputs := map_output_of_sources success found
    rwa [List.map_cons, List.map_cons, List.map_nil, firstOutput, secondOutput] at outputs

end Project

end ScreenCompiler
