import ScreenCompiler.Proofs.Project.Delivery

/-!
# Passes over an unchanged project

A second pass finds the sources of the first, since nothing that a pass writes is a
source, and it finds every text that the first has written, since no two texts of a
pass go to one place.  So it writes nothing.  Nothing is asked of the digest: a file
that is left alone because its digest is that of the new text is left alone again.
-/

namespace ScreenCompiler

/-- A file as a pass reports it that finds the module in place. -/
def CompiledFile.settled (file : CompiledFile) : CompiledFile :=
  { file with outcome := .unchanged }

/-- A report of a pass that writes nothing. -/
def Report.settled (report : Report) : Report :=
  { report with
    files := report.files.map CompiledFile.settled
    routerOutcome := .unchanged }

namespace Project

variable {project : Project} {catalog : Catalog} {tree later : FileTree}

theorem readSources_congr {earlier : List ScreenSource} {paths : List Path}
    (same : ∀ path ∈ paths, later.readText path = tree.readText path) :
    project.readSources catalog later earlier paths =
      project.readSources catalog tree earlier paths := by
  induction paths generalizing earlier with
  | nil => rfl
  | cons path paths inductionHypothesis =>
      obtain ⟨sameHere, sameLater⟩ := List.forall_mem_cons.mp same
      rw [readSources, readSources, sameHere]
      cases tree.readText path with
      | error error => rfl
      | ok text =>
          simp only
          split
          · rfl
          · exact inductionHypothesis sameLater

/-- A tree that has kept all but files with another extension has the same sources. -/
theorem sources_of_keeps (isNamed : tree.IsNamed) {sources : List ScreenSource}
    (success : project.sources catalog tree = .ok sources) {written : List Place}
    (keeps : tree.Keeps written later)
    (unlisted : ∀ place ∈ written,
      place.getLast?.bind Path.extensionOf? ≠ some project.settings.extension.toList) :
    project.sources catalog later = .ok sources := by
  obtain ⟨place, found, paths⟩ := sources_ok_listed success
  have foundAgain := keeps.find_directory found
  have isThere := FileTree.isDirectory_iff.mpr ⟨place, found⟩
  have isThereAgain := FileTree.isDirectory_iff.mpr ⟨place, foundAgain⟩
  have listed := sourcePaths_eq found
  have listedAgain := sourcePaths_eq foundAgain
  rw [keeps.sourcesBelow unlisted] at listedAgain
  rw [sources_eq_readSources isThere listed] at success
  rw [sources_eq_readSources isThereAgain listedAgain, ← success]
  apply readSources_congr
  intro path membership
  rw [← paths] at membership
  obtain ⟨source, inSources, rfl⟩ := List.mem_map.mp membership
  rw [← sources_eq_readSources isThere listed] at success
  obtain ⟨text, content, -⟩ := ((sources_ok success).1 source inSources).document
  obtain ⟨names, isPath, named, ends⟩ := exists_liesAlong isNamed success source inSources
  rw [content]
  apply keeps.readText content
  intro target leads isWritten
  rw [isPath] at leads
  obtain ⟨screens, -, rfl⟩ := FileTree.reach_along named (FileTree.resolve_ok.mp leads).2
  apply unlisted _ isWritten
  obtain ⟨last, isLast, hasEnding⟩ := Option.bind_eq_some_iff.mp ends
  obtain ⟨front, rfl⟩ := List.getLast?_eq_some_iff.mp isLast
  rw [← List.append_assoc, List.getLast?_concat]
  exact hasEnding

/-- Modules that are all there are not written again. -/
theorem writeComponents_of_holdsText {routes : List Route} {sources : List ScreenSource}
    {files : List CompiledFile}
    (areFiles : List.Forall₂ (CompiledFile.IsFileOf project catalog routes) files sources)
    (held : ∀ source ∈ sources, tree.holdsText (source.outputPath project.screensOutput)
      (componentText catalog routes source) = true) :
    project.writeComponents catalog routes tree sources =
      (.ok (files.map CompiledFile.settled), tree) := by
  induction areFiles with
  | nil => rfl
  | @cons file source files sources isFile _ inductionHypothesis =>
      obtain ⟨heldHere, heldLater⟩ := List.forall_mem_cons.mp held
      rw [writeComponents, FileTree.writeIfChanged_of_holdsText heldHere]
      simp only [inductionHypothesis heldLater, List.map_cons, CompiledFile.settled, isFile.path,
        isFile.place, isFile.name, isFile.digest, isFile.faults]

/-- A pass over what a pass has left succeeds, finds every module and the router as they should
be, and leaves the tree as it is. -/
theorem compile_settles {report : Report} (isNamed : tree.IsNamed)
    (notModules : project.settings.extension ≠ "js")
    (success : project.compile catalog tree = (.ok report, later))
    (groupFree : ∀ route ∈ report.routes,
      (RouteIdentity.ofRelative route.sourceFile.toList).baseName ≠ RoutePath.tabGroup) :
    project.compile catalog later = (.ok report.settled, later) := by
  obtain ⟨sources, middle, found, routes, routerPath, written, routed⟩ := compile_ok_steps success
  obtain ⟨read, -⟩ := sources_ok found
  have lies := exists_liesAlong isNamed found
  have leaves := leaves_of_written read written routed
  -- Nothing that the pass has written is a source, so the next one reads the same.
  have sourcesAgain : project.sources catalog later = .ok sources := by
    obtain ⟨places, keeps, origins⟩ := leaves.kept
    apply sources_of_keeps isNamed found keeps
    intro place membership
    rcases origins place membership with ⟨source, inSources, leads⟩ | leadsRouter
    · obtain ⟨names, sourceLies⟩ := lies source inSources
      exact extension_of_written (read source inSources) sourceLies notModules leads
    · exact extension_of_router notModules leadsRouter
  have heldAgain : ∀ source ∈ sources,
      later.holdsText (source.outputPath project.screensOutput)
        (componentText catalog report.routes source) = true := by
    rw [routes] at groupFree
    exact leaves.holdsText lies (pairwise_leadApart isNamed found groupFree)
  have areFiles := writeComponents_ok (congrArg Prod.fst written)
  have modulesAgain := writeComponents_of_holdsText areFiles heldAgain
  rw [compile, sourcesAgain]
  simp only
  rw [writeAll, ← routes]
  simp only [modulesAgain, FileTree.writeIfChanged_of_holdsText leaves.router, Report.settled,
    routerPath]

theorem compile_settles_threeScreens :
    ∃ report later, standard.compile .standard threeScreens = (.ok report, later) ∧
      report.routes.length = 3 ∧
      standard.compile .standard later = (.ok report.settled, later) := by
  obtain ⟨report, success, names, spec⟩ := compile_threeScreens
  have pass : standard.compile .standard threeScreens =
      (.ok report, (standard.compile .standard threeScreens).2) := Prod.ext success rfl
  have isNamed : threeScreens.IsNamed := by decide +kernel
  refine ⟨report, _, pass, by simpa using congrArg List.length names, ?_⟩
  exact compile_settles isNamed (by decide) pass fun route inside => (spec route inside).2.2

end Project

end ScreenCompiler
