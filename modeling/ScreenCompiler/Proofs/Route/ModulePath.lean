import ScreenCompiler.Project.Output
import ScreenCompiler.Project.Sources
import ScreenCompiler.Proofs.Route.Segments

/-!
# Module paths

The place of a generated module is computed twice: as a text with slashes, which the
router imports, and as a path that is extended segment by segment, which the module
is written to.  For a solid source path the two agree.
-/

namespace ScreenCompiler

open Text

namespace Path

/-- A path to which a name is joined with a separator. -/
def IsOpen (base : Path) : Prop :=
  ∃ front last, base.text = front ++ [last] ∧ last ≠ '/'

theorem join_of_isOpen {base : Path} (isOpen : base.IsOpen) {text : List Char}
    (relative : text.head? ≠ some '/') : base.join ⟨text⟩ = ⟨base.text ++ '/' :: text⟩ := by
  obtain ⟨front, last, ends, solid⟩ := isOpen
  have notAbsolute : Path.isAbsolute ⟨text⟩ = false := by simpa [isAbsolute] using relative
  have nonempty : base.text.isEmpty = false := by simp [ends]
  have closed : (base.text.getLast? == some '/') = false := by simpa [ends] using solid
  rw [join, if_neg (by simp [notAbsolute]), nonempty, closed]
  rfl

theorem isOpen_join {base : Path} (isOpen : base.IsOpen) {text : List Char}
    (relative : text.head? ≠ some '/') (ends : ∃ last, text.getLast? = some last ∧ last ≠ '/') :
    (base.join ⟨text⟩).IsOpen := by
  obtain ⟨last, found, solid⟩ := ends
  obtain ⟨front, rfl⟩ := List.getLast?_eq_some_iff.mp found
  rw [join_of_isOpen isOpen relative]
  exact ⟨base.text ++ '/' :: front, last, by simp, solid⟩

/-- Names joined one by one leave a separator in front of each. -/
theorem along_of_isOpen {base : Path} (isOpen : base.IsOpen) {names : List (List Char)}
    (named : ∀ name ∈ names, name ≠ [] ∧ '/' ∉ name) :
    (Sources.along base names).IsOpen ∧
      (Sources.along base names).text = base.text ++ names.flatMap ('/' :: ·) := by
  induction names generalizing base with
  | nil => exact ⟨isOpen, by simp [Sources.along]⟩
  | cons name names inductionHypothesis =>
      obtain ⟨⟨nonempty, free⟩, later⟩ := List.forall_mem_cons.mp named
      have relative : name.head? ≠ some '/' :=
        fun starts => free (List.mem_of_mem_head? starts)
      have ends : ∃ last, name.getLast? = some last ∧ last ≠ '/' := by
        refine ⟨name.getLast nonempty, List.getLast?_eq_some_getLast nonempty, ?_⟩
        intro isSlash
        exact free (isSlash ▸ List.getLast_mem nonempty)
      obtain ⟨openEnd, text⟩ := inductionHypothesis (isOpen_join isOpen relative ends) later
      refine ⟨openEnd, ?_⟩
      calc (Sources.along base (name :: names)).text
          = (base.join ⟨name⟩).text ++ names.flatMap ('/' :: ·) := text
        _ = base.text ++ (name :: names).flatMap ('/' :: ·) := by
          rw [join_of_isOpen isOpen relative]
          simp

/-- The components of a relative path come behind those of the path it is joined to. -/
theorem components_join {base : Path} (isOpen : base.IsOpen) {text : List Char}
    (relative : text.head? ≠ some '/') :
    (base.join ⟨text⟩).components =
      base.components ++ (RoutePath.segments text).filterMap component? := by
  rw [join_of_isOpen isOpen relative]
  obtain ⟨front, last, ends, solid⟩ := isOpen
  have sameStart : Path.isAbsolute ⟨base.text ++ '/' :: text⟩ = base.isAbsolute := by
    rw [isAbsolute, isAbsolute, List.head?_append_of_ne_nil _ (by simp [ends])]
  have parts : Path.parts ⟨base.text ++ '/' :: text⟩ = base.parts ++ RoutePath.segments text :=
    RoutePath.segments_append_slash base.text text
  have sameHead : (base.parts ++ RoutePath.segments text).head? = base.parts.head? :=
    List.head?_append_of_ne_nil _ (List.splitOn_ne_nil '/' base.text)
  rw [components, components, sameStart, parts, sameHead, List.filterMap_append, List.append_assoc]

/-- The file name of a module is a name, whatever the module is called. -/
theorem component?_moduleFile (name : List Char) :
    component? (name ++ ".js".toList) = some (.name (name ++ ".js".toList)) := by
  have long : 3 ≤ (name ++ ".js".toList).length := by simp
  have notTrivial : ¬(name ++ ".js".toList = [] ∨ name ++ ".js".toList = ['.']) := by
    rintro (empty | dot)
    · rw [empty] at long
      exact absurd long (by decide)
    · rw [dot] at long
      exact absurd long (by decide)
  have notParent : name ++ ".js".toList ≠ ['.', '.'] := by
    intro dots
    rw [dots] at long
    exact absurd long (by decide)
  rw [component?, if_neg notTrivial, if_neg notParent]

end Path

namespace RoutePath

/-- What a component of a path gives to the name of a component. -/
def nameLetters : Path.Component → List Char
  | .name part => if part = tabGroup then [] else camelCase part
  | _ => []

/-- The dots of a path give nothing to a name. -/
theorem flatMap_camelCase_part (part : List Char) :
    (if !part.isEmpty && part != tabGroup then camelCase part else []) =
      (Path.component? part).elim [] nameLetters := by
  by_cases trivialPart : part = [] ∨ part = ['.']
  · rcases trivialPart with rfl | rfl
    · decide
    · decide
  · by_cases parent : part = ['.', '.']
    · subst parent
      decide
    · obtain ⟨nonempty, -⟩ := not_or.mp trivialPart
      rw [Path.component?, if_neg trivialPart, if_neg parent, Option.elim_some, nameLetters]
      by_cases group : part = tabGroup <;> simp [group, nonempty]

theorem flatMap_camelCase_filter (parts : List (List Char)) :
    (parts.filter fun part => !part.isEmpty && part != tabGroup).flatMap camelCase =
      (parts.filterMap Path.component?).flatMap nameLetters := by
  induction parts with
  | nil => rfl
  | cons part parts inductionHypothesis =>
      have front := flatMap_camelCase_part part
      rw [List.filter_cons, List.filterMap_cons]
      cases found : Path.component? part with
      | none =>
          rw [found, Option.elim_none] at front
          split
          · rename_i named
            rw [if_pos named] at front
            rw [List.flatMap_cons, front, List.nil_append, inductionHypothesis]
          · exact inductionHypothesis
      | some component =>
          rw [found, Option.elim_some] at front
          rw [List.flatMap_cons, ← front, ← inductionHypothesis]
          split
          · rw [List.flatMap_cons]
          · rw [List.nil_append]

/-- A component name does not see the parts of a path that make no component. -/
theorem componentName_eq_of_components {first second : List Char}
    (same : (segments first).filterMap Path.component? =
      (segments second).filterMap Path.component?) :
    componentName first = componentName second := by
  rw [componentName, componentName, namedSegments, namedSegments, flatMap_camelCase_filter,
    flatMap_camelCase_filter, same]

end RoutePath

namespace RouteIdentity

open RoutePath

theorem segments_screenPath (identity : RouteIdentity) :
    segments identity.screenPath =
      (segments identity.screenPath).dropLast ++ [identity.baseName] :=
  segments_eq_append_last identity.screenPath

theorem baseName_mem_segments (identity : RouteIdentity) :
    identity.baseName ∈ segments identity.screenPath := by
  rw [segments_screenPath]
  exact List.mem_concat_self

theorem slash_notMem_baseName (identity : RouteIdentity) : '/' ∉ identity.baseName :=
  slash_notMem_of_mem_segments identity.baseName_mem_segments

/-- The directories that a generated module lies in. -/
def outputNames (identity : RouteIdentity) (isTab : Bool) : List (List Char) :=
  (segments (identity.outputDirectory isTab)).filter (!·.isEmpty)

theorem outputNames_spec (identity : RouteIdentity) (isTab : Bool) :
    ∀ name ∈ identity.outputNames isTab, name ≠ [] ∧ '/' ∉ name := by
  intro name membership
  obtain ⟨inside, nonempty⟩ := List.mem_filter.mp membership
  exact ⟨by simpa using nonempty, slash_notMem_of_mem_segments inside⟩

section Solid

variable {sourceFile : List Char}

theorem isSolid_screenPath (solid : IsSolid sourceFile) :
    IsSolid (ofRelative sourceFile).screenPath :=
  isSolid_withoutExtension solid

theorem isSolid_of_directory? {path directory : List Char} (solid : IsSolid path)
    (found : directory? path = some directory) : IsSolid directory := by
  intro part membership
  rw [segments_of_directory? found] at membership
  exact solid part (List.dropLast_subset _ membership)

theorem isSolid_ungrouped {path directory : List Char} (solid : IsSolid path)
    (found : directory? (ungrouped path) = some directory) : IsSolid (ungrouped path) := by
  by_cases named : (segments path).filter (· != tabGroup) = []
  · have empty : ungrouped path = [] := by
      rw [ungrouped, named]
      rfl
    have alone : directory? [] = none := by decide
    rw [empty, alone] at found
    exact absurd found (by simp)
  · intro part membership
    rw [segments_ungrouped named] at membership
    exact solid part (List.mem_of_mem_filter membership)

/-- An output directory is empty or solid. -/
theorem outputDirectory_eq_nil_or_isSolid (solid : IsSolid sourceFile) (isTab : Bool) :
    (ofRelative sourceFile).outputDirectory isTab = [] ∨
      IsSolid ((ofRelative sourceFile).outputDirectory isTab) := by
  have screenSolid := isSolid_screenPath solid
  cases isTab with
  | false =>
      cases found : directory? (ofRelative sourceFile).screenPath with
      | none => exact .inl (by simp [outputDirectory, found])
      | some directory =>
          right
          have isDirectory : (ofRelative sourceFile).outputDirectory false = directory := by
            simp [outputDirectory, found]
          rw [isDirectory]
          exact isSolid_of_directory? screenSolid found
  | true =>
      right
      cases found : directory? (ofRelative sourceFile).ungroupedPath with
      | none =>
          have isDirectory : (ofRelative sourceFile).outputDirectory true = tabGroup := by
            simp [outputDirectory, found]
          rw [isDirectory]
          decide
      | some directory =>
          have isDirectory :
              (ofRelative sourceFile).outputDirectory true = tabGroup ++ '/' :: directory := by
            simp [outputDirectory, found]
          have groupSolid : IsSolid tabGroup := by decide
          have directorySolid : IsSolid directory :=
            isSolid_of_directory? (isSolid_ungrouped screenSolid found) found
          rw [isDirectory]
          intro part membership
          rw [segments_append_slash] at membership
          rcases List.mem_append.mp membership with group | below
          · exact groupSolid part group
          · exact directorySolid part below

/-- The names on the way to the file of a generated module. -/
def fileNames (identity : RouteIdentity) (isTab : Bool) : List (List Char) :=
  identity.outputNames isTab ++ [identity.baseName ++ ".js".toList]

theorem fileNames_spec (identity : RouteIdentity) (isTab : Bool) :
    ∀ name ∈ identity.fileNames isTab, name ≠ [] ∧ '/' ∉ name := by
  intro name membership
  rcases List.mem_append.mp membership with directory | file
  · exact outputNames_spec identity isTab name directory
  · rw [List.mem_singleton.mp file]
    refine ⟨by simp, ?_⟩
    intro inside
    rcases List.mem_append.mp inside with inBase | inEnding
    · exact slash_notMem_baseName identity inBase
    · revert inEnding
      decide

theorem modulePath_eq_joinSegments (solid : IsSolid sourceFile) (isTab : Bool) :
    (ofRelative sourceFile).modulePath isTab =
      joinSegments ((ofRelative sourceFile).outputNames isTab ++
        [(ofRelative sourceFile).baseName]) := by
  have one :
      joinSegments [(ofRelative sourceFile).baseName] = (ofRelative sourceFile).baseName := by
    simp [joinSegments]
  rcases outputDirectory_eq_nil_or_isSolid solid isTab with empty | directorySolid
  · simp [modulePath, outputNames, empty, segments, one]
  · have names : (ofRelative sourceFile).outputNames isTab =
        segments ((ofRelative sourceFile).outputDirectory isTab) := by
      apply List.filter_eq_self.mpr
      intro part membership
      simpa using directorySolid part membership
    rw [names, joinSegments_append (segments_ne_nil _) (by simp), joinSegments_segments, one,
      modulePath]
    split
    · rename_i empty
      rw [empty] at directorySolid
      exact absurd rfl (directorySolid [] (by simp [segments]))
    · rename_i filled
      rw [filled]

theorem modulePath_append_ending (solid : IsSolid sourceFile) (isTab : Bool) :
    (ofRelative sourceFile).modulePath isTab ++ ".js".toList =
      joinSegments ((ofRelative sourceFile).fileNames isTab) := by
  rw [modulePath_eq_joinSegments solid, joinSegments_concat_append]
  rfl

/-- A module path is relative: it starts with a name. -/
theorem head?_modulePath_append_ending (solid : IsSolid sourceFile) (isTab : Bool) :
    ((ofRelative sourceFile).modulePath isTab ++ ".js".toList).head? ≠ some '/' := by
  rw [modulePath_append_ending solid]
  exact (joinSegments_ends_ne_slash (fileNames_spec _ isTab)).1

/-- The module of a source is written where its module path says. -/
theorem moduleFile_outputPath (solid : IsSolid sourceFile) (isTab : Bool) {output : Path}
    (isOpen : output.IsOpen) :
    ((ofRelative sourceFile).outputPath output isTab).moduleFile (ofRelative sourceFile).baseName =
      output.join ⟨(ofRelative sourceFile).modulePath isTab ++ ".js".toList⟩ := by
  have named := (ofRelative sourceFile).fileNames_spec isTab
  have written : ((ofRelative sourceFile).outputPath output isTab).moduleFile
      (ofRelative sourceFile).baseName =
        Sources.along output ((ofRelative sourceFile).fileNames isTab) := by
    rw [Sources.along, fileNames, List.foldl_append]
    rfl
  rw [written, Path.join_of_isOpen isOpen (head?_modulePath_append_ending solid isTab),
    modulePath_append_ending solid, slash_cons_joinSegments (by simp [fileNames]),
    ← (Path.along_of_isOpen isOpen named).2]

/-- The components of the file of a module behind those of the output. -/
theorem components_moduleFile (solid : IsSolid sourceFile) (isTab : Bool) {output : Path}
    (isOpen : output.IsOpen) :
    (((ofRelative sourceFile).outputPath output isTab).moduleFile
        (ofRelative sourceFile).baseName).components =
      output.components ++
        ((ofRelative sourceFile).outputNames isTab).filterMap Path.component? ++
          [.name ((ofRelative sourceFile).baseName ++ ".js".toList)] := by
  have split := segments_joinSegments (by simp [fileNames])
    fun name membership => ((ofRelative sourceFile).fileNames_spec isTab name membership).2
  rw [moduleFile_outputPath solid isTab isOpen,
    Path.components_join isOpen (head?_modulePath_append_ending solid isTab),
    modulePath_append_ending solid, split, fileNames, List.filterMap_append]
  simp only [List.filterMap_cons, List.filterMap_nil, Path.component?_moduleFile,
    List.append_assoc]

theorem namedSegments_ungrouped (path : List Char) :
    namedSegments (ungrouped path) = namedSegments path := by
  have narrower : (segments path).filter (fun part => !part.isEmpty && part != tabGroup) =
      ((segments path).filter (· != tabGroup)).filter
        fun part => !part.isEmpty && part != tabGroup := by
    rw [List.filter_filter]
    apply List.filter_congr
    intro part _
    cases part.isEmpty <;> cases part != tabGroup <;> rfl
  rw [namedSegments, namedSegments, narrower]
  by_cases named : (segments path).filter (· != tabGroup) = []
  · rw [ungrouped, named]
    rfl
  · rw [segments_ungrouped named]

/-- The module of a screen that is no tab lies in the directories of its source. -/
theorem outputNames_false (solid : IsSolid sourceFile) :
    (ofRelative sourceFile).outputNames false =
      (segments (ofRelative sourceFile).screenPath).dropLast := by
  cases found : directory? (ofRelative sourceFile).screenPath with
  | none =>
      rw [dropLast_segments_of_directory?_eq_none found]
      simp [outputNames, outputDirectory, found, segments]
  | some directory =>
      rw [outputNames, outputDirectory, if_neg (by simp), found, Option.getD_some,
        segments_of_directory? found]
      apply List.filter_eq_self.mpr
      intro part membership
      simpa using isSolid_screenPath solid part (List.dropLast_subset _ membership)

/-- The module of a tab lies in the tab group.  What is dropped behind it is the last segment that
is not the tab group, which for a source called like the tab group is a directory. -/
theorem outputNames_true (solid : IsSolid sourceFile) :
    (ofRelative sourceFile).outputNames true =
      tabGroup ::
        ((segments (ofRelative sourceFile).screenPath).filter (· != tabGroup)).dropLast := by
  have group : segments tabGroup = [tabGroup] := by decide
  have ungroupedSegments : (segments (ofRelative sourceFile).ungroupedPath).dropLast =
      ((segments (ofRelative sourceFile).screenPath).filter (· != tabGroup)).dropLast := by
    by_cases named :
        (segments (ofRelative sourceFile).screenPath).filter (· != tabGroup) = []
    · have empty : (ofRelative sourceFile).ungroupedPath = [] := congrArg joinSegments named
      rw [empty, named]
      rfl
    · exact congrArg List.dropLast (segments_ungrouped named)
  cases found : directory? (ofRelative sourceFile).ungroupedPath with
  | none =>
      rw [← ungroupedSegments, dropLast_segments_of_directory?_eq_none found, outputNames,
        outputDirectory, if_pos rfl, found]
      simp only [group]
      decide
  | some directory =>
      rw [outputNames, outputDirectory, if_pos rfl, found]
      simp only [segments_append_slash, group, segments_of_directory? found, ungroupedSegments]
      apply List.filter_eq_self.mpr
      intro part membership
      rcases List.mem_cons.mp membership with rfl | below
      · decide
      · have inPath := List.mem_of_mem_filter (List.dropLast_subset _ below)
        simpa using isSolid_screenPath solid part inPath

theorem segments_modulePath (solid : IsSolid sourceFile) (isTab : Bool) :
    segments ((ofRelative sourceFile).modulePath isTab) =
      (ofRelative sourceFile).outputNames isTab ++ [(ofRelative sourceFile).baseName] := by
  rw [modulePath_eq_joinSegments solid]
  apply segments_joinSegments (by simp)
  intro part membership
  rcases List.mem_append.mp membership with directory | base
  · exact (outputNames_spec _ isTab part directory).2
  · rw [List.mem_singleton.mp base]
    exact slash_notMem_baseName _

/-- A module has the name of its source, wherever it is put, unless the source is called like the
tab group. -/
theorem componentName_modulePath (solid : IsSolid sourceFile)
    (named : (ofRelative sourceFile).baseName ≠ tabGroup) (isTab : Bool) :
    RoutePath.componentName ((ofRelative sourceFile).modulePath isTab) =
      (ofRelative sourceFile).componentName := by
  have screen := segments_screenPath (ofRelative sourceFile)
  have grouped : (segments (ofRelative sourceFile).screenPath).filter (· != tabGroup) =
      (segments (ofRelative sourceFile).screenPath).dropLast.filter (· != tabGroup) ++
        [(ofRelative sourceFile).baseName] := by
    conv_lhs => rw [screen, List.filter_append]
    simp [named]
  have sameNames : namedSegments ((ofRelative sourceFile).modulePath isTab) =
      namedSegments (ofRelative sourceFile).screenPath := by
    rw [namedSegments, segments_modulePath solid]
    cases isTab with
    | false =>
        rw [outputNames_false solid, ← screen]
        rfl
    | true =>
        rw [outputNames_true solid, List.cons_append, List.filter_cons_of_neg (by simp)]
        rw [grouped, List.dropLast_concat, ← grouped, ← segments_ungrouped]
        · exact namedSegments_ungrouped _
        · rw [grouped]
          exact List.concat_ne_nil _ _
  have ownNames : namedSegments (ofRelative sourceFile).ungroupedPath =
      namedSegments (ofRelative sourceFile).screenPath :=
    namedSegments_ungrouped _
  rw [RoutePath.componentName, sameNames, ← ownNames]
  rfl

/-- Two sources with one output have one component name, so a pass that refuses a name that is
taken refuses an output that is taken. -/
theorem componentName_eq_of_output_eq {other : List Char} (solid : IsSolid sourceFile)
    (otherSolid : IsSolid other) (named : (ofRelative sourceFile).baseName ≠ tabGroup)
    (otherNamed : (ofRelative other).baseName ≠ tabGroup) {isTab otherIsTab : Bool}
    {output : Path} (isOpen : output.IsOpen)
    (same :
      (((ofRelative sourceFile).outputPath output isTab).moduleFile
        (ofRelative sourceFile).baseName).components =
      (((ofRelative other).outputPath output otherIsTab).moduleFile
        (ofRelative other).baseName).components) :
    (ofRelative sourceFile).componentName = (ofRelative other).componentName := by
  rw [components_moduleFile solid isTab isOpen, components_moduleFile otherSolid otherIsTab isOpen,
    List.append_assoc, List.append_assoc] at same
  obtain ⟨directories, files⟩ := List.append_singleton_inj.mp (List.append_cancel_left same)
  have bases : (ofRelative sourceFile).baseName = (ofRelative other).baseName := by
    rw [Path.Component.name.injEq] at files
    exact List.append_cancel_right files
  rw [← componentName_modulePath solid named isTab,
    ← componentName_modulePath otherSolid otherNamed otherIsTab]
  apply componentName_eq_of_components
  rw [segments_modulePath solid, segments_modulePath otherSolid, List.filterMap_append,
    List.filterMap_append, directories, bases]

end Solid

end RouteIdentity

end ScreenCompiler
