import ScreenCompiler.Proofs.Project.Hosts
import ScreenCompiler.Proofs.Project.Listing
import ScreenCompiler.Proofs.Project.Pass
import ScreenCompiler.Watch.Filter

/-!
# Watched sources

The paths that a watcher takes for sources are those that a pass lists: hidden and
ignored names on the way to a file are looked for below the screens directory alone,
and a file that is no output is left out for no other reason.  This needs a screens
directory whose path does not lead through the output directory, since output is
known by how a path begins.
-/

namespace ScreenCompiler

open Text

namespace FileTree

variable {tree : FileTree} {place : Place}

theorem IsNamed.of_entryAt? (isNamed : tree.IsNamed) {entry : FileEntry}
    (there : tree.entryAt? place = some entry) : ∀ name ∈ place, Path.IsName name := by
  by_cases top : place = []
  · simp [top]
  · rw [entryAt?_of_ne_nil top] at there
    obtain ⟨before, after, split, -⟩ := List.lookup_eq_some_iff.mp there
    exact isNamed (place, entry) (by simp [split])

theorem mem_filesBelow {names : Place} {content : ByteArray}
    (there : tree.entryAt? (place ++ names) = some (.file content)) :
    names ∈ tree.filesBelow place := by
  have notDirectory : tree.entryAt? (place ++ names) ≠ some .directory := by simp [there]
  rw [entryAt?_of_ne_nil (ne_nil_of_entryAt? notDirectory)] at there
  obtain ⟨before, after, split, -⟩ := List.lookup_eq_some_iff.mp there
  rw [filesBelow, List.mem_mergeSort]
  refine List.mem_filterMap.mpr ⟨(place ++ names, .file content), by simp [split], ?_⟩
  rw [fileBelow?, if_pos (List.isPrefixOf_iff_prefix.mpr (List.prefix_append _ _)),
    List.drop_left]

end FileTree

namespace SourceFilter

variable {host : Host} {path root : Path}

theorem mem_knownAs (known : root ∈ knownAs host path) :
    root = path ∨ ∃ place entry, host.find? path = some (place, entry) ∧
      root = FileTree.pathOf place := by
  rw [knownAs, Host.canonical?] at known
  cases found : host.find? path with
  | none => simp_all
  | some there =>
      obtain ⟨place, entry⟩ := there
      simp only [found, Option.map_some] at known
      split at known
      · exact .inl (List.mem_singleton.mp known)
      · rcases List.mem_pair.mp known with rfl | rfl
        · exact .inl rfl
        · exact .inr ⟨place, entry, rfl, rfl⟩

/-- A path is known as it is written before anything else. -/
theorem findSome?_knownAs {Value : Type} {seen : Path → Option Value} {value : Value}
    (found : seen path = some value) : (knownAs host path).findSome? seen = some value := by
  rw [knownAs]
  split
  · split <;> simp [found]
  · simp [found]

theorem accepts_of_isBelow {filter : SourceFilter} (known : root ∈ filter.output)
    (isBelow : root.isBelow path = true) : filter.accepts path = false := by
  have isOutput : filter.output.any (·.isBelow path) = true :=
    List.any_eq_true.mpr ⟨root, known, isBelow⟩
  rw [accepts, isOutput]
  rfl

/-- What lies along names behind a known directory is accepted just when the names make it a
source. -/
theorem accepts_eq_isSource {filter : SourceFilter} {front : List Path.Component} {names : Place}
    (split : path.components = front ++ names.map .name) (nonempty : names ≠ [])
    (known : filter.screens.findSome? (Path.relative? · path) = some (names.map .name))
    (outside : ∀ root ∈ filter.output, root.isBelow path = false) :
    filter.accepts path = Sources.isSource filter.extension filter.ignored names := by
  have noOutput : filter.output.any (·.isBelow path) = false := by
    simpa using outside
  have fileName : path.fileName? = names.getLast? := by
    rw [Path.fileName?, split, List.getLast?_append_of_ne_nil _ (by simpa using nonempty),
      List.getLast?_map, List.getLast?_eq_some_getLast nonempty]
    rfl
  have kept : (!(names.map Path.Component.name).any (isSkipped filter.ignored)) =
      names.all (!Sources.isSkipped filter.ignored ·) := by
    rw [List.any_map, List.not_any_eq_all_not]
    rfl
  rw [accepts, noOutput, Path.extension?, fileName, known, Sources.isSource, Bool.not_false,
    Bool.true_and, Bool.and_comm]
  exact congrArg (· && _) kept

end SourceFilter

namespace Project

variable {project : Project} {host : Host} {path : Path}

/-- A pass reads this path as a source. -/
def Lists (project : Project) (host : Host) (path : Path) : Prop :=
  ∃ sources, host.list? project.screens project.settings.extension project.settings.ignored =
    some sources ∧ ∃ source ∈ sources, source.same path = true

/-- A path of the output directory, or one that leads to it or below it. -/
def IsOutput (project : Project) (host : Host) (path : Path) : Prop :=
  project.output.same path = true ∨
    ∃ out entry place, host.find? project.output = some (out, entry) ∧
      host.place? path = some place ∧ out <+: place

/-- The path of the screens directory begins with one that the output directory is known by. -/
def CrossesOutput (project : Project) (host : Host) : Prop :=
  ∃ root ∈ (SourceFilter.ofProject host project).output, root.isBelow project.screens = true

/-- Names behind the path of the output directory lead to output when that path leads to a place
on the way. -/
theorem isOutput_of_components {place last : Place} (solid : project.output.text ≠ [])
    (split : path.components = project.output.components ++ last.map .name)
    (found : host.place? path = some place)
    (before : ∀ out, host.place? project.output = some out → out <+: place) :
    project.IsOutput host path := by
  by_cases same : last = []
  · left
    rw [Path.same, beq_iff_eq, split, same]
    simp
  · obtain ⟨middle, -, -, -, -, there⟩ := Host.on_way split found
    have isOut := there same solid
    exact .inr ⟨middle, .directory, place, isOut, found,
      before middle (Host.find?_eq_some_iff.mp isOut).1⟩

section Below

variable {home names : Place} {content : ByteArray} {entry : FileEntry}

/-- A file that lies along names below the screens directory is listed just when the names make it
a source. -/
theorem lists_iff_isSource (isNamed : host.tree.IsNamed)
    (isHome : host.find? project.screens = some (home, .directory))
    (named : ∀ name ∈ names, Path.IsName name)
    (split : path.components = project.screens.components ++ names.map .name)
    (there : host.tree.entryAt? (home ++ names) = some (.file content)) :
    project.Lists host path ↔
      Sources.isSource project.settings.extension project.settings.ignored names = true := by
  rw [Lists, Host.list?, isHome]
  constructor
  · rintro ⟨sources, isSources, source, listed, same⟩
    obtain rfl := Option.some.inj isSources
    obtain ⟨others, isListed, rfl⟩ := List.mem_map.mp listed
    have othersNamed := (FileTree.sourcesBelow_spec isNamed isListed).1
    rw [Path.same, beq_iff_eq, Path.components_along _ othersNamed, split] at same
    have sameNames : others = names :=
      List.map_injective_iff.mpr (fun _ _ => Path.Component.name.inj)
        (List.append_cancel_left same)
    rw [← sameNames]
    exact (List.mem_filter.mp isListed).2
  · intro isSource
    refine ⟨_, rfl, Sources.along project.screens names, ?_, ?_⟩
    · exact List.mem_map_of_mem
        (List.mem_filter.mpr ⟨FileTree.mem_filesBelow there, isSource⟩)
    · rw [Path.same, beq_iff_eq, Path.components_along _ named, split]

variable (isHome : host.find? project.screens = some (home, entry))

include isHome

/-- The direct path to the output directory goes on from the path of the screens directory only
when it lies below it. -/
theorem eq_append_of_components {out first : Place}
    (direct : host.IsDirect out) (outNamed : ∀ name ∈ out, Path.IsName name)
    (split : (FileTree.pathOf out).components =
      project.screens.components ++ first.map .name) : out = home ++ first := by
  obtain ⟨isPlace, -⟩ := Host.find?_eq_some_iff.mp isHome
  obtain ⟨front, behind, rfl, isFront, leads⟩ :=
    Host.exists_of_front outNamed direct (Host.place?_eq_some_iff.mp isPlace).1 ⟨_, split.symm⟩
  obtain rfl := leads home isPlace
  rw [FileTree.components_pathOf outNamed, isFront, List.map_append, List.cons_append,
    List.cons.injEq, List.append_cancel_left_eq] at split
  rw [List.map_injective_iff.mpr (fun _ _ => Path.Component.name.inj) split.2]

variable (plain : ∀ link ∈ host.links, ¬home <+: link.1)

include plain

/-- Names behind the path of the screens directory lead along these names. -/
theorem place_of_below (named : ∀ name ∈ names, Path.IsName name)
    (split : path.components = project.screens.components ++ names.map .name)
    {place : Place} (found : host.place? path = some place) : place = home ++ names := by
  obtain ⟨middle, more, other, leads, same, -⟩ := Host.on_way split found
  obtain rfl := same home (Host.find?_eq_some_iff.mp isHome).1
  exact (Prod.mk.inj (leads.along plain named)).2

/-- Names behind a path that the output directory is known by lead to output, when this path goes
on from that of the screens directory. -/
theorem isOutput_of_known (isNamed : host.tree.IsNamed) {first last : Place} {root : Path}
    (known : root ∈ (SourceFilter.ofProject host project).output) (nonempty : first ≠ [])
    (isRoot : root.components = project.screens.components ++ first.map .name)
    (split : path.components = root.components ++ last.map .name)
    (found : host.place? path = some (home ++ (first ++ last))) : project.IsOutput host path := by
  rcases SourceFilter.mem_knownAs known with rfl | ⟨out, there, isOut, rfl⟩
  · have firstNamed : ∀ name ∈ first, Path.IsName name := fun name inside =>
      Path.isName_of_mem_components (by rw [isRoot]; simp [inside])
    have solid : project.output.text ≠ [] := by
      intro empty
      have isEmpty : project.output = ⟨[]⟩ := congrArg Path.mk empty
      rw [isEmpty] at isRoot
      exact nonempty (List.map_eq_nil_iff.mp (List.append_eq_nil_iff.mp isRoot.symm).2)
    refine isOutput_of_components solid split found fun out isPlace => ?_
    rw [place_of_below isHome plain firstNamed isRoot isPlace]
    simp
  · obtain ⟨isPlace, isEntry⟩ := Host.find?_eq_some_iff.mp isOut
    obtain rfl := eq_append_of_components isHome (Host.isDirect_of_place? isPlace)
      (isNamed.of_entryAt? isEntry) isRoot
    exact .inr ⟨_, there, _, isOut, found, by simp⟩

/-- No path that the output directory is known by goes on to a file that is no output, unless the
path of the screens directory begins with it. -/
theorem not_isBelow_of_apart (isNamed : host.tree.IsNamed)
    (split : path.components = project.screens.components ++ names.map .name)
    (found : host.place? path = some (home ++ names)) (apart : ¬project.IsOutput host path)
    {root : Path} (known : root ∈ (SourceFilter.ofProject host project).output)
    (straight : ¬root.components <+: project.screens.components) :
    root.isBelow path = false := by
  by_contra isBelow
  rw [Bool.not_eq_false, Path.isBelow_iff] at isBelow
  have isFront : project.screens.components <+: path.components := ⟨_, split.symm⟩
  obtain ⟨more, isRoot⟩ := (List.prefix_or_prefix_of_prefix isBelow isFront).resolve_left straight
  obtain ⟨rest, behind⟩ := isBelow
  rw [← isRoot, split, List.append_assoc, List.append_cancel_left_eq] at behind
  obtain ⟨first, last, rfl, rfl, rfl⟩ := List.append_eq_map_iff.mp behind
  have nonempty : first ≠ [] := by
    rintro rfl
    exact straight (by simp [← isRoot])
  have fromRoot : path.components = root.components ++ last.map .name := by
    rw [split, ← isRoot, List.map_append, List.append_assoc]
  exact apart
    (isOutput_of_known isHome plain isNamed known nonempty isRoot.symm fromRoot found)

end Below

/-- A watcher takes a file below the screens directory that is no output for a source just when a
pass lists it and the path of the screens directory does not lead through the output directory. -/
theorem accepts_iff_lists (isNamed : host.tree.IsNamed) {home place names : Place}
    {content : ByteArray} (isHome : host.find? project.screens = some (home, .directory))
    (plain : ∀ link ∈ host.links, ¬home <+: link.1)
    (below : project.screens.relative? path = some (names.map .name))
    (isFile : host.find? path = some (place, .file content))
    (apart : ¬project.IsOutput host path) :
    (SourceFilter.ofProject host project).accepts path = true ↔
      project.Lists host path ∧ ¬project.CrossesOutput host := by
  obtain ⟨found, there⟩ := Host.find?_eq_some_iff.mp isFile
  have split := Path.relative?_eq_some_iff.mp below
  by_cases crosses : project.CrossesOutput host
  · obtain ⟨root, known, before⟩ := crosses
    have isBelow : root.isBelow path = true := by
      rw [Path.isBelow_iff] at before ⊢
      exact before.trans ⟨_, split.symm⟩
    rw [SourceFilter.accepts_of_isBelow known isBelow]
    constructor
    · intro accepted
      simp at accepted
    · rintro ⟨-, straight⟩
      exact absurd ⟨root, known, before⟩ straight
  · have named : ∀ name ∈ names, Path.IsName name := fun name inside =>
      Path.isName_of_mem_components (by rw [split]; simp [inside])
    obtain rfl := place_of_below isHome plain named split found
    have nonempty : names ≠ [] := by
      rintro rfl
      rw [List.append_nil, (Host.find?_eq_some_iff.mp isHome).2] at there
      simp at there
    have outside : ∀ root ∈ (SourceFilter.ofProject host project).output,
        root.isBelow path = false := by
      intro root known
      apply not_isBelow_of_apart isHome plain isNamed split found apart known
      exact fun before => crosses ⟨root, known, Path.isBelow_iff.mpr before⟩
    have known : (SourceFilter.ofProject host project).screens.findSome?
        (Path.relative? · path) = some (names.map .name) := SourceFilter.findSome?_knownAs below
    rw [and_iff_left crosses, lists_iff_isSource isNamed isHome named split there,
      SourceFilter.accepts_eq_isSource split nonempty known outside]
    rfl

/-- A project below directories with a hidden name and an ignored one.  A program works in it that
came through a link. -/
def linkedHost : Host where
  tree := [("(tabs)/home.ignite", "Home"), (".draft/home.ignite", "Draft")].foldl
    (fun tree source => (tree.emitText
      (Path.joinString ⟨"/.work/node_modules/shop/app".toList⟩ source.1) source.2).2)
    { FileTree.empty with working := ⟨"/shop".toList⟩ }
  links := [(["shop".toList], ⟨"/.work/node_modules/shop".toList⟩)]

theorem accepts_iff_lists_linkedHost :
    let home : Path := ⟨"./app/(tabs)/home.ignite".toList⟩
    let draft : Path := ⟨"./app/.draft/home.ignite".toList⟩
    let filter := SourceFilter.ofProject linkedHost standard
    filter.accepts home = true ∧ standard.Lists linkedHost home ∧
      filter.accepts draft = false ∧ ¬standard.Lists linkedHost draft := by
  intro home draft filter
  have isNamed : linkedHost.tree.IsNamed := by decide +kernel
  have isHome : linkedHost.find? standard.screens = some ([".work".toList,
      "node_modules".toList, "shop".toList, "app".toList], .directory) :=
    Host.find?_eq_some_iff.mpr ⟨by decide +kernel, rfl⟩
  have homeAt : linkedHost.find? home = some ([".work".toList, "node_modules".toList,
      "shop".toList, "app".toList, "(tabs)".toList, "home.ignite".toList],
      .file "Home".toUTF8) := Host.find?_eq_some_iff.mpr ⟨by decide +kernel, rfl⟩
  have draftAt : linkedHost.find? draft = some ([".work".toList, "node_modules".toList,
      "shop".toList, "app".toList, ".draft".toList, "home.ignite".toList],
      .file "Draft".toUTF8) := Host.find?_eq_some_iff.mpr ⟨by decide +kernel, rfl⟩
  have plain : ∀ link ∈ linkedHost.links, ¬[".work".toList, "node_modules".toList,
      "shop".toList, "app".toList] <+: link.1 := by decide +kernel
  have outputAt : linkedHost.place? standard.output = some [".work".toList,
      "node_modules".toList, "shop".toList, ".ignite".toList] := by decide +kernel
  have noOutput : linkedHost.find? standard.output = none := by
    rw [Host.find?, outputAt]
    rfl
  have apart : ∀ path, standard.output.same path = false →
      ¬standard.IsOutput linkedHost path := by
    rintro path other (same | ⟨out, entry, place, isOut, -⟩)
    · exact Bool.false_ne_true (other.symm.trans same)
    · simp [noOutput] at isOut
  have homeAccepted : filter.accepts home = true := by decide +kernel
  have draftRefused : filter.accepts draft = false := by decide +kernel
  have homeListed := (@accepts_iff_lists standard linkedHost home isNamed _ _
    ["(tabs)".toList, "home.ignite".toList] _ isHome plain (by decide +kernel) homeAt
    (apart home (by decide +kernel))).mp homeAccepted
  have draftListed := @accepts_iff_lists standard linkedHost draft isNamed _ _
    [".draft".toList, "home.ignite".toList] _ isHome plain (by decide +kernel) draftAt
    (apart draft (by decide +kernel))
  refine ⟨homeAccepted, homeListed.1, draftRefused, fun listed => ?_⟩
  exact Bool.false_ne_true (draftRefused.symm.trans (draftListed.mpr ⟨listed, homeListed.2⟩))

/-- A project whose screens directory is reached through its output directory. -/
def throughOutput : Project :=
  ⟨⟨"/shop".toList⟩,
    { Settings.standard with screensDirectory := "out/../app", outputDirectory := "out" }⟩

def throughOutputHost : Host :=
  .ofTree ⟨[(["shop".toList], .directory), (["shop".toList, "out".toList], .directory),
    (["shop".toList, "app".toList], .directory),
    (["shop".toList, "app".toList, "home.ignite".toList], .file "Home".toUTF8)], ⟨['/']⟩⟩

theorem not_accepts_throughOutput :
    let path : Path := ⟨"/shop/out/../app/home.ignite".toList⟩
    throughOutputHost.find? path =
        some (["shop".toList, "app".toList, "home.ignite".toList], .file "Home".toUTF8) ∧
      throughOutput.screens.relative? path = some [.name "home.ignite".toList] ∧
      ¬throughOutput.IsOutput throughOutputHost path ∧
      throughOutput.Lists throughOutputHost path ∧
      (SourceFilter.ofProject throughOutputHost throughOutput).accepts path = false := by
  intro path
  have leads : throughOutputHost.find? path =
      some (["shop".toList, "app".toList, "home.ignite".toList], .file "Home".toUTF8) :=
    Host.find?_eq_some_iff.mpr ⟨by decide +kernel, rfl⟩
  have below : throughOutput.screens.relative? path = some [.name "home.ignite".toList] := by
    decide +kernel
  refine ⟨leads, below, ?apart, ?listed, by decide +kernel⟩
  case apart =>
    have outAt : throughOutputHost.place? throughOutput.output =
        some ["shop".toList, "out".toList] := by decide +kernel
    rintro (same | ⟨out, entry, place, isOut, isPlace, front⟩)
    · exact absurd same (by decide +kernel)
    · obtain rfl := Option.some.inj (outAt.symm.trans (Host.find?_eq_some_iff.mp isOut).1)
      obtain rfl := Option.some.inj ((Host.find?_eq_some_iff.mp leads).1.symm.trans isPlace)
      exact absurd front (by decide +kernel)
  case listed =>
    have isNamed : throughOutputHost.tree.IsNamed := by decide +kernel
    have isHome : throughOutputHost.find? throughOutput.screens =
        some (["shop".toList, "app".toList], .directory) :=
      Host.find?_eq_some_iff.mpr ⟨by decide +kernel, rfl⟩
    have split := Path.relative?_eq_some_iff.mp below
    have named : ∀ name ∈ ["home.ignite".toList], Path.IsName name := by decide +kernel
    exact (lists_iff_isSource isNamed isHome named split
      (Host.find?_eq_some_iff.mp leads).2).mpr (by decide +kernel)

section Direct

variable {home names : Place} {content : ByteArray}

/-- The direct path of what is no output begins with no path that the output directory is known
by. -/
theorem not_isBelow_pathOf (isNamed : host.tree.IsNamed) {place : Place}
    (found : host.place? (FileTree.pathOf place) = some place)
    (named : ∀ name ∈ place, Path.IsName name) (solid : project.output.text ≠ [])
    (apart : ¬project.IsOutput host (FileTree.pathOf place)) {root : Path}
    (known : root ∈ (SourceFilter.ofProject host project).output) :
    root.isBelow (FileTree.pathOf place) = false := by
  by_contra isBelow
  rw [Bool.not_eq_false, Path.isBelow_iff] at isBelow
  have isDirect := Host.isDirect_of_place? found
  apply apart
  rcases SourceFilter.mem_knownAs known with rfl | ⟨out, entry, isOut, rfl⟩
  · obtain ⟨front, last, rfl, isFront, leads⟩ :=
      Host.exists_of_front named isDirect solid isBelow
    have split : (FileTree.pathOf (front ++ last)).components =
        project.output.components ++ last.map .name := by
      rw [FileTree.components_pathOf named, isFront, List.map_append, List.cons_append]
    refine isOutput_of_components solid split found fun out isPlace => ?_
    rw [leads out isPlace]
    exact List.prefix_append _ _
  · obtain ⟨front, last, rfl, isFront, -⟩ :=
      Host.exists_of_front named isDirect (by simp [FileTree.pathOf]) isBelow
    have outNamed := isNamed.of_entryAt? (Host.find?_eq_some_iff.mp isOut).2
    rw [FileTree.components_pathOf outNamed, List.cons.injEq] at isFront
    obtain rfl := List.map_injective_iff.mpr (fun _ _ => Path.Component.name.inj) isFront.2
    exact .inr ⟨_, entry, _, isOut, found, List.prefix_append _ _⟩

/-- Below its direct path, the screens directory is known by the names behind that path. -/
theorem findSome?_screens_pathOf {entry : FileEntry}
    (isHome : host.find? project.screens = some (home, entry))
    (named : ∀ name ∈ home ++ names, Path.IsName name)
    (isDirect : host.IsDirect (home ++ names)) :
    (SourceFilter.ofProject host project).screens.findSome?
      (Path.relative? · (FileTree.pathOf (home ++ names))) = some (names.map .name) := by
  have homeDirect := FileTree.components_pathOf (List.forall_mem_append.mp named).1
  have below : (FileTree.pathOf home).relative? (FileTree.pathOf (home ++ names)) =
      some (names.map .name) := by
    rw [Path.relative?_eq_some_iff, FileTree.components_pathOf named, homeDirect, List.map_append,
      List.cons_append]
  rw [SourceFilter.ofProject, SourceFilter.knownAs, Host.canonical?, isHome, Option.map_some]
  cases isBelow : project.screens.relative? (FileTree.pathOf (home ++ names)) with
  | none =>
      have other : (FileTree.pathOf home).same project.screens = false := by
        by_contra same
        rw [Bool.not_eq_false, Path.same, beq_iff_eq] at same
        rw [Path.relative?_eq_some_iff, same, ← Path.relative?_eq_some_iff, isBelow] at below
        simp at below
      simp only [other, Bool.false_eq_true, if_false]
      simp [isBelow, below]
  | some components =>
      -- the configured path is then the direct one
      have split := Path.relative?_eq_some_iff.mp isBelow
      obtain ⟨isPlace, -⟩ := Host.find?_eq_some_iff.mp isHome
      have nonempty := (Host.place?_eq_some_iff.mp isPlace).1
      obtain ⟨front, -, -, isFront, leads⟩ :=
        Host.exists_of_front named isDirect nonempty ⟨components, split.symm⟩
      have same : (FileTree.pathOf home).same project.screens = true := by
        rw [Path.same, beq_iff_eq, homeDirect, isFront, leads home isPlace]
      simp only [same, if_true]
      rw [Path.same, beq_iff_eq] at same
      rw [Path.relative?_eq_some_iff, same, ← Path.relative?_eq_some_iff] at below
      simp [below]

/-- A file is also known by its direct path, whatever path leads to the screens directory: a
watcher takes that path for a source just when a pass lists the file. -/
theorem accepts_pathOf_iff_lists (isNamed : host.tree.IsNamed) (nonempty : names ≠ [])
    (isHome : host.find? project.screens = some (home, .directory))
    (isFile : host.find? (FileTree.pathOf (home ++ names)) = some (home ++ names, .file content))
    (apart : ¬project.IsOutput host (FileTree.pathOf (home ++ names)))
    (solid : project.output.text ≠ []) :
    (SourceFilter.ofProject host project).accepts (FileTree.pathOf (home ++ names)) = true ↔
      project.Lists host (Sources.along project.screens names) := by
  obtain ⟨found, there⟩ := Host.find?_eq_some_iff.mp isFile
  have named := isNamed.of_entryAt? there
  obtain ⟨homeNamed, namesNamed⟩ := List.forall_mem_append.mp named
  have split : (FileTree.pathOf (home ++ names)).components =
      (FileTree.pathOf home).components ++ names.map .name := by
    rw [FileTree.components_pathOf named, FileTree.components_pathOf homeNamed, List.map_append,
      List.cons_append]
  have outside : ∀ root ∈ (SourceFilter.ofProject host project).output,
      root.isBelow (FileTree.pathOf (home ++ names)) = false := fun _ known =>
    not_isBelow_pathOf isNamed found named solid apart known
  have known : (SourceFilter.ofProject host project).screens.findSome?
      (Path.relative? · (FileTree.pathOf (home ++ names))) = some (names.map .name) :=
    findSome?_screens_pathOf isHome named (Host.isDirect_of_place? found)
  rw [SourceFilter.accepts_eq_isSource split nonempty known outside,
    lists_iff_isSource isNamed isHome namesNamed (Path.components_along _ namesNamed) there]
  rfl

end Direct

end Project

end ScreenCompiler
