import ScreenCompiler.Proofs.Project.Places

/-!
# Components and steps

What a path begins with and how it goes on show in its components.  Of its parts, those
that make a component are its steps; names behind the components of a path are steps
behind its own.
-/

namespace ScreenCompiler

namespace Path

variable {base path : Path}

theorem relative?_eq_some_iff {components : List Component} :
    base.relative? path = some components ↔ path.components = base.components ++ components := by
  rw [relative?]
  constructor
  · intro found
    split at found
    · rename_i front
      obtain ⟨rest, isFront⟩ := List.isPrefixOf_iff_prefix.mp front
      obtain rfl := Option.some.inj found
      rw [← isFront, List.drop_left]
    · simp at found
  · intro split
    rw [split, if_pos (List.isPrefixOf_iff_prefix.mpr (List.prefix_append _ _)), List.drop_left]

theorem isBelow_iff : base.isBelow path = true ↔ base.components <+: path.components := by
  rw [isBelow, Option.isSome_iff_exists]
  simp only [relative?_eq_some_iff]
  exact ⟨fun ⟨rest, split⟩ => ⟨rest, split.symm⟩, fun ⟨rest, split⟩ => ⟨rest, split.symm⟩⟩

theorem component?_ne_root (part : List Char) : component? part ≠ some .root := by
  rw [component?]
  split
  · simp
  · split <;> simp

theorem component?_ne_current (part : List Char) : component? part ≠ some .current := by
  rw [component?]
  split
  · simp
  · split <;> simp

theorem isName_of_mem_components {part : List Char} (inside : .name part ∈ path.components) :
    IsName part := by
  obtain ⟨other, isPart, isComponent⟩ :
      ∃ other ∈ path.parts, component? other = some (.name part) := by
    rw [components] at inside
    rcases List.mem_append.mp inside with front | behind
    · split at front
      · simp at front
      · split at front <;> simp at front
    · exact List.mem_filterMap.mp behind
  rw [component?] at isComponent
  split at isComponent
  · simp at isComponent
  · rename_i solid
    split at isComponent
    · simp at isComponent
    · rename_i notParent
      obtain rfl := Component.name.inj (Option.some.inj isComponent)
      exact ⟨fun empty => solid (.inl empty), RoutePath.slash_notMem_of_mem_segments isPart,
        fun current => solid (.inr current), notParent⟩

theorem isAbsolute_iff : path.isAbsolute = true ↔ ∃ rest, path.components = .root :: rest := by
  constructor
  · intro isAbsolute
    rw [components, if_pos isAbsolute]
    exact ⟨_, rfl⟩
  · rintro ⟨rest, starts⟩
    by_contra relative
    rw [components, if_neg relative] at starts
    split at starts
    · simp at starts
    · have isRoot : Component.root ∈ path.parts.filterMap component? := by
        rw [← List.nil_append (path.parts.filterMap component?), starts]
        exact List.mem_cons_self
      obtain ⟨part, -, isComponent⟩ := List.mem_filterMap.mp isRoot
      exact component?_ne_root part isComponent

/-- Only the empty path has no components. -/
theorem components_ne_nil (nonempty : path.text ≠ []) : path.components ≠ [] := by
  rw [components]
  split
  · simp
  rename_i relative
  split
  · simp
  rename_i notCurrent
  have whole : RoutePath.joinSegments path.parts = path.text :=
    RoutePath.joinSegments_segments path.text
  obtain ⟨first, others, isParts⟩ :=
    List.exists_cons_of_ne_nil (RoutePath.segments_ne_nil path.text)
  have isParts : path.parts = first :: others := isParts
  have solid : ¬(first = [] ∨ first = ['.']) := by
    rintro (rfl | rfl)
    · rw [isParts] at whole
      cases others with
      | nil => exact nonempty whole.symm
      | cons next others =>
          rw [isAbsolute, ← whole] at relative
          exact relative rfl
    · exact notCurrent (by rw [isParts]; rfl)
  have isComponent : component? first ≠ none := by
    rw [component?, if_neg solid]
    split <;> simp
  obtain ⟨component, isComponent⟩ := Option.ne_none_iff_exists'.mp isComponent
  simp [isParts, isComponent]

/-- The parts of a path that lead somewhere. -/
def steps (path : Path) : List (List Char) :=
  path.parts.filter (!isTrivial ·)

/-- Components that are not just where a path starts. -/
def Component.isStep : Component → Bool
  | root | current => false
  | parent | name _ => true

theorem steps_eq (path : Path) :
    path.steps = (path.components.filter Component.isStep).map Component.text := by
  have frontless : path.components.filter Component.isStep =
      (path.parts.filterMap component?).filter Component.isStep := by
    rw [components, List.filter_append]
    split
    · rfl
    · split <;> rfl
  have allSteps : ∀ component ∈ path.parts.filterMap component?, component.isStep = true := by
    intro component inside
    obtain ⟨part, -, isComponent⟩ := List.mem_filterMap.mp inside
    cases component with
    | root => exact absurd isComponent (component?_ne_root part)
    | current => exact absurd isComponent (component?_ne_current part)
    | parent => rfl
    | name part => rfl
  rw [frontless, List.filter_eq_self.mpr allSteps, steps]
  induction path.parts with
  | nil => rfl
  | cons part parts inductionHypothesis =>
      by_cases trivial : part = [] ∨ part = ['.']
      · have isTrivial : isTrivial part = true := by simpa [isTrivial] using trivial
        simp [component?, trivial, isTrivial, inductionHypothesis]
      · have notTrivial : isTrivial part = false := by simpa [isTrivial] using trivial
        by_cases parent : part = ['.', '.']
        · subst parent
          simp [component?, notTrivial, Component.text, inductionHypothesis]
        · simp [component?, trivial, parent, notTrivial, Component.text, inductionHypothesis]

section Behind

variable {front : Path} {names : Place}
  (split : path.components = front.components ++ names.map .name)

include split

/-- Names behind the components of a path are steps behind its own. -/
theorem steps_of_components : path.steps = front.steps ++ names := by
  have allSteps : ∀ component ∈ names.map Component.name, component.isStep = true := by
    intro component inside
    obtain ⟨name, -, rfl⟩ := List.mem_map.mp inside
    rfl
  rw [steps_eq, steps_eq, split, List.filter_append, List.filter_eq_self.mpr allSteps,
    List.map_append, List.map_map]
  exact congrArg _ (List.map_id names)

theorem isAbsolute_of_components : path.isAbsolute = front.isAbsolute := by
  rw [Bool.eq_iff_iff, isAbsolute_iff, isAbsolute_iff, split]
  constructor
  · rintro ⟨rest, starts⟩
    rcases List.append_eq_cons_iff.mp starts with ⟨-, rootIsName⟩ | ⟨others, isFront, -⟩
    · cases names <;> simp at rootIsName
    · exact ⟨others, isFront⟩
  · rintro ⟨rest, starts⟩
    exact ⟨rest ++ names.map .name, by rw [starts, List.cons_append]⟩

end Behind

end Path

namespace FileTree

variable {place : Place}

theorem components_pathOf (named : ∀ name ∈ place, Path.IsName name) :
    (pathOf place).components = .root :: place.map .name := by
  have isAbsolute : (pathOf place).isAbsolute = true := rfl
  have parts : (pathOf place).parts = [] :: RoutePath.segments (RoutePath.joinSegments place) :=
    RoutePath.segments_append_slash [] (RoutePath.joinSegments place)
  rw [Path.components, if_pos isAbsolute, parts]
  by_cases top : place = []
  · rw [top]
    rfl
  · rw [RoutePath.segments_joinSegments top fun name inside => (named name inside).free]
    have solid : place.filterMap Path.component? = place.map .name := by
      rw [← List.filterMap_eq_map]
      exact List.filterMap_congr fun name inside => (named name inside).component?_eq
    exact congrArg (List.cons _) solid

end FileTree

end ScreenCompiler
