import ScreenCompiler.Proofs.Project.Pass
import ScreenCompiler.Proofs.Route.RouterScreens

/-!
# Names in the router of a pass

The components of a pass have distinct names, but the router declares names of its own
beside them.  A component may have one of those.
-/

namespace ScreenCompiler

open Text Script

namespace Router

/-- The names of the router itself that a component can have as well. -/
def ownNames (routes : List Route) : List String :=
  ["React", "Stack", "Router"] ++
    if routes.any Route.isTab then ["Ionicons", "Tab", "TabNavigator"] else []

/-- The names of the router itself. -/
def fixedNames (routes : List Route) : List String :=
  ["React", "createStackNavigator", "Stack", "Router"] ++
    if routes.any Route.isTab then
      ["createBottomTabNavigator", "Ionicons", "Tab", "TAB_ICONS", "TabNavigator"]
    else []

end Router

namespace Route.IsNamed

variable {route : Route} (named : route.IsNamed)

include named

theorem not_small {c : Char} (first : route.componentName.toList.head? = some c) :
    ¬('a' ≤ c ∧ c ≤ 'z') := by
  obtain ⟨path, name⟩ := named
  rw [name, String.toList_ofList] at first
  exact RoutePath.not_small_of_head?_componentName first

/-- Of the names of a router, a component can only have those that start with a capital and go on
with letters. -/
theorem mem_fixedNames_iff {routes : List Route} :
    route.componentName ∈ Router.fixedNames routes ↔
      route.componentName ∈ Router.ownNames routes := by
  have noStackFactory : route.componentName ≠ "createStackNavigator" := fun same =>
    named.not_small (c := 'c') (by rw [same]; decide) (by decide)
  have noTabFactory : route.componentName ≠ "createBottomTabNavigator" := fun same =>
    named.not_small (c := 'c') (by rw [same]; decide) (by decide)
  have noTable : route.componentName ≠ "TAB_ICONS" := fun same =>
    named.notMem (by decide : isAsciiAlphanumeric '_' = false) (by rw [same]; decide)
  cases tabs : routes.any Route.isTab <;>
    simp [Router.fixedNames, Router.ownNames, tabs, noStackFactory, noTabFactory, noTable]

end Route.IsNamed

namespace Router

variable {routes : List Route}

theorem declaredNames_perm (named : ∀ route ∈ routes, route.IsNamed) :
    (declaredNames (textLines routes)).Perm
      (routes.map Route.componentName ++ fixedNames routes) := by
  have names := (Route.sorted_perm routes).map Route.componentName
  have own : (declaredNames (libraryLines ((Route.sorted routes).filter Route.isTab)) ++
      declaredNames (frameLines ((Route.sorted routes).filter Route.isTab))).Perm
        (fixedNames routes) := by
    simp only [declaredNames_libraryLines, declaredNames_frameLines, onlyWithTabs_sorted,
      fixedNames]
    cases routes.any Route.isTab <;> decide +kernel
  rw [textLines_eq named, declaredNames_linesOf (isNamed_sorted named)]
  refine (List.perm_append_comm.append_right _).trans ?_
  rw [List.append_assoc]
  exact names.append own

theorem nodup_fixedNames (routes : List Route) : (fixedNames routes).Nodup := by
  unfold fixedNames
  cases routes.any Route.isTab <;> decide +kernel

/-- A router declares no name twice if and only if no component has a name of the router. -/
theorem nodup_declaredNames_iff (named : ∀ route ∈ routes, route.IsNamed)
    (distinct : (routes.map Route.componentName).Nodup) :
    (declaredNames (textLines routes)).Nodup ↔
      ∀ route ∈ routes, route.componentName ∉ ownNames routes := by
  rw [(declaredNames_perm named).nodup_iff, List.nodup_append']
  constructor
  · rintro ⟨-, -, disjoint⟩ route membership isOwn
    exact disjoint (List.mem_map_of_mem membership)
      ((named route membership).mem_fixedNames_iff.mpr isOwn)
  · refine fun apart => ⟨distinct, nodup_fixedNames routes, ?_⟩
    intro name isComponent isFixed
    obtain ⟨route, membership, rfl⟩ := List.mem_map.mp isComponent
    exact apart route membership ((named route membership).mem_fixedNames_iff.mp isFixed)

/-- The names that a navigator registers. -/
def registeredNames (navigator : String) (lines : List String) : List String :=
  namesBeside navigator lines ++ namesBelow navigator lines

/-- The tabs are registered under distinct names. -/
theorem nodup_registeredNames_tab (named : ∀ route ∈ routes, route.IsNamed)
    (distinct : (routes.map Route.componentName).Nodup) :
    (registeredNames "Tab" (textLines routes)).Nodup := by
  have all := (namesBelow_textLines_perm named).nodup_iff.mpr distinct
  rw [registeredNames, (namesBeside_textLines named).1, List.nil_append]
  exact (List.nodup_append'.mp all).1

/-- The stack registers no name twice if and only if no screen beside the tabs is named as they
are. -/
theorem nodup_registeredNames_stack_iff (named : ∀ route ∈ routes, route.IsNamed)
    (distinct : (routes.map Route.componentName).Nodup) :
    (registeredNames "Stack" (textLines routes)).Nodup ↔
      ((∃ tab ∈ routes, tab.isTab) →
        ∀ route ∈ routes, route.componentName = "MainTabs" → route.isTab) := by
  have all := (namesBelow_textLines_perm named).nodup_iff.mpr distinct
  have stack := (List.nodup_append'.mp all).2.1
  have inStack : "MainTabs" ∉ namesBelow "Stack" (textLines routes) ↔
      ∀ route ∈ routes, route.componentName = "MainTabs" → route.isTab := by
    rw [(namesBelow_textLines named).2]
    simp only [List.mem_map, List.mem_filter, (Route.sorted_perm routes).mem_iff, not_exists,
      not_and]
    exact ⟨fun apart route membership same => by simpa [membership, same] using apart route,
      fun apart route inStack same => by simpa [apart route inStack.1 same] using inStack.2⟩
  rw [registeredNames, (namesBeside_textLines named).2, ← inStack, ← List.any_eq_true]
  cases routes.any Route.isTab <;> simp [stack]

/-- When the names in the router of a route table are distinct. -/
structure NamesApart (routes : List Route) (lines : List String) : Prop where
  declared : (declaredNames lines).Nodup ↔
    ∀ route ∈ routes, route.componentName ∉ ownNames routes
  tabs : (registeredNames "Tab" lines).Nodup
  stack : (registeredNames "Stack" lines).Nodup ↔
    ((∃ tab ∈ routes, tab.isTab) →
      ∀ route ∈ routes, route.componentName = "MainTabs" → route.isTab)

end Router

namespace Project

variable {project : Project} {catalog : Catalog} {tree : FileTree}

/-- The names in the router of a pass are distinct, but for components that have a name of the
router itself. -/
theorem compile_namesApart {report : Report}
    (success : (project.compile catalog tree).1 = .ok report) :
    Router.NamesApart report.routes (Router.textLines report.routes) := by
  obtain ⟨named, distinct⟩ := routes_named success
  exact {
    declared := Router.nodup_declaredNames_iff named distinct
    tabs := Router.nodup_registeredNames_tab named distinct
    stack := Router.nodup_registeredNames_stack_iff named distinct }

theorem compile_namesApart_threeScreens :
    ∃ report, (standard.compile .standard threeScreens).1 = .ok report ∧
      report.routes.map Route.componentName = ["Home", "About", "SettingsIndex"] ∧
      Router.NamesApart report.routes (Router.textLines report.routes) := by
  obtain ⟨report, success, table, -⟩ := compile_threeScreens
  have names := congrArg (List.map fun entry => entry.2.2.1) table
  rw [List.map_map] at names
  exact ⟨report, success, names, compile_namesApart success⟩

/-- A tab beside screens that have the names of the stack entry of the tabs and of an import. -/
def sharedNames : FileTree :=
  treeOf [("(tabs)/home.ignite", "Home"), ("main-tabs.ignite", "Main"), ("react.ignite", "React")]

/-- Nothing keeps a component from a name that the router declares or registers itself. -/
theorem compile_namesMeet :
    ∃ report, (standard.compile .standard sharedNames).1 = .ok report ∧
      report.routes.map (fun route => (route.componentName, route.isTab)) =
        [("Home", true), ("MainTabs", false), ("React", false)] ∧
      ¬(Router.declaredNames (Router.textLines report.routes)).Nodup ∧
      ¬(Router.registeredNames "Stack" (Router.textLines report.routes)).Nodup := by
  have sources := @sources_of_listing standard .standard sharedNames
    ["project".toList, "app".toList]
    [["(tabs)".toList, "home.ignite".toList], ["main-tabs.ignite".toList],
      ["react.ignite".toList]]
    (by decide +kernel) (by decide +kernel) (by decide +kernel) (by decide +kernel)
  have evaluated : ∃ report, (standard.compile .standard sharedNames).1 = .ok report ∧
      report.routes.map (fun route => (route.componentName, route.isTab)) =
        [("Home", true), ("MainTabs", false), ("React", false)] := by
    apply exists_ok_of_map
    unfold compile
    rw [sources]
    decide +kernel
  obtain ⟨report, success, table⟩ := evaluated
  obtain ⟨named, distinct⟩ := routes_named success
  have inTable : ∀ entry ∈ [("Home", true), ("MainTabs", false), ("React", false)],
      ∃ route ∈ report.routes, (route.componentName, route.isTab) = entry := by
    intro entry membership
    rw [← table] at membership
    exact List.mem_map.mp membership
  obtain ⟨home, isHome, homeShape⟩ := inTable ("Home", true) (by simp)
  obtain ⟨main, isMain, mainShape⟩ := inTable ("MainTabs", false) (by simp)
  obtain ⟨react, isReact, reactShape⟩ := inTable ("React", false) (by simp)
  obtain ⟨mainName, mainTab⟩ := Prod.mk.inj mainShape
  refine ⟨report, success, table, ?_, ?_⟩
  · rw [Router.nodup_declaredNames_iff named distinct]
    intro apart
    apply apart react isReact
    rw [(Prod.mk.inj reactShape).1]
    exact List.mem_append_left _ List.mem_cons_self
  · rw [Router.nodup_registeredNames_stack_iff named distinct]
    intro apart
    have isTab := apart ⟨home, isHome, (Prod.mk.inj homeShape).2⟩ main isMain mainName
    rw [mainTab] at isTab
    contradiction

end Project

end ScreenCompiler
