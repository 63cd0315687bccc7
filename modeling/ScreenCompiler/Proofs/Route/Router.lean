import ScreenCompiler.Route.Router

/-!
# What a router contains

The router of a route table imports every screen once, and registers each under its
component name.
-/

namespace ScreenCompiler

open Text Script

namespace Router

/-- The lines behind the imports that do not depend on a route. -/
def frameLines (tabs : List Route) : List String :=
  navigatorLines tabs ++ onlyWithTabs tabs (iconTable [] ++ tabNavigator []) ++
    stackNavigator tabs []

/-- A reader of single lines reads from a router what it reads from the imports and from the fixed
lines, if it passes over the entries of the routes. -/
theorem flatMap_linesOf {Out : Type} {read : String → List Out} {routes : List Route}
    (blank : read "" = []) (icons : ∀ route ∈ routes, read (iconLine route) = [])
    (screens : ∀ navigator ∈ ["Tab", "Stack"], ∀ route ∈ routes,
      ∀ line ∈ screenLines navigator route, read line = []) :
    (linesOf routes).flatMap read =
      (libraryLines (routes.filter Route.isTab)).flatMap read ++
        (routes.flatMap fun route => read (importLine route)) ++
          (frameLines (routes.filter Route.isTab)).flatMap read := by
  have gap : (if routes.isEmpty then [] else [""]).flatMap read = [] := by
    cases routes.isEmpty <;> simp [blank]
  have noIcons : ((routes.filter Route.isTab).map iconLine).flatMap read = [] := by
    simp only [List.flatMap_map, List.flatMap_eq_nil_iff]
    exact fun route isTab => icons route (List.mem_filter.mp isTab).1
  have noScreens : ∀ navigator ∈ ["Tab", "Stack"], ∀ keeps : Route → Bool,
      ((routes.filter keeps).flatMap (screenLines navigator)).flatMap read = [] := by
    intro navigator isNavigator keeps
    simp only [List.flatMap_assoc, List.flatMap_eq_nil_iff]
    exact fun route kept => screens navigator isNavigator route (List.mem_filter.mp kept).1
  have tabScreens := noScreens "Tab" (by simp) Route.isTab
  have stackScreens := noScreens "Stack" (by simp) fun route => !route.isTab
  simp only [linesOf, screenImports, frameLines, iconTable, tabNavigator, stackNavigator,
    List.flatMap_append, gap, List.flatMap_map, List.append_assoc]
  unfold onlyWithTabs
  split
  · simp [stackScreens]
  · simp only [List.flatMap_append, noIcons, tabScreens, stackScreens, List.nil_append,
      List.append_assoc]
    simp

/-- Whether a line imports a generated module. -/
def isScreenImport (line : String) : Bool :=
  startsWith "import ".toList line.toList && occursIn "'./screens/".toList line.toList

theorem isScreenImport_of_head? {line : String} (other : line.toList.head? ≠ some 'i') :
    isScreenImport line = false := by
  have apart : startsWith "import ".toList line.toList = false := by
    rw [startsWith, afterPrefix?_eq_none_of_head? (by decide) other]
    rfl
  rw [isScreenImport, apart, Bool.false_and]

theorem isScreenImport_importLine (route : Route) : isScreenImport (importLine route) = true := by
  have escaped : "./screens/".toList.flatMap Quoted.escape = "./screens/".toList := by decide
  have text : (importLine route).toList =
      "import ".toList ++ (route.componentName.toList ++ " from ".toList ++
        ("'./screens/".toList ++ (Quoted.body route.modulePath.toList ++ "';".toList))) := by
    have opened : "'./screens/".toList = '\'' :: "./screens/".toList := by decide
    simp only [importLine, quote, Quoted.encode, String.toList_append, String.toList_ofList,
      Quoted.body, List.flatMap_append, escaped, opened]
    simp
  have imports : startsWith "import ".toList (importLine route).toList = true := by
    rw [text]
    exact startsWith_iff.mpr (List.prefix_append _ _)
  have named : occursIn "'./screens/".toList (importLine route).toList = true := by
    rw [text]
    apply occursIn_iff.mpr
    apply List.infix_append_of_infix_right
    apply List.infix_append_of_infix_right
    exact (List.prefix_append _ _).isInfix
  rw [isScreenImport, imports, named]
  rfl

/-- The modules that a router imports are those of its routes, in their order. -/
theorem filter_isScreenImport_linesOf (routes : List Route) :
    (linesOf routes).filter isScreenImport = routes.map importLine := by
  have alone : ∀ lines : List String,
      lines.filter isScreenImport = lines.flatMap fun line => [line].filter isScreenImport := by
    intro lines
    rw [← List.filter_flatMap, List.flatMap_singleton']
  have silent : ∀ {line : String}, line.toList.head? ≠ some 'i' →
      [line].filter isScreenImport = [] := fun other => by simp [isScreenImport_of_head? other]
  have library : (libraryLines (routes.filter Route.isTab)).filter isScreenImport = [] := by
    unfold libraryLines onlyWithTabs
    cases (routes.filter Route.isTab).isEmpty <;> decide +kernel
  have frame : (frameLines (routes.filter Route.isTab)).filter isScreenImport = [] := by
    unfold frameLines navigatorLines stackNavigator onlyWithTabs
    cases (routes.filter Route.isTab).isEmpty <;> decide +kernel
  have imports : (routes.flatMap fun route => [importLine route].filter isScreenImport) =
      routes.map importLine := by
    simp [isScreenImport_importLine, List.map_eq_flatMap]
  rw [alone, flatMap_linesOf (silent (by simp)), ← alone, ← alone, library, frame, imports,
    List.nil_append, List.append_nil]
  · exact fun route _ => silent (by simp [iconLine])
  · intro navigator _ route _ line inScreen
    apply silent
    simp only [screenLines, List.mem_cons, List.not_mem_nil, or_false] at inScreen
    rcases inScreen with rfl | rfl | rfl | rfl | rfl <;> simp

/-- The navigator that a route is registered in. -/
def navigatorOf (route : Route) : String :=
  if route.isTab then "Tab" else "Stack"

theorem infix_flatMap {routes : List Route} {route : Route} (entry : Route → List String)
    (membership : route ∈ routes) : entry route <:+: routes.flatMap entry := by
  obtain ⟨before, after, rfl⟩ := List.append_of_mem membership
  exact ⟨before.flatMap entry, after.flatMap entry, by simp⟩

/-- Every route is registered in its navigator. -/
theorem screenLines_infix_linesOf {routes : List Route} {route : Route}
    (membership : route ∈ routes) : screenLines (navigatorOf route) route <:+: linesOf routes := by
  by_cases tab : route.isTab = true
  · have inTabs : route ∈ routes.filter Route.isTab := List.mem_filter.mpr ⟨membership, tab⟩
    have shown : onlyWithTabs (routes.filter Route.isTab)
        (iconTable (routes.filter Route.isTab) ++ tabNavigator (routes.filter Route.isTab)) =
          iconTable (routes.filter Route.isTab) ++ tabNavigator (routes.filter Route.isTab) := by
      apply if_neg
      rw [List.isEmpty_iff]
      exact List.ne_nil_of_mem inTabs
    have inNavigator : screenLines "Tab" route <:+: tabNavigator (routes.filter Route.isTab) :=
      (infix_flatMap (screenLines "Tab") inTabs).trans (List.infix_append _ _ _)
    have inTabLines := inNavigator.trans
      (List.suffix_append (iconTable (routes.filter Route.isTab)) _).isInfix
    rw [navigatorOf, if_pos tab, linesOf, shown]
    exact inTabLines.trans (List.infix_append _ _ _)
  · have inStack : route ∈ routes.filter fun route => !route.isTab :=
      List.mem_filter.mpr ⟨membership, by simpa using tab⟩
    have inNavigator : screenLines "Stack" route <:+:
        stackNavigator (routes.filter Route.isTab) (routes.filter fun route => !route.isTab) :=
      (infix_flatMap (screenLines "Stack") inStack).trans (List.infix_append _ _ _)
    rw [navigatorOf, if_neg tab, linesOf]
    exact inNavigator.trans (List.suffix_append _ _).isInfix

end Router

end ScreenCompiler
