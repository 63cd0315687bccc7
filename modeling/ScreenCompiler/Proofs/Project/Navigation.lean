import ScreenCompiler.Proofs.Component.Markup
import ScreenCompiler.Proofs.Document.Elements
import ScreenCompiler.Proofs.Project.Delivery
import ScreenCompiler.Proofs.Route.Names
import ScreenCompiler.Proofs.Route.RouterScreens

/-!
# Navigation

A call that leads to the logical path of a route is generated with the component name
under which the router that the pass has written registers the route.  Routes that share
a logical path are all reached as the first of them.
-/

namespace ScreenCompiler

open Text Script

/-- The press handler that leads to a component. -/
def navigationProp (name : String) : String :=
  codeProp "onPress" ("() => navigation.navigate('" ++ name ++ "')")

namespace Rendering

theorem codeProp_navigationCall {rendering : Rendering} {path : String} {name : List Char}
    (target : rendering.navigationTarget path = String.ofList name)
    (plain : ∀ c ∈ name, isAsciiAlphanumeric c = true) :
    codeProp "onPress" (rendering.navigationCall path) = navigationProp (String.ofList name) := by
  unfold navigationProp navigationCall
  rw [target, quote_of_plain plain]
  congr 1
  apply String.toList_injective
  simp

/-- A path leads to the first route with its logical path, unless blanks are trimmed off the
path. -/
theorem navigationTarget_of_first {rendering : Rendering} {before after : List Route}
    {route : Route} (table : rendering.routes = before ++ route :: after)
    (first : ∀ earlier ∈ before, earlier.logicalPath ≠ route.logicalPath)
    (inner : route.logicalPath.toList.head? ≠ some '/' ∧
      route.logicalPath.toList.getLast? ≠ some '/')
    (solid : ∀ c, route.logicalPath.toList.getLast? = some c → isBlank c = false) :
    rendering.navigationTarget ("/" ++ route.logicalPath) = route.componentName := by
  have trimmed : trim ('/' :: route.logicalPath.toList) = '/' :: route.logicalPath.toList := by
    apply trim_eq_self
    · intro c starts
      obtain rfl : '/' = c := by simpa using starts
      decide
    · intro c ends
      cases text : route.logicalPath.toList with
      | nil =>
          obtain rfl : '/' = c := by simpa [text] using ends
          decide
      | cons d rest =>
          rw [text, List.getLast?_cons_cons] at ends
          exact solid c (by rw [text, ends])
  have clean : stripMark '/' (trim ("/" ++ route.logicalPath).toList) =
      route.logicalPath.toList := by
    rw [String.toList_append, show "/".toList = ['/'] from rfl, List.singleton_append, trimmed,
      stripMark_cons inner.1 inner.2]
  have found : rendering.routes.find?
      (fun other => other.logicalPath == String.ofList route.logicalPath.toList) = some route := by
    rw [table, String.ofList_toList, List.find?_append]
    have passed : before.find? (fun other => other.logicalPath == route.logicalPath) = none := by
      apply List.find?_eq_none.mpr
      intro earlier membership
      simpa using first earlier membership
    rw [passed, Option.none_or, List.find?_cons_of_pos (by simp)]
  rw [navigationTarget, clean]
  simp only [found]

/-- A call among the props of an element stands in its opening tag. -/
theorem occurs_navigationProp {rendering : Rendering} {element : Element} {path : String}
    (calls : ("onPress", .navigation path) ∈ element.props.entries) :
    Occurs (codeProp "onPress" (rendering.navigationCall path)) (rendering.opening element) := by
  have written : codeProp "onPress" (rendering.navigationCall path) ∈
      rendering.props element.tag element.props :=
    List.mem_flatMap.mpr ⟨_, calls, List.mem_singleton.mpr rfl⟩
  have inTag : Occurs (codeProp "onPress" (rendering.navigationCall path))
      (rendering.openTag element.tag element.props) :=
    (Occurs.refl _).intercalate " " (List.mem_cons_of_mem _ written)
  exact inTag.append_left "<"

end Rendering

namespace Project

variable {project : Project} {catalog : Catalog} {tree later : FileTree}

/-- In the pass behind a report, every prop that calls a path is generated as a press handler that
leads to a component, and stands so in the module of its source. -/
def CallsLeadTo (project : Project) (catalog : Catalog) (tree : FileTree) (report : Report)
    (path name : String) : Prop :=
  ∃ sources, project.sources catalog tree = .ok sources ∧
    List.Forall₂ (CompiledFile.IsFileOf project catalog report.routes) report.files sources ∧
    ∀ source ∈ sources, ∀ element ∈ Node.elementsOf source.document.nodes, ∀ key,
      (key, .navigation path) ∈ element.props.entries →
        (source.document.rendering catalog report.routes).prop element.tag key (.navigation path) =
            [navigationProp name] ∧
          Occurs (navigationProp name)
            ((source.document.rendering catalog report.routes).opening element) ∧
          Occurs ((source.document.rendering catalog report.routes).opening element)
            (componentText catalog report.routes source)

/-- The calls in a source that has been read lead to the first route with their path. -/
theorem calls_of_isRead {source : ScreenSource} (read : source.IsRead project catalog tree)
    {routes before after : List Route} {route : Route} {path : List Char}
    (table : routes = before ++ route :: after)
    (first : ∀ earlier ∈ before, earlier.logicalPath ≠ route.logicalPath)
    (solid : ∀ c, route.logicalPath.toList.getLast? = some c → isBlank c = false)
    (name : route.componentName = String.ofList (RoutePath.componentName path))
    (logical : route.logicalPath = String.ofList (RoutePath.logicalPath path))
    {element : Element} (inDocument : element ∈ Node.elementsOf source.document.nodes)
    {key : String} (calls : (key, .navigation ("/" ++ route.logicalPath)) ∈ element.props.entries) :
    (source.document.rendering catalog routes).prop element.tag key
          (.navigation ("/" ++ route.logicalPath)) = [navigationProp route.componentName] ∧
      Occurs (navigationProp route.componentName)
        ((source.document.rendering catalog routes).opening element) := by
  obtain ⟨text, -, document⟩ := read.document
  have propsRead : element.props.IsRead catalog := by
    rw [document] at inDocument
    exact Document.isRead_of_mem_elements inDocument
  obtain rfl := Props.key_of_navigation propsRead calls
  have target : (source.document.rendering catalog routes).navigationTarget
      ("/" ++ route.logicalPath) = route.componentName := by
    refine Rendering.navigationTarget_of_first table first ?_ solid
    rw [logical, String.toList_ofList]
    exact RoutePath.logicalPath_spec path
  have code : codeProp "onPress" ((source.document.rendering catalog routes).navigationCall
      ("/" ++ route.logicalPath)) = navigationProp route.componentName := by
    rw [name] at target ⊢
    exact Rendering.codeProp_navigationCall target
      RoutePath.isAsciiAlphanumeric_of_mem_componentName
  rw [← code]
  exact ⟨rfl, Rendering.occurs_navigationProp calls⟩

/-- In a pass, calls of the logical path of a route lead to its component, and the router that is
left in the tree registers the route under the name of its component. -/
structure Reaches (project : Project) (catalog : Catalog) (report : Report)
    (tree later : FileTree) (route : Route) : Prop where
  calls : project.CallsLeadTo catalog tree report ("/" ++ route.logicalPath) route.componentName
  entry : Router.screenLines (Router.navigatorOf route) route <:+: Router.textLines report.routes
  registered : route.componentName ∈
    Router.namesBelow (Router.navigatorOf route) (Router.textLines report.routes)
  router : later.holdsText report.routerPath (Router.generate report.routes) = true

/-- The route that is called has to be the first with its logical path, and the path must not end
in a blank, since a call is trimmed. -/
theorem compile_navigates {report : Report} {before after : List Route} {route : Route}
    (success : project.compile catalog tree = (.ok report, later))
    (table : report.routes = before ++ route :: after)
    (first : ∀ earlier ∈ before, earlier.logicalPath ≠ route.logicalPath)
    (solid : ∀ c, route.logicalPath.toList.getLast? = some c → isBlank c = false) :
    project.Reaches catalog report tree later route := by
  have inTable : route ∈ report.routes := by
    rw [table]
    exact List.mem_append_right _ List.mem_cons_self
  have isReport : (project.compile catalog tree).1 = .ok report := congrArg Prod.fst success
  obtain ⟨path, name, logical⟩ := exists_path_of_mem_routes isReport inTable
  obtain ⟨named, -⟩ := routes_named isReport
  obtain ⟨sources, middle, found, -, routerPath, written, routed⟩ := compile_ok_steps success
  obtain ⟨read, -⟩ := sources_ok found
  refine ⟨?calls, ?entry, ?registered, ?router⟩
  case calls =>
    refine ⟨sources, found, writeComponents_ok (congrArg Prod.fst written), ?_⟩
    intro source inSources element inDocument key calls
    obtain ⟨code, inTag⟩ :=
      calls_of_isRead (read source inSources) table first solid name logical inDocument calls
    exact ⟨code, inTag, Document.occurs_generate inDocument⟩
  case entry =>
    rw [Router.textLines_eq named]
    apply Router.screenLines_infix_linesOf
    exact (Route.sorted_perm report.routes).mem_iff.mpr inTable
  case registered =>
    exact Router.componentName_mem_namesBelow named inTable
  case router =>
    rw [routerPath]
    exact (leaves_of_written read written routed).router

theorem compile_navigates_threeScreens :
    ∃ report later before after route,
      standard.compile .standard threeScreens = (.ok report, later) ∧
      report.routes = before ++ route :: after ∧
      route.logicalPath = "settings" ∧ route.componentName = "SettingsIndex" ∧
      standard.Reaches .standard report threeScreens later route := by
  obtain ⟨report, success, named, -⟩ := compile_threeScreens
  have pass : standard.compile .standard threeScreens =
      (.ok report, (standard.compile .standard threeScreens).2) := Prod.ext success rfl
  have count : report.routes.length = 3 := by
    simpa using congrArg List.length named
  obtain ⟨home, about, settings, table⟩ := List.length_eq_three.mp count
  rw [table] at named
  simp only [List.map_cons, List.map_nil, List.cons.injEq, Prod.mk.injEq] at named
  obtain ⟨⟨-, homePath, -⟩, ⟨-, aboutPath, -⟩, ⟨-, settingsPath, name, -⟩, -⟩ := named
  have first : ∀ earlier ∈ [home, about], earlier.logicalPath ≠ settings.logicalPath := by
    simp [homePath, aboutPath, settingsPath]
  have solid : ∀ c, settings.logicalPath.toList.getLast? = some c → isBlank c = false := by
    rw [settingsPath]
    intro c ends
    obtain rfl : 's' = c := by simpa using ends
    decide
  exact ⟨report, _, [home, about], [], settings, pass, table, settingsPath, name,
    compile_navigates pass table first solid⟩

/-- The props of all elements of some sources, each with its code. -/
def generatedProps (catalog : Catalog) (routes : List Route) (sources : List ScreenSource) :
    List ((String × PropValue) × List String) :=
  sources.flatMap fun source => (Node.elementsOf source.document.nodes).flatMap fun element =>
    element.props.entries.map fun entry =>
      (entry, (source.document.rendering catalog routes).prop element.tag entry.1 entry.2)

theorem not_callsLeadTo {report : Report} {sources : List ScreenSource}
    {key path name other : String} (found : project.sources catalog tree = .ok sources)
    (generated : ((key, .navigation path), [navigationProp other]) ∈
      generatedProps catalog report.routes sources)
    (differs : navigationProp other ≠ navigationProp name) :
    ¬project.CallsLeadTo catalog tree report path name := by
  rintro ⟨others, foundAgain, -, calls⟩
  rw [found] at foundAgain
  obtain rfl := Except.ok.inj foundAgain
  obtain ⟨source, inSources, inSource⟩ := List.mem_flatMap.mp generated
  obtain ⟨element, inDocument, inElement⟩ := List.mem_flatMap.mp inSource
  obtain ⟨entry, inProps, isPair⟩ := List.mem_map.mp inElement
  obtain ⟨rfl, code⟩ := Prod.mk.inj isPair
  have led := (calls source inSources element inDocument key inProps).1
  rw [code] at led
  exact differs (List.singleton_inj.mp led)

/-- A screen that calls two paths, of which the first stands for two screens and the second ends in
a blank. -/
def sharedPaths : FileTree :=
  treeOf
    [("a /index.ignite", "A"),
      ("home.ignite", "<Button onPress=\"go('/settings')\"/><Button onPress=\"go('/a ')\"/>"),
      ("settings/index.ignite", "Settings"),
      ("settings.ignite", "Settings")]

/-- A call leads to the first of two screens with one logical path, and a call that is trimmed may
lead to a component that no route has. -/
theorem compile_navigates_elsewhere :
    ∃ report, (standard.compile .standard sharedPaths).1 = .ok report ∧
      report.routes.map (fun route => (route.logicalPath, route.componentName)) =
        [("a ", "AIndex"), ("home", "Home"), ("settings", "SettingsIndex"),
          ("settings", "Settings")] ∧
      ¬standard.CallsLeadTo .standard sharedPaths report "/settings" "Settings" ∧
      ¬standard.CallsLeadTo .standard sharedPaths report "/a " "AIndex" := by
  have listed := @sources_of_listing standard .standard sharedPaths
    ["project".toList, "app".toList]
    [["a ".toList, "index.ignite".toList], ["home.ignite".toList],
      ["settings".toList, "index.ignite".toList], ["settings.ignite".toList]]
    (by decide +kernel) (by decide +kernel) (by decide +kernel) (by decide +kernel)
  have evaluated : ((standard.compile .standard sharedPaths).1.toOption.bind fun report =>
      (standard.sources .standard sharedPaths).toOption.map fun sources =>
        (report.routes.map (fun route => (route.logicalPath, route.componentName)),
          generatedProps .standard report.routes sources)) =
      some ([("a ", "AIndex"), ("home", "Home"), ("settings", "SettingsIndex"),
          ("settings", "Settings")],
        [(("onPress", .navigation "/settings"), [navigationProp "SettingsIndex"]),
          (("onPress", .navigation "/a "), [navigationProp "A"])]) := by
    unfold compile
    rw [listed]
    decide +kernel
  obtain ⟨report, isReport, inReport⟩ := Option.bind_eq_some_iff.mp evaluated
  obtain ⟨sources, isSources, both⟩ := Option.map_eq_some_iff.mp inReport
  obtain ⟨routes, generated⟩ := Prod.mk.inj both
  have found := eq_ok_of_toOption isSources
  refine ⟨report, eq_ok_of_toOption isReport, routes, ?_, ?_⟩
  · refine @not_callsLeadTo _ _ _ _ _ "onPress" _ _ "SettingsIndex" found ?_ (by decide +kernel)
    rw [generated]
    exact List.mem_cons_self
  · refine @not_callsLeadTo _ _ _ _ _ "onPress" _ _ "A" found ?_ (by decide +kernel)
    rw [generated]
    exact List.mem_cons_of_mem _ List.mem_cons_self

end Project

end ScreenCompiler
