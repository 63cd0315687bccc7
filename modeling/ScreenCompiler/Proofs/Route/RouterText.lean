import ScreenCompiler.Proofs.Route.Names
import ScreenCompiler.Proofs.Route.Router
import ScreenCompiler.Proofs.Script.Quoted
import ScreenCompiler.Document.Import

/-!
# Reading a router

The text of a router is read line by line, without a look at the routes it was made
from.  What is read are the screens of each navigator, the imported modules, the
icons, and the names at the top level.
-/

namespace ScreenCompiler

open Text Script

namespace Router

/-- The lines of the router of a route table. -/
def textLines (routes : List Route) : List String :=
  (lines (generate routes).toList).map String.ofList

/-- The value of a name attribute at the front of a text. -/
def nameAttribute? (text : List Char) : Option String :=
  (afterPrefix? "name=\"".toList text).map fun value => String.ofList (value.takeWhile (· != '"'))

/-- What stands behind the angle bracket of a line that starts with one. -/
def tagText? (line : String) : Option (List Char) :=
  afterPrefix? ['<'] (trimStart line.toList)

/-- The tag that registers a screen. -/
def screenTag (navigator : String) : List Char :=
  navigator.toList ++ ".Screen".toList

/-- The names on the lines that follow a line with a screen tag alone. -/
def namesBelow (navigator : String) : List String → List String
  | [] => []
  | line :: lines =>
      if tagText? line = some (screenTag navigator) then
        (lines.head?.bind fun next => nameAttribute? (trimStart next.toList)).toList ++
          namesBelow navigator lines
      else namesBelow navigator lines

/-- What a reader makes of the tags at the fronts of the lines. -/
def readTags (read : List Char → Option String) (lines : List String) : List String :=
  lines.flatMap fun line => ((tagText? line).bind read).toList

/-- The names that stand on the line of their screen tag. -/
def namesBeside (navigator : String) : List String → List String :=
  readTags fun text => (afterPrefix? (screenTag navigator ++ [' ']) text).bind nameAttribute?

/-- The navigators whose tag a line opens. -/
def openedNavigators : List String → List String :=
  readTags fun text => (identifier? text).bind fun (name, rest) =>
    (afterPrefix? ".Navigator".toList rest).map fun _ => String.ofList name

/-- The name and the module of a line that imports a screen. -/
def screenImport? (line : String) : Option (String × String) :=
  (afterPrefix? "import ".toList line.toList).bind fun text =>
    (identifier? text).bind fun (name, rest) =>
      (afterPrefix? " from './screens/".toList rest).bind fun literal =>
        (Quoted.read? literal).bind fun (path, rest) =>
          if rest = [';'] then some (String.ofList name, String.ofList path) else none

/-- The component and the icon of an entry of the icon table. -/
def icon? (line : String) : Option (String × String) :=
  (identifier? (trimStart line.toList)).bind fun (name, rest) =>
    (afterPrefix? ": '".toList rest).bind fun literal =>
      (Quoted.read? literal).bind fun (icon, rest) =>
        if rest = [','] then some (String.ofList name, String.ofList icon) else none

/-- The lines between the first and the last line of the icon table. -/
def iconLinesOf (lines : List String) : List String :=
  ((lines.dropWhile (· != "const TAB_ICONS = \x7b")).drop 1).takeWhile (· != "\x7d;")

/-- What stands in front of a name that a line declares at the top level. -/
def declarationOpenings : List String :=
  ["import ", "const ", "function ", "export default function "]

/-- The names that a line declares at the top level. -/
def namesDeclaredBy (line : String) : List String :=
  match afterPrefix? "import \x7b".toList line.toList with
  | some list => (((Import.nameList? list).map Prod.fst).getD []).map Import.localName
  | none =>
      (declarationOpenings.findSome? fun opening =>
        (afterPrefix? opening.toList line.toList).bind identifier?).toList.map
          fun (name, _) => String.ofList name

def declaredNames (lines : List String) : List String :=
  lines.flatMap namesDeclaredBy

/-- A line that stays one line in a text. -/
def IsFlat (line : String) : Prop :=
  '\n' ∉ line.toList ∧ '\r' ∉ line.toList

instance (line : String) : Decidable (IsFlat line) :=
  inferInstanceAs (Decidable ('\n' ∉ line.toList ∧ '\r' ∉ line.toList))

theorem IsFlat.append {first second : String} (flat : IsFlat first) (later : IsFlat second) :
    IsFlat (first ++ second) := by
  simp only [IsFlat, String.toList_append, List.mem_append, not_or]
  exact ⟨⟨flat.1, later.1⟩, flat.2, later.2⟩

theorem isFlat_quote (text : String) : IsFlat (quote text) := by
  simp only [IsFlat, toList_quote, List.mem_cons, List.mem_append, not_or]
  exact ⟨⟨by decide, Quoted.notMem_body (.inl rfl) _, by decide, by simp⟩,
    by decide, Quoted.notMem_body (.inr rfl) _, by decide, by simp⟩

end Router

/-- A route with a component name that was made from a path. -/
def Route.IsNamed (route : Route) : Prop :=
  ∃ path, route.componentName = String.ofList (RoutePath.componentName path)

namespace Route.IsNamed

variable {route : Route} (named : route.IsNamed)

include named

theorem plain : ∀ c ∈ route.componentName.toList, isAsciiAlphanumeric c = true := by
  obtain ⟨path, name⟩ := named
  rw [name, String.toList_ofList]
  exact RoutePath.isAsciiAlphanumeric_of_mem_componentName

theorem notMem {mark : Char} (outside : isAsciiAlphanumeric mark = false) :
    mark ∉ route.componentName.toList := fun membership =>
  ne_of_class (named.plain mark membership) outside rfl

theorem exists_letter :
    ∃ c rest, route.componentName.toList = c :: rest ∧ isAsciiLetter c = true := by
  obtain ⟨path, name⟩ := named
  rw [name, String.toList_ofList]
  exact RoutePath.exists_letter_componentName path

theorem identifier?_append {mark : Char} (ends : isIdentifierPart mark = false)
    (rest : List Char) : identifier? (route.componentName.toList ++ mark :: rest) =
      some (route.componentName.toList, mark :: rest) := by
  refine Script.identifier?_append named.plain named.exists_letter fun c first => ?_
  rwa [← Option.some.inj first]

theorem isFlat : Router.IsFlat route.componentName :=
  ⟨named.notMem (by decide), named.notMem (by decide)⟩

end Route.IsNamed

namespace Router

/-- What a line of a router can be. -/
inductive LineOf (routes : List Route) : String → Prop where
  | blank : LineOf routes ""
  | library {line} : line ∈ libraryLines (routes.filter Route.isTab) → LineOf routes line
  | frame {line} : line ∈ frameLines (routes.filter Route.isTab) → LineOf routes line
  | imports {route} : route ∈ routes → LineOf routes (importLine route)
  | icon {route} : route ∈ routes → LineOf routes (iconLine route)
  | screen {navigator route line} :
      navigator ∈ ["Tab", "Stack"] → route ∈ routes → line ∈ screenLines navigator route →
      LineOf routes line

theorem mem_onlyWithTabs {tabs : List Route} {lines : List String} {line : String} :
    line ∈ onlyWithTabs tabs lines ↔ tabs.isEmpty = false ∧ line ∈ lines := by
  unfold onlyWithTabs
  cases tabs.isEmpty <;> simp

theorem lineOf_of_mem {routes : List Route} {line : String} (membership : line ∈ linesOf routes) :
    LineOf routes line := by
  have framed : line ∈ frameLines (routes.filter Route.isTab) → LineOf routes line := .frame
  simp only [frameLines, iconTable, tabNavigator, stackNavigator, List.mem_append,
    mem_onlyWithTabs, List.map_nil, List.flatMap_nil, List.append_nil] at framed
  simp only [linesOf, screenImports, iconTable, tabNavigator, stackNavigator, List.mem_append,
    mem_onlyWithTabs] at membership
  rcases membership with (((library | imports | gap) | navigator) | ⟨tabs, inTabs⟩) | stack
  · exact .library library
  · obtain ⟨route, isRoute, rfl⟩ := List.mem_map.mp imports
    exact .imports isRoute
  · split at gap
    · exact absurd gap List.not_mem_nil
    · obtain rfl := List.mem_singleton.mp gap
      exact .blank
  · exact framed (.inl (.inl navigator))
  · rcases inTabs with ((first | icons) | last) | ((first | screens) | last)
    · exact framed (.inl (.inr ⟨tabs, .inl (.inl first)⟩))
    · obtain ⟨route, isTab, rfl⟩ := List.mem_map.mp icons
      exact .icon (List.mem_of_mem_filter isTab)
    · exact framed (.inl (.inr ⟨tabs, .inl (.inr last)⟩))
    · exact framed (.inl (.inr ⟨tabs, .inr (.inl first)⟩))
    · obtain ⟨route, isTab, inScreen⟩ := List.mem_flatMap.mp screens
      exact .screen List.mem_cons_self (List.mem_of_mem_filter isTab) inScreen
    · exact framed (.inl (.inr ⟨tabs, .inr (.inr last)⟩))
  · rcases stack with ((first | mainTabs) | screens) | last
    · exact framed (.inr (.inl (.inl first)))
    · exact framed (.inr (.inl (.inr mainTabs)))
    · obtain ⟨route, isStack, inScreen⟩ := List.mem_flatMap.mp screens
      exact .screen (by simp) (List.mem_of_mem_filter isStack) inScreen
    · exact framed (.inr (.inr last))

theorem isFlat_screenLines (navigator : String) (flat : IsFlat navigator) {route : Route}
    (named : route.IsNamed) : ∀ line ∈ screenLines navigator route, IsFlat line := by
  have shown : IsFlat (toString route.options.headerShown) := by
    cases route.options.headerShown <;> decide +kernel
  have bracket : IsFlat "      <" := by decide +kernel
  have ending : IsFlat ".Screen" := by decide +kernel
  intro line membership
  simp only [screenLines, List.mem_cons, List.not_mem_nil, or_false] at membership
  rcases membership with rfl | rfl | rfl | rfl | rfl
  · exact (bracket.append flat).append ending
  · exact (IsFlat.append (by decide +kernel) named.isFlat).append (by decide +kernel)
  · exact (IsFlat.append (by decide +kernel) named.isFlat).append (by decide +kernel)
  · exact (((IsFlat.append (by decide +kernel) (isFlat_quote _)).append (by decide +kernel)).append
      shown).append (by decide +kernel)
  · decide +kernel

/-- Whatever its titles, icons and paths are, a router has no line end inside a line. -/
theorem isFlat_linesOf {routes : List Route} (named : ∀ route ∈ routes, route.IsNamed) :
    ∀ line ∈ linesOf routes, IsFlat line := by
  intro line membership
  cases lineOf_of_mem membership with
  | blank => decide +kernel
  | library fixed =>
      have all : ∀ line ∈ libraryLines (routes.filter Route.isTab), IsFlat line := by
        unfold libraryLines onlyWithTabs
        cases (routes.filter Route.isTab).isEmpty <;> decide +kernel
      exact all line fixed
  | frame fixed =>
      have all : ∀ line ∈ frameLines (routes.filter Route.isTab), IsFlat line := by
        unfold frameLines navigatorLines stackNavigator onlyWithTabs
        cases (routes.filter Route.isTab).isEmpty <;> decide +kernel
      exact all line fixed
  | @imports route isRoute =>
      have front : IsFlat "import " := by decide +kernel
      have middle : IsFlat " from " := by decide +kernel
      have ending : IsFlat ";" := by decide +kernel
      exact (((front.append (named route isRoute).isFlat).append middle).append
        (isFlat_quote _)).append ending
  | @icon route isRoute =>
      have front : IsFlat "  " := by decide +kernel
      have middle : IsFlat ": " := by decide +kernel
      have ending : IsFlat "," := by decide +kernel
      exact (((front.append (named route isRoute).isFlat).append middle).append
        (isFlat_quote _)).append ending
  | @screen navigator route _ isNavigator isRoute inScreen =>
      have flat : ∀ navigator ∈ ["Tab", "Stack"], IsFlat navigator := by decide +kernel
      exact isFlat_screenLines navigator (flat navigator isNavigator) (named route isRoute) line
        inScreen

theorem textLines_eq {routes : List Route} (named : ∀ route ∈ routes, route.IsNamed) :
    textLines routes = linesOf (Route.sorted routes) := by
  have sortedNamed : ∀ route ∈ Route.sorted routes, route.IsNamed := fun route membership =>
    named route ((Route.sorted_perm routes).mem_iff.mp membership)
  have text : (generate routes).toList =
      ((linesOf (Route.sorted routes)).map String.toList).flatMap (· ++ ['\n']) := by
    simp [generate, String.toList_join, List.flatMap_map]
  rw [textLines, text, lines_ended, List.map_map]
  · simp
  · intro line membership
    obtain ⟨code, isLine, rfl⟩ := List.mem_map.mp membership
    obtain ⟨noFeed, noReturn⟩ := isFlat_linesOf sortedNamed code isLine
    exact ⟨noFeed, fun last => noReturn (List.mem_of_mem_getLast? last)⟩

theorem namesDeclaredBy_of_indented {line : String} (indented : line.toList.head? = some ' ') :
    namesDeclaredBy line = [] := by
  have apart : ∀ opening ∈ "import \x7b" :: declarationOpenings,
      opening.toList ≠ [] ∧ some ' ' ≠ opening.toList.head? := by
    decide
  have silent : ∀ opening ∈ "import \x7b" :: declarationOpenings,
      afterPrefix? opening.toList line.toList = none := fun opening membership =>
    afterPrefix?_eq_none_of_head? (apart opening membership).1
      (indented ▸ (apart opening membership).2)
  have unnamed : (declarationOpenings.findSome? fun opening =>
      (afterPrefix? opening.toList line.toList).bind identifier?) = none := by
    apply List.findSome?_eq_none_iff.mpr
    intro opening membership
    rw [silent opening (List.mem_cons_of_mem _ membership), Option.bind_none]
  rw [namesDeclaredBy, silent _ List.mem_cons_self]
  simp only [unnamed, Option.toList_none, List.map_nil]

theorem head?_iconLine (route : Route) : (iconLine route).toList.head? = some ' ' := by
  simp [iconLine]

theorem head?_screenLines (navigator : String) (route : Route) :
    ∀ line ∈ screenLines navigator route, line.toList.head? = some ' ' := by
  simp [screenLines]

theorem toList_importLine (route : Route) : (importLine route).toList =
    "import ".toList ++ (route.componentName.toList ++
      (" from './screens/".toList ++ (Quoted.body route.modulePath.toList ++ '\'' :: [';']))) := by
  have escaped : Quoted.body "./screens/".toList = "./screens/".toList := by decide
  have opened : " from ".toList ++ '\'' :: "./screens/".toList = " from './screens/".toList := by
    decide
  rw [← opened]
  simp only [importLine, toList_quote, String.toList_append, Quoted.body_append, escaped]
  simp

/-- The name behind the keyword of an import, and what stands behind the name. -/
theorem identifier?_importLine {route : Route} (named : route.IsNamed) :
    ∃ text, afterPrefix? "import ".toList (importLine route).toList = some text ∧
      identifier? text = some (route.componentName.toList,
        " from './screens/".toList ++ (Quoted.body route.modulePath.toList ++ '\'' :: [';'])) :=
  ⟨_, afterPrefix?_eq_some_iff.mpr (toList_importLine route),
    named.identifier?_append (by decide : isIdentifierPart ' ' = false) _⟩

theorem namesDeclaredBy_importLine {route : Route} (named : route.IsNamed) :
    namesDeclaredBy (importLine route) = [route.componentName] := by
  obtain ⟨text, found, name⟩ := identifier?_importLine named
  have noBrace : afterPrefix? "import \x7b".toList (importLine route).toList = none := by
    obtain ⟨c, rest, shape, letter⟩ := named.exists_letter
    have other : '{' ≠ c := (ne_of_class letter (by decide)).symm
    rw [toList_importLine, shape]
    simp [afterPrefix?, other]
  rw [namesDeclaredBy, noBrace]
  simp only [declarationOpenings, List.findSome?_cons, found, Option.bind_some, name,
    Option.toList_some, List.map_singleton, String.ofList_toList]

theorem screenImport?_importLine {route : Route} (named : route.IsNamed) :
    screenImport? (importLine route) =
      some (route.componentName, String.ofList (Quoted.kept route.modulePath.toList)) := by
  obtain ⟨text, found, name⟩ := identifier?_importLine named
  have literal : ∀ rest, afterPrefix? " from './screens/".toList
      (" from './screens/".toList ++ rest) = some rest :=
    fun rest => afterPrefix?_eq_some_iff.mpr rfl
  simp only [screenImport?, found, name, literal, Option.bind_some, Quoted.read?_body,
    ↓reduceIte, String.ofList_toList]

/-- The names that a router with the given tabs declares before any route. -/
theorem declaredNames_libraryLines (tabs : List Route) : declaredNames (libraryLines tabs) =
    ["React"] ++ onlyWithTabs tabs ["createBottomTabNavigator"] ++ ["createStackNavigator"] ++
      onlyWithTabs tabs ["Ionicons"] := by
  unfold libraryLines onlyWithTabs
  cases tabs.isEmpty <;> decide +kernel

theorem declaredNames_frameLines (tabs : List Route) : declaredNames (frameLines tabs) =
    onlyWithTabs tabs ["Tab"] ++ ["Stack"] ++ onlyWithTabs tabs ["TAB_ICONS", "TabNavigator"] ++
      ["Router"] := by
  unfold frameLines navigatorLines stackNavigator onlyWithTabs
  cases tabs.isEmpty <;> decide +kernel

theorem declaredNames_linesOf {routes : List Route} (named : ∀ route ∈ routes, route.IsNamed) :
    declaredNames (linesOf routes) =
      declaredNames (libraryLines (routes.filter Route.isTab)) ++ routes.map Route.componentName ++
        declaredNames (frameLines (routes.filter Route.isTab)) := by
  have imports : (routes.flatMap fun route => namesDeclaredBy (importLine route)) =
      routes.map Route.componentName := by
    rw [List.map_eq_flatMap]
    exact List.flatMap_congr fun route isRoute => namesDeclaredBy_importLine (named route isRoute)
  rw [declaredNames, flatMap_linesOf (by decide +kernel), imports]
  · rfl
  · exact fun route _ => namesDeclaredBy_of_indented (head?_iconLine route)
  · exact fun navigator _ route _ line inScreen =>
      namesDeclaredBy_of_indented (head?_screenLines navigator route line inScreen)

/-- The imports of a router name every route and its module, in the order of the routes. -/
theorem screenImports_linesOf {routes : List Route} (named : ∀ route ∈ routes, route.IsNamed) :
    ((linesOf routes).filter isScreenImport).map screenImport? = routes.map fun route =>
      some (route.componentName, String.ofList (Quoted.kept route.modulePath.toList)) := by
  rw [filter_isScreenImport_linesOf, List.map_map]
  exact List.map_congr_left fun route isRoute => screenImport?_importLine (named route isRoute)

end Router

end ScreenCompiler
