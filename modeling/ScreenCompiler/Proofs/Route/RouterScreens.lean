import ScreenCompiler.Proofs.Route.RouterText

/-!
# The screens that a router registers
-/

namespace ScreenCompiler

open Text Script

namespace Router

theorem tagText?_of_head? {line : String} (other : (trimStart line.toList).head? ≠ some '<') :
    tagText? line = none :=
  afterPrefix?_eq_none_of_head? (List.cons_ne_nil _ _) other

theorem tagText?_tagLine (navigator : String) :
    tagText? ("      <" ++ navigator ++ ".Screen") = some (screenTag navigator) := by
  simp [tagText?, trimStart, screenTag, isBlank, afterPrefix?]

theorem tagText?_screenLines (navigator : String) (route : Route) :
    ∀ line ∈ (screenLines navigator route).tail, tagText? line = none := by
  intro line membership
  apply tagText?_of_head?
  simp only [screenLines, List.tail_cons, List.mem_cons, List.not_mem_nil, or_false] at membership
  rcases membership with rfl | rfl | rfl | rfl <;> simp [trimStart, isBlank]

theorem tagText?_importLine (route : Route) : tagText? (importLine route) = none := by
  apply tagText?_of_head?
  simp [importLine, trimStart, isBlank]

theorem trimStart_iconLine {route : Route} (named : route.IsNamed) :
    trimStart (iconLine route).toList = route.componentName.toList ++ (": '".toList ++
      (Quoted.body (route.options.tabIcon.getD defaultIcon).toList ++ '\'' :: [','])) := by
  obtain ⟨c, rest, shape, -⟩ := named.exists_letter
  have solid : isBlank c = false :=
    isBlank_of_isAsciiAlphanumeric (named.plain c (shape ▸ List.mem_cons_self))
  have blank : isBlank ' ' = true := by decide
  simp [iconLine, trimStart, shape, solid, blank, toList_quote]

theorem tagText?_iconLine {route : Route} (named : route.IsNamed) :
    tagText? (iconLine route) = none := by
  obtain ⟨c, rest, shape, letter⟩ := named.exists_letter
  have other : c ≠ '<' := ne_of_class letter (by decide)
  apply tagText?_of_head?
  simp [trimStart_iconLine named, shape, other]

theorem tagText?_libraryLines (tabs : List Route) :
    ∀ line ∈ libraryLines tabs, tagText? line = none := by
  unfold libraryLines onlyWithTabs
  cases tabs.isEmpty <;> decide +kernel

theorem trimStart_nameLine (route : Route) :
    trimStart ("        name=\"" ++ route.componentName ++ "\"").toList =
      "name=\"".toList ++ (route.componentName.toList ++ ['"']) := by
  simp [trimStart, isBlank]

/-- Lines without the bare tag of a screen. -/
def TagFree (navigator : String) (lines : List String) : Prop :=
  ∀ line ∈ lines, tagText? line ≠ some (screenTag navigator)

instance (navigator : String) (lines : List String) : Decidable (TagFree navigator lines) :=
  inferInstanceAs (Decidable (∀ line ∈ lines, tagText? line ≠ some (screenTag navigator)))

theorem tagFree_of_tagText? {lines : List String} (noTag : ∀ line ∈ lines, tagText? line = none)
    (navigator : String) : TagFree navigator lines := by
  intro line membership isTag
  rw [noTag line membership] at isTag
  contradiction

theorem TagFree.append {navigator : String} {first second : List String}
    (free : TagFree navigator first) (later : TagFree navigator second) :
    TagFree navigator (first ++ second) :=
  List.forall_mem_append.mpr ⟨free, later⟩

/-- Names are only read below a bare tag. -/
theorem TagFree.namesBelow_append {navigator : String} {first : List String}
    (free : TagFree navigator first) (second : List String) :
    namesBelow navigator (first ++ second) = namesBelow navigator second := by
  induction first with
  | nil => rfl
  | cons line first inductionHypothesis =>
      obtain ⟨other, free⟩ := List.forall_mem_cons.mp free
      rw [List.cons_append, namesBelow, if_neg other]
      exact inductionHypothesis free

theorem tagFree_screenLines {navigator other : String}
    (differs : screenTag other ≠ screenTag navigator) (routes : List Route) :
    TagFree navigator (routes.flatMap (screenLines other)) := by
  intro line membership
  obtain ⟨route, -, inScreen⟩ := List.mem_flatMap.mp membership
  rcases List.mem_cons.mp inScreen with rfl | inTail
  · rw [tagText?_tagLine]
    exact fun same => differs (Option.some.inj same)
  · exact tagFree_of_tagText? (tagText?_screenLines other route) navigator line inTail

theorem namesBelow_screenLines (navigator : String) {route : Route} (named : route.IsNamed)
    (rest : List String) : namesBelow navigator (screenLines navigator route ++ rest) =
      route.componentName :: namesBelow navigator rest := by
  have noQuote : ∀ c ∈ route.componentName.toList, (c != '"') = true := by
    intro c membership
    simpa using ne_of_class (named.plain c membership) (by decide)
  have name : nameAttribute? ("name=\"".toList ++ (route.componentName.toList ++ ['"'])) =
      some route.componentName := by
    rw [nameAttribute?, afterPrefix?_eq_some_iff.mpr rfl, Option.map_some,
      List.takeWhile_append_of_pos noQuote]
    simp
  have behind : TagFree navigator (screenLines navigator route).tail :=
    tagFree_of_tagText? (tagText?_screenLines navigator route) navigator
  have shape : screenLines navigator route =
      ("      <" ++ navigator ++ ".Screen") :: (screenLines navigator route).tail := rfl
  rw [shape, List.cons_append, namesBelow, if_pos (tagText?_tagLine navigator),
    behind.namesBelow_append]
  simp only [screenLines, List.tail_cons, List.cons_append, List.head?_cons, Option.bind_some,
    trimStart_nameLine, name, Option.toList_some, List.nil_append]

theorem namesBelow_flatMap_screenLines (navigator : String) {routes : List Route}
    (named : ∀ route ∈ routes, route.IsNamed) (rest : List String) :
    namesBelow navigator (routes.flatMap (screenLines navigator) ++ rest) =
      routes.map Route.componentName ++ namesBelow navigator rest := by
  induction routes with
  | nil => rfl
  | cons route routes inductionHypothesis =>
      obtain ⟨first, named⟩ := List.forall_mem_cons.mp named
      rw [List.flatMap_cons, List.append_assoc, namesBelow_screenLines navigator first,
        inductionHypothesis named]
      rfl

/-- The tab navigator is the entries of the tabs between lines without a bare screen tag. -/
theorem exists_tabNavigator_eq : ∃ front back,
    (∀ tabs, tabNavigator tabs = front ++ tabs.flatMap (screenLines "Tab") ++ back) ∧
      ∀ navigator ∈ ["Tab", "Stack"], TagFree navigator front ∧ TagFree navigator back :=
  ⟨_, _, fun _ => rfl, by decide +kernel⟩

theorem exists_stackNavigator_eq : ∃ front back,
    (∀ tabs stack, stackNavigator tabs stack =
      front ++ onlyWithTabs tabs [mainTabsLine] ++ stack.flatMap (screenLines "Stack") ++ back) ∧
      ∀ navigator ∈ ["Tab", "Stack"], TagFree navigator front ∧ TagFree navigator back :=
  ⟨_, _, fun _ _ => rfl, by decide +kernel⟩

theorem onlyWithTabs_append (tabs : List Route) (first second : List String) :
    onlyWithTabs tabs (first ++ second) = onlyWithTabs tabs first ++ onlyWithTabs tabs second := by
  unfold onlyWithTabs
  cases tabs.isEmpty <;> rfl

theorem onlyWithTabs_flatMap (tabs : List Route) (entry : Route → List String) :
    onlyWithTabs tabs (tabs.flatMap entry) = tabs.flatMap entry := by
  cases tabs <;> rfl

theorem TagFree.onlyWithTabs {navigator : String} {lines : List String}
    (free : TagFree navigator lines) (tabs : List Route) :
    TagFree navigator (onlyWithTabs tabs lines) :=
  fun line membership => free line (mem_onlyWithTabs.mp membership).2

/-- A router is the entries of its tabs and those of its other routes, among lines without a bare
screen tag. -/
theorem exists_linesOf_eq {routes : List Route} (named : ∀ route ∈ routes, route.IsNamed) :
    ∃ above between below, linesOf routes = above ++
        ((routes.filter Route.isTab).flatMap (screenLines "Tab") ++ (between ++
          ((routes.filter fun route => !route.isTab).flatMap (screenLines "Stack") ++ below))) ∧
      ∀ navigator ∈ ["Tab", "Stack"],
        TagFree navigator above ∧ TagFree navigator between ∧ TagFree navigator below := by
  obtain ⟨tabFront, tabBack, tabShape, tabFree⟩ := exists_tabNavigator_eq
  obtain ⟨stackFront, stackBack, stackShape, stackFree⟩ := exists_stackNavigator_eq
  have imports : ∀ navigator, TagFree navigator (routes.map importLine) := fun navigator =>
    tagFree_of_tagText? (by simp [tagText?_importLine]) navigator
  have icons : ∀ navigator, TagFree navigator ((routes.filter Route.isTab).map iconLine) := by
    refine fun navigator => tagFree_of_tagText? ?_ navigator
    intro line membership
    obtain ⟨route, isTab, rfl⟩ := List.mem_map.mp membership
    exact tagText?_iconLine (named route (List.mem_of_mem_filter isTab))
  have gap : ∀ navigator ∈ ["Tab", "Stack"],
      TagFree navigator (if routes.isEmpty then [] else [""]) := by
    cases routes.isEmpty <;> decide +kernel
  have navigators : ∀ navigator ∈ ["Tab", "Stack"],
      TagFree navigator (navigatorLines (routes.filter Route.isTab)) := by
    unfold navigatorLines Router.onlyWithTabs
    cases (routes.filter Route.isTab).isEmpty <;> decide +kernel
  have fixed : ∀ navigator ∈ ["Tab", "Stack"], TagFree navigator ["const TAB_ICONS = \x7b"] ∧
      TagFree navigator ["\x7d;", ""] ∧ TagFree navigator [mainTabsLine] := by
    decide +kernel
  refine ⟨libraryLines (routes.filter Route.isTab) ++ screenImports routes ++
      navigatorLines (routes.filter Route.isTab) ++
      onlyWithTabs (routes.filter Route.isTab) (iconTable (routes.filter Route.isTab) ++ tabFront),
    onlyWithTabs (routes.filter Route.isTab) tabBack ++ stackFront ++
      onlyWithTabs (routes.filter Route.isTab) [mainTabsLine],
    stackBack, ?shape, fun navigator isNavigator => ?free⟩
  case shape =>
    simp only [linesOf, tabShape, stackShape, onlyWithTabs_append, onlyWithTabs_flatMap,
      List.append_assoc]
  case free =>
    obtain ⟨iconFront, iconBack, mainTabs⟩ := fixed navigator isNavigator
    obtain ⟨freeTabFront, freeTabBack⟩ := tabFree navigator isNavigator
    obtain ⟨freeStackFront, freeStackBack⟩ := stackFree navigator isNavigator
    have table : TagFree navigator (iconTable (routes.filter Route.isTab)) :=
      (iconFront.append (icons navigator)).append iconBack
    have library :=
      tagFree_of_tagText? (tagText?_libraryLines (routes.filter Route.isTab)) navigator
    exact ⟨((library.append ((imports navigator).append (gap navigator isNavigator))).append
        (navigators navigator isNavigator)).append ((table.append freeTabFront).onlyWithTabs _),
      ((freeTabBack.onlyWithTabs _).append freeStackFront).append (mainTabs.onlyWithTabs _),
      freeStackBack⟩

/-- The names below the screen tags of a router are those of the tabs and those of the others, each
in the order of the routes. -/
theorem namesBelow_linesOf {routes : List Route} (named : ∀ route ∈ routes, route.IsNamed) :
    namesBelow "Tab" (linesOf routes) =
        (routes.filter Route.isTab).map Route.componentName ∧
      namesBelow "Stack" (linesOf routes) =
        (routes.filter fun route => !route.isTab).map Route.componentName := by
  obtain ⟨above, between, below, shape, free⟩ := exists_linesOf_eq named
  have inTabs : ∀ route ∈ routes.filter Route.isTab, route.IsNamed :=
    fun route membership => named route (List.mem_of_mem_filter membership)
  have inStack : ∀ route ∈ routes.filter fun route => !route.isTab, route.IsNamed :=
    fun route membership => named route (List.mem_of_mem_filter membership)
  constructor
  · obtain ⟨freeAbove, freeBetween, freeBelow⟩ := free "Tab" (by simp)
    have freeStack := @tagFree_screenLines "Tab" "Stack"
      (by decide +kernel) (routes.filter fun route => !route.isTab)
    have behind := ((freeBetween.append freeStack).append freeBelow).namesBelow_append []
    rw [List.append_nil, List.append_assoc] at behind
    rw [shape, freeAbove.namesBelow_append, namesBelow_flatMap_screenLines "Tab" inTabs, behind]
    simp [namesBelow]
  · obtain ⟨freeAbove, freeBetween, freeBelow⟩ := free "Stack" (by simp)
    have freeTabs := @tagFree_screenLines "Stack" "Tab"
      (by decide +kernel) (routes.filter Route.isTab)
    have behind := freeBelow.namesBelow_append []
    rw [List.append_nil] at behind
    rw [shape, freeAbove.namesBelow_append, freeTabs.namesBelow_append,
      freeBetween.namesBelow_append, namesBelow_flatMap_screenLines "Stack" inStack, behind]
    simp [namesBelow]

/-- A reader of tags reads from a router what it reads from the fixed lines, if it passes over the
bare screen tags. -/
theorem readTags_linesOf {read : List Char → Option String} {routes : List Route}
    (named : ∀ route ∈ routes, route.IsNamed)
    (silent : ∀ navigator ∈ ["Tab", "Stack"], read (screenTag navigator) = none) :
    readTags read (linesOf routes) = readTags read (frameLines (routes.filter Route.isTab)) := by
  have noTag : ∀ line : String, tagText? line = none →
      ((tagText? line).bind read).toList = [] := fun line found => by
    rw [found, Option.bind_none, Option.toList_none]
  have library : (libraryLines (routes.filter Route.isTab)).flatMap
      (fun line => ((tagText? line).bind read).toList) = [] :=
    List.flatMap_eq_nil_iff.mpr fun line inLibrary =>
      noTag line (tagText?_libraryLines _ line inLibrary)
  have imports : (routes.flatMap fun route =>
      ((tagText? (importLine route)).bind read).toList) = [] :=
    List.flatMap_eq_nil_iff.mpr fun route _ => noTag _ (tagText?_importLine route)
  rw [readTags, flatMap_linesOf (noTag _ (by decide +kernel)), library, imports]
  · rfl
  · exact fun route isRoute => noTag _ (tagText?_iconLine (named route isRoute))
  · intro navigator isNavigator route _ line inScreen
    rcases List.mem_cons.mp inScreen with rfl | inTail
    · rw [tagText?_tagLine, Option.bind_some, silent navigator isNavigator, Option.toList_none]
    · exact noTag line (tagText?_screenLines navigator route line inTail)

theorem namesBeside_linesOf {routes : List Route} (named : ∀ route ∈ routes, route.IsNamed) :
    namesBeside "Tab" (linesOf routes) = [] ∧
      namesBeside "Stack" (linesOf routes) =
        onlyWithTabs (routes.filter Route.isTab) ["MainTabs"] := by
  have frame : namesBeside "Tab" (frameLines (routes.filter Route.isTab)) = [] ∧
      namesBeside "Stack" (frameLines (routes.filter Route.isTab)) =
        onlyWithTabs (routes.filter Route.isTab) ["MainTabs"] := by
    unfold frameLines navigatorLines stackNavigator onlyWithTabs
    cases (routes.filter Route.isTab).isEmpty <;> decide +kernel
  refine ⟨(readTags_linesOf named ?_).trans frame.1, (readTags_linesOf named ?_).trans frame.2⟩
  all_goals decide +kernel

theorem openedNavigators_linesOf {routes : List Route}
    (named : ∀ route ∈ routes, route.IsNamed) : openedNavigators (linesOf routes) =
      onlyWithTabs (routes.filter Route.isTab) ["Tab"] ++ ["Stack"] := by
  have frame : openedNavigators (frameLines (routes.filter Route.isTab)) =
      onlyWithTabs (routes.filter Route.isTab) ["Tab"] ++ ["Stack"] := by
    unfold frameLines navigatorLines stackNavigator onlyWithTabs
    cases (routes.filter Route.isTab).isEmpty <;> decide +kernel
  exact (readTags_linesOf named (by decide +kernel)).trans frame

theorem icon?_iconLine {route : Route} (named : route.IsNamed) :
    icon? (iconLine route) = some (route.componentName,
      String.ofList (Quoted.kept (route.options.tabIcon.getD defaultIcon).toList)) := by
  have opened : ": '".toList = ':' :: " '".toList := by decide
  have name := fun rest => named.identifier?_append (by decide : isIdentifierPart ':' = false)
    (" '".toList ++ rest)
  have literal : ∀ rest, afterPrefix? (':' :: " '".toList) (':' :: (" '".toList ++ rest)) =
      some rest := fun rest => afterPrefix?_eq_some_iff.mpr rfl
  rw [icon?, trimStart_iconLine named, opened, List.cons_append, name, Option.bind_some]
  simp only [literal, Option.bind_some, Quoted.read?_body, ↓reduceIte, String.ofList_toList]

theorem importLine_ne (route : Route) : importLine route ≠ "const TAB_ICONS = \x7b" := by
  intro same
  have first := congrArg (fun line => line.toList.head?) same
  simp [importLine] at first

theorem iconLine_ne (route : Route) : iconLine route ≠ "\x7d;" := by
  intro same
  have first := congrArg (fun line => line.toList.head?) same
  simp [iconLine] at first

/-- Icons are only read behind the head of their table. -/
theorem iconLinesOf_append {above : List String}
    (free : ∀ line ∈ above, line ≠ "const TAB_ICONS = \x7b") (rest : List String) :
    iconLinesOf (above ++ rest) = iconLinesOf rest := by
  rw [iconLinesOf, List.dropWhile_append_of_pos fun line membership =>
    bne_iff_ne.mpr (free line membership)]
  rfl

theorem iconLinesOf_iconTable (tabs : List Route) (rest : List String) :
    iconLinesOf (iconTable tabs ++ rest) = tabs.map iconLine := by
  have inside : ∀ line ∈ tabs.map iconLine, line != "\x7d;" := by
    intro line membership
    obtain ⟨route, -, rfl⟩ := List.mem_map.mp membership
    exact bne_iff_ne.mpr (iconLine_ne route)
  have shape : iconTable tabs ++ rest =
      "const TAB_ICONS = \x7b" :: (tabs.map iconLine ++ "\x7d;" :: "" :: rest) := by
    simp [iconTable]
  rw [iconLinesOf, shape, List.dropWhile_cons_of_neg (by simp), List.drop_one, List.tail_cons,
    List.takeWhile_append_of_pos inside, List.takeWhile_cons_of_neg (by simp), List.append_nil]

theorem iconLinesOf_linesOf (routes : List Route) :
    iconLinesOf (linesOf routes) = (routes.filter Route.isTab).map iconLine := by
  have library : ∀ line ∈ libraryLines (routes.filter Route.isTab),
      line ≠ "const TAB_ICONS = \x7b" := by
    unfold libraryLines onlyWithTabs
    cases (routes.filter Route.isTab).isEmpty <;> simp
  have navigators : ∀ line ∈ navigatorLines (routes.filter Route.isTab),
      line ≠ "const TAB_ICONS = \x7b" := by
    unfold navigatorLines onlyWithTabs
    cases (routes.filter Route.isTab).isEmpty <;> simp
  have above : ∀ line ∈ libraryLines (routes.filter Route.isTab) ++ screenImports routes ++
      navigatorLines (routes.filter Route.isTab), line ≠ "const TAB_ICONS = \x7b" := by
    simp only [screenImports, List.mem_append]
    rintro line ((inLibrary | imports | gap) | navigator)
    · exact library line inLibrary
    · obtain ⟨route, -, rfl⟩ := List.mem_map.mp imports
      exact importLine_ne route
    · split at gap
      · exact absurd gap List.not_mem_nil
      · rw [List.mem_singleton.mp gap]
        simp
    · exact navigators line navigator
  rw [linesOf, List.append_assoc, iconLinesOf_append above]
  by_cases noTabs : routes.filter Route.isTab = []
  · have silent : ∀ line ∈ stackNavigator [] (routes.filter fun route => !route.isTab),
        line ≠ "const TAB_ICONS = \x7b" := by
      rintro line membership rfl
      have inScreens : "const TAB_ICONS = \x7b" ∈
          (routes.filter fun route => !route.isTab).flatMap (screenLines "Stack") := by
        simpa [stackNavigator, onlyWithTabs] using membership
      obtain ⟨route, -, inScreen⟩ := List.mem_flatMap.mp inScreens
      have indented := head?_screenLines "Stack" route _ inScreen
      simp at indented
    have none := iconLinesOf_append silent []
    rw [List.append_nil] at none
    rw [noTabs]
    exact none
  · have shown : (routes.filter Route.isTab).isEmpty = false := List.isEmpty_eq_false_iff.mpr noTabs
    rw [onlyWithTabs, if_neg (by rw [shown]; exact Bool.false_ne_true), List.append_assoc,
      iconLinesOf_iconTable]

/-- The routes that a reader of the lines of a router finds in them.  A literal does not keep the
carriage returns of its text. -/
structure Shows (routes : List Route) (lines : List String) : Prop where
  /-- Every route is registered in one of the navigators, and only once. -/
  registered :
    (namesBelow "Tab" lines ++ namesBelow "Stack" lines).Perm (routes.map Route.componentName)
  tabs : namesBelow "Tab" lines =
    ((Route.sorted routes).filter Route.isTab).map Route.componentName
  stack : namesBelow "Stack" lines =
    ((Route.sorted routes).filter fun route => !route.isTab).map Route.componentName
  imports : (lines.filter isScreenImport).map screenImport? =
    (Route.sorted routes).map fun route =>
      some (route.componentName, String.ofList (Quoted.kept route.modulePath.toList))
  icons : (iconLinesOf lines).map icon? =
    ((Route.sorted routes).filter Route.isTab).map fun route => some (route.componentName,
      String.ofList (Quoted.kept (route.options.tabIcon.getD defaultIcon).toList))
  /-- The names beside their tags: only that of the tabs, if there are some. -/
  beside : namesBeside "Tab" lines = [] ∧
    namesBeside "Stack" lines = if routes.any Route.isTab then ["MainTabs"] else []
  mainTabs : mainTabsLine ∈ lines ↔ ∃ route ∈ routes, route.isTab
  navigators : openedNavigators lines =
    (if routes.any Route.isTab then ["Tab"] else []) ++ ["Stack"]

theorem onlyWithTabs_sorted (routes : List Route) (lines : List String) :
    onlyWithTabs ((Route.sorted routes).filter Route.isTab) lines =
      if routes.any Route.isTab then lines else [] := by
  have same : (Route.sorted routes).any Route.isTab = routes.any Route.isTab :=
    (Route.sorted_perm routes).any_eq
  rw [onlyWithTabs, ← same]
  cases tabs : (Route.sorted routes).any Route.isTab with
  | false =>
      have noTabs : ((Route.sorted routes).filter Route.isTab).isEmpty = true := by
        simpa using tabs
      simp [noTabs]
  | true =>
      have someTab : ((Route.sorted routes).filter Route.isTab).isEmpty = false := by
        simpa using tabs
      simp [someTab]

/-- A router has the entry of the tabs if and only if it has tabs. -/
theorem mainTabsLine_mem_linesOf {routes : List Route} (named : ∀ route ∈ routes, route.IsNamed) :
    mainTabsLine ∈ linesOf routes ↔ (routes.filter Route.isTab).isEmpty = false := by
  constructor
  · intro membership
    have read : "MainTabs" ∈ namesBeside "Stack" (linesOf routes) :=
      List.mem_flatMap.mpr ⟨mainTabsLine, membership, by decide +kernel⟩
    rw [(namesBeside_linesOf named).2] at read
    exact (mem_onlyWithTabs.mp read).1
  · intro tabs
    have inStack : mainTabsLine ∈ onlyWithTabs (routes.filter Route.isTab) [mainTabsLine] :=
      mem_onlyWithTabs.mpr ⟨tabs, List.mem_singleton_self _⟩
    simp only [linesOf, stackNavigator, List.mem_append]
    exact .inr (.inl (.inl (.inr inStack)))

section Text

variable {routes : List Route} (named : ∀ route ∈ routes, route.IsNamed)

include named

theorem isNamed_sorted : ∀ route ∈ Route.sorted routes, route.IsNamed :=
  fun route membership => named route ((Route.sorted_perm routes).mem_iff.mp membership)

theorem namesBelow_textLines :
    namesBelow "Tab" (textLines routes) =
        ((Route.sorted routes).filter Route.isTab).map Route.componentName ∧
      namesBelow "Stack" (textLines routes) =
        ((Route.sorted routes).filter fun route => !route.isTab).map Route.componentName := by
  rw [textLines_eq named]
  exact namesBelow_linesOf (isNamed_sorted named)

/-- Every route is registered under the name of its component. -/
theorem componentName_mem_namesBelow {route : Route} (membership : route ∈ routes) :
    route.componentName ∈ namesBelow (navigatorOf route) (textLines routes) := by
  obtain ⟨tabNames, stackNames⟩ := namesBelow_textLines named
  have inSorted : route ∈ Route.sorted routes :=
    (Route.sorted_perm routes).mem_iff.mpr membership
  rw [navigatorOf]
  split
  · rename_i tab
    rw [tabNames]
    exact List.mem_map_of_mem (List.mem_filter.mpr ⟨inSorted, tab⟩)
  · rename_i other
    rw [stackNames]
    exact List.mem_map_of_mem (List.mem_filter.mpr ⟨inSorted, by simpa using other⟩)

theorem namesBelow_textLines_perm :
    (namesBelow "Tab" (textLines routes) ++ namesBelow "Stack" (textLines routes)).Perm
      (routes.map Route.componentName) := by
  obtain ⟨tabNames, stackNames⟩ := namesBelow_textLines named
  have parts := (List.filter_append_perm Route.isTab (Route.sorted routes)).trans
    (Route.sorted_perm routes)
  rw [tabNames, stackNames, ← List.map_append]
  exact parts.map Route.componentName

theorem namesBeside_textLines :
    namesBeside "Tab" (textLines routes) = [] ∧
      namesBeside "Stack" (textLines routes) =
        if routes.any Route.isTab then ["MainTabs"] else [] := by
  rw [textLines_eq named, ← onlyWithTabs_sorted]
  exact namesBeside_linesOf (isNamed_sorted named)

end Text

/-- The text of a router shows its routes, whatever their titles, icons and paths are. -/
theorem textLines_show (routes : List Route) (named : ∀ route ∈ routes, route.IsNamed) :
    Shows routes (textLines routes) := by
  obtain ⟨tabNames, stackNames⟩ := namesBelow_textLines named
  have sortedNamed := isNamed_sorted named
  exact {
    registered := namesBelow_textLines_perm named
    tabs := tabNames
    stack := stackNames
    imports := by
      rw [textLines_eq named]
      exact screenImports_linesOf sortedNamed
    icons := by
      rw [textLines_eq named, iconLinesOf_linesOf, List.map_map]
      exact List.map_congr_left fun route isTab =>
        icon?_iconLine (sortedNamed route (List.mem_of_mem_filter isTab))
    beside := namesBeside_textLines named
    mainTabs := by
      rw [textLines_eq named, mainTabsLine_mem_linesOf sortedNamed]
      simp [(Route.sorted_perm routes).mem_iff]
    navigators := by
      rw [textLines_eq named, openedNavigators_linesOf sortedNamed, onlyWithTabs_sorted] }

/-- Routes whose texts look like lines of a router. -/
def lineLikeRoutes : List Route :=
  [{ logicalPath := "settings", componentName := "Settings", sourceFile := "settings.ignite"
     modulePath := "settings';\nimport Other from './screens/other"
     options := { Screen.standard.options with
       title := some "'\n      <Stack.Screen\n        name=\"Other\"" } },
   { logicalPath := "home", componentName := "Home", sourceFile := "home.ignite"
     modulePath := "(tabs)/home"
     options := { Screen.standard.options with
       isTabScreen := true
       tabIcon := some "home',\n\x7d;" } }]

theorem textLines_show_lineLikeRoutes :
    (∀ route ∈ lineLikeRoutes, route.IsNamed) ∧
      Shows lineLikeRoutes (textLines lineLikeRoutes) := by
  have named : ∀ route ∈ lineLikeRoutes, route.IsNamed := by
    intro route membership
    simp only [lineLikeRoutes, List.mem_cons, List.not_mem_nil, or_false] at membership
    rcases membership with rfl | rfl
    · exact ⟨"settings".toList, by decide +kernel⟩
    · exact ⟨"home".toList, by decide +kernel⟩
  exact ⟨named, textLines_show lineLikeRoutes named⟩

end Router

end ScreenCompiler
