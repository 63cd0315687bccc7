import ScreenCompiler.Proofs.Component.States
import ScreenCompiler.Proofs.Route.Router
import ScreenCompiler.Proofs.Script.Literals

/-!
# Quoted texts in generated code

Titles, icons and module paths stand as string literals in a router, module names and the values
of text states in a component.  What is read behind the code in front of such a literal is the
text, and then the code that follows, whatever the text is.
-/

namespace ScreenCompiler

open Text Script

/-- A text prop holds its text as it is, if that has no double quote, and else as a literal. -/
theorem textProp_cases (key text : String) :
    ('"' ∉ text.toList ∧ textProp key text = key ++ "=\"" ++ text ++ "\"") ∨
      ∃ literal, IsLiteral text literal ∧
        textProp key text = key ++ "=\x7b" ++ literal ++ "\x7d" := by
  by_cases marked : '"' ∈ text.toList
  · refine .inr ⟨quote text, isLiteral_quote text, ?_⟩
    rw [textProp, if_pos (by simpa using marked), codeProp, braced]
    apply String.toList_inj.mp
    simp
  · exact .inl ⟨marked, if_neg (by simpa using marked)⟩

/-- A line of code that quotes a text. -/
structure Quotation where
  front : String
  text : String
  back : String

namespace Quotation

def literal (quotation : Quotation) : String :=
  quote quotation.text

def code (quotation : Quotation) : String :=
  quotation.front ++ quotation.literal ++ quotation.back

/-- The text that is quoted behind the front, and the code behind its literal. -/
def reread? (quotation : Quotation) : Option (List Char × List Char) :=
  (afterPrefix? (quotation.front.toList ++ ['\'']) quotation.code.toList).bind Quoted.read?

/-- No text breaks out of its literal. -/
theorem reread?_eq (quotation : Quotation) :
    quotation.reread? = some (Quoted.kept quotation.text.toList, quotation.back.toList) := by
  have shape : quotation.code.toList = quotation.front.toList ++ ['\''] ++
      (Quoted.body quotation.text.toList ++ '\'' :: quotation.back.toList) := by
    simp [code, literal, toList_quote]
  rw [reread?, afterPrefix?_eq_some_iff.mpr shape, Option.bind_some, Quoted.read?_body]

/-- Items with different texts have different literals.  Carriage returns are not counted on. -/
def KeepsApart {Item : Type} (text : Item → String) (quotation : Item → Quotation) : Prop :=
  ∀ first second, '\r' ∉ (text first).toList → '\r' ∉ (text second).toList →
    text first ≠ text second → (quotation first).literal ≠ (quotation second).literal

theorem keepsApart {Item : Type} {text : Item → String} {quotation : Item → Quotation}
    (front : String) (flat : '\r' ∉ front.toList)
    (quotes : ∀ item, (quotation item).text = front ++ text item) : KeepsApart text quotation := by
  intro first second noReturn noReturnToo differ same
  apply differ
  rw [literal, literal, quotes, quotes, quote_inj_of_flat (by simp [flat, noReturn])
    (by simp [flat, noReturnToo])] at same
  exact (String.append_right_inj front).mp same

end Quotation

namespace Router

def icon (route : Route) : String :=
  route.options.tabIcon.getD defaultIcon

def titleQuotation (route : Route) : Quotation :=
  ⟨"        options=\x7b\x7b title: ", title route,
    ", headerShown: " ++ toString route.options.headerShown ++ " \x7d\x7d"⟩

def iconQuotation (route : Route) : Quotation :=
  ⟨"  " ++ route.componentName ++ ": ", icon route, ","⟩

def moduleQuotation (route : Route) : Quotation :=
  ⟨"import " ++ route.componentName ++ " from ", "./screens/" ++ route.modulePath, ";"⟩

/-- The quotations of the router of a route table. -/
def quotations (routes : List Route) : List Quotation :=
  routes.map titleQuotation ++ (routes.filter Route.isTab).map iconQuotation ++
    routes.map moduleQuotation

theorem code_titleQuotation_mem (navigator : String) (route : Route) :
    (titleQuotation route).code ∈ screenLines navigator route := by
  have line : (titleQuotation route).code =
      "        options=\x7b\x7b title: " ++ quote (title route) ++ ", headerShown: " ++
        toString route.options.headerShown ++ " \x7d\x7d" := by
    simp only [Quotation.code, Quotation.literal, titleQuotation, String.append_assoc]
  simp [screenLines, line]

theorem code_mem_linesOf {routes : List Route} {quotation : Quotation}
    (membership : quotation ∈ quotations routes) : quotation.code ∈ linesOf routes := by
  rcases List.mem_append.mp membership with inFront | isModule
  · rcases List.mem_append.mp inFront with isTitle | isIcon
    · obtain ⟨route, isRoute, rfl⟩ := List.mem_map.mp isTitle
      exact (screenLines_infix_linesOf isRoute).subset (code_titleQuotation_mem _ route)
    · obtain ⟨route, isTab, rfl⟩ := List.mem_map.mp isIcon
      have shown : (routes.filter Route.isTab).isEmpty = false :=
        List.isEmpty_eq_false_iff.mpr (List.ne_nil_of_mem isTab)
      have inIcons : (iconQuotation route).code ∈ (routes.filter Route.isTab).map iconLine :=
        List.mem_map.mpr ⟨route, isTab, rfl⟩
      simp [linesOf, onlyWithTabs, iconTable, shown, inIcons]
  · obtain ⟨route, isRoute, rfl⟩ := List.mem_map.mp isModule
    have inImports : (moduleQuotation route).code ∈ routes.map importLine :=
      List.mem_map.mpr ⟨route, isRoute, rfl⟩
    simp [linesOf, screenImports, inImports]

theorem quotations_sorted_perm (routes : List Route) :
    (quotations (Route.sorted routes)).Perm (quotations routes) := by
  have same := Route.sorted_perm routes
  exact ((same.map _).append ((same.filter _).map _)).append (same.map _)

theorem occurs_generate_of_mem {routes : List Route} {quotation : Quotation}
    (membership : quotation ∈ quotations routes) : Occurs quotation.code (generate routes) := by
  have isLine := code_mem_linesOf ((quotations_sorted_perm routes).mem_iff.mpr membership)
  exact ((Occurs.refl _).append_right "\n").join (List.mem_map.mpr ⟨_, isLine, rfl⟩)

end Router

namespace Import

/-- What an import statement binds, as code. -/
def clause : Import → String
  | default name _ => name
  | named names _ => "\x7b " ++ String.intercalate ", " names ++ " \x7d"
  | whole name _ => "* as " ++ name

end Import

namespace ImportLine

def clause : ImportLine → String
  | single statement => statement.clause
  | mixed name names _ => name ++ ", \x7b " ++ String.intercalate ", " names ++ " \x7d"

def source : ImportLine → String
  | single statement => statement.source
  | mixed _ _ source => source

def quotation (line : ImportLine) : Quotation :=
  ⟨"import " ++ line.clause ++ " from ", line.source, ";"⟩

theorem code_quotation (line : ImportLine) : line.quotation.code = line.text := by
  apply String.toList_inj.mp
  rcases line with (_ | _ | _) | _ <;>
    simp [quotation, Quotation.code, Quotation.literal, clause, source, text, Import.clause,
      Import.source, Import.text]

end ImportLine

namespace State

/-- The text that a text state begins with. -/
def startText (state : State) : String :=
  match state.initialValue with
  | .string text => text
  | _ => state.literal

def quotation (state : State) : Quotation :=
  ⟨"  const [" ++ state.name ++ ", " ++ setterName state.name ++ "] = useState(", state.startText,
    ");"⟩

theorem code_quotation {state : State} (isText : state.type = .string) :
    state.quotation.code = state.declarationLine := by
  have literal : state.quotation.literal = state.code := by
    rw [code, isText, Quotation.literal, quotation, startText]
    cases state.initialValue <;> rfl
  rw [Quotation.code, literal]
  rfl

end State

namespace ComponentModule

/-- The module names and the values of the text states of a component. -/
def quotations (component : ComponentModule) : List Quotation :=
  component.imports.map ImportLine.quotation ++
    (component.states.filter fun state => state.type = .string).map State.quotation

theorem occurs_importText {component : ComponentModule} {line : ImportLine}
    (isLine : line ∈ component.imports) : Occurs line.text component.text := by
  have inImports : Occurs line.text component.importText :=
    (Occurs.refl line.text).intercalate "\n" (List.mem_map.mpr ⟨line, isLine, rfl⟩)
  rw [text_eq, beforeStates]
  simp only [String.append_assoc]
  exact inImports.append_right _

theorem occurs_declarationLine {component : ComponentModule} {state : State}
    (isState : state ∈ component.states) : Occurs state.declarationLine component.text := by
  have isLine : state.declarationLine ++ "\n" ∈
      component.states.map fun state => state.declarationLine ++ "\n" :=
    List.mem_map_of_mem isState
  have inStates := ((Occurs.refl state.declarationLine).append_right "\n").join isLine
  rw [text_eq]
  exact (inStates.append_left _).append_right _

theorem occurs_text_of_mem {component : ComponentModule} {quotation : Quotation}
    (membership : quotation ∈ component.quotations) : Occurs quotation.code component.text := by
  rcases List.mem_append.mp membership with isImport | isState
  · obtain ⟨line, isLine, rfl⟩ := List.mem_map.mp isImport
    rw [line.code_quotation]
    exact occurs_importText isLine
  · obtain ⟨state, isText, rfl⟩ := List.mem_map.mp isState
    obtain ⟨isState, isString⟩ := List.mem_filter.mp isText
    rw [State.code_quotation (by simpa using isString)]
    exact occurs_declarationLine isState

end ComponentModule

/-- The line of a quotation stands in generated code, and its literal gives the text back. -/
structure Quotation.IsHeldBy (quotation : Quotation) (generated : String) : Prop where
  occurs : Occurs quotation.code generated
  literal : IsLiteral quotation.text quotation.literal
  reread : quotation.reread? = some (Quoted.kept quotation.text.toList, quotation.back.toList)

theorem Quotation.isHeldBy {quotation : Quotation} {generated : String}
    (occurs : Occurs quotation.code generated) : quotation.IsHeldBy generated :=
  ⟨occurs, isLiteral_quote quotation.text, quotation.reread?_eq⟩

/-- Quoting keeps a text up to its carriage returns, in props, in routers and in components:
different titles, icons, module paths, imported modules and text states have different literals. -/
theorem literals_give_texts_back (catalog : Catalog) :
    (∀ text, IsLiteral text (quote text)) ∧
    (∀ key text, ('"' ∉ text.toList ∧ textProp key text = key ++ "=\"" ++ text ++ "\"") ∨
      ∃ literal, IsLiteral text literal ∧ textProp key text = key ++ "=\x7b" ++ literal ++ "\x7d") ∧
    (∀ routes, ∀ quotation ∈ Router.quotations routes,
      quotation.IsHeldBy (Router.generate routes)) ∧
    (∀ routes name (document : Document),
      ∀ quotation ∈ (document.component catalog routes name).quotations,
        quotation.IsHeldBy (document.generate catalog routes name)) ∧
    Quotation.KeepsApart Router.title Router.titleQuotation ∧
    Quotation.KeepsApart Router.icon Router.iconQuotation ∧
    Quotation.KeepsApart Route.modulePath Router.moduleQuotation ∧
    Quotation.KeepsApart ImportLine.source ImportLine.quotation ∧
    Quotation.KeepsApart State.startText State.quotation := by
  have alone : ∀ text, text = "" ++ text := fun text => String.empty_append.symm
  refine ⟨isLiteral_quote, textProp_cases, ?routers, ?components, ?titles, ?icons, ?modulePaths,
    ?sources, ?states⟩
  case routers =>
    exact fun routes quotation membership =>
      Quotation.isHeldBy (Router.occurs_generate_of_mem membership)
  case components =>
    exact fun routes name document quotation membership =>
      Quotation.isHeldBy (ComponentModule.occurs_text_of_mem membership)
  case titles => exact Quotation.keepsApart "" (by decide) fun route => alone _
  case icons => exact Quotation.keepsApart "" (by decide) fun route => alone _
  case modulePaths => exact Quotation.keepsApart "./screens/" (by decide) fun route => rfl
  case sources => exact Quotation.keepsApart "" (by decide) fun line => alone _
  case states => exact Quotation.keepsApart "" (by decide) fun state => alone _

end ScreenCompiler
