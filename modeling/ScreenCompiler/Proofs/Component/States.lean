import Mathlib.Data.List.Induction
import Mathlib.Data.List.Nodup
import ScreenCompiler.Component.Module
import ScreenCompiler.Proofs.Component.Markup
import ScreenCompiler.Proofs.Document.Declared

/-!
# States of a component

A component declares the states of its source and then those that its elements bind without
a declaration, each once.  What an element reads and what it sets is the state of that
declaration, converted when a text input stands for a number.
-/

namespace ScreenCompiler

open Text

namespace ComponentModule

/-- What a module holds in front of its states. -/
def beforeStates (component : ComponentModule) : String :=
  component.importText ++ "\n\n" ++ "export default function " ++ component.name ++ "() \x7b\n" ++
    "  const navigation = useNavigation();\n"

/-- What a module holds behind its states. -/
def behindStates (component : ComponentModule) : String :=
  String.join (component.functions.map fun function => "\n" ++ function.code ++ "\n") ++
    "\n  return (\n" ++ component.markup ++ "  );\n\x7d\n\n" ++ component.stylesheet ++ "\n"

theorem text_eq (component : ComponentModule) :
    component.text = component.beforeStates ++
      String.join (component.states.map fun state => state.declarationLine ++ "\n") ++
        component.behindStates := by
  unfold text header beforeStates behindStates
  simp only [String.append_assoc]

end ComponentModule

theorem nodup_eraseDups (names : List String) : names.eraseDups.Nodup := by
  induction names using List.reverseRecOn with
  | nil => exact List.nodup_nil
  | append_singleton names last inductionHypothesis =>
      rw [eraseDups_concat]
      split
      · exact inductionHypothesis
      · rename_i absent
        refine inductionHypothesis.append (List.nodup_singleton last) ?_
        exact List.disjoint_singleton.mpr (mt List.mem_eraseDups.mp absent)

theorem Element.name_implicitState (catalog : Catalog) (element : Element) (name : String) :
    (element.implicitState catalog name).name = name := by
  unfold implicitState
  split
  · rfl
  · split
    · rfl
    · split <;> rfl

namespace Document

variable {catalog : Catalog} {document : Document}

/-- The names that the elements of a document bind, in preorder. -/
def boundNames (document : Document) : List String :=
  (Node.elementsOf document.nodes).filterMap Element.boundState?

theorem names_implicitStatesOf (catalog : Catalog) (known : List String)
    (elements : List Element) : (implicitStatesOf catalog known elements).map State.name =
      ((elements.filterMap Element.boundState?).filter
        fun name => !known.contains name).eraseDups := by
  induction elements generalizing known with
  | nil => rfl
  | cons element elements inductionHypothesis =>
      cases bound : element.boundState? with
      | none =>
          rw [implicitStatesOf, bound, List.filterMap_cons_none bound]
          exact inductionHypothesis known
      | some name =>
          rw [implicitStatesOf, bound, List.filterMap_cons_some bound]
          by_cases isKnown : known.contains name = true
          · simp only [isKnown, ↓reduceIte]
            rw [inductionHypothesis, List.filter_cons_of_neg (by simpa using isKnown)]
          · simp only [isKnown, Bool.false_eq_true, ↓reduceIte]
            rw [List.map_cons, Element.name_implicitState, inductionHypothesis,
              List.filter_cons_of_pos (by simpa using isKnown), List.eraseDups_cons,
              List.filter_filter]
            have unknown : (fun other => !(name :: known).contains other) =
                fun other => !other == name && !known.contains other :=
              funext fun other => by rw [List.contains_cons, Bool.not_or]
            rw [unknown]

/-- The implicit states are those bound names that are not declared, in the order of their first
use. -/
theorem names_implicitStates (catalog : Catalog) (document : Document) :
    (document.implicitStates catalog).map State.name =
      (document.boundNames.filter
        fun name => !(document.states.map State.name).contains name).eraseDups :=
  names_implicitStatesOf catalog _ _

theorem mem_names_implicitStates {name : String} :
    name ∈ (document.implicitStates catalog).map State.name ↔
      name ∈ document.boundNames ∧ name ∉ document.states.map State.name := by
  rw [names_implicitStates, List.mem_eraseDups, List.mem_filter]
  simp

theorem nodup_names_allStates (catalog : Catalog)
    (declared : (document.states.map State.name).Nodup) :
    ((document.allStates catalog).map State.name).Nodup := by
  rw [allStates, List.map_append]
  refine declared.append ?_ fun name isDeclared implicit => ?_
  · rw [names_implicitStates]
    exact nodup_eraseDups _
  · exact (mem_names_implicitStates.mp implicit).2 isDeclared

/-- Every bound name is the name of a state. -/
theorem exists_state_of_bound (catalog : Catalog) {name : String}
    (bound : name ∈ document.boundNames) :
    ∃ state ∈ document.allStates catalog, state.name = name := by
  rw [← List.mem_map, allStates, List.map_append, List.mem_append]
  by_cases declared : name ∈ document.states.map State.name
  · exact .inl declared
  · exact .inr (mem_names_implicitStates.mpr ⟨bound, declared⟩)

end Document

namespace Rendering

/-- The prop that hands on a new value, and the name that it gives to the value. -/
def handlerOf (catalog : Catalog) (tag : String) : String × String :=
  if catalog.isToggle tag then ("onValueChange", "value")
  else if catalog.isTextInput tag then ("onChangeText", "text")
  else ("onChange", "value")

/-- A function that calls a setter with what it is given. -/
def passOn (setter argument : String) : String :=
  "(" ++ argument ++ ") => " ++ setter ++ ("(" ++ argument ++ ")")

theorem passOn_value (setter : String) :
    passOn setter "value" = "(value) => " ++ setter ++ "(value)" := by
  have front : "(" ++ "value" ++ ") => " = "(value) => " := by decide
  have back : "(" ++ "value" ++ ")" = "(value)" := by decide
  rw [passOn, front, back]

theorem passOn_text (setter : String) :
    passOn setter "text" = "(text) => " ++ setter ++ "(text)" := by
  have front : "(" ++ "text" ++ ") => " = "(text) => " := by decide
  have back : "(" ++ "text" ++ ")" = "(text)" := by decide
  rw [passOn, front, back]

/-- Whether an element is a text input for a state that is a number. -/
def Converts (catalog : Catalog) (tag : String) (state : State) : Prop :=
  catalog.isToggle tag = false ∧ catalog.isTextInput tag = true ∧ state.type = .number

/-- Whether an element is a switch between the dark and the light theme. -/
def SwitchesTheme (catalog : Catalog) (tag : String) (state : State) : Prop :=
  catalog.isToggle tag = true ∧ state.name = "theme" ∧ state.type = .string

/-- The value prop and the handler prop that tie an element to a state. -/
inductive Ties (catalog : Catalog) (tag : String) (state : State) : String → String → Prop where
  | plain {event argument : String} :
      ¬Converts catalog tag state → ¬SwitchesTheme catalog tag state →
      handlerOf catalog tag = (event, argument) →
      Ties catalog tag state (codeProp "value" state.name)
        (codeProp event (passOn (setterName state.name) argument))
  /-- A number is shown as text, and text is read as a number. -/
  | converted : Converts catalog tag state →
      Ties catalog tag state (codeProp "value" ("String(" ++ state.name ++ ")"))
        (codeProp "onChangeText" ("(text) => " ++ setterName state.name ++ "(Number(text) || 0)"))
  | theme : SwitchesTheme catalog tag state →
      Ties catalog tag state (codeProp "value" (state.name ++ " === 'dark'"))
        (codeProp "onValueChange"
          ("(value) => " ++ setterName state.name ++ "(value ? 'dark' : 'light')"))

theorem exists_ties (catalog : Catalog) (tag : String) (state : State) :
    ∃ value handler, Ties catalog tag state value handler ∧
      (Wiring.of catalog tag state.name (some state.type)).props state.name = [value, handler] := by
  cases toggle : catalog.isToggle tag with
  | true =>
      have noInput : ¬Converts catalog tag state := fun converts => by simp [converts.1] at toggle
      by_cases theme : SwitchesTheme catalog tag state
      · refine ⟨_, _, .theme theme, ?_⟩
        rw [Wiring.of, if_pos toggle, if_pos ⟨theme.2.1, .inl (congrArg some theme.2.2)⟩]
        rfl
      · refine ⟨_, _, .plain noInput theme (if_pos toggle), ?_⟩
        have other : ¬(state.name = "theme" ∧ (some state.type = some StateType.string ∨
            some state.type = none)) :=
          fun ⟨name, type⟩ => theme ⟨toggle, name, by simpa using type⟩
        rw [Wiring.of, if_pos toggle, if_neg other, passOn_value]
        rfl
  | false =>
      have noTheme : ¬SwitchesTheme catalog tag state := fun theme => by simp [theme.1] at toggle
      have noToggle : ¬catalog.isToggle tag = true := by simp [toggle]
      by_cases input : catalog.isTextInput tag = true
      · by_cases number : state.type = .number
        · refine ⟨_, _, .converted ⟨toggle, input, number⟩, ?_⟩
          rw [Wiring.of, if_neg noToggle, if_pos input, if_pos (congrArg some number)]
          rfl
        · refine ⟨_, _, .plain (fun converts => number converts.2.2) noTheme
            ((if_neg noToggle).trans (if_pos input)), ?_⟩
          rw [Wiring.of, if_neg noToggle, if_pos input, if_neg (by simpa using number), passOn_text]
          rfl
      · refine ⟨_, _, .plain (fun converts => input converts.2.1) noTheme
          ((if_neg noToggle).trans (if_neg input)), ?_⟩
        rw [Wiring.of, if_neg noToggle, if_neg input, passOn_value]
        rfl

theorem prop_bind (rendering : Rendering) (tag name : String) :
    rendering.prop tag "bind" (.state name) =
      (Wiring.of rendering.catalog tag name (rendering.stateType? name)).props name :=
  rfl

/-- A bound state writes its two props one behind the other. -/
theorem prop_bind_infix_props (rendering : Rendering) (tag : String) {name : String}
    {props : Props} (bound : props.get? "bind" = some (.state name)) :
    rendering.prop tag "bind" (.state name) <:+: rendering.props tag props := by
  obtain ⟨before, after, entries, -⟩ := List.lookup_eq_some_iff.mp bound
  rw [Rendering.props, entries, List.flatMap_append, List.flatMap_cons]
  exact ⟨_, _, List.append_assoc _ _ _⟩

end Rendering

theorem Text.occurs_pair_intercalate (gap : String) {first second : String} {pieces : List String}
    (adjacent : [first, second] <:+: pieces) :
    Occurs (first ++ gap ++ second) (String.intercalate gap pieces) := by
  obtain ⟨before, after, rfl⟩ := adjacent
  rw [Occurs, String.toList_intercalate]
  induction before with
  | nil =>
      cases after with
      | nil => simp
      | cons next rest =>
          simp only [List.nil_append, List.cons_append, List.map_cons, List.intercalate_cons_cons,
            String.toList_append, ← List.append_assoc]
          exact ((List.prefix_append _ _).trans (List.prefix_append _ _)).isInfix
  | cons piece before inductionHypothesis =>
      obtain ⟨next, rest, shape⟩ := List.exists_cons_of_ne_nil
        (List.append_ne_nil_of_left_ne_nil (List.append_ne_nil_of_right_ne_nil before
          (List.cons_ne_nil first [second])) after)
      rw [shape, List.map_cons] at inductionHypothesis
      rw [List.cons_append, List.cons_append, shape, List.map_cons, List.map_cons,
        List.intercalate_cons_cons]
      exact inductionHypothesis.trans (List.suffix_append _ _).isInfix

namespace Document

variable {catalog : Catalog} {document : Document}

/-- The type of a state is looked up where the state is bound. -/
theorem stateType?_of_mem (routes : List Route)
    (distinct : ((document.allStates catalog).map State.name).Nodup) {state : State}
    (membership : state ∈ document.allStates catalog) :
    (document.rendering catalog routes).stateType? state.name = some state.type := by
  obtain ⟨before, after, split⟩ := List.append_of_mem membership
  rw [Rendering.stateType?, List.lookup_eq_some_iff]
  refine ⟨(after.map fun state => (state.name, state.type)).reverse,
    (before.map fun state => (state.name, state.type)).reverse, ?_, ?_⟩
  · simp [rendering, split]
  · rintro ⟨name, type⟩ earlier
    obtain ⟨other, isOther, same⟩ := List.mem_map.mp (List.mem_reverse.mp earlier)
    obtain ⟨rfl, -⟩ := Prod.mk.inj same
    rw [split, List.map_append, List.map_cons, List.nodup_append, List.nodup_cons] at distinct
    have differs : state.name ≠ other.name := fun same =>
      distinct.2.1.1 (List.mem_map.mpr ⟨other, isOther, same.symm⟩)
    simpa using differs

/-- The props that tie a bound element to its state stand in the element's opening tag. -/
theorem exists_ties_of_bound (routes : List Route)
    (distinct : ((document.allStates catalog).map State.name).Nodup) {element : Element}
    (membership : element ∈ Node.elementsOf document.nodes) {bound : String}
    (binds : element.props.get? "bind" = some (.state bound)) :
    ∃ state ∈ document.allStates catalog, state.name = bound ∧
      ∃ value handler, Rendering.Ties catalog element.tag state value handler ∧
        (document.rendering catalog routes).prop element.tag "bind" (.state bound) =
          [value, handler] ∧
        Occurs (value ++ " " ++ handler) ((document.rendering catalog routes).opening element) := by
  have isBound : element.boundState? = some bound := by rw [Element.boundState?, binds]
  obtain ⟨state, isState, rfl⟩ := exists_state_of_bound catalog
    (List.mem_filterMap.mpr ⟨element, membership, isBound⟩)
  refine ⟨state, isState, rfl, ?_⟩
  obtain ⟨value, handler, ties, wiring⟩ := Rendering.exists_ties catalog element.tag state
  have code : (document.rendering catalog routes).prop element.tag "bind" (.state state.name) =
      [value, handler] := by
    rw [Rendering.prop_bind, stateType?_of_mem routes distinct isState]
    exact wiring
  have written := (document.rendering catalog routes).prop_bind_infix_props element.tag binds
  rw [code] at written
  refine ⟨value, handler, ties, code, ?_⟩
  have inTag := occurs_pair_intercalate " "
    (written.trans (List.suffix_cons (catalog.target element.tag) _).isInfix)
  exact inTag.append_left "<"

/-- How the module of a document declares and uses its states. -/
structure DeclaresStates (catalog : Catalog) (routes : List Route) (name : String)
    (document : Document) : Prop where
  /-- The declared states have their lines first, and the implicit ones behind them. -/
  lines : document.generate catalog routes name =
    (document.component catalog routes name).beforeStates ++
      String.join ((document.states ++ document.implicitStates catalog).map fun state =>
        "  const [" ++ state.name ++ ", " ++ setterName state.name ++ "] = useState(" ++
          state.code ++ ");" ++ "\n") ++
      (document.component catalog routes name).behindStates
  distinct : ((document.states ++ document.implicitStates catalog).map State.name).Nodup
  /-- The implicit states are the bound names without a declaration, by their first use. -/
  implicit : (document.implicitStates catalog).map State.name =
    (document.boundNames.filter fun bound => bound ∉ document.states.map State.name).eraseDups
  /-- A bound element reads and sets one of the states, in its opening tag. -/
  ties : ∀ element ∈ Node.elementsOf document.nodes, ∀ bound,
    element.props.get? "bind" = some (.state bound) →
      ∃ state ∈ document.states ++ document.implicitStates catalog, state.name = bound ∧
        ∃ value handler, Rendering.Ties catalog element.tag state value handler ∧
          (document.rendering catalog routes).prop element.tag "bind" (.state bound) =
            [value, handler] ∧
          Occurs (value ++ " " ++ handler) ((document.rendering catalog routes).opening element)
  written : ∀ element ∈ Node.elementsOf document.nodes,
    Occurs ((document.rendering catalog routes).opening element)
      (document.generate catalog routes name)

/-- The module of a source declares every state that the source declares or binds once, and ties
every bound element to its declaration. -/
theorem declaresStates_parse (catalog : Catalog) (routes : List Route) (name : String)
    (source : List Char) : (parse catalog source).DeclaresStates catalog routes name := by
  have declared : ((parse catalog source).states.map State.name).Nodup := by
    rw [states_parse]
    exact State.nodup_names_putAll _
  have distinct := nodup_names_allStates catalog declared
  constructor
  case lines => exact ComponentModule.text_eq _
  case distinct => exact distinct
  case implicit =>
    simp only [names_implicitStates, List.contains_eq_mem, decide_not]
  case ties => exact fun element membership bound => exists_ties_of_bound routes distinct membership
  case written => exact fun element => occurs_generate

end Document

end ScreenCompiler
