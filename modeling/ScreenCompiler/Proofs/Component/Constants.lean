import Mathlib.Data.List.Perm.Basic
import ScreenCompiler.Catalog.Standard
import ScreenCompiler.Proofs.Component.States

/-!
# Constants of a component

The body of a component is a list of constants: its navigation, its states with their setters,
and its functions.  A setter takes its name from its state, and nothing keeps it apart from the
names of the source: names that are distinct in the source may meet in the component.
-/

namespace ScreenCompiler

open Text

/-- A name with a capital first letter. -/
def capitalized (name : String) : String :=
  match name.toList with
  | [] => ""
  | c :: rest => String.ofList (upper c ++ rest)

theorem setterName_eq (name : String) : setterName name = "set" ++ capitalized name := by
  unfold setterName capitalized
  cases name.toList with
  | nil => rfl
  | cons c rest =>
      simp only
      rw [List.append_assoc, String.ofList_append, String.ofList_toList]

theorem setterName_ne_navigation (name : String) : setterName name ≠ "navigation" := by
  intro same
  have first := congrArg (fun text => text.toList.head?) same
  simp [setterName_eq] at first

/-- A constant in the body of a component. -/
structure Constant where
  /-- The empty line in front of a function. -/
  gap : String
  names : List String
  value : String

namespace Constant

/-- What a constant declares: one name, or the names that it takes a list apart into. -/
def pattern : List String → String
  | [name] => name
  | names => "[" ++ String.intercalate ", " names ++ "]"

def text (constant : Constant) : String :=
  constant.gap ++ "  const " ++ pattern constant.names ++ " = " ++ constant.value ++ ";"

def navigation : Constant :=
  ⟨"", ["navigation"], "useNavigation()"⟩

def ofState (state : State) : Constant :=
  ⟨"", [state.name, setterName state.name], "useState(" ++ state.code ++ ")"⟩

def ofFunction (function : Function) : Constant :=
  ⟨"\n", [function.name], (if function.isAsync then "async " else "") ++ "(" ++ function.params ++
    ") => \x7b\n" ++ String.join ((lines function.body.toList).map Function.bodyLine) ++ "  \x7d"⟩

theorem text_ofState (state : State) : (ofState state).text = state.declarationLine := by
  apply String.toList_inj.mp
  simp [text, ofState, pattern, State.declarationLine]

theorem text_ofFunction (function : Function) :
    (ofFunction function).text = "\n" ++ function.code := by
  apply String.toList_inj.mp
  simp [text, ofFunction, pattern, Function.code]

end Constant

namespace ComponentModule

def constants (component : ComponentModule) : List Constant :=
  .navigation :: component.states.map .ofState ++ component.functions.map .ofFunction

/-- The names that the body of a component declares. -/
def bodyNames (component : ComponentModule) : List String :=
  component.constants.flatMap Constant.names

/-- A component consists of its constants up to its markup. -/
theorem header_eq (component : ComponentModule) :
    component.header = "export default function " ++ component.name ++ "() \x7b\n" ++
      String.join (component.constants.map fun constant => constant.text ++ "\n") := by
  have navigationLine : Constant.navigation.text ++ "\n" =
      "  const navigation = useNavigation();\n" := by
    decide +kernel
  unfold header constants
  simp only [List.map_append, List.map_cons, List.map_map, Function.comp_def, String.join_append,
    String.join_cons, navigationLine, Constant.text_ofState, Constant.text_ofFunction,
    String.append_assoc]

/-- The names of a component that its source gives. -/
def ownNames (component : ComponentModule) : List String :=
  component.states.map State.name ++ component.functions.map Function.name

def setterNames (component : ComponentModule) : List String :=
  component.states.map fun state => setterName state.name

theorem bodyNames_perm (component : ComponentModule) :
    component.bodyNames.Perm ("navigation" :: component.ownNames ++ component.setterNames) := by
  have states : ((component.states.map Constant.ofState).flatMap Constant.names).Perm
      (component.states.map State.name ++ component.setterNames) := by
    rw [List.flatMap_map, setterNames, List.map_eq_flatMap (l := component.states)
      (f := fun state => setterName state.name)]
    exact (List.map_append_flatMap_perm component.states State.name
      fun state => [setterName state.name]).symm
  have functions : (component.functions.map Constant.ofFunction).flatMap Constant.names =
      component.functions.map Function.name := by
    rw [List.flatMap_map, List.map_eq_flatMap]
    rfl
  rw [bodyNames, constants, List.cons_append, List.flatMap_cons, List.flatMap_append, functions]
  refine ((states.append_right _).trans ?_).cons "navigation"
  rw [ownNames, List.append_eq, List.append_assoc, List.append_assoc]
  exact List.perm_append_comm.append_left _

/-- No setter is called like another setter, a state or a function. -/
structure SettersApart (component : ComponentModule) : Prop where
  capitals : (component.states.map fun state => capitalized state.name).Nodup
  free : ∀ state ∈ component.states, "set" ++ capitalized state.name ∉ component.ownNames

variable {component : ComponentModule}

theorem nodup_setterNames_iff :
    component.setterNames.Nodup ↔
      (component.states.map fun state => capitalized state.name).Nodup := by
  have prefixed : component.setterNames =
      (component.states.map fun state => capitalized state.name).map ("set" ++ ·) := by
    rw [setterNames, List.map_map]
    exact List.map_congr_left fun state _ => setterName_eq state.name
  rw [prefixed]
  exact List.nodup_map_iff fun _ _ same => (String.append_right_inj "set").mp same

/-- The constants have distinct names when the names of the source are distinct and the setters
keep apart, and not otherwise. -/
theorem nodup_bodyNames_iff_settersApart (distinct : ("navigation" :: component.ownNames).Nodup) :
    component.bodyNames.Nodup ↔ component.SettersApart := by
  rw [component.bodyNames_perm.nodup_iff, List.nodup_append', nodup_setterNames_iff]
  constructor
  case mp =>
    rintro ⟨-, capitals, apart⟩
    refine ⟨capitals, fun state isState isOwn => ?_⟩
    rw [← setterName_eq] at isOwn
    exact apart (List.mem_cons_of_mem _ isOwn) (List.mem_map.mpr ⟨state, isState, rfl⟩)
  case mpr =>
    rintro ⟨capitals, free⟩
    refine ⟨distinct, capitals, fun own isOwn isSetter => ?_⟩
    obtain ⟨state, isState, rfl⟩ := List.mem_map.mp isSetter
    rcases List.mem_cons.mp isOwn with isNavigation | isOwn
    · exact setterName_ne_navigation state.name isNavigation
    · rw [setterName_eq] at isOwn
      exact free state isState isOwn

end ComponentModule

namespace Document

/-- The component of a document declares its constants and nothing else in front of its markup.
When the names of the states and functions are distinct and none is `navigation`, the names of the
constants are distinct exactly if the setters keep apart from these names and from each other. -/
theorem generate_constants (catalog : Catalog) (routes : List Route) (name : String)
    (document : Document)
    (distinct : ("navigation" :: ((document.allStates catalog).map State.name ++
      document.functions.map Function.name)).Nodup) :
    (∃ imports markup stylesheet, document.generate catalog routes name =
      imports ++ "\n\n" ++ ("export default function " ++ name ++ "() \x7b\n" ++
        String.join ((document.component catalog routes name).constants.map
          fun constant => constant.text ++ "\n")) ++
        "\n  return (\n" ++ markup ++ "  );\n\x7d\n\n" ++ stylesheet ++ "\n") ∧
    ((document.component catalog routes name).bodyNames.Nodup ↔
      (document.component catalog routes name).SettersApart) := by
  constructor
  · refine ⟨(document.component catalog routes name).importText,
      (document.component catalog routes name).markup,
      (document.component catalog routes name).stylesheet, ?_⟩
    unfold generate ComponentModule.text
    rw [ComponentModule.header_eq]
    rfl
  · exact ComponentModule.nodup_bodyNames_iff_settersApart distinct

/-- A form with a declared and an implicit state and a function. -/
def titleForm : Document :=
  parse .standard "state count = 1\nsave() \x7b\n\x7d\n<Input bind=\"title\" />".toList

theorem generate_constants_titleForm :
    (titleForm.component .standard [] "Form").bodyNames =
      ["navigation", "count", "setCount", "title", "setTitle", "save"] ∧
    (titleForm.component .standard [] "Form").SettersApart := by
  have names : (titleForm.component .standard [] "Form").bodyNames =
      ["navigation", "count", "setCount", "title", "setTitle", "save"] := by
    decide +kernel
  refine ⟨names, (generate_constants .standard [] "Form" titleForm ?_).2.mp ?_⟩
  · decide +kernel
  · rw [names]
    decide

/-- The module of a source under one name. -/
def homeModule (source : String) : ComponentModule :=
  (parse .standard source.toList).component .standard [] "Home"

/-- A setter may be called like a function, like another state, or like the setter of a state whose
name differs in the case of its first letter. -/
theorem bodyNames_repeat_setX :
    (("navigation" :: (homeModule "state x = 1\nsetX() \x7b\n\x7d").ownNames).Nodup ∧
      ¬(homeModule "state x = 1\nsetX() \x7b\n\x7d").bodyNames.Nodup) ∧
    (("navigation" :: (homeModule "state x = 1\nstate setX = 2").ownNames).Nodup ∧
      ¬(homeModule "state x = 1\nstate setX = 2").bodyNames.Nodup) ∧
    (("navigation" :: (homeModule "state x = 1\n<Input bind=\"X\" />").ownNames).Nodup ∧
      ¬(homeModule "state x = 1\n<Input bind=\"X\" />").bodyNames.Nodup) := by
  decide +kernel

end Document

end ScreenCompiler
