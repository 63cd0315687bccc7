import Mathlib.Data.List.Basic
import ScreenCompiler.Proofs.Document.Nodes
import ScreenCompiler.Proofs.Document.Plain
import ScreenCompiler.Proofs.Document.States

/-!
# What a document declares

The states, functions and screen settings of a document are those of its declarations,
and the states are those of the state lines of its source, put one after the other.
-/

namespace ScreenCompiler

namespace Declaration

def state? : Declaration → Option State
  | .state found => some found
  | _ => none

def function? : Declaration → Option Function
  | .function found => some found
  | _ => none

def screen? : Declaration → Option Screen
  | .screen found => some found
  | _ => none

end Declaration

namespace Document

theorem foldl_declare_declared (declarations : List Declaration) (document : Document) :
    (declarations.foldl declare document).states =
        State.putAll document.states (declarations.filterMap Declaration.state?) ∧
      (declarations.foldl declare document).functions =
          document.functions ++ declarations.filterMap Declaration.function? ∧
        (declarations.foldl declare document).screen =
          (declarations.filterMap Declaration.screen?).getLast?.or document.screen := by
  induction declarations generalizing document with
  | nil => exact ⟨rfl, (List.append_nil _).symm, rfl⟩
  | cons first declarations inductionHypothesis =>
      obtain ⟨states, functions, screen⟩ := inductionHypothesis (document.declare first)
      cases first with
      | imports imports => exact ⟨states, functions, screen⟩
      | state state => exact ⟨states, functions, screen⟩
      | function function =>
          exact ⟨states, functions.trans (List.append_assoc _ [function] _), screen⟩
      | screen settings =>
          refine ⟨states, functions, screen.trans ?_⟩
          have others : (Declaration.screen settings :: declarations).filterMap
              Declaration.screen? = settings :: declarations.filterMap Declaration.screen? := rfl
          rw [others, List.getLast?_cons, Option.some_or]
          cases (declarations.filterMap Declaration.screen?).getLast? <;> rfl

variable (forest : Forest)

theorem states_ofForest :
    (ofForest forest).states =
      State.putAll [] (forest.declarations.filterMap Declaration.state?) :=
  (foldl_declare_declared forest.declarations _).1

theorem functions_ofForest :
    (ofForest forest).functions = forest.declarations.filterMap Declaration.function? :=
  (foldl_declare_declared forest.declarations _).2.1

theorem screen_ofForest :
    (ofForest forest).screen = (forest.declarations.filterMap Declaration.screen?).getLast? :=
  (foldl_declare_declared forest.declarations _).2.2.trans (Option.or_none)

/-- What the items of a source amount to. -/
def forestOf (catalog : Catalog) (source : List Char) : Forest :=
  Forest.ofItems (Item.ofSource catalog (Stylesheet.cut source).remaining)

variable (catalog : Catalog) (source : List Char)

theorem nodes_parse : (parse catalog source).nodes = (forestOf catalog source).nodes :=
  nodes_ofForest _

theorem functions_parse : (parse catalog source).functions =
    (forestOf catalog source).declarations.filterMap Declaration.function? :=
  functions_ofForest _

theorem screen_parse : (parse catalog source).screen =
    ((forestOf catalog source).declarations.filterMap Declaration.screen?).getLast? :=
  screen_ofForest _

theorem diagnostics_parse : (parse catalog source).diagnostics =
    stylesheetFaults (Stylesheet.cut source) ++ (forestOf catalog source).diagnostics :=
  congrArg (_ ++ ·) (diagnostics_ofForest _)

end Document

/-- The state that a block declares. -/
def Block.state? : Block → Option State
  | state name literal => some (State.infer (String.ofList name) literal)
  | _ => none

theorem Item.filterMap_picked_ofHead (catalog : Catalog) (number : Nat) (head : Head) :
    (ofHead catalog number head).filterMap (Forest.picked Declaration.state?) = [] := by
  rw [List.filterMap_eq_nil_iff]
  intro item membership
  rcases List.mem_append.mp membership with fault | tag
  · obtain ⟨name, -, rfl⟩ := List.mem_map.mp fault
    rfl
  · obtain rfl := List.mem_singleton.mp tag
    split <;> rfl

theorem Block.filterMap_picked_items (catalog : Catalog) (block : Block) :
    (block.items catalog).filterMap (Forest.picked Declaration.state?) = block.state?.toList := by
  cases block with
  | piece number piece =>
      cases piece with
      | head inside => exact Item.filterMap_picked_ofHead catalog number _
      | _ => rfl
  | function number function closed => cases closed <;> rfl
  | openClosing number tag =>
      simp only [items, Item.ofOpenClosing]
      split <;> rfl
  | head number head => exact Item.filterMap_picked_ofHead catalog number head
  | unfinished number text =>
      simp only [items, Item.ofUnfinished]
      split
      · exact Item.filterMap_picked_ofHead catalog number _
      · exact Item.filterMap_picked_ofHead catalog number _
  | _ => rfl

namespace Document

/-- The states of the state lines of a source, in order. -/
def declaredStates (source : List Char) : List State :=
  (Block.ofSource (Stylesheet.cut source).remaining).filterMap Block.state?

/-- The states of a document are those of its state lines, each put after the ones above it. -/
theorem states_parse (catalog : Catalog) (source : List Char) :
    (parse catalog source).states = State.putAll [] (declaredStates source) := by
  have states : (parse catalog source).states = (ofForest (forestOf catalog source)).states := rfl
  have picked := fun block => Block.filterMap_picked_items catalog block
  rw [states, states_ofForest, forestOf, Forest.filterMap_declarations_ofItems (fun _ => rfl),
    Item.ofSource, List.filterMap_flatMap]
  simp only [picked]
  rw [declaredStates, List.filterMap_eq_flatMap_toList]

end Document

end ScreenCompiler
