import ScreenCompiler.Markup.Props

/-!
# Markup trees

A tree of elements and runs of text.  Analyses of a tree read its elements in
preorder.
-/

namespace ScreenCompiler

inductive Node where
  | text (text : String)
  | element (tag : String) (props : Props) (children : List Node) (line : Nat)

/-- An element taken out of its tree. -/
structure Element where
  tag : String
  props : Props
  children : List Node
  line : Nat

namespace Node

def isText : Node → Bool
  | text _ => true
  | element .. => false

/-- The text of a run of text. -/
def text? : Node → Option String
  | text run => some run
  | element .. => none

mutual

/-- The elements of a tree in preorder. -/
def elements : Node → List Element
  | text _ => []
  | element tag props children line => ⟨tag, props, children, line⟩ :: elementsOf children

def elementsOf : List Node → List Element
  | [] => []
  | node :: nodes => elements node ++ elementsOf nodes

end

mutual

/-- The runs of text of a tree in order. -/
def texts : Node → List String
  | text run => [run]
  | element _ _ children _ => textsOf children

def textsOf : List Node → List String
  | [] => []
  | node :: nodes => texts node ++ textsOf nodes

end

theorem elementsOf_append (first second : List Node) :
    elementsOf (first ++ second) = elementsOf first ++ elementsOf second := by
  induction first with
  | nil => rfl
  | cons node nodes inductionHypothesis =>
      rw [List.cons_append, elementsOf, elementsOf, inductionHypothesis, List.append_assoc]

end Node

/-- The tags used in a forest, in preorder. -/
def Node.tagsOf (nodes : List Node) : List String :=
  (Node.elementsOf nodes).map Element.tag

end ScreenCompiler
