import ScreenCompiler.Component.Module

/-!
# The code of elements

The opening tag of every element of a document stands in its generated module,
however deep the element lies in the markup.
-/

namespace ScreenCompiler

namespace Text

/-- A text stands inside another. -/
def Occurs (part whole : String) : Prop :=
  part.toList <:+: whole.toList

namespace Occurs

variable {part middle whole : String}

theorem refl (part : String) : Occurs part part :=
  List.infix_rfl

theorem trans (first : Occurs part middle) (second : Occurs middle whole) : Occurs part whole :=
  List.IsInfix.trans first second

theorem append_left (front : String) (inside : Occurs part whole) :
    Occurs part (front ++ whole) := by
  rw [Occurs, String.toList_append]
  exact List.IsInfix.trans inside (List.suffix_append _ _).isInfix

theorem append_right (inside : Occurs part whole) (back : String) :
    Occurs part (whole ++ back) := by
  rw [Occurs, String.toList_append]
  exact List.IsInfix.trans inside (List.prefix_append _ _).isInfix

theorem join {lines : List String} (membership : whole ∈ lines) (inside : Occurs part whole) :
    Occurs part (String.join lines) := by
  obtain ⟨before, after, rfl⟩ := List.append_of_mem membership
  refine trans inside ?_
  rw [Occurs, String.toList_join]
  exact ⟨before.flatMap String.toList, after.flatMap String.toList, by simp⟩

theorem intercalate (gap : String) {lines : List String} (membership : whole ∈ lines)
    (inside : Occurs part whole) : Occurs part (String.intercalate gap lines) := by
  rw [Occurs, String.toList_intercalate]
  refine List.IsInfix.trans inside ?_
  induction lines with
  | nil => exact absurd membership List.not_mem_nil
  | cons line lines inductionHypothesis =>
      cases lines with
      | nil =>
          obtain rfl := List.mem_singleton.mp membership
          simp
      | cons next rest =>
          rw [List.map_cons, List.map_cons, List.intercalate_cons_cons]
          rcases List.mem_cons.mp membership with rfl | later
          · exact ((List.prefix_append _ _).trans (List.prefix_append _ _)).isInfix
          · exact (inductionHypothesis later).trans (List.suffix_append _ _).isInfix

end Occurs

end Text

open Text

namespace Node

theorem elementsOf_of_all_isText {nodes : List Node} (texts : nodes.all isText = true) :
    elementsOf nodes = [] := by
  induction nodes with
  | nil => rfl
  | cons node nodes inductionHypothesis =>
      rw [List.all_cons, Bool.and_eq_true] at texts
      cases node with
      | text run => exact inductionHypothesis texts.2
      | element tag props children line => exact absurd texts.1 Bool.false_ne_true

theorem exists_of_mem_elementsOf {nodes : List Node} {element : Element}
    (membership : element ∈ elementsOf nodes) : ∃ node ∈ nodes, element ∈ node.elements := by
  induction nodes with
  | nil => exact absurd membership List.not_mem_nil
  | cons node nodes inductionHypothesis =>
      rw [elementsOf] at membership
      rcases List.mem_append.mp membership with here | later
      · exact ⟨node, List.mem_cons_self, here⟩
      · obtain ⟨other, inNodes, inside⟩ := inductionHypothesis later
        exact ⟨other, List.mem_cons_of_mem _ inNodes, inside⟩

end Node

namespace Rendering

variable (rendering : Rendering)

/-- The opening tag of an element up to its end. -/
def opening (element : Element) : String :=
  "<" ++ rendering.openTag element.tag element.props

mutual

theorem occurs_node (depth : Nat) (node : Node) :
    ∀ element ∈ node.elements, Occurs (rendering.opening element) (rendering.node depth node) := by
  intro element membership
  cases node with
  | text run => exact absurd membership List.not_mem_nil
  | element tag props children line =>
      have tagText : ∀ back, Occurs (rendering.opening ⟨tag, props, children, line⟩)
          (padding depth ++ ("<" ++ (rendering.openTag tag props ++ back))) := by
        intro back
        rw [show "<" ++ (rendering.openTag tag props ++ back) =
          "<" ++ rendering.openTag tag props ++ back from String.append_assoc.symm]
        exact ((Occurs.refl _).append_right back).append_left (padding depth)
      rw [Node.elements] at membership
      rw [Rendering.node]
      split
      · rename_i childless
        obtain rfl := List.isEmpty_iff.mp childless
        obtain rfl := List.mem_singleton.mp membership
        simp only [String.append_assoc]
        exact tagText _
      · split
        · rename_i inline
          rw [Node.elementsOf_of_all_isText (Bool.and_eq_true_iff.mp inline).2,
            List.mem_singleton] at membership
          rw [membership]
          simp only [String.append_assoc]
          exact tagText _
        · simp only [String.append_assoc]
          rcases List.mem_cons.mp membership with rfl | inside
          · exact tagText _
          · obtain ⟨code, isLine, occurs⟩ := occurs_children (depth + 1)
              (rendering.catalog.isButton tag) children element inside
            have block := (occurs.intercalate "\n" isLine).append_right
              ("\n" ++ (padding depth ++ ("</" ++ (rendering.catalog.target tag ++ ">"))))
            have behindTag := (block.append_left ">\n").append_left (rendering.openTag tag props)
            exact (behindTag.append_left "<").append_left (padding depth)

theorem occurs_children (depth : Nat) (inButton : Bool) (nodes : List Node) :
    ∀ element ∈ Node.elementsOf nodes,
      ∃ line ∈ rendering.children depth inButton nodes,
        Occurs (rendering.opening element) line := by
  intro element membership
  cases nodes with
  | nil => exact absurd membership List.not_mem_nil
  | cons node nodes =>
      rw [Node.elementsOf] at membership
      rcases List.mem_append.mp membership with here | later
      · cases node with
        | text run => exact absurd here List.not_mem_nil
        | element tag props inner line =>
            refine ⟨_, ?_, occurs_node depth (.element tag props inner line) element here⟩
            rw [children]
            exact List.mem_cons_self
      · obtain ⟨line, inside, occurs⟩ := occurs_children depth inButton nodes element later
        refine ⟨line, ?_, occurs⟩
        cases node with
        | text run => exact List.mem_cons_of_mem _ inside
        | element tag props inner line => exact List.mem_cons_of_mem _ inside

end

theorem occurs_returned {nodes : List Node} {element : Element}
    (membership : element ∈ Node.elementsOf nodes) :
    Occurs (rendering.opening element) (rendering.returned nodes) := by
  obtain ⟨node, inNodes, inNode⟩ := Node.exists_of_mem_elementsOf membership
  unfold returned
  split
  · exact absurd inNodes List.not_mem_nil
  · rename_i only
    obtain rfl := List.mem_singleton.mp inNodes
    exact (rendering.occurs_node 2 node element inNode).append_right "\n"
  · have line := (rendering.occurs_node 3 node element inNode).append_right "\n"
    have isLine : rendering.node 3 node ++ "\n" ∈
        nodes.map fun node => rendering.node 3 node ++ "\n" :=
      List.mem_map.mpr ⟨node, inNodes, rfl⟩
    have block := line.join isLine
    exact (block.append_left "    <>\n").append_right "    </>\n"

end Rendering

namespace Document

theorem occurs_generate {catalog : Catalog} {routes : List Route} {name : String}
    {document : Document} {element : Element}
    (membership : element ∈ Node.elementsOf document.nodes) :
    Occurs ((document.rendering catalog routes).opening element)
      (document.generate catalog routes name) := by
  have markup := (document.rendering catalog routes).occurs_returned membership
  rw [generate, ComponentModule.text]
  simp only [String.append_assoc]
  apply Occurs.append_left
  apply Occurs.append_left
  apply Occurs.append_left
  apply Occurs.append_left
  exact markup.append_right _

end Document

end ScreenCompiler
