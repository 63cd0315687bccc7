import ScreenCompiler.Document.Item
import ScreenCompiler.Markup.Node

/-!
# Forests of items

Recursive descent over the items of a source.  An opening tag takes everything up to
its closing tag as children.  A closing tag that belongs to an element further out
ends all the elements inside, and one that belongs to no open element is a fault.
Declarations are collected on the way and never become part of the tree.
-/

namespace ScreenCompiler

/-- What a run of items amounts to. -/
structure Forest where
  nodes : List Node
  declarations : List Declaration
  diagnostics : List Diagnostic

namespace Forest

def empty : Forest := ⟨[], [], []⟩

def append (first second : Forest) : Forest where
  nodes := first.nodes ++ second.nodes
  declarations := first.declarations ++ second.declarations
  diagnostics := first.diagnostics ++ second.diagnostics

instance : Append Forest := ⟨append⟩

def ofNode (node : Node) : Forest := ⟨[node], [], []⟩

def ofDeclaration (declaration : Declaration) : Forest := ⟨[], [declaration], []⟩

def ofDiagnostic (diagnostic : Diagnostic) : Forest := ⟨[], [], [diagnostic]⟩

/-- A module name alone on its line: inside an element it is text. -/
def ofWord (inside : Bool) (name : List Char) : Forest :=
  if inside then ofNode (.text (String.ofList name))
  else ofDeclaration (.imports [Import.ofModuleName name])

/-- An element around the forest of its children; one that is not closed is at fault. -/
def wrap (tag : String) (props : Props) (line : Nat) (closed : Bool) (children : Forest) :
    Forest where
  nodes := [.element tag props children.nodes line]
  declarations := children.declarations
  diagnostics := children.diagnostics ++ (if closed then [] else [.unterminatedTag tag line])

/-- The items behind the closing tag of an element, if they start with it. -/
def afterClosing (tag : String) : List Item → Bool × List Item
  | .closing name line :: rest =>
      if name = tag then (true, rest) else (false, .closing name line :: rest)
  | items => (false, items)

theorem length_afterClosing (tag : String) (items : List Item) :
    (afterClosing tag items).2.length ≤ items.length := by
  unfold afterClosing
  split
  · split <;> simp
  · simp

/-- The forest of the items inside the open elements, innermost first, and the items from the tag
on that closes one of them. -/
def read (enclosing : List String) (items : List Item) :
    Forest × { rest : List Item // rest.length ≤ items.length } :=
  match items with
  | [] => (empty, ⟨[], Nat.le_refl _⟩)
  | .closing tag line :: rest =>
      if tag ∈ enclosing then (empty, ⟨.closing tag line :: rest, Nat.le_refl _⟩)
      else
        let (after, remaining) := read enclosing rest
        (ofDiagnostic (.unmatchedClosingTag tag line) ++ after,
          ⟨remaining.1, Nat.le_succ_of_le remaining.2⟩)
  | .opening tag props line :: rest =>
      let (children, remaining) := read (tag :: enclosing) rest
      have bound : (afterClosing tag remaining.1).2.length ≤ rest.length :=
        Nat.le_trans (length_afterClosing tag remaining.1) remaining.2
      let (after, final) := read enclosing (afterClosing tag remaining.1).2
      (wrap tag props line (afterClosing tag remaining.1).1 children ++ after,
        ⟨final.1, Nat.le_succ_of_le (Nat.le_trans final.2 bound)⟩)
  | .leaf tag props line :: rest =>
      let (after, remaining) := read enclosing rest
      (ofNode (.element tag props [] line) ++ after,
        ⟨remaining.1, Nat.le_succ_of_le remaining.2⟩)
  | .text run :: rest =>
      let (after, remaining) := read enclosing rest
      (ofNode (.text run) ++ after, ⟨remaining.1, Nat.le_succ_of_le remaining.2⟩)
  | .word name :: rest =>
      let (after, remaining) := read enclosing rest
      (ofWord (!enclosing.isEmpty) name ++ after, ⟨remaining.1, Nat.le_succ_of_le remaining.2⟩)
  | .declaration declaration :: rest =>
      let (after, remaining) := read enclosing rest
      (ofDeclaration declaration ++ after, ⟨remaining.1, Nat.le_succ_of_le remaining.2⟩)
  | .fault diagnostic :: rest =>
      let (after, remaining) := read enclosing rest
      (ofDiagnostic diagnostic ++ after, ⟨remaining.1, Nat.le_succ_of_le remaining.2⟩)
termination_by items.length
decreasing_by all_goals simp only [List.length_cons]; omega

/-- The forest of all items. -/
def ofItems (items : List Item) : Forest :=
  (read [] items).1

end Forest

end ScreenCompiler
