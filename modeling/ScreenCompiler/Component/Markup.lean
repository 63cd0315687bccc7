import ScreenCompiler.Component.Props

/-!
# Markup as code

Each element is written self-closed, on one line around its texts, or as a block
with its children on lines of their own.  Texts right inside a button are wrapped.
-/

namespace ScreenCompiler

/-- Two blanks for each level. -/
def padding (depth : Nat) : String :=
  String.ofList (List.replicate (2 * depth) ' ')

namespace Rendering

/-- A text inside a button. -/
def buttonText (run : String) : String :=
  "<Text style=" ++ braced "styles.buttonText" ++ ">" ++ run ++ "</Text>"

/-- The inside of an opening tag. -/
def openTag (rendering : Rendering) (tag : String) (props : Props) : String :=
  String.intercalate " " (rendering.catalog.target tag :: rendering.props tag props)

mutual

/-- The code of a node at a depth, on one or more lines. -/
def node (rendering : Rendering) (depth : Nat) : Node → String
  | .text run => padding depth ++ run
  | .element tag props children _ =>
      let inside := rendering.openTag tag props
      let target := rendering.catalog.target tag
      if children.isEmpty then padding depth ++ "<" ++ inside ++ " />"
      else if rendering.catalog.isText tag && children.all Node.isText then
        padding depth ++ "<" ++ inside ++ ">" ++
          String.intercalate " " (children.filterMap Node.text?) ++ "</" ++ target ++ ">"
      else
        padding depth ++ "<" ++ inside ++ ">\n" ++
          String.intercalate "\n"
            (rendering.children (depth + 1) (rendering.catalog.isButton tag) children) ++
          "\n" ++ padding depth ++ "</" ++ target ++ ">"

/-- The code of each child of an element. -/
def children (rendering : Rendering) (depth : Nat) (inButton : Bool) : List Node → List String
  | [] => []
  | .text run :: nodes =>
      (padding depth ++ (if inButton then buttonText run else run)) ::
        rendering.children depth inButton nodes
  | .element tag props inner line :: nodes =>
      rendering.node depth (.element tag props inner line) ::
        rendering.children depth inButton nodes

end

end Rendering

end ScreenCompiler
