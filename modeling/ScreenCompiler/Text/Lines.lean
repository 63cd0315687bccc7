/-!
# Lines of a text

A line ends at a line feed, and a carriage return right before that line feed
belongs to the line end.  A carriage return anywhere else is an ordinary
character.  A final line without a line feed counts when it is not empty.
-/

namespace ScreenCompiler.Text

/-- A line without the carriage return of its line end. -/
def dropReturn (line : List Char) : List Char :=
  if line.getLast? = some '\r' then line.dropLast else line

def lines (text : List Char) : List (List Char) :=
  let pieces := text.splitOn '\n'
  let last := pieces.getLastD []
  pieces.dropLast.map dropReturn ++ (if last.isEmpty then [] else [last])

/-- How many line feeds a text holds. -/
def lineFeeds (text : List Char) : Nat :=
  text.count '\n'

/-- Lines put together with line feeds between them. -/
def unlines (pieces : List (List Char)) : List Char :=
  List.intercalate ['\n'] pieces

end ScreenCompiler.Text
