import ScreenCompiler.Text.Affix
import ScreenCompiler.Text.Word

/-!
# Names from paths

A route path gives a component name and a logical path.  Empty segments and the
directory that groups tab screens leave no trace in either.
-/

namespace ScreenCompiler

open Text

namespace RoutePath

/-- The directory segment that groups tab screens. -/
def tabGroup : List Char := "(tabs)".toList

def segments (path : List Char) : List (List Char) :=
  path.splitOn '/'

/-- The segments that a route is named by. -/
def namedSegments (path : List Char) : List (List Char) :=
  (segments path).filter fun segment => !segment.isEmpty && segment != tabGroup

def joinSegments (parts : List (List Char)) : List Char :=
  List.intercalate ['/'] parts

def asciiUpper (c : Char) : Char :=
  if 'a' ≤ c ∧ c ≤ 'z' then Char.ofNat (c.toNat - 32) else c

def capitalize : List Char → List Char
  | [] => []
  | c :: text => asciiUpper c :: text

/-- The runs of ASCII letters and digits, each with a capital first letter. -/
def camelCase (segment : List Char) : List Char :=
  (segment.splitOnP (!isAsciiAlphanumeric ·)).flatMap capitalize

/-- The component name of a route path: an identifier for every path. -/
def componentName (path : List Char) : List Char :=
  match (namedSegments path).flatMap camelCase with
  | [] => "Index".toList
  | c :: name => if isAsciiDigit c then "Screen".toList ++ c :: name else c :: name

/-- The path that navigation calls use; an index screen stands for its directory. -/
def logicalPath (path : List Char) : List Char :=
  let parts := namedSegments path
  joinSegments (if parts.getLast? = some "index".toList then parts.dropLast else parts)

/-- A component name as a title, without the mark of an index screen. -/
def displayName (name : String) : String :=
  match beforeSuffix? "Index".toList name.toList with
  | some (c :: rest) => String.ofList (c :: rest)
  | _ => name

end RoutePath

end ScreenCompiler
