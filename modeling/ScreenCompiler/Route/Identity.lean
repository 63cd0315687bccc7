import ScreenCompiler.Project.Path
import ScreenCompiler.Route.Basic
import ScreenCompiler.Route.Name

/-!
# Route identity

Everything that the place of a source file below the screens directory decides: the
names of its route and the place of its generated module.
-/

namespace ScreenCompiler

open Text

structure RouteIdentity where
  /-- The relative path with its extension. -/
  sourceFile : List Char
  /-- The relative path without its extension. -/
  screenPath : List Char
  /-- The screen path without its tab groups. -/
  ungroupedPath : List Char
  componentName : List Char
  logicalPath : List Char
  inTabGroup : Bool
  deriving DecidableEq, Repr

namespace RouteIdentity

/-- A path without what follows its last point; a point at the front of a path or of its last
segment ends nothing. -/
def withoutExtension (path : List Char) : List Char :=
  match splitLast? '.' path with
  | some (stem, _) => if stem.isEmpty || stem.getLast? == some '/' then path else stem
  | none => path

def ungrouped (path : List Char) : List Char :=
  RoutePath.joinSegments ((RoutePath.segments path).filter (· != RoutePath.tabGroup))

def ofRelative (sourceFile : List Char) : RouteIdentity :=
  let screenPath := withoutExtension sourceFile
  let ungroupedPath := ungrouped screenPath
  { sourceFile, screenPath, ungroupedPath
    componentName := RoutePath.componentName ungroupedPath
    logicalPath := RoutePath.logicalPath ungroupedPath
    inTabGroup := (RoutePath.segments screenPath).contains RoutePath.tabGroup }

/-- A screen is a tab by its directory or by its own settings. -/
def isTab (identity : RouteIdentity) (options : ScreenOptions) : Bool :=
  identity.inTabGroup || options.isTabScreen

/-- The last segment of the screen path. -/
def baseName (identity : RouteIdentity) : List Char :=
  (RoutePath.segments identity.screenPath).getLastD []

/-- The path up to the last segment, when there are several. -/
def directory? (path : List Char) : Option (List Char) :=
  (splitLast? '/' path).map Prod.fst

/-- The directory of the generated module.  Tab screens are collected in the tab group; any other
screen keeps its own directory. -/
def outputDirectory (identity : RouteIdentity) (isTab : Bool) : List Char :=
  if isTab then
    match directory? identity.ungroupedPath with
    | some directory => RoutePath.tabGroup ++ '/' :: directory
    | none => RoutePath.tabGroup
  else (directory? identity.screenPath).getD []

/-- The generated module without its extension. -/
def modulePath (identity : RouteIdentity) (isTab : Bool) : List Char :=
  match identity.outputDirectory isTab with
  | [] => identity.baseName
  | c :: directory => c :: directory ++ '/' :: identity.baseName

/-- The directory of the generated module as a path below the output of all screens. -/
def outputPath (identity : RouteIdentity) (output : Path) (isTab : Bool) : Path :=
  ((RoutePath.segments (identity.outputDirectory isTab)).filter (!·.isEmpty)).foldl
    (fun path segment => path.join ⟨segment⟩) output

def route (identity : RouteIdentity) (options : ScreenOptions) : Route where
  logicalPath := String.ofList identity.logicalPath
  componentName := String.ofList identity.componentName
  sourceFile := String.ofList identity.sourceFile
  modulePath := String.ofList (identity.modulePath (identity.isTab options))
  options := { options with isTabScreen := identity.isTab options }

end RouteIdentity

end ScreenCompiler
