import ScreenCompiler.Component.Module
import ScreenCompiler.Project.Basic
import ScreenCompiler.Project.Output
import ScreenCompiler.Project.Sources
import ScreenCompiler.Route.Identity
import ScreenCompiler.Route.Router

/-!
# Passes over a project

A pass reads all sources before it writes anything, so that every component is
generated with the routes of all of them.  Then it writes the components in the
order of the sources, and the router last.  What has been written stays when a
later step fails.
-/

namespace ScreenCompiler

/-- A source that has been read. -/
structure ScreenSource where
  path : Path
  identity : RouteIdentity
  document : Document

namespace ScreenSource

def options (source : ScreenSource) : ScreenOptions :=
  source.document.screenOrStandard.options

def isTab (source : ScreenSource) : Bool :=
  source.identity.isTab source.options

def route (source : ScreenSource) : Route :=
  source.identity.route source.options

/-- Where the component goes, given where all of them go. -/
def outputPath (output : Path) (source : ScreenSource) : Path :=
  (source.identity.outputPath output source.isTab).moduleFile source.identity.baseName

/-- The first source of a list with a given component name. -/
def owner? (sources : List ScreenSource) (name : List Char) : Option ScreenSource :=
  sources.find? fun source => source.identity.componentName == name

end ScreenSource

/-- A component that a pass has generated. -/
structure CompiledFile where
  source : Path
  output : Path
  componentName : String
  /-- The digest of the generated text. -/
  hash : String
  outcome : WriteOutcome
  diagnostics : List Diagnostic

structure Report where
  files : List CompiledFile
  routes : List Route
  routerPath : Path
  routerOutcome : WriteOutcome

namespace Report

/-- How many components have been written. -/
def written (report : Report) : Nat :=
  report.files.countP (·.outcome == .written)

/-- How many diagnostics the sources have. -/
def diagnosticCount (report : Report) : Nat :=
  (report.files.flatMap CompiledFile.diagnostics).length

end Report

namespace Project

/-- Reads the given sources.  A component name that an earlier source has taken is refused. -/
def readSources (project : Project) (catalog : Catalog) (tree : FileTree)
    (earlier : List ScreenSource) : List Path → Except ProjectError (List ScreenSource)
  | [] => .ok earlier.reverse
  | path :: paths =>
      match tree.readText path with
      | .error error => .error (.file path error)
      | .ok text =>
          let identity := RouteIdentity.ofRelative (Path.relativeText project.screens path)
          match ScreenSource.owner? earlier identity.componentName with
          | some owner =>
              .error (.nameTaken (String.ofList identity.sourceFile)
                (String.ofList identity.componentName) (String.ofList owner.identity.sourceFile))
          | none =>
              let document := Document.parse catalog text.toList
              project.readSources catalog tree (⟨path, identity, document⟩ :: earlier) paths

/-- The sources of a project, read. -/
def sources (project : Project) (catalog : Catalog) (tree : FileTree) :
    Except ProjectError (List ScreenSource) :=
  if tree.isDirectory project.screens then
    match Sources.list tree project.screens project.settings.extension
        project.settings.ignored with
    | .error error => .error (.listing project.screens error)
    | .ok paths => project.readSources catalog tree [] paths
  else .error (.screensMissing project.screens)

/-- The text of the component of a source. -/
def componentText (catalog : Catalog) (routes : List Route) (source : ScreenSource) : String :=
  source.document.generate catalog routes (String.ofList source.identity.componentName)

/-- Writes the components of the given sources. -/
def writeComponents (project : Project) (catalog : Catalog) (routes : List Route)
    (tree : FileTree) :
    List ScreenSource → Except ProjectError (List CompiledFile) × FileTree
  | [] => (.ok [], tree)
  | source :: sources =>
      let output := source.outputPath project.screensOutput
      let text := componentText catalog routes source
      match tree.writeIfChanged output text with
      | (.error error, changed) => (.error error, changed)
      | (.ok outcome, changed) =>
          match project.writeComponents catalog routes changed sources with
          | (.error error, final) => (.error error, final)
          | (.ok files, final) =>
              (.ok
                ({ source := source.path
                   output
                   componentName := String.ofList source.identity.componentName
                   hash := Digest.ofText text
                   outcome
                   diagnostics := source.document.diagnostics } :: files), final)

def routerPath (project : Project) : Path :=
  project.output.joinString Router.fileName

/-- Writes the components and the router of sources that have been read. -/
def writeAll (project : Project) (catalog : Catalog) (tree : FileTree)
    (sources : List ScreenSource) : Except ProjectError Report × FileTree :=
  let routes := sources.map ScreenSource.route
  match project.writeComponents catalog routes tree sources with
  | (.error error, changed) => (.error error, changed)
  | (.ok files, changed) =>
      match changed.writeIfChanged project.routerPath (Router.generate routes) with
      | (.error error, final) => (.error error, final)
      | (.ok outcome, final) =>
          (.ok { files, routes, routerPath := project.routerPath, routerOutcome := outcome },
            final)

/-- One pass over a project. -/
def compile (project : Project) (catalog : Catalog) (tree : FileTree) :
    Except ProjectError Report × FileTree :=
  match project.sources catalog tree with
  | .error error => (.error error, tree)
  | .ok sources => project.writeAll catalog tree sources

end Project

end ScreenCompiler
