import ScreenCompiler.Catalog.Basic
import ScreenCompiler.Text.Sorted

/-!
# Required imports

Which imports a set of used tags asks for.  A tag with a package entry asks for
that package; any other is looked up by its component among the core components.
What remains is custom and left to the author.
-/

namespace ScreenCompiler

open Text

/-- What is imported from one package. -/
structure PackageImport where
  package : String
  kind : ImportKind
  names : List String
  deriving DecidableEq, Repr

namespace PackageImport

/-- The imports with one component added, sorted by package.  The first component of a package
decides how the package is imported. -/
def insert (component : PackageComponent) : List PackageImport → List PackageImport
  | [] => [⟨component.package, component.kind, [component.imported]⟩]
  | entry :: entries =>
      if component.package < entry.package then
        ⟨component.package, component.kind, [component.imported]⟩ :: entry :: entries
      else if component.package = entry.package then
        { entry with names := insertName component.imported entry.names } :: entries
      else entry :: insert component entries

end PackageImport

structure RequiredImports where
  core : List String
  packages : List PackageImport
  custom : List String
  deriving DecidableEq, Repr

namespace RequiredImports

def empty : RequiredImports := ⟨[], [], []⟩

def add (catalog : Catalog) (required : RequiredImports) (tag : String) : RequiredImports :=
  match catalog.packageComponents.lookup tag with
  | some component =>
      { required with packages := PackageImport.insert component required.packages }
  | none =>
      if catalog.coreComponents.contains (catalog.target tag) then
        { required with core := insertName (catalog.target tag) required.core }
      else { required with custom := insertName tag required.custom }

end RequiredImports

/-- The imports that the tags of a list ask for, every part sorted. -/
def Catalog.requiredImports (catalog : Catalog) (tags : List String) : RequiredImports :=
  tags.foldl (RequiredImports.add catalog) .empty

end ScreenCompiler
