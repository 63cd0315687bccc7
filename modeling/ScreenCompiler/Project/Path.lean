import ScreenCompiler.Text.Affix

/-!
# Paths

A path keeps the text it was built from, which messages show, and is compared by its
components.  Repeated and trailing separators and inner dots make no component; a
leading dot and every double dot do.
-/

namespace ScreenCompiler

open Text

structure Path where
  text : List Char
  deriving DecidableEq, Repr

namespace Path

inductive Component where
  | root
  | current
  | parent
  | name (part : List Char)
  deriving DecidableEq, Repr

def Component.text : Component → List Char
  | root => ['/']
  | current => ['.']
  | parent => ['.', '.']
  | name part => part

def ofString (text : String) : Path := ⟨text.toList⟩

def toString (path : Path) : String := String.ofList path.text

def isAbsolute (path : Path) : Bool :=
  path.text.head? == some '/'

/-- A part between separators as a component; empty parts and dots make none. -/
def component? (part : List Char) : Option Component :=
  if part = [] ∨ part = ['.'] then none
  else if part = ['.', '.'] then some .parent
  else some (.name part)

/-- The parts between separators. -/
def parts (path : Path) : List (List Char) :=
  path.text.splitOn '/'

def components (path : Path) : List Component :=
  let front : List Component :=
    if path.isAbsolute then [.root]
    else if path.parts.head? = some ['.'] then [.current]
    else []
  front ++ path.parts.filterMap component?

/-- Whether two paths have the same components. -/
def same (first second : Path) : Bool :=
  first.components == second.components

/-- A path put behind another; an absolute path stands for itself. -/
def join (base path : Path) : Path :=
  if path.isAbsolute then path
  else if base.text.isEmpty || base.text.getLast? == some '/' then ⟨base.text ++ path.text⟩
  else ⟨base.text ++ '/' :: path.text⟩

def joinString (base : Path) (text : String) : Path :=
  base.join (ofString text)

/-- The components behind a base, for a path that lies below it. -/
def relative? (base path : Path) : Option (List Component) :=
  if base.components.isPrefixOf path.components then
    some (path.components.drop base.components.length)
  else none

def isBelow (base path : Path) : Bool :=
  (relative? base path).isSome

/-- Components written with slashes between them. -/
def slashed (components : List Component) : List Char :=
  List.intercalate ['/'] (components.map Component.text)

/-- The path relative to a base, or the whole path when it does not lie below it. -/
def relativeText (base path : Path) : List Char :=
  slashed ((relative? base path).getD path.components)

def fileName? (path : Path) : Option (List Char) :=
  match path.components.getLast? with
  | some (.name part) => some part
  | _ => none

/-- What follows the last point of a file name; a name with no other point than a leading one has
no extension. -/
def extensionOf? (name : List Char) : Option (List Char) :=
  match splitLast? '.' name with
  | some (_ :: _, ending) => some ending
  | _ => none

def extension? (path : Path) : Option (List Char) :=
  path.fileName?.bind extensionOf?

/-- The path without the separators at its end; the root keeps one. -/
def withoutEnd (path : Path) : Path :=
  match (path.text.reverse.dropWhile (· == '/')).reverse with
  | [] => ⟨path.text.take 1⟩
  | text => ⟨text⟩

/-- Parts that separate nothing: empty ones and dots. -/
def isTrivial (part : List Char) : Bool :=
  part.isEmpty || part == ['.']

def dropTrivialEnd (parts : List (List Char)) : List (List Char) :=
  (parts.reverse.dropWhile isTrivial).reverse

/-- The path without its last component. -/
def parent? (path : Path) : Option Path :=
  match path.parts with
  | [] => none
  | first :: rest =>
      match dropTrivialEnd rest with
      | [] => if first.isEmpty then none else some ⟨[]⟩
      | last :: others =>
          let kept := first :: dropTrivialEnd (last :: others).dropLast
          let text := List.intercalate ['/'] kept
          some (if text.isEmpty && path.isAbsolute then ⟨['/']⟩ else ⟨text⟩)

end Path

end ScreenCompiler
