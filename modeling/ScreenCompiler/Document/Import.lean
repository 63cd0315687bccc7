import ScreenCompiler.Script.Identifier
import ScreenCompiler.Script.Quoted
import ScreenCompiler.Text.Affix
import ScreenCompiler.Text.Blank
import ScreenCompiler.Text.Case

/-!
# Imports

An import is an import statement of the script language, or a module name alone on
its line, which is bound to a name made from it.
-/

namespace ScreenCompiler

open Text Script

inductive Import where
  | default (name source : String)
  | named (names : List String) (source : String)
  /-- The whole module under one name. -/
  | whole (name source : String)
  deriving DecidableEq, Repr

namespace Import

def source : Import → String
  | default _ source => source
  | named _ source => source
  | whole _ source => source

/-- What follows ` as ` in a list entry, if it occurs. -/
def afterAs? : List Char → Option (List Char)
  | [] => none
  | c :: text =>
      match afterPrefix? " as ".toList (c :: text) with
      | some rest => some rest
      | none => afterAs? text

/-- The local name of an entry of a name list. -/
def localName (entry : String) : String :=
  match afterAs? entry.toList with
  | some rest => String.ofList (trim rest)
  | none => entry

/-- The local names that an import brings into scope. -/
def boundNames : Import → List String
  | default name _ => [name]
  | named names _ => names.map localName
  | whole name _ => [name]

def text : Import → String
  | default name source => "import " ++ name ++ " from " ++ quote source ++ ";"
  | named names source =>
      "import \x7b " ++ String.intercalate ", " names ++ " \x7d from " ++ quote source ++ ";"
  | whole name source => "import * as " ++ name ++ " from " ++ quote source ++ ";"

/-- The text behind at least one blank. -/
def afterBlanks? : List Char → Option (List Char)
  | [] => none
  | c :: text => if isBlank c then some (trimStart text) else none

def isSourceQuote (c : Char) : Bool :=
  c == '"' || c == '\''

/-- A quoted module name that ends the statement, with an optional semicolon.  The two quotes need
not be of one kind. -/
def quotedSource? : List Char → Option String
  | [] => none
  | c :: text =>
      let source := text.takeWhile (!isSourceQuote ·)
      match text.dropWhile (!isSourceQuote ·) with
      | _ :: rest =>
          if isSourceQuote c ∧ source ≠ [] ∧ (trimStart rest = [] ∨ trimStart rest = [';']) then
            some (String.ofList source)
          else none
      | [] => none

/-- The part of a statement from its `from` on. -/
def fromSource? (text : List Char) : Option String :=
  (((afterBlanks? text).bind (afterPrefix? "from".toList)).bind afterBlanks?).bind quotedSource?

/-- The entries of a name list, blanks within each reduced to single spaces. -/
def entries (list : List Char) : List String :=
  ((list.splitOn ',').map fun entry => String.ofList (List.intercalate [' '] (words entry))).filter
    (· != "")

/-- A name list behind its opening brace, and the text behind its closing brace. -/
def nameList? (text : List Char) : Option (List String × List Char) :=
  match text.dropWhile (· != '}') with
  | [] => none
  | _ :: rest => some (entries (text.takeWhile (· != '}')), rest)

def namedFrom? (text : List Char) : Option Import :=
  (nameList? text).bind fun (names, rest) => (fromSource? rest).map (named names)

def wholeFrom? (text : List Char) : Option Import :=
  ((((afterBlanks? text).bind (afterPrefix? "as".toList)).bind afterBlanks?).bind
    identifier?).bind fun (name, rest) => (fromSource? rest).map (whole (String.ofList name))

/-- A statement that starts with a name: a default import, with named imports behind a comma. -/
def defaultFrom? (text : List Char) : Option (List Import) :=
  (identifier? text).bind fun (name, rest) =>
    match trimStart rest with
    | ',' :: list =>
        match trimStart list with
        | '{' :: list =>
            (namedFrom? list).map fun others => [default (String.ofList name) others.source, others]
        | _ => none
    | _ => (fromSource? rest).map fun source => [default (String.ofList name) source]

/-- The imports of an import statement. -/
def statement? (line : List Char) : Option (List Import) :=
  ((afterPrefix? "import".toList line).bind afterBlanks?).bind fun text =>
    match text with
    | '{' :: list => (namedFrom? list).map ([·])
    | '*' :: rest => (wholeFrom? rest).map ([·])
    | _ => defaultFrom? text

def isModuleStart (c : Char) : Bool :=
  'a' ≤ c && c ≤ 'z'

def isModulePart : List Char → Bool
  | [] => false
  | c :: rest => isModuleStart c && rest.all fun d => isModuleStart d || isAsciiDigit d || d == '-'

/-- Words that open a declaration and are never module names. -/
def reservedWords : List (List Char) :=
  ["screen".toList, "state".toList]

/-- Whether a line is a module name: small letters, digits and hyphens, with points between
parts. -/
def isModuleName (line : List Char) : Bool :=
  (line.splitOn '.').all isModulePart && !reservedWords.contains line

/-- A module name as an identifier: hyphens and points go, and the next letter becomes a
capital. -/
def bindingName (capital : Bool) : List Char → List Char
  | [] => []
  | c :: text =>
      if c = '-' ∨ c = '.' then bindingName true text
      else if capital then upper c ++ bindingName false text
      else c :: bindingName false text

def ofModuleName (line : List Char) : Import :=
  default (String.ofList (bindingName false line)) (String.ofList line)

/-- The imports of a line, none when it is no import. -/
def ofLine (line : List Char) : List Import :=
  match statement? line with
  | some imports => imports
  | none => if isModuleName line then [ofModuleName line] else []

end Import

end ScreenCompiler
