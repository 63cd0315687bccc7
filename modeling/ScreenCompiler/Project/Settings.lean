import ScreenCompiler.Json.Basic

/-!
# Project settings

Where a project keeps its screens and its output, and how it is watched.  The
settings stand in the `compiler` section of the project file.  They are read from
the JSON as written, since a setting that is given twice is refused, and so is a
number that is not written as a natural number.  Whatever else the file holds only
has to be JSON.
-/

namespace ScreenCompiler

structure Settings where
  /-- Relative to the project root. -/
  screensDirectory : String
  /-- Relative to the project root. -/
  outputDirectory : String
  /-- The ending of source names, without the point. -/
  extension : String
  /-- The time without changes before a pass, in milliseconds. -/
  debounce : Nat
  /-- Names of files and directories that are left out. -/
  ignored : List String
  /-- Whether generated modules are read back and checked. -/
  validates : Bool
  deriving DecidableEq, Repr

namespace Settings

open Json

def standard : Settings where
  screensDirectory := "app"
  outputDirectory := ".ignite"
  extension := "ignite"
  debounce := 100
  ignored := ["node_modules"]
  validates := true

def text? : Raw → Option String
  | .string body => (unescape? body).map String.ofList
  | _ => none

def flag? : Raw → Option Bool
  | .bool value => some value
  | _ => none

/-- A natural number of 64 bits, written with digits alone. -/
def natural? : Raw → Option Nat
  | .number numeral =>
      match numeral.value? with
      | some (.integer value) => if 0 ≤ value then some value.toNat else none
      | _ => none
  | _ => none

def texts? : Raw → Option (List String)
  | .array items => items.mapM text?
  | _ => none

/-- The names of the settings, in the order of a list of settings. -/
def keys : List String :=
  ["screensDir", "outputDir", "extension", "debounceMs", "ignore", "validateOutput"]

/-- The settings with one given; nothing when it is of the wrong type. -/
def set? (settings : Settings) (key : String) (value : Raw) : Option Settings :=
  match key with
  | "screensDir" => (text? value).map fun directory =>
      { settings with screensDirectory := directory }
  | "outputDir" => (text? value).map fun directory =>
      { settings with outputDirectory := directory }
  | "extension" => (text? value).map fun ending => { settings with extension := ending }
  | "debounceMs" => (natural? value).map fun time => { settings with debounce := time }
  | "ignore" => (texts? value).map fun names => { settings with ignored := names }
  | "validateOutput" => (flag? value).map fun flag => { settings with validates := flag }
  | _ => some settings

def setAll? (settings : Settings) : List (String × Raw) → Option Settings
  | [] => some settings
  | (key, value) :: fields => (settings.set? key value).bind (·.setAll? fields)

/-- The members of an object by name; nothing when one of the given names occurs twice. -/
def fields? (known : List String) (members : List (List Char × Raw)) :
    Option (List (String × Raw)) :=
  (members.mapM fun member =>
      (unescape? member.1).map fun name => (String.ofList name, member.2)).bind fun fields =>
    if ((fields.map Prod.fst).filter known.contains).Nodup then some fields else none

/-- The settings of a section: its members, or the settings in order. -/
def ofSection? : Raw → Option Settings
  | .null => some standard
  | .object members => (fields? keys members).bind standard.setAll?
  | .array items =>
      if items.length ≤ keys.length then standard.setAll? (keys.zip items) else none
  | _ => none

/-- The settings of a project file. -/
def ofProject? : Raw → Option Settings
  | .object members =>
      (fields? ["compiler"] members).bind fun fields =>
        match fields.lookup "compiler" with
        | some value => ofSection? value
        | none => some standard
  | .array [] => some standard
  | .array [value] => ofSection? value
  | _ => none

def read? (text : String) : Option Settings :=
  (Raw.read? text.toList).bind ofProject?

end Settings

end ScreenCompiler
