import ScreenCompiler.Json.Basic

/-!
# Records in JSON

A record is an object whose members are its fields, or an array of its fields in
order.  Members that are no field do not matter.  The last fields of a record may
have standard values, and only those may be missing from an array.

A variant is a record with one more field in front, which names its case.
-/

namespace ScreenCompiler.Json

open Decimal

def string? : Json → Option String
  | string value => some value
  | _ => none

def bool? : Json → Option Bool
  | bool value => some value
  | _ => none

def float? : Json → Option Float
  | number value => some value.toFloat
  | _ => none

/-- An integer of 64 signed bits. -/
def int? : Json → Option Int
  | number (.integer value) =>
      if -signedBound ≤ value ∧ value < signedBound then some value else none
  | _ => none

/-- A natural number of 64 bits. -/
def nat? : Json → Option Nat
  | number (.integer value) => if 0 ≤ value ∧ value < wordBound then some value.toNat else none
  | _ => none

def items? : Json → Option (List Json)
  | array items => some items
  | _ => none

def list? (read : Json → Option α) (json : Json) : Option (List α) :=
  json.items?.bind (·.mapM read)

/-- A value or null. -/
def option? (read : Json → Option α) : Json → Option (Option α)
  | null => some none
  | json => (read json).map some

/-- A case without fields: its name, alone or as the only member of an object that holds null. -/
def caseName? : Json → Option String
  | string name => some name
  | object [(name, null)] => some name
  | _ => none

/-- The values right inside a container. -/
def parts : Json → List Json
  | array items => items
  | object members => members.map Prod.snd
  | _ => []

theorem sizeOf_lt_of_mem_parts {json part : Json} (member : part ∈ json.parts) :
    sizeOf part < sizeOf json := by
  cases json with
  | array items =>
      have smaller : sizeOf part < sizeOf items := List.sizeOf_lt_of_mem member
      simp only [array.sizeOf_spec]
      omega
  | object members =>
      obtain ⟨⟨name, value⟩, found, rfl⟩ := List.mem_map.1 member
      have smaller := List.sizeOf_lt_of_mem found
      simp only [object.sizeOf_spec, Prod.mk.sizeOf_spec] at smaller ⊢
      omega
  | _ => simp [parts] at member

/-- The case name of a variant, and its fields. -/
def variant? (key : String) : Json → Option (String × Json)
  | object members =>
      ((members.lookup key).bind string?).map fun name =>
        (name, object (members.filter fun entry => entry.1 != key))
  | array (string name :: items) => some (name, array items)
  | _ => none

theorem mem_parts_of_variant? {key name : String} {json fields part : Json}
    (found : json.variant? key = some (name, fields)) (member : part ∈ fields.parts) :
    part ∈ json.parts := by
  unfold variant? at found
  split at found
  · obtain ⟨_, _, equality⟩ := Option.map_eq_some_iff.1 found
    simp only [Prod.mk.injEq] at equality
    rw [← equality.2] at member
    obtain ⟨entry, kept, rfl⟩ := List.mem_map.1 member
    exact List.mem_map_of_mem (List.mem_filter.1 kept).1
  · simp only [Option.some.injEq, Prod.mk.injEq] at found
    rw [← found.2] at member
    exact List.mem_cons_of_mem _ member
  · simp at found

structure Record where
  fields : List (String × Json)

/-- The record of a value, given the names of its fields. -/
def record? (names : List String) (standard : List String) : Json → Option Record
  | object members => some ⟨members⟩
  | array items =>
      if names.length ≤ items.length ∧ items.length ≤ (names ++ standard).length then
        some ⟨(names ++ standard).zip items⟩
      else none
  | _ => none

namespace Record

def value? (record : Record) (name : String) : Option Json :=
  record.fields.lookup name

/-- A field that must be there. -/
def get? (record : Record) (name : String) (read : Json → Option α) : Option α :=
  (record.value? name).bind read

/-- A field with a standard value. -/
def getOr? (record : Record) (name : String) (standard : α) (read : Json → Option α) : Option α :=
  match record.value? name with
  | some json => read json
  | none => some standard

/-- A field that may be null or missing. -/
def option? (record : Record) (name : String) (read : Json → Option α) : Option (Option α) :=
  record.getOr? name none (Json.option? read)

theorem mem_parts_of_value? {names standard : List String} {json value : Json} {record : Record}
    {name : String} (reading : json.record? names standard = some record)
    (found : record.value? name = some value) : value ∈ json.parts := by
  have member : (name, value) ∈ record.fields := by
    obtain ⟨before, after, equality, _⟩ := List.lookup_eq_some_iff.1 found
    simp [equality]
  unfold record? at reading
  split at reading
  · simp only [Option.some.injEq] at reading
    rw [← reading] at member
    exact List.mem_map.2 ⟨_, member, rfl⟩
  · split at reading
    · simp only [Option.some.injEq] at reading
      rw [← reading] at member
      exact (List.of_mem_zip member).2
    · simp at reading
  · simp at reading

end Record

end ScreenCompiler.Json
