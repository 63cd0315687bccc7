import ScreenCompiler.Component.State
import ScreenCompiler.Proofs.Decimal.Whole
import ScreenCompiler.Proofs.Json.RoundTrip
import ScreenCompiler.Proofs.Script.Literals

/-!
# Initial values of states

The initial value of a state is of the kind of its type, and its code stands for what the literal
of the state stands for.
-/

namespace ScreenCompiler

open Text Script

namespace State

/-- The text that a literal stands for: what is between equal quotes around it, or else all of
it. -/
inductive StandsFor : List Char → List Char → Prop where
  | quoted {quote : Char} (isQuote : quote = '"' ∨ quote = '\'') (inner : List Char) :
      StandsFor (quote :: (inner ++ [quote])) inner
  | bare {written : List Char} (bare : ∀ quote inner, quote = '"' ∨ quote = '\'' →
      written ≠ quote :: (inner ++ [quote])) : StandsFor written written

/-- JSON with no more containers in one another than are read. -/
def IsShallowJson (text : List Char) : Prop :=
  ∃ raw, Json.Raw.read? text = some raw ∧ raw.depth ≤ Json.depthLimit

/-- Whether the doubles in a JSON text are read back from their own text.  Whole numbers within 64
bits always are. -/
def RoundTrips (written : List Char) : Prop :=
  ∀ value ∈ Json.read? written, value.DoublesReadBack

instance (written : List Char) : Decidable (RoundTrips written) :=
  inferInstanceAs (Decidable (∀ _ ∈ _, _))

/-- Code of an array or an object with what its literal holds.  Some JSON is not read: it is too
deep, or has numbers past the doubles or halves of characters.  Its code is the literal. -/
structure RendersJson (written : List Char) (value : Json) (code : String) : Prop where
  ofValue : ∀ read, Json.read? written = some read → value = read ∧ code = value.text
  same : IsShallowJson written →
    IsShallowJson code.toList ∧ Json.read? code.toList = Json.read? written
  verbatim : ¬IsShallowJson written → code.toList = written
  unread : Json.read? written = none → code.toList = written

/-- The type, the initial value and the code of a state with a literal.  The value is always of the
kind of the type, and the code is that of the value.  A number keeps its value, only zero loses its
sign. -/
inductive Renders (written : List Char) : StateType → Json → String → Prop where
  | boolean (value : Bool) (word : written = (toString value).toList) :
      Renders written .boolean (.bool value) (toString value)
  | number {x : Float} {value : Json.Number} (read : Decimal.number? written = some x)
      (finite : Decimal.isFinite x = true)
      (same : Decimal.whole? x ≠ some 0 → value.toFloat = x) :
      Renders written .number (.number value) (Decimal.numberText x)
  | string {text code : String} (standsFor : StandsFor written text.toList)
      (literal : IsLiteral text code) : Renders written .string (.string text) code
  | array {items : List Json} {code : String} (json : RendersJson written (.array items) code) :
      Renders written .array (.array items) code
  | object {members : List (String × Json)} {code : String}
      (json : RendersJson written (.object members) code) :
      Renders written .object (.object members) code

theorem quotedText?_eq_some_iff {written inner : List Char} : quotedText? written = some inner ↔
    ∃ quote, (quote = '"' ∨ quote = '\'') ∧ written = quote :: (inner ++ [quote]) := by
  cases written with
  | nil => simp [quotedText?]
  | cons c rest =>
      simp only [quotedText?]
      split
      · rename_i isQuote
        rw [beforeSuffix?_eq_some_iff]
        constructor
        · rintro rfl
          exact ⟨c, isQuote, rfl⟩
        · rintro ⟨quote, -, shape⟩
          obtain ⟨rfl, rfl⟩ := List.cons.inj shape
          rfl
      · rename_i noQuote
        simp only [reduceCtorEq, false_iff]
        rintro ⟨quote, isQuote, shape⟩
        obtain ⟨rfl, -⟩ := List.cons.inj shape
        exact noQuote isQuote

theorem exists_of_isBetween {first last : Char} {written : List Char}
    (between : isBetween first last written = true) : ∃ rest, written = first :: rest := by
  cases written with
  | nil => simp [isBetween] at between
  | cons c rest =>
      obtain ⟨starts, -⟩ := Bool.and_eq_true_iff.mp between
      obtain rfl : c = first := by simpa using starts
      exact ⟨rest, rfl⟩

/-- The ways in which a literal gets its value and type. -/
inductive Classified (written : List Char) : Json × StateType → Prop where
  | boolean (value : Bool) (word : written = (toString value).toList) :
      Classified written (.bool value, .boolean)
  | number (x : Float) (read : Decimal.number? written = some x) :
      Classified written (.number (.ofFloat x), .number)
  | string (text : List Char) (standsFor : StandsFor written text) :
      Classified written (.string (String.ofList text), .string)
  | array {value : Json} (rest : List Char) (opens : written = '[' :: rest)
      (read : value = jsonOr Json.isArray (.array []) written) : Classified written (value, .array)
  | object {value : Json} (rest : List Char) (opens : written = '\x7b' :: rest)
      (read : value = jsonOr Json.isObject (.object []) written) :
      Classified written (value, .object)

theorem classified_classify (written : List Char) : Classified written (classify written) := by
  unfold classify
  split
  · exact .boolean true ‹_›
  split
  · exact .boolean false ‹_›
  split
  · exact .number _ ‹_›
  split
  · rename_i inner found
    obtain ⟨quote, isQuote, rfl⟩ := quotedText?_eq_some_iff.mp found
    exact .string inner (.quoted isQuote inner)
  · rename_i notQuoted
    split
    · obtain ⟨rest, opens⟩ := exists_of_isBetween ‹_›
      exact .array rest opens rfl
    split
    · obtain ⟨rest, opens⟩ := exists_of_isBetween ‹_›
      exact .object rest opens rfl
    · -- Any other literal is text, and it has no quotes to lose.
      refine .string written (.bare fun quote inner isQuote shape => ?_)
      rw [quotedText?_eq_some_iff.mpr ⟨quote, isQuote, shape⟩] at notQuoted
      simp at notQuoted

theorem isFinite_of_number? {written : List Char} {x : Float}
    (read : Decimal.number? written = some x) : Decimal.isFinite x = true := by
  obtain ⟨numeral, -, isNumber⟩ := Option.bind_eq_some_iff.mp read
  split at isNumber
  · rename_i finite
    exact Option.some.inj isNumber ▸ finite
  · simp at isNumber

/-- The code of an array or an object. -/
def containerCode (written : List Char) (value : Json) : String :=
  if (Json.read? written).isSome then value.text else String.ofList written

theorem isShallowJson_of_read? {written : List Char} {value : Json}
    (read : Json.read? written = some value) : IsShallowJson written := by
  obtain ⟨raw, isRaw, shallow, -⟩ := Json.read?_eq_some_iff.mp read
  exact ⟨raw, isRaw, shallow⟩

theorem rendersJson_containerCode {written : List Char} {wanted : Json → Bool} (empty : Json)
    (kind : ∀ value, Json.read? written = some value → wanted value = true)
    (roundTrips : RoundTrips written) :
    RendersJson written (jsonOr wanted empty written)
      (containerCode written (jsonOr wanted empty written)) := by
  unfold containerCode jsonOr
  cases read : Json.read? written with
  | none =>
      rw [Option.isSome_none, if_neg Bool.false_ne_true]
      have verbatim : (String.ofList written).toList = written := String.toList_ofList
      constructor
      case ofValue => simp [read]
      case same =>
        rw [verbatim]
        exact fun shallow => ⟨shallow, rfl⟩
      case verbatim => exact fun _ => verbatim
      case unread => exact fun _ => verbatim
  | some value =>
      rw [Option.isSome_some, if_pos rfl]
      simp only [if_pos (kind value read)]
      constructor
      case ofValue =>
        intro found isFound
        rw [read] at isFound
        exact ⟨Option.some.inj isFound, rfl⟩
      case same =>
        intro _
        have back := Json.read?_text read (roundTrips value read)
        rw [back, read]
        exact ⟨isShallowJson_of_read? back, rfl⟩
      case verbatim => exact fun deep => absurd (isShallowJson_of_read? read) deep
      case unread => simp [read]

theorem code_container {state : State} {written : List Char} (solid : written ≠ [])
    (literal : state.literal = String.ofList written)
    (container : state.type = .array ∨ state.type = .object) :
    state.code = containerCode written state.initialValue := by
  have notEmpty : String.ofList written ≠ "" := by simpa using solid
  have isCode : state.code = if String.ofList written = "" ∨ (Json.read? written).isSome then
      state.initialValue.text else String.ofList written := by
    rcases container with type | type <;> rw [code, type] <;>
      simp only [literal, String.toList_ofList]
  rw [isCode, containerCode]
  simp only [notEmpty, false_or]

theorem wanted_jsonOr {written : List Char} {wanted : Json → Bool} {empty : Json}
    (isEmpty : wanted empty = true)
    (kind : ∀ value, Json.read? written = some value → wanted value = true) :
    wanted (jsonOr wanted empty written) = true := by
  unfold jsonOr
  split
  · rename_i value read
    rw [if_pos (kind value read)]
    exact kind value read
  · exact isEmpty

/-- What the bracket in front promises is what the literal is read as.  The value that stands in for
a literal that is not read never gets into the code. -/
theorem rendersJson_of_jsonOr {state : State} {written : List Char} {wanted : Json → Bool}
    {empty : Json} (solid : written ≠ []) (literal : state.literal = String.ofList written)
    (container : state.type = .array ∨ state.type = .object) (isEmpty : wanted empty = true)
    (kind : ∀ value, Json.read? written = some value → wanted value = true)
    (read : state.initialValue = jsonOr wanted empty written) (roundTrips : RoundTrips written) :
    wanted state.initialValue = true ∧ RendersJson written state.initialValue state.code := by
  rw [code_container solid literal container, read]
  exact ⟨wanted_jsonOr isEmpty kind, rendersJson_containerCode empty kind roundTrips⟩

theorem renders_of_classified {state : State} {written : List Char}
    (literal : state.literal = String.ofList written)
    (classified : Classified written (state.initialValue, state.type))
    (roundTrips : RoundTrips written) :
    Renders written state.type state.initialValue state.code := by
  obtain ⟨name, initialValue, type, shown⟩ := state
  cases classified with
  | boolean value word => exact .boolean value word
  | number x read =>
      have text : code ⟨name, .number (.ofFloat x), .number, shown⟩ = Decimal.numberText x :=
        Json.Number.numberText_ofFloat x
      rw [text]
      exact .number read (isFinite_of_number? read) Json.Number.toFloat_ofFloat
  | string text standsFor =>
      exact .string (by rwa [String.toList_ofList]) (isLiteral_quote (String.ofList text))
  | array rest opens read =>
      have kind : ∀ value, Json.read? written = some value → value.isArray = true := by
        subst opens
        exact fun value => Json.isArray_of_read?
      obtain ⟨isArray, json⟩ :=
        rendersJson_of_jsonOr (by simp [opens]) literal (.inl rfl) rfl kind read roundTrips
      obtain ⟨items, rfl⟩ := Json.exists_of_isArray isArray
      exact .array json
  | object rest opens read =>
      have kind : ∀ value, Json.read? written = some value → value.isObject = true := by
        subst opens
        exact fun value => Json.isObject_of_read?
      obtain ⟨isObject, json⟩ :=
        rendersJson_of_jsonOr (by simp [opens]) literal (.inr rfl) rfl kind read roundTrips
      obtain ⟨members, rfl⟩ := Json.exists_of_isObject isObject
      exact .object json

/-- An array with an object that names a member twice. -/
def rowsLiteral : List Char :=
  " [1.5, \x7b\"b\": -2e-7, \"a\": [\"é\\n\"], \"b\": 0.1\x7d] ; ".toList

example : (infer "items" "['a', 'b'];".toList).code = "['a', 'b']" := by
  decide +kernel

end State

end ScreenCompiler
