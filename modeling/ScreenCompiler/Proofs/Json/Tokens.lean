import Mathlib.Data.List.TakeDrop
import ScreenCompiler.Proofs.Json.Strings
import ScreenCompiler.Proofs.Json.Trees

/-!
# Tokens of JSON texts

A mark, a word, a number or a quoted text in front of a text is its first token.  The bracket in
front decides what the value of a text is.
-/

namespace ScreenCompiler.Json

namespace Token

variable {c : Char} {rest : List Char}

theorem isSpace_of_isPlain (plain : isPlain c = true) : isSpace c = false := by
  cases space : isSpace c with
  | false => rfl
  | true =>
      simp only [isSpace, Bool.or_eq_true, beq_iff_eq] at space
      rcases space with ((rfl | rfl) | rfl) | rfl <;> exact absurd plain (by decide)

theorem mem_marks_of_punctuation? {token : Token} (mark : punctuation? c = some token) :
    c ∈ ['[', ']', '\x7b', '\x7d', ',', ':'] := by
  unfold punctuation? at mark
  repeat' split at mark
  all_goals simp_all

theorem isPlain_of_punctuation? {token : Token} (mark : punctuation? c = some token) :
    isPlain c = false ∧ isSpace c = false := by
  have marks : ['[', ']', '\x7b', '\x7d', ',', ':'].all
      (fun mark => !isPlain mark && !isSpace mark) = true := rfl
  simpa using List.all_eq_true.mp marks c (mem_marks_of_punctuation? mark)

theorem punctuation?_of_isPlain (plain : isPlain c = true) : punctuation? c = none :=
  Option.eq_none_iff_forall_ne_some.mpr fun _ mark =>
    absurd plain (by simp [(isPlain_of_punctuation? mark).1])

theorem list?_punctuation {token : Token} (mark : punctuation? c = some token) :
    list? (c :: rest) = (list? rest).map (token :: ·) := by
  rw [list?, if_neg (by simp [(isPlain_of_punctuation? mark).2])]
  simp only [mark]

/-- A text that no name or number goes on in. -/
def Stops (rest : List Char) : Prop :=
  ∀ c ∈ rest.head?, isPlain c = false

theorem stops_punctuation {token : Token} (mark : punctuation? c = some token) :
    Stops (c :: rest) := by
  simp [Stops, (isPlain_of_punctuation? mark).1]

/-- Text that has the given tokens, whatever follows. -/
def Lexes (text : List Char) (tokens : List Token) : Prop :=
  ∀ rest, Stops rest → list? (text ++ rest) = (list? rest).map (tokens ++ ·)

theorem lexes_nil : Lexes [] [] := by
  intro rest _
  simp

theorem lexes_plain {run : List Char} {token : Token} (isRun : run ≠ [])
    (plain : run.all isPlain = true) (isToken : ofPlain? run = some token) :
    Lexes run [token] := by
  intro rest stops
  obtain ⟨c, run, rfl⟩ := List.exists_cons_of_ne_nil isRun
  obtain ⟨first, later⟩ := List.forall_mem_cons.mp (List.all_eq_true.mp plain)
  have noQuote : c ≠ '"' := by
    rintro rfl
    exact absurd first (by decide)
  have taken : (run ++ rest).takeWhile isPlain = run := by
    rw [List.takeWhile_append_of_pos later]
    cases rest with
    | nil => simp
    | cons d rest => simp [stops d rfl]
  have left : (run ++ rest).dropWhile isPlain = rest := by
    rw [List.dropWhile_append_of_pos later]
    cases rest with
    | nil => rfl
    | cons d rest => simp [stops d rfl]
  rw [List.cons_append, list?, if_neg (by simp [isSpace_of_isPlain first])]
  simp only [punctuation?_of_isPlain first, if_neg noQuote, if_pos first, taken, left, isToken]
  rfl

theorem lexes_quoted (text : String) :
    Lexes (quoted text).toList [.string (text.toList.flatMap escape)] := by
  intro rest _
  have body := stringBody?_escaped text.toList rest
  rw [quoted, String.toList_ofList]
  simp only [List.cons_append, List.append_assoc, List.nil_append]
  rw [list?, if_neg (by decide)]
  simp only [show punctuation? '"' = none from rfl, if_true]
  split
  · rename_i found
    rw [body] at found
    cases found
    rfl
  · rename_i none
    exact absurd (none ▸ body) (by simp)

/-- A mark ends what is in front of it. -/
theorem Lexes.separated {front behind : List Char} {early late : List Token} {token : Token}
    (first : Lexes front early) (mark : punctuation? c = some token) (later : Lexes behind late) :
    Lexes (front ++ c :: behind) (early ++ token :: late) := by
  intro rest stops
  rw [List.append_assoc, List.cons_append, first _ (stops_punctuation mark),
    list?_punctuation mark, later rest stops]
  simp [Option.map_map, Function.comp_def]

theorem Lexes.enclosed {closing : Char} {text : List Char} {tokens : List Token}
    {first last : Token} (lexes : Lexes text tokens) (opens : punctuation? c = some first)
    (closes : punctuation? closing = some last) :
    Lexes (c :: (text ++ [closing])) (first :: (tokens ++ [last])) :=
  lexes_nil.separated opens (lexes.separated closes lexes_nil)

theorem Lexes.list? {text : List Char} {tokens : List Token} (lexes : Lexes text tokens) :
    Token.list? text = some tokens := by
  have whole := lexes [] (by simp [Stops])
  rwa [List.append_nil, Token.list?, Option.map_some, List.append_nil] at whole

end Token

variable {written rest : List Char} {value : Json}

theorem read?_eq_some_iff : read? written = some value ↔
    ∃ raw, Raw.read? written = some raw ∧ raw.depth ≤ depthLimit ∧ ofRaw? raw = some value := by
  simp only [read?, Option.bind_eq_some_iff, Option.ite_none_right_eq_some]

/-- The mark in front decides the kind of container that a text is. -/
theorem exists_container_of_read? {c : Char} {mark : Token} {kind : Raw.Container}
    (isMark : Token.punctuation? c = some mark)
    (opens : ∀ {tokens raw}, Raw.value? [] (mark :: tokens) = some raw →
      raw.container? = some kind) (read : read? (c :: rest) = some value) :
    ∃ raw, raw.container? = some kind ∧ ofRaw? raw = some value := by
  obtain ⟨raw, isRaw, -, isValue⟩ := read?_eq_some_iff.mp read
  obtain ⟨tokens, isList, isTree⟩ := Option.bind_eq_some_iff.mp isRaw
  rw [Token.list?_punctuation isMark, Option.map_eq_some_iff] at isList
  obtain ⟨later, -, rfl⟩ := isList
  exact ⟨raw, opens isTree, isValue⟩

theorem isArray_of_read? (read : read? ('[' :: rest) = some value) : value.isArray = true := by
  obtain ⟨raw, kind, isValue⟩ := exists_container_of_read? rfl Raw.container?_of_openArray read
  cases raw with
  | array items =>
      obtain ⟨values, -, rfl⟩ := Option.map_eq_some_iff.mp (ofRaw?.eq_5 _ ▸ isValue)
      rfl
  | _ => simp [Raw.container?] at kind

theorem isObject_of_read? (read : read? ('\x7b' :: rest) = some value) : value.isObject = true := by
  obtain ⟨raw, kind, isValue⟩ := exists_container_of_read? rfl Raw.container?_of_openObject read
  cases raw with
  | object members =>
      obtain ⟨values, -, rfl⟩ := Option.map_eq_some_iff.mp (ofRaw?.eq_6 _ ▸ isValue)
      rfl
  | _ => simp [Raw.container?] at kind

theorem exists_of_isArray (isArray : value.isArray = true) : ∃ items, value = .array items := by
  cases value with
  | array items => exact ⟨items, rfl⟩
  | _ => exact absurd isArray Bool.false_ne_true

theorem exists_of_isObject (isObject : value.isObject = true) :
    ∃ members, value = .object members := by
  cases value with
  | object members => exact ⟨members, rfl⟩
  | _ => exact absurd isObject Bool.false_ne_true

end ScreenCompiler.Json
