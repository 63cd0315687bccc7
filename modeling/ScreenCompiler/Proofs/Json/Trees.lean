import Mathlib.Data.List.Basic
import ScreenCompiler.Json.Raw

/-!
# Trees and their tokens

Every tree is read back from its tokens, inside any open containers and whatever follows.
The container that is opened first decides what the tree of a text is.
-/

namespace ScreenCompiler.Json.Raw

mutual

/-- The tokens of a tree. -/
def tokens : Raw → List Token
  | null => [.null]
  | bool value => [.bool value]
  | number value => [.number value]
  | string body => [.string body]
  | array [] => [.openArray, .closeArray]
  | array (item :: items) => .openArray :: (item.tokens ++ laterItems items ++ [.closeArray])
  | object [] => [.openObject, .closeObject]
  | object ((name, item) :: members) =>
      .openObject :: .string name :: .colon ::
        (item.tokens ++ laterMembers members ++ [.closeObject])

/-- The tokens of the items of an array behind its first one. -/
def laterItems : List Raw → List Token
  | [] => []
  | item :: items => .comma :: (item.tokens ++ laterItems items)

def laterMembers : List (List Char × Raw) → List Token
  | [] => []
  | (name, item) :: members =>
      .comma :: .string name :: .colon :: (item.tokens ++ laterMembers members)

end

/-- The tokens between the brackets of an array. -/
def itemsTokens : List Raw → List Token
  | [] => []
  | item :: items => item.tokens ++ laterItems items

def membersTokens : List (List Char × Raw) → List Token
  | [] => []
  | (name, item) :: members => .string name :: .colon :: (item.tokens ++ laterMembers members)

theorem tokens_array (items : List Raw) :
    (array items).tokens = .openArray :: (itemsTokens items ++ [.closeArray]) := by
  cases items <;> simp [tokens, itemsTokens]

theorem tokens_object (members : List (List Char × Raw)) :
    (object members).tokens = .openObject :: (membersTokens members ++ [.closeObject]) := by
  cases members <;> simp [tokens, membersTokens]

theorem itemsTokens_cons_cons (item next : Raw) (items : List Raw) :
    itemsTokens (item :: next :: items) = item.tokens ++ .comma :: itemsTokens (next :: items) := by
  simp only [itemsTokens, laterItems]

theorem membersTokens_cons_cons (name : List Char) (item : Raw) (next : List Char × Raw)
    (members : List (List Char × Raw)) : membersTokens ((name, item) :: next :: members) =
      .string name :: .colon :: (item.tokens ++ .comma :: membersTokens (next :: members)) := by
  simp only [membersTokens, laterMembers]

/-- Tokens with which an item of an array can start: they neither end the array nor name a
member. -/
structure StartItem (tokens : List Token) : Prop where
  goesOn : ∀ later, tokens ≠ .closeArray :: later
  noMember : ∀ name later, tokens ≠ .string name :: .colon :: later

theorem startItem_tokens (item : Raw) {rest : List Token}
    (follows : ∀ later, rest ≠ .colon :: later) : StartItem (item.tokens ++ rest) := by
  constructor
  · intro later
    rcases item with _ | _ | _ | _ | (_ | _) | (_ | ⟨⟨_, _⟩, _⟩) <;> simp [tokens]
  · intro name later
    rcases item with _ | _ | _ | _ | (_ | _) | (_ | ⟨⟨_, _⟩, _⟩) <;> simp [tokens, follows]

theorem startItem_laterItems (item : Raw) (items : List Raw) (rest : List Token) :
    StartItem (item.tokens ++ (laterItems items ++ .closeArray :: rest)) := by
  refine startItem_tokens item fun later => ?_
  cases items <;> simp [laterItems]

theorem value?_openArray {frames : List Frame} {tokens : List Token} (start : StartItem tokens) :
    value? frames (.openArray :: tokens) = value? (.array [] :: frames) tokens := by
  rw [value?]
  exact start.goesOn

theorem follow?_comma {frames : List Frame} {items : List Raw} {item : Raw} {tokens : List Token}
    (start : StartItem tokens) : follow? (.array items :: frames) item (.comma :: tokens) =
      value? (.array (item :: items) :: frames) tokens := by
  rw [follow?]
  exact start.noMember

mutual

/-- A tree is read from its tokens wherever a value can stand. -/
theorem value?_tokens : ∀ (raw : Raw) (frames : List Frame) (rest : List Token),
    value? frames (raw.tokens ++ rest) = follow? frames raw rest
  | null, frames, rest => by simp [tokens, value?]
  | bool value, frames, rest => by simp [tokens, value?]
  | number value, frames, rest => by simp [tokens, value?]
  | string body, frames, rest => by simp [tokens, value?]
  | array [], frames, rest => by simp [tokens, value?]
  | array (item :: items), frames, rest => by
      simp only [tokens, List.cons_append, List.append_assoc, List.nil_append]
      rw [value?_openArray (startItem_laterItems item items rest), value?_tokens item,
        follow?_laterItems items]
      rfl
  | object [], frames, rest => by simp [tokens, value?]
  | object ((name, item) :: members), frames, rest => by
      simp only [tokens, List.cons_append, List.append_assoc, List.nil_append, value?]
      rw [value?_tokens item, follow?_laterMembers members]
      rfl

theorem follow?_laterItems : ∀ (items earlier : List Raw) (item : Raw) (frames : List Frame)
    (rest : List Token),
    follow? (.array earlier :: frames) item (laterItems items ++ .closeArray :: rest) =
      follow? frames (.array (earlier.reverse ++ item :: items)) rest
  | [], earlier, item, frames, rest => by simp [laterItems, follow?]
  | next :: items, earlier, item, frames, rest => by
      simp only [laterItems, List.cons_append, List.append_assoc]
      rw [follow?_comma (startItem_laterItems next items rest), value?_tokens next,
        follow?_laterItems items]
      simp

theorem follow?_laterMembers : ∀ (members earlier : List (List Char × Raw)) (name : List Char)
    (item : Raw) (frames : List Frame) (rest : List Token),
    follow? (.object earlier name :: frames) item (laterMembers members ++ .closeObject :: rest) =
      follow? frames (.object (earlier.reverse ++ (name, item) :: members)) rest
  | [], earlier, name, item, frames, rest => by simp [laterMembers, follow?]
  | (next, value) :: members, earlier, name, item, frames, rest => by
      simp only [laterMembers, List.cons_append, List.append_assoc, follow?]
      rw [value?_tokens value, follow?_laterMembers members]
      simp

end

theorem value?_nil_tokens (raw : Raw) : value? [] raw.tokens = some raw := by
  have read := value?_tokens raw [] []
  rwa [List.append_nil, follow?, List.isEmpty_nil, if_pos rfl] at read

inductive Container where
  | array
  | object
  deriving DecidableEq, Repr

def container? : Raw → Option Container
  | array _ => some .array
  | object _ => some .object
  | _ => none

def Frame.container : Frame → Container
  | .array _ => .array
  | .object _ _ => .object

/-- The kind of the container that was opened first. -/
def outermost? : List Frame → Option Container
  | [] => none
  | frame :: outer => (outermost? outer).or (some frame.container)

/-- Every step either gives up or goes on with the same kind of container at the bottom. -/
theorem container?_of_read :
    (∀ frames tokens, ∀ raw, value? frames tokens = some raw →
      ∀ kind, outermost? frames = some kind → raw.container? = some kind) ∧
    (∀ frames item tokens, ∀ raw, follow? frames item tokens = some raw →
      raw.container? = (outermost? frames).or item.container?) := by
  apply value?.mutual_induct
  all_goals intros; simp_all [value?, follow?, outermost?, container?, Frame.container]

theorem container?_of_openArray {raw : Raw} {tokens : List Token}
    (read : value? [] (.openArray :: tokens) = some raw) : raw.container? = some .array := by
  by_cases ends : ∃ later, tokens = .closeArray :: later
  · obtain ⟨later, rfl⟩ := ends
    rw [value?] at read
    exact container?_of_read.2 [] (array []) later raw read
  · rw [value?] at read
    · exact container?_of_read.1 [.array []] tokens raw read .array rfl
    · exact fun later shape => ends ⟨later, shape⟩

theorem container?_of_openObject {raw : Raw} {tokens : List Token}
    (read : value? [] (.openObject :: tokens) = some raw) : raw.container? = some .object := by
  rw [value?.eq_def] at read
  split at read
  all_goals simp_all
  · exact container?_of_read.2 [] (object []) _ raw read
  · exact container?_of_read.1 [.object [] _] _ raw read .object rfl

end ScreenCompiler.Json.Raw
