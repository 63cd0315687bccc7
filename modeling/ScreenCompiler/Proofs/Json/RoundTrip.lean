import Mathlib.Data.List.Basic
import Mathlib.Data.String.Basic
import ScreenCompiler.Proofs.Json.Numbers
import ScreenCompiler.Proofs.Json.Tokens

/-!
# Reading printed JSON

A value that was read is read again from its text, if its doubles are read from theirs.
-/

namespace ScreenCompiler.Json

mutual

/-- The doubles in a value. -/
def doubles : Json → List Float
  | number (.double x) => [x]
  | array items => doublesOfItems items
  | object members => doublesOfMembers members
  | _ => []

def doublesOfItems : List Json → List Float
  | [] => []
  | item :: items => doubles item ++ doublesOfItems items

def doublesOfMembers : List (String × Json) → List Float
  | [] => []
  | (_, value) :: members => doubles value ++ doublesOfMembers members

end

/-- Whether every double in a value is read back from its text. -/
def DoublesReadBack (value : Json) : Prop :=
  ∀ x ∈ doubles value, (Number.double x).ReadsBack

instance (value : Json) : Decidable value.DoublesReadBack :=
  inferInstanceAs (Decidable (∀ _ ∈ _, _))

theorem doubles_subset_items {item : Json} {items : List Json} (membership : item ∈ items) :
    doubles item ⊆ doublesOfItems items := by
  induction items with
  | nil => exact absurd membership List.not_mem_nil
  | cons first items inductionHypothesis =>
      rw [doublesOfItems]
      rcases List.mem_cons.mp membership with rfl | later
      · exact List.subset_append_left _ _
      · exact List.subset_append_of_subset_right _ (inductionHypothesis later)

theorem doubles_subset_members {member : String × Json} {members : List (String × Json)}
    (membership : member ∈ members) : doubles member.2 ⊆ doublesOfMembers members := by
  induction members with
  | nil => exact absurd membership List.not_mem_nil
  | cons first members inductionHypothesis =>
      rw [doublesOfMembers]
      rcases List.mem_cons.mp membership with rfl | later
      · exact List.subset_append_left _ _
      · exact List.subset_append_of_subset_right _ (inductionHypothesis later)

theorem DoublesReadBack.item {item : Json} {items : List Json}
    (back : (Json.array items).DoublesReadBack) (membership : item ∈ items) :
    item.DoublesReadBack :=
  fun x double => back x (doubles_subset_items membership double)

theorem DoublesReadBack.member {member : String × Json} {members : List (String × Json)}
    (back : (Json.object members).DoublesReadBack) (membership : member ∈ members) :
    member.2.DoublesReadBack :=
  fun x double => back x (doubles_subset_members membership double)

/-- Values that their text is read back as: containers lie in one another no deeper than the limit,
the names of members ascend, and every number is read from its text. -/
inductive Printable : Nat → Json → Prop where
  | null (limit : Nat) : Printable limit .null
  | bool (limit : Nat) (value : Bool) : Printable limit (.bool value)
  | number (limit : Nat) {number : Number} (back : number.ReadsBack) :
      Printable limit (.number number)
  | string (limit : Nat) (text : String) : Printable limit (.string text)
  | array {limit : Nat} {items : List Json} (each : ∀ item ∈ items, Printable limit item) :
      Printable (limit + 1) (.array items)
  | object {limit : Nat} {members : List (String × Json)}
      (ascend : (members.map Prod.fst).Pairwise (· < ·))
      (each : ∀ member ∈ members, Printable limit member.2) :
      Printable (limit + 1) (.object members)

theorem mem_insertMember {name : String} {value : Json} {member : String × Json}
    {members : List (String × Json)} (membership : member ∈ insertMember name value members) :
    member = (name, value) ∨ member ∈ members := by
  induction members with
  | nil => simpa [insertMember] using membership
  | cons other members inductionHypothesis =>
      obtain ⟨otherName, previous⟩ := other
      rw [insertMember] at membership
      split at membership
      · simpa using membership
      · split at membership
        · rcases List.mem_cons.mp membership with same | later
          · exact .inl same
          · exact .inr (List.mem_cons_of_mem _ later)
        · rcases List.mem_cons.mp membership with same | later
          · exact .inr (same ▸ List.mem_cons_self)
          · exact (inductionHypothesis later).imp_right (List.mem_cons_of_mem _)

theorem ascend_insertMember (name : String) (value : Json) {members : List (String × Json)}
    (ascend : (members.map Prod.fst).Pairwise (· < ·)) :
    ((insertMember name value members).map Prod.fst).Pairwise (· < ·) := by
  induction members with
  | nil => simp [insertMember]
  | cons other members inductionHypothesis =>
      obtain ⟨otherName, previous⟩ := other
      rw [List.map_cons, List.pairwise_cons] at ascend
      obtain ⟨least, later⟩ := ascend
      rw [insertMember]
      split
      · rename_i less
        refine List.pairwise_cons.mpr
          ⟨fun member membership => ?_, List.pairwise_cons.mpr ⟨least, later⟩⟩
        rcases List.mem_cons.mp membership with rfl | behind
        · exact less
        · exact less.trans (least member behind)
      · split
        · rename_i same
          exact List.pairwise_cons.mpr ⟨same ▸ least, later⟩
        · rename_i notLess notSame
          refine List.pairwise_cons.mpr ⟨fun member membership => ?_, inductionHypothesis later⟩
          obtain ⟨⟨key, held⟩, inserted, rfl⟩ := List.mem_map.mp membership
          -- The new member may stand anywhere in the rest, but it is past this one.
          rcases mem_insertMember inserted with same | behind
          · obtain ⟨rfl, -⟩ := Prod.mk.inj same
            exact lt_of_le_of_ne (not_lt.mp notLess) (Ne.symm notSame)
          · exact least key (List.mem_map_of_mem behind)

theorem exists_of_itemsOfRaw? {raws : List Raw} {items : List Json}
    (read : itemsOfRaw? raws = some items) {item : Json} (membership : item ∈ items) :
    ∃ raw ∈ raws, ofRaw? raw = some item := by
  induction raws generalizing items with
  | nil =>
      cases read
      exact absurd membership List.not_mem_nil
  | cons raw raws inductionHypothesis =>
      obtain ⟨value, first, rest⟩ := Option.bind_eq_some_iff.mp (itemsOfRaw?.eq_2 _ _ ▸ read)
      obtain ⟨values, later, rfl⟩ := Option.map_eq_some_iff.mp rest
      rcases List.mem_cons.mp membership with rfl | behind
      · exact ⟨raw, List.mem_cons_self, first⟩
      · obtain ⟨found, inside, is⟩ := inductionHypothesis later behind
        exact ⟨found, List.mem_cons_of_mem _ inside, is⟩

/-- Members that were read ascend, and each has a value that was read. -/
theorem members_of_membersOfRaw? {raws : List (List Char × Raw)}
    {earlier members : List (String × Json)} (read : membersOfRaw? earlier raws = some members)
    (ascend : (earlier.map Prod.fst).Pairwise (· < ·)) :
    (members.map Prod.fst).Pairwise (· < ·) ∧ ∀ member ∈ members,
      member ∈ earlier ∨ ∃ raw ∈ raws, ofRaw? raw.2 = some member.2 := by
  induction raws generalizing earlier with
  | nil =>
      cases read
      exact ⟨ascend, fun _ => .inl⟩
  | cons raw raws inductionHypothesis =>
      obtain ⟨name, item⟩ := raw
      rw [membersOfRaw?] at read
      obtain ⟨key, -, rest⟩ := Option.bind_eq_some_iff.mp read
      obtain ⟨value, isValue, later⟩ := Option.bind_eq_some_iff.mp rest
      obtain ⟨sorted, each⟩ :=
        inductionHypothesis later (ascend_insertMember (String.ofList key) value ascend)
      refine ⟨sorted, fun member membership => ?_⟩
      rcases each member membership with inserted | ⟨found, inside, is⟩
      · rcases mem_insertMember inserted with rfl | before
        · exact .inr ⟨(name, item), List.mem_cons_self, isValue⟩
        · exact .inl before
      · exact .inr ⟨found, List.mem_cons_of_mem _ inside, is⟩

mutual

/-- A value that was read is printable if its doubles are: integers always are. -/
theorem printable_of_ofRaw? : ∀ (raw : Raw) {limit : Nat} {value : Json}, raw.depth ≤ limit →
    ofRaw? raw = some value → value.DoublesReadBack → Printable limit value
  | .null, limit, _, _, read, _ => by
      cases read
      exact .null limit
  | .bool value, limit, _, _, read, _ => by
      cases read
      exact .bool limit value
  | .number parts, limit, _, _, read, back => by
      obtain ⟨number, isNumber, rfl⟩ := Option.map_eq_some_iff.mp (ofRaw?.eq_3 _ ▸ read)
      cases number with
      | integer whole =>
          obtain ⟨low, high⟩ := Number.range_of_value? isNumber
          exact .number limit (Number.readsBack_integer low high)
      | double x => exact .number limit (back x List.mem_cons_self)
  | .string body, limit, _, _, read, _ => by
      obtain ⟨text, -, rfl⟩ := Option.map_eq_some_iff.mp (ofRaw?.eq_4 _ ▸ read)
      exact .string limit (String.ofList text)
  | .array raws, limit, _, deep, read, back => by
      rw [ofRaw?] at read
      obtain ⟨items, isItems, rfl⟩ := Option.map_eq_some_iff.mp read
      rw [Raw.depth] at deep
      obtain ⟨limit, rfl⟩ := Nat.exists_eq_succ_of_ne_zero (n := limit) (by omega)
      refine .array fun item membership => ?_
      obtain ⟨raw, inside, isItem⟩ := exists_of_itemsOfRaw? isItems membership
      exact printable_of_items raws (by omega) raw inside isItem (back.item membership)
  | .object raws, limit, _, deep, read, back => by
      rw [ofRaw?] at read
      obtain ⟨members, isMembers, rfl⟩ := Option.map_eq_some_iff.mp read
      rw [Raw.depth] at deep
      obtain ⟨limit, rfl⟩ := Nat.exists_eq_succ_of_ne_zero (n := limit) (by omega)
      obtain ⟨sorted, each⟩ := members_of_membersOfRaw? isMembers .nil
      refine .object sorted fun member membership => ?_
      obtain ⟨raw, inside, isMember⟩ := (each member membership).resolve_left List.not_mem_nil
      exact printable_of_members raws (by omega) raw inside isMember (back.member membership)

theorem printable_of_items : ∀ (raws : List Raw) {limit : Nat}, Raw.depthOfItems raws ≤ limit →
    ∀ raw ∈ raws, ∀ {value : Json}, ofRaw? raw = some value →
      value.DoublesReadBack → Printable limit value
  | [], _, _, _, membership, _, _, _ => absurd membership List.not_mem_nil
  | first :: raws, limit, deep, raw, membership, _, read, back => by
      rw [Raw.depthOfItems] at deep
      rcases List.mem_cons.mp membership with same | later
      · exact printable_of_ofRaw? first (by omega) (same ▸ read) back
      · exact printable_of_items raws (by omega) raw later read back

theorem printable_of_members : ∀ (raws : List (List Char × Raw)) {limit : Nat},
    Raw.depthOfMembers raws ≤ limit → ∀ raw ∈ raws, ∀ {value : Json}, ofRaw? raw.2 = some value →
      value.DoublesReadBack → Printable limit value
  | [], _, _, _, membership, _, _, _ => absurd membership List.not_mem_nil
  | (name, first) :: raws, limit, deep, raw, membership, _, read, back => by
      rw [Raw.depthOfMembers] at deep
      rcases List.mem_cons.mp membership with rfl | later
      · exact printable_of_ofRaw? first (by omega) read back
      · exact printable_of_members raws (by omega) raw later read back

end

/-- A tree that is read from the text of a value, and has this value. -/
structure IsTreeOf (limit : Nat) (value : Json) (raw : Raw) : Prop where
  lexes : Token.Lexes value.text.toList raw.tokens
  value : ofRaw? raw = some value
  depth : raw.depth ≤ limit

section Items

variable {limit : Nat} {items : List Json} {tree : Json → Raw}

theorem itemsOfRaw?_map (trees : ∀ item ∈ items, IsTreeOf limit item (tree item)) :
    itemsOfRaw? (items.map tree) = some items := by
  induction items with
  | nil => rfl
  | cons item items inductionHypothesis =>
      obtain ⟨first, later⟩ := List.forall_mem_cons.mp trees
      rw [List.map_cons, itemsOfRaw?, first.value, inductionHypothesis later]
      rfl

theorem depthOfItems_map (trees : ∀ item ∈ items, IsTreeOf limit item (tree item)) :
    Raw.depthOfItems (items.map tree) ≤ limit := by
  induction items with
  | nil => exact Nat.zero_le limit
  | cons item items inductionHypothesis =>
      obtain ⟨first, later⟩ := List.forall_mem_cons.mp trees
      rw [List.map_cons, Raw.depthOfItems]
      exact max_le first.depth (inductionHypothesis later)

theorem lexes_itemsText (trees : ∀ item ∈ items, IsTreeOf limit item (tree item)) :
    Token.Lexes (itemsText items).toList (Raw.itemsTokens (items.map tree)) := by
  induction items with
  | nil => exact Token.lexes_nil
  | cons item items inductionHypothesis =>
      obtain ⟨first, later⟩ := List.forall_mem_cons.mp trees
      cases items with
      | nil => simpa [itemsText, Raw.itemsTokens, Raw.laterItems] using first.lexes
      | cons next items =>
          have comma : Token.punctuation? ',' = some .comma := rfl
          have both := first.lexes.separated comma (inductionHypothesis later)
          simpa [itemsText, Raw.itemsTokens_cons_cons] using both

end Items

section Members

variable {limit : Nat} {members : List (String × Json)} {tree : String × Json → Raw}

/-- A member of a tree, with its name as it is written. -/
def spelled (tree : String × Json → Raw) (member : String × Json) : List Char × Raw :=
  (member.1.toList.flatMap escape, tree member)

theorem insertMember_of_greatest {name : String} (value : Json)
    (greatest : ∀ member ∈ members, member.1 < name) :
    insertMember name value members = members ++ [(name, value)] := by
  induction members with
  | nil => rfl
  | cons member members inductionHypothesis =>
      obtain ⟨less, later⟩ := List.forall_mem_cons.mp greatest
      rw [insertMember, if_neg less.asymm, if_neg less.ne', inductionHypothesis later]
      rfl

/-- Members that ascend are read in their order. -/
theorem membersOfRaw?_map (trees : ∀ member ∈ members, IsTreeOf limit member.2 (tree member))
    (earlier : List (String × Json))
    (ascend : ((earlier ++ members).map Prod.fst).Pairwise (· < ·)) :
    membersOfRaw? earlier (members.map (spelled tree)) = some (earlier ++ members) := by
  induction members generalizing earlier with
  | nil => simp [membersOfRaw?]
  | cons member members inductionHypothesis =>
      obtain ⟨first, later⟩ := List.forall_mem_cons.mp trees
      have greatest : ∀ other ∈ earlier, other.1 < member.1 := by
        intro other before
        rw [List.map_append, List.pairwise_append] at ascend
        exact ascend.2.2 _ (List.mem_map_of_mem before) _ List.mem_cons_self
      rw [List.append_cons] at ascend ⊢
      rw [List.map_cons, spelled, membersOfRaw?, unescape?_escaped, Option.bind_some, first.value,
        Option.bind_some, String.ofList_toList, insertMember_of_greatest member.2 greatest]
      exact inductionHypothesis later _ ascend

theorem depthOfMembers_map (trees : ∀ member ∈ members, IsTreeOf limit member.2 (tree member)) :
    Raw.depthOfMembers (members.map (spelled tree)) ≤ limit := by
  induction members with
  | nil => exact Nat.zero_le limit
  | cons member members inductionHypothesis =>
      obtain ⟨first, later⟩ := List.forall_mem_cons.mp trees
      rw [List.map_cons, spelled, Raw.depthOfMembers]
      exact max_le first.depth (inductionHypothesis later)

theorem lexes_membersText (trees : ∀ member ∈ members, IsTreeOf limit member.2 (tree member)) :
    Token.Lexes (membersText members).toList (Raw.membersTokens (members.map (spelled tree))) := by
  have colon : Token.punctuation? ':' = some .colon := rfl
  have comma : Token.punctuation? ',' = some .comma := rfl
  induction members with
  | nil => exact Token.lexes_nil
  | cons member members inductionHypothesis =>
      obtain ⟨first, later⟩ := List.forall_mem_cons.mp trees
      have name := Token.lexes_quoted member.1
      cases members with
      | nil =>
          have named := name.separated colon first.lexes
          simpa [membersText, spelled, Raw.membersTokens, Raw.laterMembers] using named
      | cons next members =>
          have both := first.lexes.separated comma (inductionHypothesis later)
          have named := name.separated colon both
          simpa [membersText, spelled, Raw.membersTokens_cons_cons] using named

end Members

theorem exists_tree {limit : Nat} {value : Json} (printable : Printable limit value) :
    ∃ raw, IsTreeOf limit value raw := by
  have : Nonempty Raw := ⟨.null⟩
  induction printable with
  | null limit =>
      exact ⟨.null, Token.lexes_plain (by decide) rfl rfl, rfl, Nat.zero_le limit⟩
  | bool limit value =>
      refine ⟨.bool value, ?_, rfl, Nat.zero_le limit⟩
      cases value <;> exact Token.lexes_plain (by decide) rfl rfl
  | @number limit number back =>
      obtain ⟨parts, read, isNumber⟩ := Option.bind_eq_some_iff.mp back
      obtain ⟨solid, plain, token⟩ := ofPlain?_of_read? read
      refine ⟨.number parts, ?_, by simp [ofRaw?, isNumber], Nat.zero_le limit⟩
      rw [text]
      exact Token.lexes_plain solid (List.all_eq_true.mpr plain) token
  | string limit text =>
      refine ⟨.string (text.toList.flatMap escape), Token.lexes_quoted text, ?_, Nat.zero_le limit⟩
      rw [ofRaw?, unescape?_escaped, Option.map_some, String.ofList_toList]
  | @array limit items _ trees =>
      choose! tree trees using trees
      have opens : Token.punctuation? '[' = some .openArray := rfl
      have closes : Token.punctuation? ']' = some .closeArray := rfl
      refine ⟨.array (items.map tree), ?_, ?_, ?_⟩
      · have enclosed := (lexes_itemsText trees).enclosed opens closes
        simpa [text, Raw.tokens_array] using enclosed
      · rw [ofRaw?, itemsOfRaw?_map trees]
        rfl
      · rw [Raw.depth]
        exact Nat.succ_le_succ (depthOfItems_map trees)
  | @object limit members ascend _ trees =>
      choose! tree trees using trees
      have opens : Token.punctuation? '\x7b' = some .openObject := rfl
      have closes : Token.punctuation? '\x7d' = some .closeObject := rfl
      refine ⟨.object (members.map (spelled tree)), ?_, ?_, ?_⟩
      · have enclosed := (lexes_membersText trees).enclosed opens closes
        simpa [text, Raw.tokens_object] using enclosed
      · rw [ofRaw?, membersOfRaw?_map trees [] ascend]
        rfl
      · rw [Raw.depth]
        exact Nat.succ_le_succ (depthOfMembers_map trees)

/-- A value that was read is read again from its text. -/
theorem read?_text {written : List Char} {value : Json} (read : read? written = some value)
    (back : value.DoublesReadBack) : read? value.text.toList = some value := by
  obtain ⟨original, -, shallow, isValue⟩ := read?_eq_some_iff.mp read
  obtain ⟨raw, tree⟩ := exists_tree (printable_of_ofRaw? original shallow isValue back)
  refine read?_eq_some_iff.mpr ⟨raw, ?_, tree.depth, tree.value⟩
  rw [Raw.read?, tree.lexes.list?, Option.bind_some, Raw.value?_nil_tokens]

end ScreenCompiler.Json
