import ScreenCompiler.Proofs.Document.MarkupLines
import ScreenCompiler.Proofs.Markup.Scanning

/-!
# Heads by their places

The parts of a head can be cut out of its text by the places where they start and end.  A
slice fails when its places are out of bounds or out of order.  None of them ever is.
-/

namespace ScreenCompiler

open Text

/-- The part of a text between two places, if they are in order and within the text. -/
def Text.slice? (first last : Nat) (text : List Char) : Option (List Char) :=
  if first ≤ last ∧ last ≤ text.length then some ((text.take last).drop first) else none

theorem Text.slice?_of_append {text inside : List Char} {first last : Nat}
    (before after : List Char) (shape : text = before ++ inside ++ after)
    (starts : first = before.length)
    (ends : last = first + inside.length) : slice? first last text = some inside := by
  subst shape starts ends
  have bounds : before.length ≤ before.length + inside.length ∧
      before.length + inside.length ≤ (before ++ inside ++ after).length := by
    simp only [List.length_append]
    omega
  have front : (before ++ inside ++ after).take (before.length + inside.length) =
      before ++ inside := by
    rw [← List.length_append, List.take_left]
  rw [slice?, if_pos bounds, front, List.drop_left]

namespace Head

/-- The place behind the name of a tag. -/
def nameEnd (text : List Char) : Nat :=
  1 + (tagOf text).length

/-- The place behind the end of a tag, in a text that starts at the given place. -/
def endPlace? (state : Place) (place : Nat) : List Char → Option Nat
  | [] => none
  | c :: text =>
      if state.closesAt c then some (place + 1) else endPlace? (state.step c) (place + 1) text

/-- A head of its name and what stands behind it up to the end of the tag. -/
def ofParts (tag inner : List Char) : Head :=
  match beforeSuffix? ['/'] (trimEnd inner) with
  | some attributes => ⟨tag, attributes, true⟩
  | none => ⟨tag, trimEnd inner, false⟩

/-- The head at the front of a text, if it is one and has an end.  The outer option is that of the
slices. -/
def readSlices? (text : List Char) : Option (Option (Head × List Char)) :=
  if isHead text then
    match endPlace? .start 1 (text.drop 1) with
    | none => some none
    | some place =>
        (slice? 1 (nameEnd text) text).bind fun tag =>
          (slice? (nameEnd text) (place - 1) text).bind fun inner =>
            (slice? place text.length text).map fun rest => some (ofParts tag inner, trim rest)
  else some none

/-- The place behind the attributes of a text that ends like a tag, and whether it closes itself. -/
def attributesEnd? (text : List Char) : Option (Nat × Bool) :=
  if endsWith ['/', '>'] text then some (text.length - 2, true)
  else if endsWith ['>'] text then some (text.length - 1, false)
  else none

/-- The head of a text without an end of tag, if the text ends like a tag. -/
def recoverSlices? (text : List Char) : Option (Option Head) :=
  match attributesEnd? text with
  | none => some none
  | some (place, closed) =>
      if place < nameEnd text then some none
      else
        (slice? 1 (nameEnd text) text).bind fun tag =>
          (slice? (nameEnd text) place text).map fun attributes => some ⟨tag, attributes, closed⟩

/-- The head of a text that is given up. -/
def abandonedSlices? (text : List Char) : Option Head :=
  (slice? 1 (nameEnd text) text).bind fun tag =>
    (slice? (nameEnd text) text.length text).map fun attributes =>
      ⟨tag, (attributes.reverse.dropWhile (· == '/')).reverse, true⟩

/-- Heads are read, recovered and given up by slices within their text, and so none of the slices
fails. -/
structure HasSlices (text : List Char) : Prop where
  read : readSlices? text = some (if isHead text then read? text else none)
  recovers : (recoverSlices? text).isSome = true
  recovered : isHead text = true → recoverSlices? text = some (recover? text)
  abandoned : text ≠ [] → abandonedSlices? text = some (abandoned text)

theorem endPlace?_eq (state : Place) (place : Nat) (text : List Char) :
    endPlace? state place text =
      (findEnd? state text).map fun (inside, _) => place + inside.length + 1 := by
  induction text generalizing state place with
  | nil => rfl
  | cons c text inductionHypothesis =>
      rw [endPlace?, findEnd?]
      split
      · rfl
      · rw [inductionHypothesis, Option.map_map]
        congr 1
        funext parts
        simp only [Function.comp_apply, List.length_cons]
        omega

/-- A text is its first character, the name of its tag and the rest. -/
theorem cons_tagOf (c : Char) (inside : List Char) :
    c :: inside = c :: tagOf (c :: inside) ++ inside.dropWhile isTagChar := by
  rw [tagOf, List.drop_one, List.tail_cons, List.cons_append, List.takeWhile_append_dropWhile]

theorem slice?_tag (c : Char) (inside : List Char) :
    slice? 1 (nameEnd (c :: inside)) (c :: inside) = some (tagOf (c :: inside)) :=
  slice?_of_append [c] _ (cons_tagOf c inside) rfl rfl

/-- What stands between the name of a tag and a place further on. -/
theorem slice?_nameEnd {c : Char} {inside body after : List Char} {place : Nat}
    (shape : inside.dropWhile isTagChar = body ++ after)
    (ends : place = nameEnd (c :: inside) + body.length) :
    slice? (nameEnd (c :: inside)) place (c :: inside) = some body := by
  refine slice?_of_append (c :: tagOf (c :: inside)) after ?_ ?_ ends
  · rw [List.append_assoc, ← shape]
    exact cons_tagOf c inside
  · rw [nameEnd, List.length_cons, Nat.add_comm]

theorem dropWhile_append_cons {holds : Char → Bool} {c : Char} (stops : holds c = false)
    (text more : List Char) :
    (text ++ c :: more).dropWhile holds = text.dropWhile holds ++ c :: more := by
  rw [List.dropWhile_append]
  split
  · rename_i empty
    rw [List.isEmpty_iff.mp empty, List.dropWhile_cons_of_neg (by simp [stops]), List.nil_append]
  · rfl

theorem ofParts_eq (inside : List Char) :
    ofParts (inside.takeWhile isTagChar) (inside.dropWhile isTagChar) = ofInside inside := rfl

section

variable {text inside behind : List Char} (ended : findEnd? .start text = some (inside, behind))

include ended

theorem tagOf_of_findEnd? : tagOf ('<' :: text) = inside.takeWhile isTagChar := by
  have bracket : isTagChar '>' = false := by decide
  rw [tagOf, List.drop_one, List.tail_cons, append_of_findEnd? ended,
    takeWhile_append_cons bracket]

/-- What stands between the name of a tag and its end. -/
theorem slice?_inner : slice? (nameEnd ('<' :: text)) (inside.length + 1) ('<' :: text) =
    some (inside.dropWhile isTagChar) := by
  have bracket : isTagChar '>' = false := by decide
  have body : text.dropWhile isTagChar = inside.dropWhile isTagChar ++ '>' :: behind := by
    rw [append_of_findEnd? ended, dropWhile_append_cons bracket]
  have size : inside.length =
      (inside.takeWhile isTagChar).length + (inside.dropWhile isTagChar).length := by
    rw [← List.length_append, List.takeWhile_append_dropWhile]
  refine slice?_nameEnd body ?_
  rw [nameEnd, tagOf_of_findEnd? ended]
  omega

theorem slice?_behind :
    slice? (inside.length + 2) ('<' :: text).length ('<' :: text) = some behind := by
  have shape := append_of_findEnd? ended
  refine slice?_of_append ('<' :: inside ++ ['>']) [] ?_ ?_ ?_
  · rw [shape, List.append_nil, List.append_assoc]
    rfl
  · rw [List.length_append, List.length_cons, List.length_singleton]
  · rw [shape, List.length_cons, List.length_append, List.length_cons]
    omega

end

theorem readSlices?_eq (text : List Char) :
    readSlices? text = some (if isHead text then read? text else none) := by
  by_cases head : isHead text = true
  · obtain ⟨c, more, rfl, -⟩ := startsTag_iff.mp (startsTag_of_isHead head)
    rw [readSlices?, if_pos head, if_pos head, List.drop_one, List.tail_cons, endPlace?_eq, read?]
    cases ended : findEnd? .start (c :: more) with
    | none => rfl
    | some parts =>
        obtain ⟨inside, behind⟩ := parts
        have place : 1 + inside.length + 1 = inside.length + 2 := by omega
        have front : inside.length + 2 - 1 = inside.length + 1 := rfl
        simp only [Option.map_some, place, front, slice?_tag, slice?_inner ended,
          slice?_behind ended, Option.bind_some, tagOf_of_findEnd? ended, ofParts_eq]
  · rw [readSlices?, if_neg head, if_neg head]

theorem attributesEnd?_selfClosing (front : List Char) :
    attributesEnd? (front ++ ['/', '>']) = some (front.length, true) := by
  have ends : endsWith ['/', '>'] (front ++ ['/', '>']) = true := by
    rw [endsWith, beforeSuffix?_eq_some_iff.mpr rfl]
    rfl
  rw [attributesEnd?, if_pos ends, List.length_append]
  rfl

theorem attributesEnd?_open {front : List Char} (noSlash : front.getLast? ≠ some '/') :
    attributesEnd? (front ++ ['>']) = some (front.length, false) := by
  have ends : endsWith ['>'] (front ++ ['>']) = true := by
    rw [endsWith, beforeSuffix?_eq_some_iff.mpr rfl]
    rfl
  have noMark : ¬endsWith ['/', '>'] (front ++ ['>']) = true := by
    intro closes
    obtain ⟨before, shape⟩ := Option.isSome_iff_exists.mp closes
    have same : front ++ ['>'] = before ++ ['/'] ++ ['>'] := by
      rw [List.append_assoc]
      exact beforeSuffix?_eq_some_iff.mp shape
    rw [List.append_cancel_right same, List.getLast?_concat] at noSlash
    exact noSlash rfl
  rw [attributesEnd?, if_neg noMark, if_pos ends, List.length_append]
  rfl

theorem attributesEnd?_eq_none {text : List Char} (noBracket : text.getLast? ≠ some '>') :
    attributesEnd? text = none := by
  have noEnd : ∀ ending, ending.getLast? = some '>' → ¬endsWith ending text = true := by
    intro ending last ends
    obtain ⟨before, shape⟩ := Option.isSome_iff_exists.mp ends
    rw [beforeSuffix?_eq_some_iff.mp shape, List.getLast?_append, last] at noBracket
    exact noBracket rfl
  rw [attributesEnd?, if_neg (noEnd _ rfl), if_neg (noEnd _ rfl)]

/-- What stands in front of the rest of a head does not end with a mark of its end. -/
theorem getLast?_cons_tagOf (inside : List Char) {mark : Char} (other : mark ≠ '<')
    (noName : isTagChar mark = false) :
    ('<' :: tagOf ('<' :: inside)).getLast? ≠ some mark := by
  intro last
  rcases List.mem_cons.mp (List.mem_of_getLast? last) with same | inName
  · exact other same
  · rw [List.mem_takeWhile_imp inName] at noName
    exact Bool.noConfusion noName

theorem recoverSlices?_of_end {inside attributes ending : List Char} {closed : Bool}
    (shape : inside.dropWhile isTagChar = attributes ++ ending)
    (ends : attributesEnd? ('<' :: tagOf ('<' :: inside) ++ attributes ++ ending) =
      some (('<' :: tagOf ('<' :: inside) ++ attributes).length, closed)) :
    recoverSlices? ('<' :: inside) =
      some (some ⟨tagOf ('<' :: inside), attributes, closed⟩) := by
  have place : ('<' :: tagOf ('<' :: inside) ++ attributes).length =
      nameEnd ('<' :: inside) + attributes.length := by
    rw [List.length_append, List.length_cons, nameEnd, Nat.add_comm 1]
  rw [List.append_assoc, ← shape, ← cons_tagOf, place] at ends
  have inOrder : ¬nameEnd ('<' :: inside) + attributes.length < nameEnd ('<' :: inside) := by omega
  rw [recoverSlices?, ends]
  simp only [inOrder, ↓reduceIte, slice?_tag, Option.bind_some, slice?_nameEnd shape rfl,
    Option.map_some]

theorem recoverSlices?_eq {text : List Char} (head : isHead text = true) :
    recoverSlices? text = some (recover? text) := by
  obtain ⟨c, more, rfl, -⟩ := startsTag_iff.mp (startsTag_of_isHead head)
  generalize c :: more = inside
  have tag : inside.takeWhile isTagChar = tagOf ('<' :: inside) := rfl
  rw [recover?, tag]
  split
  · rename_i reversed shape
    have body := List.reverse_eq_iff.mp shape
    rw [List.reverse_cons, List.reverse_cons, List.append_assoc] at body
    exact recoverSlices?_of_end body (attributesEnd?_selfClosing _)
  · rename_i reversed other shape
    have body := List.reverse_eq_iff.mp shape
    rw [List.reverse_cons] at body
    refine recoverSlices?_of_end body (attributesEnd?_open ?_)
    cases reversed with
    | nil =>
        rw [List.reverse_nil, List.append_nil]
        exact getLast?_cons_tagOf inside (by decide) (by decide)
    | cons d reversed =>
        rw [List.reverse_cons, ← List.append_assoc, List.getLast?_concat, Ne, Option.some.injEq]
        rintro rfl
        exact other reversed rfl
  · rename_i noEnd
    have ends : attributesEnd? ('<' :: inside) = none := by
      refine attributesEnd?_eq_none ?_
      rw [cons_tagOf '<' inside]
      cases shape : (inside.dropWhile isTagChar).reverse with
      | nil =>
          rw [List.reverse_eq_nil_iff.mp shape, List.append_nil]
          exact getLast?_cons_tagOf inside (by decide) (by decide)
      | cons d reversed =>
          rw [List.reverse_eq_iff.mp shape, List.reverse_cons, ← List.append_assoc,
            List.getLast?_concat, Ne, Option.some.injEq]
          rintro rfl
          exact noEnd reversed shape
    rw [recoverSlices?, ends]

theorem le_of_attributesEnd? {text : List Char} {place : Nat} {closed : Bool}
    (found : attributesEnd? text = some (place, closed)) : place ≤ text.length := by
  unfold attributesEnd? at found
  split at found
  · obtain ⟨rfl, -⟩ := Prod.mk.inj (Option.some.inj found)
    exact Nat.sub_le ..
  · split at found
    · obtain ⟨rfl, -⟩ := Prod.mk.inj (Option.some.inj found)
      exact Nat.sub_le ..
    · simp at found

theorem exists_recoverSlices? (text : List Char) : ∃ head, recoverSlices? text = some head := by
  rw [recoverSlices?]
  split
  · exact ⟨none, rfl⟩
  · rename_i place closed found
    split
    · exact ⟨none, rfl⟩
    · rename_i inOrder
      have within := le_of_attributesEnd? found
      have name : 1 ≤ nameEnd text := Nat.le_add_right ..
      have tag : 1 ≤ nameEnd text ∧ nameEnd text ≤ text.length := by omega
      have attributes : nameEnd text ≤ place ∧ place ≤ text.length := by omega
      rw [slice?, if_pos tag, Option.bind_some, slice?, if_pos attributes]
      exact ⟨_, rfl⟩

theorem abandonedSlices?_eq {text : List Char} (solid : text ≠ []) :
    abandonedSlices? text = some (abandoned text) := by
  obtain ⟨c, inside, rfl⟩ := List.exists_cons_of_ne_nil solid
  have size : (c :: inside).length =
      nameEnd (c :: inside) + (inside.dropWhile isTagChar).length := by
    conv_lhs => rw [cons_tagOf c inside]
    rw [List.length_append, List.length_cons, nameEnd, Nat.add_comm 1]
  rw [abandonedSlices?, slice?_tag, Option.bind_some,
    slice?_nameEnd (List.append_nil _).symm size]
  rfl

theorem hasSlices (text : List Char) : HasSlices text where
  read := readSlices?_eq text
  recovers := Option.isSome_iff_exists.mpr (exists_recoverSlices? text)
  recovered := recoverSlices?_eq
  abandoned := abandonedSlices?_eq

end Head

end ScreenCompiler
