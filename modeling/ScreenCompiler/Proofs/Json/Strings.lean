import ScreenCompiler.Json.Printer

/-!
# JSON strings

An escaped text is read up to its closing quote, and its escapes stand for the text.
-/

namespace ScreenCompiler.Json

open Text

/-- The ways in which a character can stand in a string. -/
inductive Spelling (c : Char) : List Char → Prop where
  | mark {mark : Char} (simple : Token.isSimpleEscape mark = true) (means : simpleEscape mark = c) :
      Spelling c ['\\', mark]
  | number (control : c.toNat < 0x20) :
      Spelling c ['\\', 'u', '0', '0', hexDigit (c.toNat / 16), hexDigit (c.toNat % 16)]
  | itself (noQuote : c ≠ '"') (noSlash : c ≠ '\\') (visible : ¬c.toNat < 0x20) : Spelling c [c]

theorem spelling_escape (c : Char) : Spelling c (escape c) := by
  have mark {shown : Char} (letter : Char) (is : c = shown)
      (simple : Token.isSimpleEscape letter = true) (means : simpleEscape letter = shown) :
      Spelling c ['\\', letter] :=
    .mark simple (means.trans is.symm)
  unfold escape
  split
  · exact mark '"' ‹_› rfl rfl
  split
  · exact mark '\\' ‹_› rfl rfl
  split
  · exact mark 'b' ‹_› rfl rfl
  split
  · exact mark 'f' ‹_› rfl rfl
  split
  · exact mark 'n' ‹_› rfl rfl
  split
  · exact mark 'r' ‹_› rfl rfl
  split
  · exact mark 't' ‹_› rfl rfl
  split
  · exact .number ‹_›
  · exact .itself ‹_› ‹_› ‹_›

theorem isHexDigit_hexDigit : ∀ digit < 16, Token.isHexDigit (hexDigit digit) = true := by
  decide

theorem hexUnit_control : ∀ unit < 0x20,
    hexUnit ['0', '0', hexDigit (unit / 16), hexDigit (unit % 16)] = unit := by
  decide

theorem ne_u_of_isSimpleEscape {mark : Char} (simple : Token.isSimpleEscape mark = true) :
    mark ≠ 'u' := by
  rintro rfl
  exact Bool.false_ne_true simple

theorem stringBody?_spelling {c : Char} {spelled : List Char} (spelling : Spelling c spelled)
    (rest : List Char) : Token.stringBody? (spelled ++ rest) =
      (Token.stringBody? rest).map fun (body, after) => (spelled ++ body, after) := by
  cases spelling with
  | mark simple means =>
      have noUnit := ne_u_of_isSimpleEscape simple
      rw [List.cons_append, List.cons_append, List.nil_append, Token.stringBody?]
      · rw [if_pos simple]
        rfl
      · exact fun _ _ _ _ _ isUnit => absurd isUnit noUnit
  | number control =>
      have digits : ['0', '0', hexDigit (c.toNat / 16), hexDigit (c.toNat % 16)].all
          Token.isHexDigit = true := by
        simp only [List.all_cons, List.all_nil, Bool.and_true,
          isHexDigit_hexDigit (c.toNat / 16) (by omega),
          isHexDigit_hexDigit (c.toNat % 16) (by omega)]
        rfl
      simp only [List.cons_append, List.nil_append, Token.stringBody?]
      rw [if_pos digits]
  | itself noQuote noSlash visible =>
      rw [List.cons_append, List.nil_append, Token.stringBody?]
      · rw [if_neg (by simp [visible, noSlash])]
        rfl
      all_goals simp [noQuote, noSlash]

theorem unescape?_spelling {c : Char} {spelled : List Char} (spelling : Spelling c spelled)
    (rest : List Char) : unescape? (spelled ++ rest) = (unescape? rest).map (c :: ·) := by
  cases spelling with
  | mark simple means =>
      have noUnit := ne_u_of_isSimpleEscape simple
      rw [List.cons_append, List.cons_append, List.nil_append, unescape?, means]
      exact fun _ _ _ _ _ isUnit => absurd isUnit noUnit
  | number control =>
      have unit := hexUnit_control c.toNat control
      simp only [List.cons_append, List.nil_append]
      rw [unescape?.eq_def]
      simp only [unit]
      rw [if_neg (by omega), if_neg (by omega), Char.ofNat_toNat]
  | itself noQuote noSlash visible =>
      rw [List.cons_append, List.nil_append, unescape?]
      all_goals simp [noSlash]

theorem stringBody?_escaped (text rest : List Char) :
    Token.stringBody? (text.flatMap escape ++ '"' :: rest) = some (text.flatMap escape, rest) := by
  induction text with
  | nil => rfl
  | cons c text inductionHypothesis =>
      rw [List.flatMap_cons, List.append_assoc, stringBody?_spelling (spelling_escape c),
        inductionHypothesis]
      rfl

theorem unescape?_escaped (text : List Char) : unescape? (text.flatMap escape) = some text := by
  induction text with
  | nil => rfl
  | cons c text inductionHypothesis =>
      rw [List.flatMap_cons, unescape?_spelling (spelling_escape c), inductionHypothesis]
      rfl

end ScreenCompiler.Json
