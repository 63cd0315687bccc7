import ScreenCompiler.Catalog.Standard
import ScreenCompiler.Proofs.Document.Insertion
import ScreenCompiler.Proofs.Script.Identifier
import ScreenCompiler.Proofs.Text.Indent

/-!
# Framed function bodies

A function written over lines is read back as it was written.  Its body is what the
frame of its own braces holds, whatever the lines in it look like, and loses the
indentation that its lines share.
-/

namespace ScreenCompiler

open Text

/-- Blanks in front of a brace that has its line to itself. -/
structure Gap where
  text : List Char
  blank : isAllBlank text = true
  flat : '\n' ∉ text

namespace Function

/-- How many inner braces the lines of a body leave open, none when a line closes the body. -/
def openBraces? (depth : Nat) : List (List Char) → Option Nat
  | [] => some depth
  | raw :: raws =>
      match Closing.find braces ⟨depth, none, false⟩ raw with
      | .closed _ _ => none
      | .unclosed nesting => openBraces? nesting.depth raws

end Function

/-- A function as it is written, with the lines of its body. -/
structure WrittenFunction where
  isAsync : Bool
  name : List Char
  params : List Char
  body : List (List Char)
  named : Script.isIdentifier name = true
  allowed : name ∉ Function.reservedNames
  plain : ')' ∉ params ∧ '{' ∉ params ∧ '\n' ∉ params
  solid : ∀ line ∈ body, isAllBlank line = false ∧ '\n' ∉ line
  indented : ∀ line ∈ body, ∀ c ∈ indentation line, c = ' ' ∨ c = '\t'
  framed : Function.openBraces? 0 body = some 0

namespace WrittenFunction

variable (function : WrittenFunction)

def keyword : List Char :=
  if function.isAsync then "async ".toList else []

/-- The signature up to its closing parenthesis. -/
def signature : List Char :=
  function.keyword ++ (function.name ++ '(' :: (function.params ++ [')']))

/-- The lines down to the opening brace, which may have a line to itself. -/
def heading : Option Gap → List (List Char)
  | none => [function.signature ++ [' ', '{']]
  | some gap => [function.signature, gap.text ++ ['{']]

/-- The closing brace on its line, which may be left out. -/
def ending : Option Gap → List (List Char)
  | none => []
  | some gap => [gap.text ++ ['}']]

def source (brace closing : Option Gap) : List Char :=
  unlines (function.heading brace ++ (function.body ++ ending closing))

/-- The body without the ends of its lines and the indentation that they share. -/
def bodyText : List Char :=
  unlines (function.body.map fun line => (trimEnd line).drop (commonIndent function.body))

def toFunction : Function where
  name := String.ofList function.name
  isAsync := function.isAsync
  params := String.ofList (trim function.params)
  body := String.ofList function.bodyText

end WrittenFunction

namespace Function

theorem afterKeyword?_of_identifier (keyword : List Char) {name rest : List Char}
    (named : Script.isIdentifier name = true)
    (ends : ∀ c, rest.head? = some c → Script.isIdentifierPart c = false) :
    afterKeyword? keyword (keyword ++ ' ' :: (name ++ rest)) = some (name ++ rest) := by
  have read := Script.identifier?_of_isIdentifier named ends
  have first : ∀ c, (name ++ rest).head? = some c → isBlank c = false := by
    intro c first
    cases name with
    | nil => exact absurd named Bool.false_ne_true
    | cons d more =>
        obtain rfl : d = c := Option.some.inj first
        exact Script.isBlank_of_isIdentifierPart
          (Script.isIdentifierPart_of_isIdentifier named d List.mem_cons_self)
  have cut : afterPrefix? keyword (keyword ++ ' ' :: (name ++ rest)) =
      some (' ' :: (name ++ rest)) :=
    afterPrefix?_eq_some_iff.mpr rfl
  have blank : isBlank ' ' = true := by decide
  simp only [afterKeyword?, cut, blank, trimStart_eq_self first, read, Option.isSome_some,
    Bool.and_self, ↓reduceIte]

/-- A name is no keyword in front of another name when no blank follows it. -/
theorem afterKeyword?_eq_none {keyword line name rest : List Char}
    (isKeyword : Script.isIdentifier keyword = true)
    (begins : Script.identifier? line = some (name, rest))
    (solid : ∀ c, rest.head? = some c → isBlank c = false) : afterKeyword? keyword line = none := by
  unfold afterKeyword?
  split
  · rename_i c behind found
    rw [if_neg]
    intro both
    have blank := (Bool.and_eq_true_iff.mp both).1
    have ends : ∀ d, (c :: behind).head? = some d → Script.isIdentifierPart d = false := by
      intro d first
      obtain rfl : c = d := Option.some.inj first
      exact Script.isIdentifierPart_of_isBlank blank
    obtain ⟨-, rfl⟩ := Script.eq_of_identifier?_append begins isKeyword
      (afterPrefix?_eq_some_iff.mp found) ends
    rw [solid c rfl] at blank
    exact Bool.false_ne_true blank
  · rfl

theorem params?_of_plain {params : List Char} (plain : ')' ∉ params) (behind : List Char) :
    Signature.params? (params ++ ')' :: behind) =
      match trimStart behind with
      | [] => some (params, false)
      | c :: _ => if c = '{' then some (params, true) else none := by
  have inside : ∀ c ∈ params, (c != ')') = true := by
    intro c membership
    rw [bne_iff_ne]
    rintro rfl
    exact plain membership
  have front : (params ++ ')' :: behind).takeWhile (· != ')') = params := by
    rw [List.takeWhile_append_of_pos inside]
    simp
  have rest : (params ++ ')' :: behind).dropWhile (· != ')') = ')' :: behind := by
    rw [List.dropWhile_append_of_pos inside]
    simp
  cases solid : trimStart behind with
  | nil => simp only [Signature.params?, rest, front, solid]
  | cons c more => simp only [Signature.params?, rest, front, solid]

theorem afterBrace_append {text behind : List Char} (bare : '{' ∉ text) :
    afterBrace (text ++ '{' :: behind) = behind := by
  have before : ∀ c ∈ text, (c != '{') = true := by
    intro c membership
    rw [bne_iff_ne]
    rintro rfl
    exact bare membership
  rw [afterBrace, List.dropWhile_append_of_pos before]
  rfl

end Function

namespace Function

theorem parenthesis_ends (rest : List Char) : ∀ c, ('(' :: rest).head? = some c →
    Script.isIdentifierPart c = false := by
  intro c first
  obtain rfl : '(' = c := Option.some.inj first
  decide

theorem blank_ends (rest : List Char) : ∀ c, (' ' :: rest).head? = some c →
    Script.isIdentifierPart c = false := by
  intro c first
  obtain rfl : ' ' = c := Option.some.inj first
  decide

/-- A name with a parenthesis behind it is read as a signature if its parameters are. -/
theorem Signature.read?_call (isAsync : Bool) {name : List Char}
    (named : Script.isIdentifier name = true) (text : List Char) :
    read? ((if isAsync then "async ".toList else []) ++ (name ++ '(' :: text)) =
      (params? text).map fun (params, opens) => ⟨isAsync, name, params, opens⟩ := by
  have call := Script.identifier?_of_isIdentifier named (parenthesis_ends text)
  have noBlank : ∀ c, ('(' :: text).head? = some c → isBlank c = false := by
    intro c first
    obtain rfl : '(' = c := Option.some.inj first
    decide
  have noKeyword : ∀ keyword, Script.isIdentifier keyword = true →
      afterKeyword? keyword (name ++ '(' :: text) = none := fun _ isKeyword =>
    afterKeyword?_eq_none isKeyword call noBlank
  have async : afterKeyword? "async".toList
      ((if isAsync then "async ".toList else []) ++ (name ++ '(' :: text)) =
        if isAsync then some (name ++ '(' :: text) else none := by
    cases isAsync with
    | true =>
        have async := afterKeyword?_of_identifier "async".toList named (parenthesis_ends text)
        exact async
    | false => exact noKeyword "async".toList (by decide)
  have bare : (afterKeyword? "async".toList
      ((if isAsync then "async ".toList else []) ++ (name ++ '(' :: text))).getD
        ((if isAsync then "async ".toList else []) ++ (name ++ '(' :: text)) =
          name ++ '(' :: text := by
    rw [async]
    cases isAsync <;> rfl
  have parenthesis : isBlank '(' = false := by decide
  rw [read?, bare, noKeyword "function".toList (by decide), Option.getD_none, call,
    Option.bind_some]
  simp only [trimStart_cons_of_not_blank parenthesis, async]
  cases isAsync <;> rfl

end Function

namespace WrittenFunction

variable (function : WrittenFunction)

/-- A signature is read with its opening brace, if that stands behind it. -/
theorem read?_signature {opens : Bool} {behind : List Char}
    (rest : behind = [] ∧ opens = false ∨ behind = [' ', '{'] ∧ opens = true) :
    Function.Signature.read? (function.signature ++ behind) =
      some ⟨function.isAsync, function.name, function.params, opens⟩ := by
  have shape : function.signature ++ behind = function.keyword ++ (function.name ++
      '(' :: (function.params ++ ')' :: behind)) := by
    simp [signature]
  have params : Function.Signature.params? (function.params ++ ')' :: behind) =
      some (function.params, opens) := by
    rw [Function.params?_of_plain function.plain.1]
    rcases rest with ⟨rfl, rfl⟩ | ⟨rfl, rfl⟩
    · rfl
    · rfl
  rw [shape, keyword, Function.Signature.read?_call function.isAsync function.named, params]
  rfl

end WrittenFunction

theorem Import.isModuleName_of_parenthesis {line : List Char} (call : '(' ∈ line) :
    isModuleName line = false := by
  obtain ⟨part, membership, inside⟩ := exists_mem_splitOn call (by decide : '(' ≠ '.')
  have other : isModulePart part = false := by
    cases part with
    | nil => rfl
    | cons c rest =>
        rcases List.mem_cons.mp inside with rfl | later
        · rfl
        · have stops : (rest.all fun d => isModuleStart d || isAsciiDigit d || d == '-') = false :=
            List.all_eq_false.mpr ⟨'(', later, by decide⟩
          rw [isModulePart, stops, Bool.and_false]
  rw [isModuleName, List.all_eq_false.mpr ⟨part, membership, by simp [other]⟩, Bool.false_and]

namespace Block

/-- Words that open a declaration of one line. -/
def openingWords : List (List Char) :=
  ["import", "screen", "state"].map String.toList

variable {line name rest : List Char}

theorem eq_openingWord (begins : Script.identifier? line = some (name, rest))
    {word behind : List Char} (opens : word ∈ openingWords)
    (found : afterPrefix? word line = some behind)
    (blank : ∀ c, behind.head? = some c → isBlank c = true) : name = word ∧ rest = behind := by
  have isName : ∀ word ∈ openingWords, Script.isIdentifier word = true := by decide
  exact Script.eq_of_identifier?_append begins (isName word opens)
    (afterPrefix?_eq_some_iff.mp found) fun c first =>
      Script.isIdentifierPart_of_isBlank (blank c first)

theorem attributes?_of_call (begins : Script.identifier? line = some (name, rest))
    (calls : name ∈ openingWords → rest.head? = some '(') : Screen.attributes? line = none := by
  unfold Screen.attributes?
  split
  · rename_i found
    obtain ⟨rfl, rfl⟩ := eq_openingWord begins (by decide) found (by simp)
    exact absurd (calls (by decide)) (by simp)
  · rename_i c behind found
    by_cases blank : isBlank c = true
    · obtain ⟨rfl, rfl⟩ := eq_openingWord begins (by decide) found (by simpa using blank)
      obtain rfl := Option.some.inj (calls (by decide))
      exact absurd blank (by decide)
    · rw [if_neg blank]
  · rfl

/-- A line that calls its first name declares nothing with it, unless it sets up the screen. -/
theorem simple?_of_parenthesis (begins : Script.identifier? line = some (name, rest))
    (calls : name ∈ openingWords → (trimStart rest).head? = some '(')
    (noScreen : Screen.attributes? line = none) (call : '(' ∈ line) : simple? line = none := by
  have noName : ∀ more, Script.identifier? ('(' :: more) = none := by
    intro more
    have noStart : Script.isIdentifierStart '(' = false := by decide
    rw [Script.identifier?, noStart, if_neg Bool.false_ne_true]
  have noImport : importStatement? line = none := by
    rw [importStatement?, Option.bind_eq_none_iff]
    intro behind found
    have word : afterPrefix? "import".toList line = some (' ' :: behind) := by
      rw [afterPrefix?_eq_some_iff] at found ⊢
      exact found
    have blank : isBlank ' ' = true := by decide
    obtain ⟨rfl, rfl⟩ := eq_openingWord begins (by decide) word (by simpa using blank)
    obtain ⟨more, shape⟩ := List.head?_eq_some_iff.mp (calls (by decide))
    rw [trimStart_cons_of_blank blank] at shape
    rw [Import.statement?, word, Option.bind_some, Import.afterBlanks?, if_pos blank, shape,
      Option.bind_some, Import.defaultFrom?, noName, Option.bind_none]
    rfl
  have noState : State.line? line = none := by
    unfold State.line?
    split
    · rename_i c behind found
      by_cases blank : isBlank c = true
      · obtain ⟨rfl, rfl⟩ := eq_openingWord begins (by decide) found (by simpa using blank)
        obtain ⟨more, shape⟩ := List.head?_eq_some_iff.mp (calls (by decide))
        rw [trimStart_cons_of_blank blank] at shape
        rw [if_pos blank, shape, noName, Option.bind_none]
      · rw [if_neg blank]
    · rfl
  rw [simple?, noImport, noScreen, noState, Import.isModuleName_of_parenthesis call]
  rfl

theorem simple?_of_call (begins : Script.identifier? line = some (name, rest))
    (calls : name ∈ openingWords → rest.head? = some '(') (call : '(' ∈ line) :
    simple? line = none := by
  refine simple?_of_parenthesis begins (fun opens => ?_) (attributes?_of_call begins calls) call
  obtain ⟨more, rfl⟩ := List.head?_eq_some_iff.mp (calls opens)
  exact congrArg List.head? (trimStart_cons_of_not_blank (by decide))

end Block

namespace WrittenFunction

variable (function : WrittenFunction)

theorem simple?_signature (behind : List Char) :
    Block.simple? (function.signature ++ behind) = none := by
  have call : '(' ∈ function.signature ++ behind := by
    simp [signature]
  cases isAsync : function.isAsync with
  | true =>
      have shape : function.signature ++ behind =
          "async".toList ++ ' ' ::
            (function.name ++ '(' :: (function.params ++ ')' :: behind)) := by
        simp [signature, keyword, isAsync]
      have isName : Script.isIdentifier "async".toList = true := by decide
      have begins := Script.identifier?_of_isIdentifier isName (Function.blank_ends
        (function.name ++ '(' :: (function.params ++ ')' :: behind)))
      rw [← shape] at begins
      exact Block.simple?_of_call begins (fun opens => absurd opens (by decide)) call
  | false =>
      have shape : function.signature ++ behind =
          function.name ++ '(' :: (function.params ++ ')' :: behind) := by
        simp [signature, keyword, isAsync]
      have begins := Script.identifier?_of_isIdentifier function.named
        (Function.parenthesis_ends (function.params ++ ')' :: behind))
      rw [← shape] at begins
      exact Block.simple?_of_call begins (fun _ => rfl) call

theorem trim_signature {behind : List Char} (rest : behind = [] ∨ behind = [' ', '{']) :
    trim (function.signature ++ behind) = function.signature ++ behind := by
  have solid : ∀ c ∈ function.name, isBlank c = false := fun c membership =>
    Script.isBlank_of_isIdentifierPart
      (Script.isIdentifierPart_of_isIdentifier function.named c membership)
  have ends : function.signature = function.keyword ++ (function.name ++ '(' :: function.params) ++
      [')'] := by
    simp [signature]
  apply trim_eq_self
  · intro c first
    cases isAsync : function.isAsync with
    | true =>
        obtain rfl : 'a' = c := by simpa [signature, keyword, isAsync] using first
        decide
    | false =>
        cases name : function.name with
        | nil =>
            have named := function.named
            rw [name] at named
            exact absurd named Bool.false_ne_true
        | cons d more =>
            obtain rfl : d = c := by simpa [signature, keyword, isAsync, name] using first
            exact solid d (name ▸ List.mem_cons_self)
  · intro c last
    rcases rest with rfl | rfl
    · rw [List.append_nil, ends, List.getLast?_concat] at last
      obtain rfl : ')' = c := Option.some.inj last
      decide
    · rw [List.getLast?_append_cons] at last
      obtain rfl : '{' = c := Option.some.inj last
      decide

theorem notMem_signature {c : Char} (noPart : Script.isIdentifierPart c = false)
    (noMark : c ∉ "async ()".toList) (noParam : c ∉ function.params) : c ∉ function.signature := by
  have noName : c ∉ function.name := by
    intro membership
    have part := Script.isIdentifierPart_of_isIdentifier function.named c membership
    rw [noPart] at part
    exact Bool.false_ne_true part
  have noKeyword : c ∉ function.keyword := by
    rw [keyword]
    split
    · exact fun membership => noMark (List.mem_append_left ['(', ')'] membership)
    · exact List.not_mem_nil
  have noParenthesis : c ≠ '(' ∧ c ≠ ')' := by
    constructor
    · rintro rfl
      exact noMark (by decide)
    · rintro rfl
      exact noMark (by decide)
  simp [signature, noKeyword, noName, noParam, noParenthesis]

/-- The lines down to the opening brace open the function whose body the other lines are. -/
theorem open?_heading (brace : Option Gap) (raws : List (List Char)) :
    ∃ line below, Line.numbered 1 (function.heading brace ++ raws) = line :: below ∧
      line.number = 1 ∧ Block.simple? line.text = none ∧
      Function.open? line below =
        some ⟨⟨function.isAsync, function.name, function.params, brace.isNone⟩, [],
          Line.numbered (1 + (function.heading brace).length) raws⟩ := by
  have allowed : Function.reservedNames.contains function.name = false := by
    simpa using function.allowed
  have bare : '{' ∉ function.signature :=
    function.notMem_signature (by decide) (by decide) function.plain.2.1
  cases brace with
  | none =>
      have text := function.trim_signature (.inr rfl)
      have solid : (trim (function.signature ++ [' ', '{'])).isEmpty = false := by
        rw [text]
        simp
      have behind : Function.afterBrace (function.signature ++ [' ', '{']) = [] := by
        have free : '{' ∉ function.signature ++ [' '] := by simp [bare]
        rw [List.append_cons, Function.afterBrace_append free]
      refine ⟨⟨1, function.signature ++ [' ', '{']⟩, Line.numbered 2 raws, ?_, rfl, ?_, ?_⟩
      · simp [heading, Line.numbered, solid]
      · rw [Line.text, text]
        exact function.simple?_signature _
      · have read : Function.Signature.read?
            (Line.text ⟨1, function.signature ++ [' ', '{']⟩) = _ :=
          (congrArg _ text).trans (function.read?_signature (.inr ⟨rfl, rfl⟩))
        have opened := Function.open?_of_opens read rfl allowed (Line.numbered 2 raws)
        rwa [Line.text, text, behind] at opened
  | some gap =>
      have text : trim function.signature = function.signature := by
        simpa using function.trim_signature (.inl rfl)
      have brace : trim (gap.text ++ ['{']) = ['{'] := by
        rw [trim_append_left_of_isAllBlank gap.blank]
        decide
      have solid : (trim function.signature).isEmpty = false := by
        rw [text]
        simp [signature]
      have unbraced : Function.hasBrace function.signature = false := by
        simpa [Function.hasBrace] using bare
      have read : Function.Signature.read? function.signature =
          some ⟨function.isAsync, function.name, function.params, false⟩ := by
        simpa using function.read?_signature (.inl ⟨rfl, rfl⟩)
      refine ⟨⟨1, function.signature⟩, ⟨2, gap.text ++ ['{']⟩ :: Line.numbered 3 raws,
        ?_, rfl, ?_, ?_⟩
      · simp [heading, Line.numbered, solid, brace]
      · rw [Line.text, text]
        simpa using function.simple?_signature []
      · rw [Function.open?, Line.text, text, read]
        simp only [Function.Signature.isReserved, allowed, Bool.false_eq_true, ↓reduceIte,
          Line.text, brace, unbraced, Bool.false_or]
        rfl

end WrittenFunction

namespace Function.Body

/-- Lines that close no body are read whole, and reading goes on with the braces they leave open. -/
theorem read_of_openBraces? {depth last number : Nat} {raws : List (List Char)}
    (solid : ∀ raw ∈ raws, isAllBlank raw = false) (framed : openBraces? depth raws = some last)
    (below : List Line) :
    read depth (Line.numbered number raws ++ below) =
      ⟨raws.map trimEnd ++ (read last below).lines, (read last below).rest⟩ := by
  induction raws generalizing depth number with
  | nil =>
      obtain rfl : depth = last := Option.some.inj framed
      rfl
  | cons raw raws inductionHypothesis =>
      obtain ⟨first, solid⟩ := List.forall_mem_cons.mp solid
      have kept : (trim raw).isEmpty = false := by
        rw [← Bool.not_eq_true, List.isEmpty_iff]
        intro empty
        rw [isAllBlank_of_trim_eq_nil empty] at first
        exact absurd first.symm Bool.false_ne_true
      rw [openBraces?] at framed
      split at framed
      · exact absurd framed.symm (Option.some_ne_none last)
      · rename_i nesting found
        rw [Line.numbered, kept, if_neg Bool.false_ne_true, List.cons_append, read]
        simp only [found, inductionHypothesis solid framed]
        rfl

end Function.Body

namespace WrittenFunction

variable (function : WrittenFunction)

/-- The line with the closing brace ends the body and is no part of it. -/
theorem read_ending (closing : Option Gap) (number : Nat) :
    Function.Body.read 0 (Line.numbered number (ending closing)) =
      ⟨[], closing.map fun _ => []⟩ := by
  cases closing with
  | none => rfl
  | some gap =>
      have text : trim (gap.text ++ ['}']) = ['}'] := by
        rw [trim_append_left_of_isAllBlank gap.blank]
        decide
      have blank : Closing.find Function.braces ⟨0, none, false⟩ gap.text =
          .unclosed ⟨0, none, false⟩ :=
        Closing.find_of_isAllBlank_of_bare (by decide) (by decide) 0 gap.blank
      have found : Closing.find Function.braces ⟨0, none, false⟩ (gap.text ++ ['}']) =
          .closed gap.text [] := by
        rw [Closing.find_append_of_unclosed _ blank]
        have closes : Closing.find Function.braces ⟨0, none, false⟩ ['}'] = .closed [] [] := by
          rfl
        rw [closes, Closing.foldr_cons_closed, List.append_nil]
      simp [ending, Line.numbered, text, Function.Body.read, found, gap.blank]

theorem dedent_body : dedent (function.body.map trimEnd) =
    function.body.map fun line => (trimEnd line).drop (commonIndent function.body) := by
  have solid : ∀ line ∈ function.body, isAllBlank line = false := fun line membership =>
    (function.solid line membership).1
  have narrow : ∀ line ∈ function.body, IsNarrow (trimEnd line) := by
    intro line membership c inside
    rw [indentation_trimEnd (solid line membership)] at inside
    rcases function.indented line membership c inside with rfl | rfl <;> decide
  have solidEnds : ∀ line ∈ function.body, isAllBlank (trimEnd line) = false := by
    intro line membership
    rw [isAllBlank_trimEnd, solid line membership]
  rw [dedent_of_narrow (by simpa using solidEnds) (by simpa using narrow),
    commonIndent_map_trimEnd solid, List.map_map]
  rfl

/-- The body of the opened function is what was written between the braces. -/
theorem readBody_eq (signature : Function.Signature) (closing : Option Gap) (number : Nat) :
    Function.readBody ⟨signature, [], Line.numbered number (function.body ++ ending closing)⟩ =
      ⟨function.body.map fun line => (trimEnd line).drop (commonIndent function.body),
        closing.map fun _ => []⟩ := by
  have start : Closing.find Function.braces .start [] = .unclosed .start := rfl
  have inner : Function.Body.read 0 (Line.numbered number (function.body ++ ending closing)) =
      ⟨function.body.map trimEnd, closing.map fun _ => []⟩ := by
    rw [Line.numbered_append, Function.Body.read_of_openBraces?
      (fun line membership => (function.solid line membership).1) function.framed,
      read_ending, List.append_nil]
  rw [Function.readBody]
  simp only [start]
  rw [Nesting.start]
  simp only [inner, function.dedent_body]
  rfl

theorem flat (brace closing : Option Gap) :
    ∀ raw ∈ function.heading brace ++ (function.body ++ ending closing), '\n' ∉ raw := by
  have feedSignature : '\n' ∉ function.signature :=
    function.notMem_signature (by decide) (by decide) function.plain.2.2
  have feedHeading : ∀ raw ∈ function.heading brace, '\n' ∉ raw := by
    cases brace with
    | none => simp [heading, feedSignature]
    | some gap => simp [heading, feedSignature, gap.flat]
  have feedEnding : ∀ raw ∈ ending closing, '\n' ∉ raw := by
    cases closing with
    | none => simp [ending]
    | some gap => simp [ending, gap.flat]
  exact List.forall_mem_append.mpr ⟨feedHeading, List.forall_mem_append.mpr
    ⟨fun line membership => (function.solid line membership).2, feedEnding⟩⟩

end WrittenFunction

namespace Document

theorem ofForest_function (number : Nat) (function : Function) (closed : Bool) :
    ofForest (Forest.ofItems (Item.ofFunction number function closed)) =
      { ofNodes [] (if closed then [] else [.unterminatedFunction function.name number]) with
        functions := [function] } := by
  cases closed with
  | true =>
      simp only [Item.ofFunction, ↓reduceIte, List.nil_append]
      rw [Forest.ofItems_alone rfl, Forest.ofItems_nil]
      rfl
  | false =>
      simp only [Item.ofFunction, Bool.false_eq_true, ↓reduceIte, List.singleton_append]
      rw [Forest.ofItems_alone rfl, Forest.ofItems_alone rfl, Forest.ofItems_nil]
      rfl

/-- A written function is the whole document, and at fault only when it is left open. -/
theorem parse_function (catalog : Catalog) (function : WrittenFunction) (brace closing : Option Gap)
    (plain : Stylesheet.find? (function.source brace closing) = none) :
    parse catalog (function.source brace closing) =
      { ofNodes [] (if closing.isSome then []
          else [.unterminatedFunction (String.ofList function.name) 1]) with
        functions := [function.toFunction] } := by
  obtain ⟨line, below, lines, number, simple, opens⟩ :=
    function.open?_heading brace (function.body ++ WrittenFunction.ending closing)
  have blocks : Block.ofSource (function.source brace closing) =
      [.function 1 function.toFunction closing.isSome] := by
    rw [WrittenFunction.source, Block.ofSource_unlines (function.flat brace closing), lines,
      Block.ofLines_cons, simple, opens]
    simp only [Block.ofOpened, function.readBody_eq, number]
    cases closing with
    | none => rfl
    | some gap =>
        rw [Option.map_some]
        simp only [Block.ofLines]
        rfl
  have items : Item.ofSource catalog (function.source brace closing) =
      Item.ofFunction 1 function.toFunction closing.isSome := by
    rw [Item.ofSource, blocks, List.flatMap_singleton]
    rfl
  rw [parse_of_find?_eq_none catalog plain, items, ofForest_function]
  rfl

/-- Lines like declarations and tags, and quotes that hide braces, between two inner braces. -/
def misleadingBody : List (List Char) :=
  ["\t  if (id) \x7b".toList, "    import x from 'y'".toList, "     <View a='\x7d'>  ".toList,
    "\t\t\tstate.x = \"\\\"\x7b\"".toList, "   go() \x7b \x7d \x7d".toList]

def misleadingFunction : WrittenFunction where
  isAsync := true
  name := "import".toList
  params := " event, id ".toList
  body := misleadingBody
  named := by decide
  allowed := by decide
  plain := by decide
  solid := by decide
  indented := by
    have indents :
        misleadingBody.all (fun line => (indentation line).all "\t ".toList.contains) := by
      decide
    simpa [or_comm] using indents
  framed := by decide

theorem parse_misleading_function :
    Stylesheet.find? (misleadingFunction.source (some ⟨['\t'], rfl, by decide⟩) none) = none ∧
      misleadingFunction.toFunction =
        { name := "import", isAsync := true, params := "event, id"
          body := "if (id) \x7b\n import x from 'y'\n  <View a='\x7d'>\nstate.x = \"\\\"\x7b\"\n" ++
            "go() \x7b \x7d \x7d" } ∧
      parse .standard (misleadingFunction.source (some ⟨['\t'], rfl, by decide⟩) none) =
        { ofNodes [] [.unterminatedFunction "import" 1] with
          functions := [misleadingFunction.toFunction] } := by
  have plain : Stylesheet.find?
      (misleadingFunction.source (some ⟨['\t'], rfl, by decide⟩) none) = none := by
    decide +kernel
  exact ⟨plain, by decide +kernel, parse_function .standard misleadingFunction _ none plain⟩

end Document

end ScreenCompiler
