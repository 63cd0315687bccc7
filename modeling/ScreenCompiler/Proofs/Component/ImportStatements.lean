import ScreenCompiler.Proofs.Component.Imports
import ScreenCompiler.Proofs.Route.Names
import ScreenCompiler.Proofs.Script.Quoted
import ScreenCompiler.Proofs.Text.Words

/-!
# Imports are written as they are read

An import that a line is read as has a shape of its own: its names are identifiers or
entries with single spaces, and its source has no quotes.  Written as a statement, such
an import is read back, and so is what is left of it when some of its names are bound
already.
-/

namespace ScreenCompiler

open Text Script

namespace Import

/-- An entry of a name list: words with single spaces between them. -/
structure IsEntry (entry : String) : Prop where
  nonempty : entry ≠ ""
  spaced : respaced entry.toList = entry.toList
  noComma : ',' ∉ entry.toList
  noBrace : '}' ∉ entry.toList

/-- A module name that can stand in quotes. -/
structure IsSource (source : String) : Prop where
  nonempty : source ≠ ""
  bare : ∀ c ∈ source.toList, isSourceQuote c = false

/-- An import that a line can be read as. -/
inductive IsReadable : Import → Prop where
  | default {name source : String} (named : isIdentifier name.toList = true)
      (isSource : IsSource source) : IsReadable (default name source)
  | named {names : List String} {source : String} (areEntries : ∀ entry ∈ names, IsEntry entry)
      (isSource : IsSource source) : IsReadable (named names source)
  | whole {name source : String} (named : isIdentifier name.toList = true)
      (isSource : IsSource source) : IsReadable (whole name source)

theorem isSource_of_quotedSource? {text : List Char} {source : String}
    (found : quotedSource? text = some source) : IsSource source := by
  unfold quotedSource? at found
  split at found
  · simp at found
  · simp only at found
    split at found
    · split at found
      · rename_i closed
        obtain rfl := Option.some.inj found
        refine ⟨fun empty => closed.2.1 ?_, fun c inside => ?_⟩
        · simpa using congrArg String.toList empty
        · rw [String.toList_ofList] at inside
          simpa using List.mem_takeWhile_imp inside
      · simp at found
    · simp at found

theorem isSource_of_fromSource? {text : List Char} {source : String}
    (found : fromSource? text = some source) : IsSource source := by
  obtain ⟨_, -, quoted⟩ := Option.bind_eq_some_iff.mp found
  exact isSource_of_quotedSource? quoted

theorem isEntry_of_mem_entries {list : List Char} (noBrace : '}' ∉ list) {entry : String}
    (membership : entry ∈ entries list) : IsEntry entry := by
  obtain ⟨isMapped, kept⟩ := List.mem_filter.mp membership
  obtain ⟨part, isPart, rfl⟩ := List.mem_map.mp isMapped
  have partBrace : '}' ∉ part := by
    rw [List.splitOn_eq_splitOnP] at isPart
    exact fun inside => noBrace (mem_of_mem_splitOnP isPart inside)
  constructor
  case nonempty => exact bne_iff_ne.mp kept
  case spaced =>
    rw [String.toList_ofList]
    exact respaced_respaced part
  case noComma =>
    rw [String.toList_ofList]
    exact fun inside => notMem_of_mem_splitOn isPart (mem_of_mem_respaced inside (by decide))
  case noBrace =>
    rw [String.toList_ofList]
    exact fun inside => partBrace (mem_of_mem_respaced inside (by decide))

theorem isReadable_of_namedFrom? {text : List Char} {statement : Import}
    (found : namedFrom? text = some statement) : IsReadable statement := by
  obtain ⟨⟨names, rest⟩, listed, sourced⟩ := Option.bind_eq_some_iff.mp found
  obtain ⟨source, isFrom, rfl⟩ := Option.map_eq_some_iff.mp sourced
  unfold nameList? at listed
  split at listed
  · simp at listed
  · obtain ⟨rfl, -⟩ := Prod.mk.inj (Option.some.inj listed)
    have noBrace : '}' ∉ text.takeWhile (· != '}') := fun inside => by
      simpa using List.mem_takeWhile_imp inside
    exact .named (fun entry => isEntry_of_mem_entries noBrace) (isSource_of_fromSource? isFrom)

theorem isReadable_of_wholeFrom? {text : List Char} {statement : Import}
    (found : wholeFrom? text = some statement) : IsReadable statement := by
  obtain ⟨⟨name, rest⟩, isNamed, sourced⟩ := Option.bind_eq_some_iff.mp found
  obtain ⟨source, isFrom, rfl⟩ := Option.map_eq_some_iff.mp sourced
  obtain ⟨_, -, identified⟩ := Option.bind_eq_some_iff.mp isNamed
  refine .whole ?_ (isSource_of_fromSource? isFrom)
  rw [String.toList_ofList]
  exact isIdentifier_of_identifier? identified

theorem isReadable_of_defaultFrom? {text : List Char} {imports : List Import}
    (found : defaultFrom? text = some imports) : ∀ statement ∈ imports, IsReadable statement := by
  obtain ⟨⟨name, rest⟩, identified, clause⟩ := Option.bind_eq_some_iff.mp found
  have named : isIdentifier (String.ofList name).toList = true := by
    rw [String.toList_ofList]
    exact isIdentifier_of_identifier? identified
  simp only at clause
  split at clause
  · split at clause
    · obtain ⟨others, isOthers, rfl⟩ := Option.map_eq_some_iff.mp clause
      have readable := isReadable_of_namedFrom? isOthers
      have isSource : IsSource others.source := by cases readable <;> assumption
      exact List.forall_mem_cons.mpr ⟨.default named isSource, by simpa using readable⟩
    · simp at clause
  · obtain ⟨source, isFrom, rfl⟩ := Option.map_eq_some_iff.mp clause
    simpa using IsReadable.default named (isSource_of_fromSource? isFrom)

theorem isReadable_of_statement? {line : List Char} {imports : List Import}
    (found : statement? line = some imports) : ∀ statement ∈ imports, IsReadable statement := by
  obtain ⟨text, -, clause⟩ := Option.bind_eq_some_iff.mp found
  split at clause
  · obtain ⟨statement, isNamed, rfl⟩ := Option.map_eq_some_iff.mp clause
    simpa using isReadable_of_namedFrom? isNamed
  · obtain ⟨statement, isWhole, rfl⟩ := Option.map_eq_some_iff.mp clause
    simpa using isReadable_of_wholeFrom? isWhole
  · exact isReadable_of_defaultFrom? clause

/-- A character of a module name. -/
def isModuleChar (c : Char) : Bool :=
  isModuleStart c || isAsciiDigit c || c == '-'

theorem isModuleChar_of_isModulePart {part : List Char} (isPart : isModulePart part = true) :
    ∀ c ∈ part, isModuleChar c = true := by
  cases part with
  | nil => simp
  | cons c rest =>
      obtain ⟨start, others⟩ := Bool.and_eq_true_iff.mp isPart
      refine List.forall_mem_cons.mpr ⟨?_, List.all_eq_true.mp others⟩
      rw [isModuleChar, start]
      rfl

theorem isModuleChar_of_isModuleName {line : List Char} (isName : isModuleName line = true) :
    ∀ c ∈ line, c ≠ '.' → isModuleChar c = true := by
  obtain ⟨areParts, -⟩ := Bool.and_eq_true_iff.mp isName
  intro c membership other
  obtain ⟨part, isPart, inside⟩ := exists_mem_splitOn membership other
  exact isModuleChar_of_isModulePart (List.all_eq_true.mp areParts part isPart) c inside

/-- A module name starts with a small letter, since its first part does. -/
theorem exists_start_of_isModuleName {line : List Char} (isName : isModuleName line = true) :
    ∃ c rest, line = c :: rest ∧ isModuleStart c = true ∧ c ≠ '.' := by
  obtain ⟨areParts, -⟩ := Bool.and_eq_true_iff.mp isName
  cases line with
  | nil => simp [isModulePart] at areParts
  | cons c rest =>
      obtain ⟨first, others, parts⟩ := List.exists_cons_of_ne_nil (List.splitOn_ne_nil '.' rest)
      rw [List.splitOn_cons_eq_if_modifyHead] at areParts
      split at areParts
      · simp [isModulePart] at areParts
      · rename_i other
        rw [parts, List.modifyHead_cons, List.all_cons, Bool.and_eq_true, isModulePart,
          Bool.and_eq_true] at areParts
        exact ⟨c, rest, rfl, areParts.1.1, by simpa using other⟩

theorem isAsciiAlphanumeric_of_isModuleChar {c : Char} (inside : isModuleChar c = true)
    (noHyphen : c ≠ '-') : isAsciiAlphanumeric c = true := by
  simp only [isModuleChar, isModuleStart, Bool.or_eq_true, beq_iff_eq, noHyphen, or_false]
    at inside
  rcases inside with small | digit
  · simp only [isAsciiAlphanumeric, isAsciiLetter, small, Bool.true_or]
  · simp only [isAsciiAlphanumeric, digit, Bool.or_true]

theorem upper_of_isAsciiAlphanumeric {c : Char} (plain : isAsciiAlphanumeric c = true) :
    upper c = [RoutePath.asciiUpper c] := by
  have low : c.toNat < 0x80 := by
    have range := toNat_of_isAsciiAlphanumeric plain
    omega
  rw [upper, if_pos low, RoutePath.asciiUpper]
  split <;> rfl

theorem isAsciiAlphanumeric_of_mem_bindingName {line : List Char}
    (chars : ∀ c ∈ line, c ≠ '.' → isModuleChar c = true) (capital : Bool) :
    ∀ c ∈ bindingName capital line, isAsciiAlphanumeric c = true := by
  induction line generalizing capital with
  | nil => simp [bindingName]
  | cons c line inductionHypothesis =>
      obtain ⟨first, later⟩ := List.forall_mem_cons.mp chars
      rw [bindingName]
      split
      · exact inductionHypothesis later true
      · rename_i kept
        rw [not_or] at kept
        have plain := isAsciiAlphanumeric_of_isModuleChar (first kept.2) kept.1
        split
        · rw [upper_of_isAsciiAlphanumeric plain, List.singleton_append]
          exact List.forall_mem_cons.mpr
            ⟨RoutePath.isAsciiAlphanumeric_asciiUpper plain, inductionHypothesis later false⟩
        · exact List.forall_mem_cons.mpr ⟨plain, inductionHypothesis later false⟩

theorem isIdentifier_bindingName {line : List Char} (isName : isModuleName line = true) :
    isIdentifier (bindingName false line) = true := by
  have chars := isModuleChar_of_isModuleName isName
  obtain ⟨c, rest, rfl, start, noPoint⟩ := exists_start_of_isModuleName isName
  have noHyphen : c ≠ '-' := ne_of_class start (by decide)
  have kept : bindingName false (c :: rest) = c :: bindingName false rest := by
    simp [bindingName, noHyphen, noPoint]
  have letter : isAsciiLetter c = true := by
    rw [isAsciiLetter, ← isModuleStart, start, Bool.true_or]
  rw [kept]
  refine isIdentifier_of_plain (List.forall_mem_cons.mpr ⟨?_, ?_⟩) ⟨c, _, rfl, letter⟩
  · rw [isAsciiAlphanumeric, letter, Bool.true_or]
  · exact isAsciiAlphanumeric_of_mem_bindingName (List.forall_mem_cons.mp chars).2 false

theorem isReadable_ofModuleName {line : List Char} (isName : isModuleName line = true) :
    IsReadable (ofModuleName line) := by
  have chars := isModuleChar_of_isModuleName isName
  obtain ⟨c, rest, shape, -⟩ := exists_start_of_isModuleName isName
  refine .default ?_ ⟨by simp [shape], fun d inside => ?_⟩
  · rw [String.toList_ofList]
    exact isIdentifier_bindingName isName
  · rw [String.toList_ofList] at inside
    by_cases point : d = '.'
    · rw [point]
      decide
    · have isChar := chars d inside point
      rw [isSourceQuote, beq_false_of_ne (ne_of_class isChar (by decide)),
        beq_false_of_ne (ne_of_class isChar (by decide)), Bool.or_self]

theorem isReadable_of_mem_ofLine {line : List Char} {statement : Import}
    (isRead : statement ∈ ofLine line) : IsReadable statement := by
  unfold ofLine at isRead
  split at isRead
  · exact isReadable_of_statement? ‹_› statement isRead
  · split at isRead
    · rw [List.mem_singleton.mp isRead]
      exact isReadable_ofModuleName ‹_›
    · exact absurd isRead List.not_mem_nil

/-- A source that stands in quotes as it is. -/
structure IsPlainSource (source : String) : Prop where
  noSlash : '\\' ∉ source.toList
  noReturn : '\r' ∉ source.toList
  noFeed : '\n' ∉ source.toList

instance (source : String) : Decidable (IsPlainSource source) :=
  decidable_of_iff ('\\' ∉ source.toList ∧ '\r' ∉ source.toList ∧ '\n' ∉ source.toList)
    ⟨fun ⟨noSlash, noReturn, noFeed⟩ => ⟨noSlash, noReturn, noFeed⟩,
      fun ⟨noSlash, noReturn, noFeed⟩ => ⟨noSlash, noReturn, noFeed⟩⟩

/-- The part of a written statement from the space in front of its `from` on. -/
def fromText (source : String) : List Char :=
  ' ' :: ("from ".toList ++ ((quote source).toList ++ [';']))

theorem afterBlanks?_space {c : Char} (solid : isBlank c = false) (text : List Char) :
    afterBlanks? (' ' :: c :: text) = some (c :: text) := by
  have space : isBlank ' ' = true := by decide
  rw [afterBlanks?, if_pos space, trimStart_cons_of_not_blank solid]

theorem quotedSource?_bare {source : List Char} (nonempty : source ≠ [])
    (bare : ∀ c ∈ source, isSourceQuote c = false) :
    quotedSource? ('\'' :: (source ++ ['\'', ';'])) = some (String.ofList source) := by
  have passes : ∀ c ∈ source, (!isSourceQuote c) = true := fun c inside => by
    rw [bare c inside, Bool.not_false]
  have quoted : (source ++ ['\'', ';']).takeWhile (!isSourceQuote ·) = source := by
    rw [List.takeWhile_append_of_pos passes]
    exact List.append_nil source
  have behind : (source ++ ['\'', ';']).dropWhile (!isSourceQuote ·) = ['\'', ';'] := by
    rw [List.dropWhile_append_of_pos passes]
    rfl
  rw [quotedSource?]
  simp only [quoted, behind]
  exact if_pos ⟨by decide, nonempty, .inr (by decide)⟩

section Statement

variable {source : String} (isSource : IsSource source) (plain : IsPlainSource source)
include isSource plain

theorem quote_of_isPlainSource : (quote source).toList = '\'' :: (source.toList ++ ['\'']) := by
  rw [toList_quote, Quoted.body_eq_self]
  intro c inside
  refine ⟨?_, ?_, ?_, ?_⟩
  · rintro rfl
    exact plain.noSlash inside
  · rintro rfl
    exact absurd (isSource.bare _ inside) (by decide)
  · rintro rfl
    exact plain.noFeed inside
  · rintro rfl
    exact plain.noReturn inside

theorem fromSource?_fromText : fromSource? (fromText source) = some source := by
  have mark : "from ".toList = 'f' :: "rom ".toList := by decide
  have written : fromText source =
      ' ' :: 'f' :: ("rom ".toList ++ '\'' :: (source.toList ++ ['\'', ';'])) := by
    rw [fromText, quote_of_isPlainSource isSource plain, mark]
    simp only [List.cons_append, List.append_assoc, List.nil_append]
  have keyword : afterPrefix? "from".toList
      ('f' :: ("rom ".toList ++ '\'' :: (source.toList ++ ['\'', ';']))) =
        some (' ' :: '\'' :: (source.toList ++ ['\'', ';'])) :=
    afterPrefix?_eq_some_iff.mpr rfl
  have solid : source.toList ≠ [] := fun empty =>
    isSource.nonempty (String.toList_inj.mp (empty.trans rfl))
  rw [fromSource?, written, afterBlanks?_space (by decide), Option.bind_some, keyword,
    Option.bind_some, afterBlanks?_space (by decide), Option.bind_some,
    quotedSource?_bare solid isSource.bare, String.ofList_toList]

end Statement

/-- A written name list between its braces. -/
def listText (names : List String) : List Char :=
  ' ' :: (List.intercalate [',', ' '] (names.map String.toList) ++ [' '])

theorem entries_append_comma (front rest : List Char) :
    entries (front ++ ',' :: rest) = entries front ++ entries rest := by
  rw [entries, List.splitOn_append_cons_self, List.map_append, List.filter_append, entries, entries]

/-- Blanks around an entry do not matter. -/
theorem entries_of_words {entry : String} (isEntry : IsEntry entry) {text : List Char}
    (noComma : ',' ∉ text) (same : words text = words entry.toList) : entries text = [entry] := by
  have read : String.ofList (List.intercalate [' '] (words text)) = entry := by
    rw [same]
    exact (congrArg String.ofList isEntry.spaced).trans String.ofList_toList
  rw [entries, List.splitOn_eq_singleton noComma, List.map_singleton, read]
  simp [isEntry.nonempty]

theorem entries_listText {names : List String} (areEntries : ∀ entry ∈ names, IsEntry entry) :
    entries (listText names) = names := by
  have space : isAllBlank [' '] = true := by decide
  induction names with
  | nil => decide
  | cons entry names inductionHypothesis =>
      obtain ⟨isEntry, later⟩ := List.forall_mem_cons.mp areEntries
      have spaced : words (' ' :: entry.toList) = words entry.toList :=
        words_append_cons (by decide) [] entry.toList
      cases names with
      | nil =>
          have alone : listText [entry] = ' ' :: entry.toList ++ [' '] := by
            simp [listText]
          rw [alone]
          exact entries_of_words isEntry (by simp [isEntry.noComma])
            ((words_append_gap _ space).trans spaced)
      | cons next names =>
          have split : listText (entry :: next :: names) =
              ' ' :: entry.toList ++ ',' :: listText (next :: names) := by
            simp [listText]
          rw [split, entries_append_comma, inductionHypothesis later,
            entries_of_words isEntry (by simp [isEntry.noComma]) spaced, List.singleton_append]

theorem nameList?_listText {names : List String} (areEntries : ∀ entry ∈ names, IsEntry entry)
    (rest : List Char) : nameList? (listText names ++ '}' :: rest) = some (names, rest) := by
  have passes : ∀ c ∈ listText names, (c != '}') = true := by
    intro c inside
    rw [bne_iff_ne]
    rintro rfl
    have inRow : '}' ∈ List.intercalate [',', ' '] (names.map String.toList) := by
      simpa [listText] using inside
    rcases mem_intercalate inRow with inGap | ⟨part, isPart, inPart⟩
    · exact absurd inGap (by decide)
    · obtain ⟨entry, isEntry, rfl⟩ := List.mem_map.mp isPart
      exact (areEntries entry isEntry).noBrace inPart
  have inside : (listText names ++ '}' :: rest).takeWhile (· != '}') = listText names := by
    rw [List.takeWhile_append_of_pos passes]
    exact List.append_nil _
  have behind : (listText names ++ '}' :: rest).dropWhile (· != '}') = '}' :: rest := by
    rw [List.dropWhile_append_of_pos passes]
    rfl
  rw [nameList?, behind]
  simp only [inside, entries_listText areEntries]

/-- What a statement imports stands behind its first word and one space. -/
theorem afterImport {c : Char} (solid : isBlank c = false) (text : List Char) :
    (afterPrefix? "import".toList ("import ".toList ++ c :: text)).bind afterBlanks? =
      some (c :: text) := by
  have keyword : afterPrefix? "import".toList ("import ".toList ++ c :: text) =
      some (' ' :: c :: text) :=
    afterPrefix?_eq_some_iff.mpr rfl
  rw [keyword, Option.bind_some, afterBlanks?_space solid]

theorem identifier?_fromText {name : List Char} (named : isIdentifier name = true)
    (source : String) : identifier? (name ++ fromText source) = some (name, fromText source) := by
  refine identifier?_of_isIdentifier named fun c first => ?_
  obtain rfl : ' ' = c := Option.some.inj first
  decide

theorem exists_part_of_isIdentifier {name : List Char} (named : isIdentifier name = true) :
    ∃ c more, name = c :: more ∧ isIdentifierPart c = true := by
  cases name with
  | nil => exact absurd named Bool.false_ne_true
  | cons c more =>
      exact ⟨c, more, rfl, isIdentifierPart_of_isIdentifier named c List.mem_cons_self⟩

theorem defaultFrom?_fromText {name source : String} (named : isIdentifier name.toList = true)
    (isSource : IsSource source) (plain : IsPlainSource source) :
    defaultFrom? (name.toList ++ fromText source) = some [default name source] := by
  have trimmed : trimStart (fromText source) =
      'f' :: ("rom ".toList ++ ((quote source).toList ++ [';'])) := by
    have space : isBlank ' ' = true := by decide
    exact (trimStart_cons_of_blank space).trans (trimStart_cons_of_not_blank (by decide))
  rw [defaultFrom?, identifier?_fromText named, Option.bind_some]
  simp only [trimmed, fromSource?_fromText isSource plain, Option.map_some, String.ofList_toList]
  rfl

theorem wholeFrom?_fromText {name source : String} (named : isIdentifier name.toList = true)
    (isSource : IsSource source) (plain : IsPlainSource source) :
    wholeFrom? (" as ".toList ++ (name.toList ++ fromText source)) = some (whole name source) := by
  obtain ⟨c, more, shape, part⟩ := exists_part_of_isIdentifier named
  have solid := isBlank_of_isIdentifierPart part
  have keyword : afterPrefix? "as".toList ("as ".toList ++ (name.toList ++ fromText source)) =
      some (' ' :: (name.toList ++ fromText source)) :=
    afterPrefix?_eq_some_iff.mpr rfl
  have opened : afterBlanks? (" as ".toList ++ (name.toList ++ fromText source)) =
      some ("as ".toList ++ (name.toList ++ fromText source)) :=
    afterBlanks?_space (by decide) _
  have behind : afterBlanks? (' ' :: (name.toList ++ fromText source)) =
      some (name.toList ++ fromText source) := by
    rw [shape]
    exact afterBlanks?_space solid _
  rw [wholeFrom?, opened, Option.bind_some, keyword, Option.bind_some, behind, Option.bind_some,
    identifier?_fromText named, Option.bind_some]
  simp only [fromSource?_fromText isSource plain, Option.map_some, String.ofList_toList]

theorem statement?_text {statement : Import} (readable : IsReadable statement)
    (plain : IsPlainSource statement.source) :
    statement? statement.text.toList = some [statement] := by
  cases readable with
  | @default name source named isSource =>
      have written : (default name source).text.toList =
          "import ".toList ++ (name.toList ++ fromText source) := by
        simp [text, fromText]
      have read := defaultFrom?_fromText named isSource plain
      obtain ⟨c, more, shape, part⟩ := exists_part_of_isIdentifier named
      rw [shape, List.cons_append] at written read
      rw [written, statement?, afterImport (isBlank_of_isIdentifierPart part), Option.bind_some]
      -- A name starts with neither of the marks that open the other two forms.
      split
      · rename_i list opens
        obtain ⟨rfl, -⟩ := List.cons.inj opens
        exact absurd part (by decide)
      · rename_i rest opens
        obtain ⟨rfl, -⟩ := List.cons.inj opens
        exact absurd part (by decide)
      · exact read
  | @named names source areEntries isSource =>
      have written : (named names source).text.toList =
          "import ".toList ++ '{' :: (listText names ++ '}' :: fromText source) := by
        simp [text, listText, fromText, String.toList_intercalate]
      rw [written, statement?, afterImport (by decide), Option.bind_some]
      simp only [namedFrom?, nameList?_listText areEntries, Option.bind_some,
        fromSource?_fromText isSource plain, Option.map_some]
  | @whole name source named isSource =>
      have written : (whole name source).text.toList =
          "import ".toList ++ '*' :: (" as ".toList ++ (name.toList ++ fromText source)) := by
        simp [text, fromText]
      rw [written, statement?, afterImport (by decide), Option.bind_some]
      simp only [wholeFrom?_fromText named isSource plain, Option.map_some]

theorem ofLine_text {statement : Import} (readable : IsReadable statement)
    (plain : IsPlainSource statement.source) : ofLine statement.text.toList = [statement] := by
  rw [ofLine, statement?_text readable plain]

/-- The ways in which an import names what it brings into scope. -/
inductive Form where
  | default
  | named
  | whole
  deriving DecidableEq

def form : Import → Form
  | default _ _ => .default
  | named _ _ => .named
  | whole _ _ => .whole

/-- What is left of an import when some names are bound already: nothing when they are all its
names, or else an import like it that binds the other ones. -/
inductive Leaves (bound : List String) (statement : Import) : Option Import → Prop where
  | nothing (all : ∀ name ∈ statement.boundNames, name ∈ bound) : Leaves bound statement none
  | others {left : Import} (form : left.form = statement.form)
      (source : left.source = statement.source) (nonempty : left.boundNames ≠ [])
      (names : left.boundNames = statement.boundNames.filter fun name => !bound.contains name) :
      Leaves bound statement (some left)

/-- What is left is the import itself, or a list of some of its entries. -/
theorem cases_of_unbound? {bound : List String} {statement left : Import}
    (isLeft : statement.unbound? bound = some left) :
    (left = statement ∧ left.boundNames ≠ []) ∨
      ∃ names kept source, statement = named names source ∧ left = named kept source ∧
        kept ⊆ names ∧ kept ≠ [] := by
  cases statement with
  | default name source =>
      simp only [unbound?] at isLeft
      split at isLeft
      · simp at isLeft
      · obtain rfl := Option.some.inj isLeft
        exact .inl ⟨rfl, List.cons_ne_nil name []⟩
  | whole name source =>
      simp only [unbound?] at isLeft
      split at isLeft
      · simp at isLeft
      · obtain rfl := Option.some.inj isLeft
        exact .inl ⟨rfl, List.cons_ne_nil name []⟩
  | named names source =>
      simp only [unbound?] at isLeft
      split at isLeft
      · simp at isLeft
      · rename_i entry others kept
        obtain rfl := Option.some.inj isLeft
        refine .inr ⟨names, entry :: others, source, rfl, rfl, ?_, List.cons_ne_nil entry others⟩
        exact kept ▸ List.filter_subset_self _

theorem leaves_unbound? (bound : List String) (statement : Import) :
    Leaves bound statement (statement.unbound? bound) := by
  have names := boundNames_unbound? bound statement
  cases isLeft : statement.unbound? bound with
  | none =>
      rw [isLeft] at names
      refine .nothing fun name isName => ?_
      simpa using List.filter_eq_nil_iff.mp names.symm name isName
  | some left =>
      rw [isLeft, Option.toList_some, List.flatMap_singleton] at names
      rcases cases_of_unbound? isLeft with ⟨rfl, nonempty⟩ |
        ⟨entries, kept, source, rfl, rfl, -, nonempty⟩
      · exact .others rfl rfl nonempty names
      · exact .others rfl rfl (by simpa [boundNames] using nonempty) names

theorem IsReadable.of_unbound? {bound : List String} {statement left : Import}
    (readable : IsReadable statement) (isLeft : statement.unbound? bound = some left) :
    IsReadable left := by
  rcases cases_of_unbound? isLeft with ⟨rfl, -⟩ | ⟨entries, kept, source, rfl, rfl, inside, -⟩
  · exact readable
  · cases readable with
    | named areEntries isSource =>
        exact .named (fun entry isEntry => areEntries entry (inside isEntry)) isSource

/-- An import that was read is written as a statement that means the same, and so is what is left of
it without the names that are bound already. -/
theorem ofLine_text_of_mem_ofLine {line : List Char} {statement : Import}
    (isRead : statement ∈ ofLine line) (plain : IsPlainSource statement.source) :
    ofLine statement.text.toList = [statement] ∧
      (ofLine statement.text.toList).map boundNames = [statement.boundNames] ∧
      ∀ bound, Leaves bound statement (statement.unbound? bound) ∧
        ∀ left ∈ statement.unbound? bound, ofLine left.text.toList = [left] := by
  have readable := isReadable_of_mem_ofLine isRead
  have reread := ofLine_text readable plain
  refine ⟨reread, by rw [reread, List.map_singleton], fun bound => ?_⟩
  have leaves := leaves_unbound? bound statement
  refine ⟨leaves, fun left isLeft => ?_⟩
  rw [Option.mem_def] at isLeft
  rw [isLeft] at leaves
  cases leaves with
  | others form source nonempty names =>
      exact ofLine_text (readable.of_unbound? isLeft) (source ▸ plain)

/-- A default import with a name list that is spaced oddly. -/
def mapLine : List Char :=
  "import MapView , \x7bMarker  as Pin,, Callout as\tBox \x7d from \"react-native-maps'".toList

def mapNames : Import :=
  named ["Marker as Pin", "Callout as Box"] "react-native-maps"

theorem ofLine_text_mapNames : mapNames ∈ ofLine mapLine ∧ IsPlainSource mapNames.source ∧
    ofLine mapNames.text.toList = [mapNames] ∧
    mapNames.unbound? ["Pin", "Box2"] = some (named ["Callout as Box"] "react-native-maps") ∧
    Leaves ["Pin", "Box2"] mapNames (mapNames.unbound? ["Pin", "Box2"]) := by
  have isRead : mapNames ∈ ofLine mapLine := by decide +kernel
  have plain : IsPlainSource mapNames.source := by decide +kernel
  obtain ⟨reread, -, left⟩ := ofLine_text_of_mem_ofLine isRead plain
  exact ⟨isRead, plain, reread, by decide +kernel, (left _).1⟩

end Import

end ScreenCompiler
