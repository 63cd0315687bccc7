import ScreenCompiler.Document.Block
import ScreenCompiler.Proofs.Document.Renumber
import ScreenCompiler.Proofs.Text.Nesting

/-!
# Numbers and ends of lines

Reading never looks at the number of a line, nor at the blanks behind its last solid
character.  Lines that differ in nothing else fall into the same blocks, up to the
numbers on them.
-/

namespace ScreenCompiler

open Text

/-- A change of lines that may give them other numbers and other blanks at their ends. -/
structure KeepsText (change : Nat → Nat) (edit : Line → Line) : Prop where
  number : ∀ line, (edit line).number = change line.number
  raw : ∀ line, trimEnd (edit line).raw = trimEnd line.raw

namespace KeepsText

variable {change : Nat → Nat} {edit : Line → Line}

theorem text (keeps : KeepsText change edit) (line : Line) : (edit line).text = line.text := by
  rw [Line.text, ← trim_trimEnd, keeps.raw, trim_trimEnd, Line.text]

theorem gist (keeps : KeepsText change edit) (nesting : Nesting) (line : Line) :
    (Closing.find Function.braces nesting (edit line).raw).gist =
      (Closing.find Function.braces nesting line.raw).gist := by
  have opening : isBlank Function.braces.opening = false := by decide
  have closing : isBlank Function.braces.closing = false := by decide
  rw [← Closing.gist_find_trimEnd opening closing, keeps.raw,
    Closing.gist_find_trimEnd opening closing]

end KeepsText

namespace Function

theorem Body.read_cons (depth : Nat) (line : Line) (lines : List Line) :
    Body.read depth (line :: lines) =
      match (Closing.find braces ⟨depth, none, false⟩ line.raw).gist with
      | (some before, _) =>
          ⟨if isAllBlank before then [] else [trimEnd before], some lines⟩
      | (none, inner) =>
          ⟨trimEnd line.raw :: (Body.read inner lines).lines, (Body.read inner lines).rest⟩ := by
  rw [Body.read]
  cases Closing.find braces ⟨depth, none, false⟩ line.raw with
  | closed before after => rfl
  | unclosed nesting => rfl

/-- A body with its lines edited. -/
def Body.editRest (edit : Line → Line) (body : Body) : Body :=
  { body with rest := body.rest.map (List.map edit) }

def Opened.editLines (edit : Line → Line) (opened : Opened) : Opened :=
  { opened with lines := opened.lines.map edit }

variable {change : Nat → Nat} {edit : Line → Line}

theorem Body.read_map (keeps : KeepsText change edit) (depth : Nat) (lines : List Line) :
    Body.read depth (lines.map edit) = (Body.read depth lines).editRest edit := by
  induction lines generalizing depth with
  | nil => rfl
  | cons line lines inductionHypothesis =>
      rw [List.map_cons, Body.read_cons, Body.read_cons, keeps.gist]
      split
      · rfl
      · rw [inductionHypothesis, keeps.raw]
        rfl

theorem readBody_editLines (keeps : KeepsText change edit) (opened : Opened) :
    readBody (opened.editLines edit) = (readBody opened).editRest edit := by
  simp only [readBody, Opened.editLines]
  split
  · rfl
  · rw [Body.read_map keeps]
    rfl

theorem open?_map (keeps : KeepsText change edit) (line : Line) (lines : List Line) :
    open? (edit line) (lines.map edit) = (open? line lines).map (Opened.editLines edit) := by
  unfold open?
  rw [keeps.text]
  cases Signature.read? line.text with
  | none => rfl
  | some signature =>
      by_cases reserved : signature.isReserved = true
      · simp only [reserved, ↓reduceIte, Option.map_none]
      · cases lines with
        | nil => cases opens : signature.opens <;> simp [reserved, opens, Opened.editLines]
        | cons next rest =>
            simp only [reserved, Bool.false_eq_true, ↓reduceIte, List.map_cons, keeps.text]
            split
            · split <;> rfl
            · rfl

end Function

/-- A continued head with its lines edited. -/
def Continued.editLines (edit : Line → Line) : Continued → Continued
  | complete head rest lines => complete head rest (lines.map edit)
  | unfinished text lines => unfinished text (lines.map edit)

theorem Continued.read_map {change : Nat → Nat} {edit : Line → Line}
    (keeps : KeepsText change edit) (text : List Char) (lines : List Line) :
    read text (lines.map edit) = (read text lines).editLines edit := by
  induction lines generalizing text with
  | nil => rfl
  | cons next lines inductionHypothesis =>
      rw [List.map_cons]
      simp only [read, keeps.text]
      split
      · rfl
      · split
        · rfl
        · exact inductionHypothesis _

namespace Block

variable {change : Nat → Nat} {edit : Line → Line}

/-- The block of a line that is a declaration by itself. -/
inductive Declares (line : List Char) : Block → Prop where
  | imports {statement} :
      importStatement? line = some statement → Declares line (imports statement)
  | word : Import.isModuleName line = true → Declares line (word line)
  | screen {attributes} :
      Screen.attributes? line = some attributes → Declares line (screen attributes)
  | state {name literal} :
      State.line? line = some (name, literal) → Declares line (state name literal)

theorem declares_of_simple? {line : List Char} {block : Block}
    (found : simple? line = some block) : Declares line block := by
  unfold simple? at found
  split at found
  · rename_i statement isImport
    exact Option.some.inj found ▸ .imports isImport
  · split at found
    · rename_i isName
      exact Option.some.inj found ▸ .word isName
    · split at found
      · rename_i attributes isScreen
        exact Option.some.inj found ▸ .screen isScreen
      · obtain ⟨⟨name, literal⟩, isState, rfl⟩ := Option.map_eq_some_iff.mp found
        exact .state isState

/-- A declaration of one line carries no number. -/
theorem renumber_of_simple? (change : Nat → Nat) {line : List Char} {block : Block}
    (found : simple? line = some block) : block.renumber change = block := by
  cases declares_of_simple? found <;> rfl

theorem ofOpened_editLines (keeps : KeepsText change edit) (number : Nat)
    (opened : Function.Opened)
    (below : ∀ rest, (Function.readBody opened).rest = some rest →
      ofLines (rest.map edit) = (ofLines rest).map (renumber change)) :
    ofOpened (change number) (opened.editLines edit) =
      (ofOpened number opened).map (renumber change) := by
  rw [ofOpened, ofOpened, Function.readBody_editLines keeps]
  cases closed : (Function.readBody opened).rest with
  | none =>
      simp [closed, Function.Body.editRest, renumber, Function.ofBody, Function.Opened.editLines]
  | some rest =>
      have later := below rest closed
      simp [closed, Function.Body.editRest, renumber, Function.ofBody,
        Function.Opened.editLines, later]

theorem ofLines_map (keeps : KeepsText change edit) (lines : List Line) :
    ofLines (lines.map edit) = (ofLines lines).map (renumber change) := by
  refine ofLines.induct
    (fun lines => ofLines (lines.map edit) = (ofLines lines).map (renumber change))
    (fun number text lines => ofText (change number) text (lines.map edit) =
      (ofText number text lines).map (renumber change))
    ?ended ?simple ?opened ?markup ?text lines
  case ended => simp
  case simple =>
    intro line lines block simple inductionHypothesis
    rw [List.map_cons, ofLines_cons, ofLines_cons, keeps.text, simple]
    simp only [List.map_cons, inductionHypothesis, renumber_of_simple? change simple]
  case opened =>
    intro line lines simple opened found _ inductionHypothesis
    rw [List.map_cons, ofLines_cons, ofLines_cons, keeps.text, simple,
      Function.open?_map keeps, found, keeps.number]
    exact ofOpened_editLines keeps line.number opened inductionHypothesis
  case markup =>
    intro line lines simple found inductionHypothesis
    rw [List.map_cons, ofLines_cons, ofLines_cons, keeps.text, simple,
      Function.open?_map keeps, found, keeps.number]
    exact inductionHypothesis
  case text =>
    intro number text lines below complete unfinished
    rw [ofText_eq, ofText_eq, List.map_append, List.map_map]
    congr 1
    cases (Pieces.ofText text).unfinished with
    | none => exact below
    | some tag =>
        by_cases closes : startsWith ['<', '/'] tag = true
        · simp only [closes, ↓reduceIte, below]
          rfl
        · simp only [closes, Bool.false_eq_true, ↓reduceIte, Continued.read_map keeps]
          cases found : Continued.read tag lines with
          | complete head rest more =>
              simp only [Continued.editLines, complete tag head rest more found]
              rfl
          | unfinished last more =>
              simp only [Continued.editLines, unfinished tag last more found]
              rfl

end Block

end ScreenCompiler
