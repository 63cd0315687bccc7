import ScreenCompiler.Proofs.Document.LineEnds
import ScreenCompiler.Proofs.Text.Lines

/-!
# Lines behind lines

When every block of some lines is complete, the lines below them are read as if they
stood alone.  One lookahead remains: a signature on the last line takes a brace on
the line after it as its own.
-/

namespace ScreenCompiler

open Text

namespace Function

/-- The last of the lines above does not take the first of the lines below as its opening brace. -/
def Apart (above below : List Line) : Prop :=
  ∀ last ∈ above.getLast?, ∀ next ∈ below.head?,
    (Signature.read? last.text).isSome → startsWith ['{'] next.text = false

instance (above below : List Line) : Decidable (Apart above below) :=
  inferInstanceAs (Decidable (∀ last ∈ above.getLast?, ∀ next ∈ below.head?,
    (Signature.read? last.text).isSome → startsWith ['{'] next.text = false))

theorem Apart.of_suffix {above rest below : List Line} (apart : Apart above below)
    (suffix : rest <:+ above) : Apart rest below := by
  intro last lastMembership
  apply apart last
  obtain ⟨before, rfl⟩ := suffix
  exact List.mem_getLast?_append_of_mem_getLast? lastMembership

theorem Apart.map {change other : Nat → Nat} {edit redo : Line → Line} {above below : List Line}
    (keeps : KeepsText change edit) (keepsBelow : KeepsText other redo)
    (apart : Apart above below) : Apart (above.map edit) (below.map redo) := by
  intro last lastMembership next nextMembership
  rw [List.getLast?_map, Option.mem_def, Option.map_eq_some_iff] at lastMembership
  rw [List.head?_map, Option.mem_def, Option.map_eq_some_iff] at nextMembership
  obtain ⟨line, found, rfl⟩ := lastMembership
  obtain ⟨top, first, rfl⟩ := nextMembership
  rw [keeps.text, keepsBelow.text]
  exact apart line found top first

theorem Body.read_append {depth : Nat} {above rest : List Line} (below : List Line)
    (closed : (Body.read depth above).rest = some rest) :
    Body.read depth (above ++ below) = ⟨(Body.read depth above).lines, some (rest ++ below)⟩ := by
  induction above generalizing depth with
  | nil => simp [Body.read] at closed
  | cons line above inductionHypothesis =>
      rw [List.cons_append]
      simp only [Body.read] at closed ⊢
      split
      · rename_i found
        simp only [found, Option.some.injEq] at closed
        rw [closed]
      · rename_i found
        simp only [found] at closed
        rw [inductionHypothesis closed]

theorem Body.rest_suffix {depth : Nat} {above rest : List Line}
    (closed : (Body.read depth above).rest = some rest) : rest <:+ above := by
  induction above generalizing depth with
  | nil => simp [Body.read] at closed
  | cons line above inductionHypothesis =>
      simp only [Body.read] at closed
      split at closed
      · rw [← Option.some.inj closed]
        exact List.suffix_cons line above
      · exact (inductionHypothesis closed).trans (List.suffix_cons line above)

/-- A function with more lines behind it. -/
def Opened.append (opened : Opened) (below : List Line) : Opened :=
  { opened with lines := opened.lines ++ below }

theorem readBody_append {opened : Opened} {rest : List Line} (below : List Line)
    (closed : (readBody opened).rest = some rest) :
    readBody (opened.append below) = ⟨(readBody opened).lines, some (rest ++ below)⟩ := by
  unfold readBody at closed ⊢
  simp only [Opened.append]
  split
  · rename_i found
    simp only [found, Option.some.injEq] at closed
    rw [closed]
  · rename_i found
    simp only [found] at closed
    rw [Body.read_append below closed]

theorem rest_readBody_suffix {opened : Opened} {rest : List Line}
    (closed : (readBody opened).rest = some rest) : rest <:+ opened.lines := by
  unfold readBody at closed
  split at closed
  · obtain rfl : opened.lines = rest := Option.some.inj closed
    exact List.suffix_rfl
  · exact Body.rest_suffix closed

theorem afterKeyword?_suffix (keyword text : List Char) :
    (afterKeyword? keyword text).getD text <:+ text := by
  unfold afterKeyword?
  split
  · rename_i c rest found
    split
    · have behind : rest <:+ text := by
        rw [afterPrefix?_eq_some_iff.mp found]
        exact (List.suffix_cons c rest).trans (List.suffix_append ..)
      exact (List.dropWhile_suffix _).trans behind
    · exact List.suffix_rfl
  · exact List.suffix_rfl

theorem brace_mem_of_params? {text params : List Char}
    (found : Signature.params? text = some (params, true)) : '{' ∈ text := by
  unfold Signature.params? at found
  split at found
  · simp at found
  · rename_i c rest dropped
    have behind : rest <:+ text := by
      have whole : c :: rest <:+ text := dropped ▸ List.dropWhile_suffix _
      exact (List.suffix_cons c rest).trans whole
    split at found
    · simp at found
    · rename_i d more trimmed
      split at found
      · rename_i brace
        subst brace
        have solid : '{' :: more <:+ rest := trimmed ▸ List.dropWhile_suffix _
        exact (solid.trans behind).subset List.mem_cons_self
      · simp at found

/-- A line behind the keywords in front of the name that it declares. -/
def Signature.bare (line : List Char) : List Char :=
  let named := (afterKeyword? "async".toList line).getD line
  (afterKeyword? "function".toList named).getD named

theorem Signature.bare_suffix (line : List Char) : bare line <:+ line :=
  (afterKeyword?_suffix ..).trans (afterKeyword?_suffix ..)

theorem Signature.read?_eq_some_iff {line : List Char} {signature : Signature} :
    read? line = some signature ↔
      ∃ rest text, Script.identifier? (bare line) = some (signature.name, rest) ∧
        trimStart rest = '(' :: text ∧
        params? text = some (signature.params, signature.opens) ∧
        (afterKeyword? "async".toList line).isSome = signature.isAsync := by
  obtain ⟨isAsync, name, params, opens⟩ := signature
  constructor
  · intro found
    obtain ⟨⟨name, rest⟩, named, parameters⟩ := Option.bind_eq_some_iff.mp found
    simp only at parameters
    split at parameters
    · rename_i text trimmed
      obtain ⟨⟨params, opens⟩, read, same⟩ := Option.map_eq_some_iff.mp parameters
      cases same
      exact ⟨rest, text, named, trimmed, read, rfl⟩
    · simp at parameters
  · rintro ⟨rest, text, named, trimmed, read, rfl⟩
    refine Option.bind_eq_some_iff.mpr ⟨(name, rest), named, ?_⟩
    simp only [trimmed, read, Option.map_some]

theorem hasBrace_of_opens {line : List Char} {signature : Signature}
    (found : Signature.read? line = some signature) (opens : signature.opens = true) :
    hasBrace line = true := by
  obtain ⟨rest, text, named, trimmed, read, -⟩ := Signature.read?_eq_some_iff.mp found
  have behindName : rest <:+ line := by
    have bare := Signature.bare_suffix line
    rw [Script.append_of_identifier? named] at bare
    exact (List.suffix_append ..).trans bare
  have brace : '{' ∈ text := brace_mem_of_params? (opens ▸ read)
  have parenthesis : '(' :: text <:+ rest := trimmed ▸ List.dropWhile_suffix _
  have inside := (parenthesis.trans behindName).subset (List.mem_cons_of_mem _ brace)
  simpa [hasBrace] using inside

/-- The line of an opened function holds its signature. -/
theorem signature_of_open? {line : Line} {lines : List Line} {opened : Opened}
    (found : open? line lines = some opened) :
    Signature.read? line.text = some opened.signature ∧ opened.signature.isReserved = false := by
  unfold open? at found
  split at found
  · simp at found
  · rename_i signature read
    obtain ⟨allowed, found⟩ := Option.ite_none_left_eq_some.mp found
    rw [Bool.not_eq_true] at allowed
    have same : signature = opened.signature := by
      split at found
      · obtain ⟨-, found⟩ := Option.ite_none_right_eq_some.mp found
        exact congrArg Opened.signature (Option.some.inj found)
      · obtain ⟨-, found⟩ := Option.ite_none_right_eq_some.mp found
        split at found
        · exact congrArg Opened.signature (Option.some.inj found)
        · exact congrArg Opened.signature (Option.some.inj found)
    exact same ▸ ⟨read, allowed⟩

theorem open?_of_opens {line : Line} {signature : Signature}
    (found : Signature.read? line.text = some signature) (opens : signature.opens = true)
    (allowed : signature.isReserved = false) (lines : List Line) :
    open? line lines = some ⟨signature, afterBrace line.text, lines⟩ := by
  have brace := hasBrace_of_opens found opens
  rw [open?, found]
  cases lines with
  | nil => simp [allowed, opens]
  | cons next rest => simp [allowed, opens, brace]

/-- Only the first of the lines below a signature may hold its opening brace. -/
theorem open?_cons_append (line next : Line) (above below : List Line) :
    open? line (next :: above ++ below) =
      (open? line (next :: above)).map (Opened.append · below) := by
  unfold open?
  cases Signature.read? line.text with
  | none => rfl
  | some signature =>
      simp only [List.cons_append]
      split
      · rfl
      · split
        · split <;> rfl
        · rfl

theorem open?_append {line : Line} {above below : List Line}
    (apart : Apart (line :: above) below) :
    open? line (above ++ below) = (open? line above).map (Opened.append · below) := by
  cases above with
  | cons next above => exact open?_cons_append line next above below
  | nil =>
      unfold open?
      cases found : Signature.read? line.text with
      | none => rfl
      | some signature =>
          by_cases reserved : signature.isReserved = true
          · simp only [reserved, ↓reduceIte, Option.map_none]
          · cases below with
            | nil => cases opens : signature.opens <;> simp [reserved, opens, Opened.append]
            | cons next rest =>
                have plain : startsWith ['{'] next.text = false :=
                  apart line (by simp) next (by simp) (by simp [found])
                cases opens : signature.opens with
                | false => simp [reserved, opens, plain]
                | true => simp [reserved, opens, hasBrace_of_opens found opens, Opened.append]

theorem lines_open?_suffix {line : Line} {lines : List Line} {opened : Opened}
    (found : open? line lines = some opened) : opened.lines <:+ lines := by
  unfold open? at found
  split at found
  · simp at found
  · split at found
    · simp at found
    · split at found
      · split at found
        · obtain rfl := Option.some.inj found
          exact List.suffix_rfl
        · simp at found
      · split at found
        · split at found
          · obtain rfl := Option.some.inj found
            exact List.suffix_rfl
          · obtain rfl := Option.some.inj found
            exact List.suffix_cons ..
        · simp at found

end Function

namespace Continued

theorem read_append {text rest : List Char} {above more : List Line} {head : Head}
    (below : List Line) (found : read text above = complete head rest more) :
    read text (above ++ below) = complete head rest (more ++ below) := by
  induction above generalizing text with
  | nil => simp [read] at found
  | cons next above inductionHypothesis =>
      rw [List.cons_append]
      simp only [read] at found ⊢
      split at found
      · simp at found
      · rename_i goesOn
        rw [if_neg goesOn]
        cases ended : Head.read? (text ++ ' ' :: next.text) with
        | some reached =>
            simp only [ended, complete.injEq] at found ⊢
            obtain ⟨rfl, rfl, rfl⟩ := found
            exact ⟨rfl, rfl, rfl⟩
        | none =>
            simp only [ended] at found ⊢
            exact inductionHypothesis found

/-- The text of a head with the texts of some lines added. -/
def joined (text : List Char) (lines : List Line) : List Char :=
  lines.foldl (fun text line => text ++ ' ' :: line.text) text

theorem prefix_joined (text : List Char) (lines : List Line) : text <+: joined text lines := by
  induction lines generalizing text with
  | nil => exact List.prefix_rfl
  | cons line lines inductionHypothesis =>
      exact (List.prefix_append text _).trans (inductionHypothesis _)

theorem mem_joined {c : Char} {text : List Char} {lines : List Line}
    (membership : c ∈ joined text lines) :
    c ∈ text ∨ c = ' ' ∨ ∃ line ∈ lines, c ∈ line.text := by
  induction lines generalizing text with
  | nil => exact .inl membership
  | cons line lines inductionHypothesis =>
      rcases inductionHypothesis membership with inText | blank | ⟨other, later, inLine⟩
      · rcases List.mem_append.mp inText with before | added
        · exact .inl before
        · rcases List.mem_cons.mp added with blank | inLine
          · exact .inr (.inl blank)
          · exact .inr (.inr ⟨line, List.mem_cons_self, inLine⟩)
      · exact .inr (.inl blank)
      · exact .inr (.inr ⟨other, List.mem_cons_of_mem _ later, inLine⟩)

/-- A head that is complete ends in the text of the lines that have been added. -/
theorem exists_joined_of_complete {text rest : List Char} {lines more : List Line} {head : Head}
    (found : read text lines = complete head rest more) :
    ∃ added, lines = added ++ more ∧ Head.read? (joined text added) = some (head, rest) := by
  induction lines generalizing text with
  | nil => simp [read] at found
  | cons next lines inductionHypothesis =>
      simp only [read] at found
      split at found
      · simp at found
      · split at found
        · rename_i ended
          simp only [complete.injEq] at found
          obtain ⟨rfl, rfl, rfl⟩ := found
          exact ⟨[next], rfl, ended⟩
        · obtain ⟨added, rfl, ended⟩ := inductionHypothesis found
          exact ⟨next :: added, rfl, ended⟩

/-- A head that ends nowhere is the text of the lines that have been added. -/
theorem exists_joined_of_unfinished {text last : List Char} {lines more : List Line}
    (found : read text lines = unfinished last more) :
    ∃ added, lines = added ++ more ∧ last = joined text added := by
  induction lines generalizing text with
  | nil =>
      simp only [read, unfinished.injEq] at found
      obtain ⟨rfl, rfl⟩ := found
      exact ⟨[], rfl, rfl⟩
  | cons next lines inductionHypothesis =>
      simp only [read] at found
      split at found
      · simp only [unfinished.injEq] at found
        obtain ⟨rfl, rfl⟩ := found
        exact ⟨[], rfl, rfl⟩
      · split at found
        · simp at found
        · obtain ⟨added, rfl, same⟩ := inductionHypothesis found
          exact ⟨next :: added, rfl, same⟩

theorem suffix_of_complete {text rest : List Char} {lines more : List Line} {head : Head}
    (found : read text lines = complete head rest more) : more <:+ lines := by
  obtain ⟨added, rfl, -⟩ := exists_joined_of_complete found
  exact List.suffix_append added more

theorem suffix_of_unfinished {text last : List Char} {lines more : List Line}
    (found : read text lines = unfinished last more) : more <:+ lines := by
  obtain ⟨added, rfl, -⟩ := exists_joined_of_unfinished found
  exact List.suffix_append added more

end Continued

namespace Block

/-- Whether a block has found its end: every block but a head that ends nowhere and a function
whose body is never closed. -/
def isComplete : Block → Bool
  | function _ _ closed => closed
  | unfinished .. => false
  | _ => true

theorem ofOpened_append {number : Nat} {opened : Function.Opened} {rest below : List Line}
    (closed : (Function.readBody opened).rest = some rest)
    (joined : ofLines (rest ++ below) = ofLines rest ++ ofLines below) :
    ofOpened number (opened.append below) = ofOpened number opened ++ ofLines below := by
  rw [ofOpened, ofOpened, Function.readBody_append below closed]
  simp only [closed, joined]
  rfl

theorem ofLines_append {above below : List Line}
    (complete : ∀ block ∈ ofLines above, block.isComplete = true)
    (apart : Function.Apart above below) :
    ofLines (above ++ below) = ofLines above ++ ofLines below := by
  revert complete apart
  refine ofLines.induct
    (fun above => (∀ block ∈ ofLines above, block.isComplete = true) →
      Function.Apart above below → ofLines (above ++ below) = ofLines above ++ ofLines below)
    (fun number text above => (∀ block ∈ ofText number text above, block.isComplete = true) →
      Function.Apart above below →
        ofText number text (above ++ below) = ofText number text above ++ ofLines below)
    ?ended ?simple ?opened ?markup ?text above
  case ended =>
    intro complete apart
    simp
  case simple =>
    intro line lines block simple inductionHypothesis complete apart
    rw [ofLines_cons, simple] at complete
    obtain ⟨-, complete⟩ := List.forall_mem_cons.mp complete
    have joined := inductionHypothesis complete (apart.of_suffix (List.suffix_cons ..))
    rw [List.cons_append, ofLines_cons, ofLines_cons, simple]
    simp only [List.cons_append, joined]
  case opened =>
    intro line lines simple opened found _ inductionHypothesis complete apart
    rw [ofLines_cons, simple, found] at complete
    obtain ⟨isClosed, complete⟩ := List.forall_mem_cons.mp complete
    -- a block of a function is complete only when its body leaves lines behind
    obtain ⟨rest, closed⟩ := Option.isSome_iff_exists.mp isClosed
    rw [closed] at complete
    have behind : rest <:+ line :: lines :=
      ((Function.rest_readBody_suffix closed).trans (Function.lines_open?_suffix found)).trans
        (List.suffix_cons ..)
    have joined := inductionHypothesis rest closed complete (apart.of_suffix behind)
    rw [List.cons_append, ofLines_cons, ofLines_cons, simple, Function.open?_append apart, found]
    exact ofOpened_append closed joined
  case markup =>
    intro line lines simple found inductionHypothesis complete apart
    rw [ofLines_cons, simple, found] at complete
    rw [List.cons_append, ofLines_cons, ofLines_cons, simple, Function.open?_append apart, found]
    exact inductionHypothesis complete (apart.of_suffix (List.suffix_cons ..))
  case text =>
    intro number text lines later resumed _ complete apart
    rw [ofText_eq, List.forall_mem_append] at complete
    obtain ⟨-, complete⟩ := complete
    rw [ofText_eq, ofText_eq, List.append_assoc]
    congr 1
    cases tagged : (Pieces.ofText text).unfinished with
    | none =>
        rw [tagged] at complete
        exact later complete apart
    | some tag =>
        rw [tagged] at complete
        by_cases closes : startsWith ['<', '/'] tag = true
        · simp only [closes, ↓reduceIte, List.forall_mem_cons] at complete ⊢
          rw [later complete.2 apart]
          rfl
        · simp only [closes, Bool.false_eq_true, ↓reduceIte] at complete ⊢
          cases found : Continued.read tag lines with
          | complete head rest more =>
              simp only [found, List.forall_mem_cons] at complete
              simp only [Continued.read_append below found, List.cons_append]
              rw [resumed tag head rest more found complete.2
                (apart.of_suffix (Continued.suffix_of_complete found))]
          | unfinished last more =>
              simp [found, isComplete] at complete

end Block

end ScreenCompiler
