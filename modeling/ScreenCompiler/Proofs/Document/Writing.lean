import ScreenCompiler.Proofs.Document.MarkupLines
import ScreenCompiler.Proofs.Markup.Attributes

/-!
# Written markup

Trees of elements and runs of text, as they are written one piece per line.  The
parts of a tree carry what makes them readable again, so there is nothing to check
about a tree as a whole.
-/

namespace ScreenCompiler

open Text

theorem Head.isBlank_of_isTagChar {c : Char} (named : isTagChar c = true) : isBlank c = false := by
  simp only [isTagChar, Bool.or_eq_true, beq_iff_eq] at named
  rcases named with ((plain | rfl) | rfl) | rfl
  · exact isBlank_of_isAsciiAlphanumeric plain
  · decide
  · decide
  · decide

structure TagName where
  first : Char
  rest : List Char
  letter : isAsciiLetter first = true
  solid : rest.all Head.isTagChar = true

namespace TagName

def text (tag : TagName) : List Char :=
  tag.first :: tag.rest

theorem isTagChar_of_mem_text (tag : TagName) {c : Char} (membership : c ∈ tag.text) :
    Head.isTagChar c = true := by
  rcases List.mem_cons.mp membership with rfl | later
  · simp [Head.isTagChar, isAsciiAlphanumeric, tag.letter]
  · exact List.all_eq_true.mp tag.solid c later

theorem isBlank_of_mem_text (tag : TagName) {c : Char} (membership : c ∈ tag.text) :
    isBlank c = false :=
  Head.isBlank_of_isTagChar (tag.isTagChar_of_mem_text membership)

theorem trim_text (tag : TagName) : trim tag.text = tag.text :=
  trim_eq_self (fun _ first => tag.isBlank_of_mem_text (List.mem_of_mem_head? first))
    (fun _ last => tag.isBlank_of_mem_text (List.mem_of_mem_getLast? last))

end TagName

/-- A run of text that stands on a line of its own. -/
structure TextRun where
  text : List Char
  nonempty : text ≠ []
  trimmed : trim text = text
  noFeed : '\n' ∉ text
  noBracket : '<' ∉ text
  undeclared : isDeclarationLike text = false

inductive Markup where
  | text (run : TextRun)
  | element (tag : TagName) (attributes : WrittenAttributes) (children : List Markup)

namespace Markup

mutual

/-- The pieces of a tree, each of them a line. -/
def pieces : Markup → List Piece
  | text run => [.text run.text]
  | element tag attributes [] => [.head (tag.text ++ attributes.text ++ ['/'])]
  | element tag attributes (child :: children) =>
      .head (tag.text ++ attributes.text) :: piecesOf (child :: children) ++ [.closing tag.text]

def piecesOf : List Markup → List Piece
  | [] => []
  | markup :: forest => pieces markup ++ piecesOf forest

end

mutual

/-- The node of a tree that is written from the given line on. -/
def toNode (catalog : Catalog) (line : Nat) : Markup → Node
  | text run => .text (String.ofList run.text)
  | element tag attributes children =>
      .element (String.ofList tag.text) (attributes.props catalog)
        (toNodes catalog (line + 1) children) line

def toNodes (catalog : Catalog) (line : Nat) : List Markup → List Node
  | [] => []
  | markup :: forest =>
      toNode catalog line markup :: toNodes catalog (line + (pieces markup).length) forest

end

/-- The source of a forest, one piece per line, each line indented by its own amount. -/
def source (indent : Nat → List Char) (forest : List Markup) : List Char :=
  unlines ((piecesOf forest).mapIdx fun index piece => indent index ++ piece.written)

/-- A piece that is read as itself when it stands on a line of its own. -/
structure IsLinePiece (piece : Piece) : Prop where
  segment : Pieces.Segment piece.written ⟨[piece], none⟩
  markup : IsMarkup piece.written
  noFeed : '\n' ∉ piece.written

theorem isDeclarationLike_of_bracket (rest : List Char) :
    isDeclarationLike ('<' :: rest) = false := by
  have noImport : startsWith "import ".toList ('<' :: rest) = false := rfl
  have noScreen : Screen.attributes? ('<' :: rest) = none := rfl
  have noState : State.line? ('<' :: rest) = none := rfl
  have noFunction : Function.Signature.read? ('<' :: rest) = none := rfl
  have noModule : Import.isModuleName ('<' :: rest) = false := by
    rw [Import.isModuleName, List.splitOn_cons_eq_if_modifyHead, if_neg (by decide)]
    cases parts : rest.splitOn '.' with
    | nil => exact absurd parts (List.splitOn_ne_nil '.' rest)
    | cons first parts => rfl
  rw [isDeclarationLike, noImport, noScreen, noState, noFunction, noModule]
  rfl

theorem isLinePiece_text (run : TextRun) : IsLinePiece (.text run.text) := by
  have segment := Pieces.Segment.text run.nonempty run.trimmed
    (Pieces.beforeTag_of_notMem run.noBracket 0)
  exact ⟨segment, isMarkup_of_whole segment.ofText run.undeclared, run.noFeed⟩

theorem isLinePiece_ofInside {c : Char} {inside : List Char}
    (solid : (isAsciiLetter c || c == '/') = true) (quiet : Head.Quiet (c :: inside))
    (noFeed : '\n' ∉ c :: inside) : IsLinePiece (Piece.ofInside (c :: inside)) := by
  have segment : Pieces.Segment (Piece.ofInside (c :: inside)).written
      ⟨[Piece.ofInside (c :: inside)], none⟩ := by
    rw [Pieces.written_ofInside]
    exact .tag solid (quiet.findEnd? [])
  refine ⟨segment, isMarkup_of_whole segment.ofText ?_, ?_⟩
  · rw [Pieces.written_ofInside]
    exact isDeclarationLike_of_bracket _
  · rw [Pieces.written_ofInside]
    simpa using noFeed

theorem quiet_tag (tag : TagName) : Head.Quiet tag.text :=
  Head.quiet_of_plain fun _ membership =>
    Head.plain_of_class (by decide) (tag.isTagChar_of_mem_text membership)

theorem quiet_attributeName {name : List Char} (named : name.all Attribute.isNameChar = true) :
    Head.Quiet (' ' :: name ++ ['=']) := by
  refine Head.quiet_of_plain fun c inside => ?_
  rcases List.mem_append.mp inside with front | equals
  · rcases List.mem_cons.mp front with rfl | inName
    · decide
    · exact Head.plain_of_class (by decide) (List.all_eq_true.mp named c inName)
  · rw [List.mem_singleton.mp equals]
    decide

theorem quiet_attributes (attributes : WrittenAttributes) : Head.Quiet attributes.text := by
  refine Head.Quiet.flatMap fun entry membership => ?_
  obtain ⟨-, named⟩ := attributes.named entry membership
  obtain ⟨noQuote, -⟩ := attributes.quotable entry membership
  have shape : WrittenAttributes.entryText entry =
      ' ' :: entry.1 ++ ['='] ++ ('"' :: entry.2 ++ ['"']) := by
    simp [WrittenAttributes.entryText]
  rw [shape]
  exact (quiet_attributeName named).append (Head.quiet_quoted (by decide) noQuote)

theorem quiet_slash : Head.Quiet ['/'] :=
  Head.quiet_of_plain (List.forall_mem_singleton.mpr (by decide))

theorem feed_notMem_tag (tag : TagName) : '\n' ∉ tag.text := fun membership =>
  absurd (tag.isTagChar_of_mem_text membership) (by decide)

theorem feed_notMem_attributes (attributes : WrittenAttributes) : '\n' ∉ attributes.text := by
  intro membership
  obtain ⟨entry, inside, here⟩ := List.mem_flatMap.mp membership
  obtain ⟨-, named⟩ := attributes.named entry inside
  obtain ⟨-, noFeed⟩ := attributes.quotable entry inside
  have noName : '\n' ∉ entry.1 := fun inName =>
    absurd (List.all_eq_true.mp named '\n' inName) (by decide)
  simp [WrittenAttributes.entryText, noName, noFeed] at here

theorem startsTag_tag (tag : TagName) (rest : List Char) :
    Head.startsTag ('<' :: (tag.text ++ rest)) = true :=
  Head.startsTag_iff.mpr ⟨tag.first, tag.rest ++ rest, rfl, by rw [tag.letter, Bool.true_or]⟩

theorem ofInside_tag (tag : TagName) (rest : List Char) :
    Piece.ofInside (tag.text ++ rest) = .head (tag.text ++ rest) := by
  unfold Piece.ofInside
  split
  · rename_i inside slash
    have first : tag.first :: (tag.rest ++ rest) = '/' :: inside := slash
    have letter := tag.letter
    rw [(List.cons.inj first).1] at letter
    exact absurd letter (by decide)
  · rfl

theorem isLinePiece_head (tag : TagName) {rest : List Char} (quiet : Head.Quiet rest)
    (noFeed : '\n' ∉ rest) : IsLinePiece (.head (tag.text ++ rest)) := by
  have solid : (isAsciiLetter tag.first || tag.first == '/') = true := by
    rw [tag.letter, Bool.true_or]
  rw [← ofInside_tag]
  refine isLinePiece_ofInside solid ((quiet_tag tag).append quiet) ?_
  intro membership
  rcases List.mem_append.mp (show '\n' ∈ tag.text ++ rest from membership) with inTag | inRest
  · exact feed_notMem_tag tag inTag
  · exact noFeed inRest

theorem isLinePiece_closing (tag : TagName) : IsLinePiece (.closing tag.text) := by
  refine isLinePiece_ofInside (by decide) (quiet_slash.append (quiet_tag tag)) ?_
  intro membership
  rcases List.mem_cons.mp membership with isSlash | inTag
  · exact absurd isSlash (by decide)
  · exact feed_notMem_tag tag inTag

mutual

theorem isLinePiece_of_mem_pieces (markup : Markup) :
    ∀ piece ∈ pieces markup, IsLinePiece piece := by
  match markup with
  | text run =>
      rw [pieces]
      exact List.forall_mem_singleton.mpr (isLinePiece_text run)
  | element tag attributes [] =>
      rw [pieces, List.append_assoc]
      refine List.forall_mem_singleton.mpr (isLinePiece_head tag ?_ ?_)
      · exact (quiet_attributes attributes).append quiet_slash
      · simpa using feed_notMem_attributes attributes
  | element tag attributes (child :: children) =>
      rw [pieces]
      intro piece membership
      rcases List.mem_append.mp membership with front | last
      · rcases List.mem_cons.mp front with rfl | inside
        · exact isLinePiece_head tag (quiet_attributes attributes)
            (feed_notMem_attributes attributes)
        · exact isLinePiece_of_mem_piecesOf (child :: children) piece inside
      · rw [List.mem_singleton.mp last]
        exact isLinePiece_closing tag

theorem isLinePiece_of_mem_piecesOf (forest : List Markup) :
    ∀ piece ∈ piecesOf forest, IsLinePiece piece := by
  match forest with
  | [] =>
      rw [piecesOf]
      exact List.forall_mem_nil _
  | markup :: forest =>
      rw [piecesOf]
      exact List.forall_mem_append.mpr
        ⟨isLinePiece_of_mem_pieces markup, isLinePiece_of_mem_piecesOf forest⟩

end

end Markup

end ScreenCompiler
