import ScreenCompiler.Proofs.Component.ImportStatements
import ScreenCompiler.Proofs.Document.Progress

/-!
# The blocks at a cursor

The lines at a cursor stand for blocks.  A line that declares nothing is cut into segments
when it is reached, each of them a piece of its own or a tag that goes on in the lines
below, and the blocks stay what they are.
-/

namespace ScreenCompiler

open Text

theorem Import.isBlank_of_isModuleName {line : List Char} (isName : isModuleName line = true)
    {c : Char} (membership : c ∈ line) : isBlank c = false := by
  by_cases point : c = '.'
  · subst point
    decide
  · have inside := isModuleChar_of_isModuleName isName c membership point
    by_cases hyphen : c = '-'
    · subst hyphen
      decide
    · exact isBlank_of_isAsciiAlphanumeric (isAsciiAlphanumeric_of_isModuleChar inside hyphen)

theorem Import.bracket_notMem_of_isModuleName {line : List Char}
    (isName : isModuleName line = true) : '<' ∉ line := by
  intro membership
  exact absurd (isModuleChar_of_isModuleName isName '<' membership (by decide)) (by decide)

/-- A module name opens no other declaration. -/
theorem Import.undeclared_of_isModuleName {line : List Char} (isName : isModuleName line = true) :
    Screen.attributes? line = none ∧ State.line? line = none := by
  have inside := fun c => isBlank_of_isModuleName isName (c := c)
  have other : line ≠ "screen".toList := by
    rintro rfl
    exact absurd isName (by decide)
  constructor
  · unfold Screen.attributes?
    split
    · rename_i found
      exact absurd (afterPrefix?_eq_some_iff.mp found) (by simpa using other)
    · rename_i c rest found
      rw [if_neg]
      rw [inside c (by rw [afterPrefix?_eq_some_iff.mp found]; simp)]
      exact Bool.false_ne_true
    · rfl
  · unfold State.line?
    split
    · rename_i c rest found
      rw [if_neg]
      rw [inside c (by rw [afterPrefix?_eq_some_iff.mp found]; simp)]
      exact Bool.false_ne_true
    · rfl

/-- What a block of one line declares where it stands. -/
def Block.declared? (catalog : Catalog) (inside : Bool) : Block → Option Declaration
  | imports statement => some (.imports statement)
  | word name => if inside then none else some (.imports [Import.ofModuleName name])
  | screen attributes => some (.screen (Screen.ofAttributes catalog attributes))
  | state name literal => some (.state (State.infer (String.ofList name) literal))
  | _ => none

namespace Declaration

variable {catalog : Catalog} {inside : Bool} {text : List Char}

theorem ofLine?_eq (catalog : Catalog) (inside : Bool) (text : List Char) :
    ofLine? catalog inside text = (Block.simple? text).bind (Block.declared? catalog inside) := by
  rw [ofLine?, Block.simple?]
  cases importStatement? text with
  | some statement => rfl
  | none =>
      simp only
      cases isName : Import.isModuleName text with
      | true =>
          obtain ⟨noScreen, noState⟩ := Import.undeclared_of_isModuleName isName
          rw [noScreen, noState]
          cases inside <;> rfl
      | false =>
          rw [Bool.and_false]
          cases Screen.attributes? text with
          | some attributes => rfl
          | none => cases State.line? text <;> rfl

theorem exists_item_of_ofLine? {declaration : Declaration}
    (found : ofLine? catalog inside text = some declaration) :
    ∃ block item, Block.simple? text = some block ∧ block.items catalog = [item] ∧
      Forest.alone? inside item = some (.ofDeclaration declaration) := by
  rw [ofLine?_eq] at found
  obtain ⟨block, simple, declared⟩ := Option.bind_eq_some_iff.mp found
  cases Block.declares_of_simple? simple with
  | imports _ =>
      obtain rfl := Option.some.inj declared
      exact ⟨_, _, simple, rfl, rfl⟩
  | word _ =>
      cases inside with
      | true => exact absurd declared.symm (Option.some_ne_none _)
      | false =>
          obtain rfl := Option.some.inj declared
          exact ⟨_, _, simple, rfl, rfl⟩
  | screen _ =>
      obtain rfl := Option.some.inj declared
      exact ⟨_, _, simple, rfl, rfl⟩
  | state _ =>
      obtain rfl := Option.some.inj declared
      exact ⟨_, _, simple, rfl, rfl⟩

/-- A line that declares nothing where it stands is none of the declarations of one line, unless it
is a module name inside an element. -/
theorem simple?_of_ofLine? (undeclared : ofLine? catalog inside text = none) :
    Block.simple? text = none ∨
      inside = true ∧ Import.isModuleName text = true ∧
        Block.simple? text = some (.word text) := by
  rw [ofLine?_eq] at undeclared
  cases simple : Block.simple? text with
  | none => exact .inl rfl
  | some block =>
      rw [simple, Option.bind_some] at undeclared
      cases Block.declares_of_simple? simple with
      | imports _ => exact absurd undeclared (Option.some_ne_none _)
      | screen _ => exact absurd undeclared (Option.some_ne_none _)
      | state _ => exact absurd undeclared (Option.some_ne_none _)
      | word isName =>
          cases inside with
          | true => exact .inr ⟨rfl, isName, rfl⟩
          | false => exact absurd undeclared (Option.some_ne_none _)

end Declaration

namespace Block

theorem ofText_of_piece {text : List Char} {found : Piece}
    (segment : Pieces.Segment text ⟨[found], none⟩) (number : Nat) (lines : List Line) :
    ofText number text lines = piece number found :: ofLines lines := by
  rw [ofText_eq, segment.ofText]
  rfl

theorem ofText_of_openClosing {text : List Char} (segment : Pieces.Segment text ⟨[], some text⟩)
    (closes : startsWith ['<', '/'] text = true) (number : Nat) (lines : List Line) :
    ofText number text lines = openClosing number text :: ofLines lines := by
  rw [ofText_eq, segment.ofText]
  simp only [closes, ↓reduceIte]
  rfl

theorem ofOpened_eq (number : Nat) (opened : Function.Opened) :
    ofOpened number opened =
      function number (Function.ofBody opened.signature (Function.readBody opened))
        (Function.readBody opened).rest.isSome ::
          ofLines ((Function.readBody opened).rest.getD []) := by
  rw [ofOpened]
  cases (Function.readBody opened).rest with
  | some rest => rfl
  | none => rw [Option.getD_none, ofLines_nil]

/-- A tag that a text leaves open is read as if it stood alone. -/
theorem ofText_of_unfinished {text tag : List Char}
    (unfinished : (Pieces.ofText text).unfinished = some tag) (number : Nat) (lines : List Line) :
    ofText number text lines =
      (Pieces.ofText text).whole.map (piece number) ++ ofText number tag lines := by
  have segment := ((Pieces.reads_ofText text).unfinished_tag unfinished).2
  rw [ofText_eq number tag, ofText_eq, unfinished, segment.ofText]
  rfl

end Block

namespace Pieces

/-- A segment is a whole piece, or a tag that is left open. -/
theorem Segment.piece_or_tag {text : List Char} {pieces : Pieces} (segment : Segment text pieces) :
    (∃ piece, pieces = ⟨[piece], none⟩) ∨ pieces = ⟨[], some text⟩ := by
  cases segment with
  | text _ _ _ => exact .inl ⟨_, rfl⟩
  | tag _ _ => exact .inl ⟨_, rfl⟩
  | unfinished _ _ => exact .inr rfl

/-- A trimmed text of no more than one segment is a segment itself. -/
theorem segment_of_length_le {text : List Char} (solid : text ≠ []) (trimmed : trim text = text)
    (single : (ofText text).segments.length ≤ 1) : Segment text (ofText text) := by
  have laidOut := (reads_ofText text).laidOut
  suffices itself : text ∈ (ofText text).segments from (segment_of_mem_segments itself).2
  cases found : (ofText text).segments with
  | nil =>
      rw [found] at laidOut
      cases laidOut with
      | done blank =>
          rw [← trimmed, trim, trimStart_of_isAllBlank blank] at solid
          exact absurd rfl solid
  | cons segment segments =>
      rw [found, List.length_cons] at single
      obtain rfl : segments = [] := List.eq_nil_of_length_eq_zero (by omega)
      have inside : segment ∈ (ofText (trim text)).segments := by
        rw [trimmed, found]
        exact List.mem_cons_self
      have isTrimmed := (trim_of_mem_segments inside).2
      rw [found] at laidOut
      obtain rfl : text = segment := by
        rw [← trimmed, ← isTrimmed]
        cases laidOut with
        | next blankBefore rest =>
            cases rest with
            | done blankAfter =>
                rw [trim_append_of_isAllBlank blankAfter,
                  trim_append_left_of_isAllBlank blankBefore]
      exact List.mem_cons_self

end Pieces

/-- What a line that is one segment is read as. -/
inductive LineKind (text : List Char) : Pieces → Prop where
  | text : Head.startsTag text = false → LineKind text ⟨[.text text], none⟩
  | closing {inside} :
      closingName? text = some (trim inside) → LineKind text ⟨[.closing inside], none⟩
  | head {inside} :
      Head.isHead text = true → Head.read? text = some (Head.ofInside inside, []) →
      LineKind text ⟨[.head inside], none⟩
  /-- A closing tag whose end is hidden. -/
  | openClosing : startsWith ['<', '/'] text = true → LineKind text ⟨[], some text⟩
  /-- A head that goes on in the lines below. -/
  | openHead :
      Head.isHead text = true → Head.read? text = none → LineKind text ⟨[], some text⟩

theorem lineKind_of_segment {text : List Char} {pieces : Pieces}
    (segment : Pieces.Segment text pieces) : LineKind text pieces := by
  cases segment with
  | text solid trimmed alone => exact .text (Pieces.startsTag_of_beforeTag solid alone)
  | @tag inside starts ended =>
      obtain ⟨c, rest, rfl, solid⟩ := Head.exists_of_startsTag starts ended
      rcases Bool.or_eq_true_iff.mp solid with letter | slash
      · have other : c ≠ '/' := ne_of_class letter (by decide)
        have piece : Piece.ofInside (c :: rest) = .head (c :: rest) := by
          unfold Piece.ofInside
          split
          · rename_i same
            exact absurd (List.cons.inj same).1 other
          · rfl
        rw [piece]
        refine .head letter ?_
        rw [List.cons_append, Head.read?, ended]
        rfl
      · rw [beq_iff_eq] at slash
        subst slash
        exact .closing (closingName?_closing rest)
  | @unfinished rest starts ended =>
      obtain ⟨c, more, shape, solid⟩ := Head.startsTag_iff.mp starts
      obtain rfl : rest = c :: more := (List.cons.inj shape).2
      rcases Bool.or_eq_true_iff.mp solid with letter | slash
      · exact .openHead letter (by rw [Head.read?, ended]; rfl)
      · rw [beq_iff_eq] at slash
        subst slash
        exact .openClosing rfl

theorem closingName?_of_startsTag {text : List Char} (noTag : Head.startsTag text = false) :
    closingName? text = none := by
  apply closingName?_eq_none
  rintro rest rfl
  exact absurd noTag.symm Bool.false_ne_true

theorem closingName?_of_isHead {text : List Char} (isHead : Head.isHead text = true) :
    closingName? text = none := by
  apply closingName?_eq_none
  rintro rest rfl
  exact Bool.false_ne_true isHead

theorem startsWith_of_isHead {text : List Char} (isHead : Head.isHead text = true) :
    startsWith ['<'] text = true := by
  obtain ⟨c, rest, rfl, -⟩ := Head.startsTag_iff.mp (Head.startsTag_of_isHead isHead)
  rfl

theorem Head.isHead_of_closing {text : List Char} (closes : startsWith ['<', '/'] text = true) :
    isHead text = false := by
  obtain ⟨rest, shape⟩ := Option.isSome_iff_exists.mp closes
  rw [afterPrefix?_eq_some_iff.mp shape]
  rfl

theorem Head.trim_rest_read? {text rest : List Char} {head : Head}
    (found : read? text = some (head, rest)) : trim rest = rest := by
  unfold read? at found
  split at found
  · obtain ⟨⟨inside, behind⟩, -, same⟩ := Option.map_eq_some_iff.mp found
    obtain ⟨-, rfl⟩ := Prod.mk.inj same
    exact trim_trim behind
  · simp at found

namespace Cursor

/-- A head goes on through a cursor as it does over the lines. -/
theorem readHead_lines {text : List Char} (isHead : Head.isHead text = true)
    (goesOn : Head.read? text = none) (lines : List Line) :
    (Cursor.mk [] lines).readHead text =
      match Continued.read text lines with
      | .complete head rest more => (.complete head rest, ⟨[], more⟩)
      | .unfinished last more => (.ofUnfinished last, ⟨[], more⟩) := by
  induction lines generalizing text with
  | nil =>
      rw [readHead, if_pos isHead, goesOn]
      simp [Continued.read, next?]
  | cons next lines inductionHypothesis =>
      have longer := Head.isHead_append isHead (' ' :: next.text)
      rw [readHead, if_pos isHead, goesOn, Continued.read]
      simp only [next?]
      cases quoted : Head.endsInOpenQuote text && (Head.recover? text).isSome with
      | true => simp
      | false =>
          cases structured : startsStructure next.text with
          | true => simp
          | false =>
              simp only [Bool.or_self, Bool.false_eq_true, ↓reduceIte]
              cases ended : Head.read? (text ++ ' ' :: next.text) with
              | some parts => rw [readHead, if_pos longer, ended]
              | none => exact inductionHypothesis longer ended

/-- Lines at a cursor stand for blocks.  Only the last segment may be a tag that goes on in the
lines of the source. -/
inductive Stands : Cursor → List Block → Prop where
  | lines (lines : List Line) : Stands ⟨[], lines⟩ (Block.ofLines lines)
  | piece {line piece segments lines blocks} :
      Pieces.Segment line.text ⟨[piece], none⟩ → Stands ⟨segments, lines⟩ blocks →
      Stands ⟨line :: segments, lines⟩ (.piece line.number piece :: blocks)
  | tag {line lines} :
      Pieces.Segment line.text ⟨[], some line.text⟩ →
      Stands ⟨[line], lines⟩ (Block.ofText line.number line.text lines)

theorem Stands.pieces {segments lines : List Line} {blocks : List Block} {pieces : List Piece}
    (whole : ∀ piece ∈ pieces, Pieces.Segment piece.written ⟨[piece], none⟩)
    (stands : Stands ⟨segments, lines⟩ blocks) (number : Nat) :
    Stands ⟨(pieces.map Piece.written).map (⟨number, ·⟩) ++ segments, lines⟩
      (pieces.map (.piece number) ++ blocks) := by
  induction pieces with
  | nil => exact stands
  | cons piece pieces inductionHypothesis =>
      obtain ⟨segment, whole⟩ := List.forall_mem_cons.mp whole
      have text : (Line.mk number piece.written).text = piece.written := (segment.trimmed rfl).2
      have first : Pieces.Segment (Line.mk number piece.written).text ⟨[piece], none⟩ := by
        rwa [text]
      exact .piece first (inductionHypothesis whole)

/-- A text that is put back in segments stands for its blocks. -/
theorem stands_insert {text : List Char} (trimmed : trim text = text) (number : Nat)
    (lines : List Line) :
    Stands ((Cursor.mk [] lines).insert number (Pieces.ofText text).segments)
      (Block.ofText number text lines) := by
  have reads := Pieces.reads_ofText text
  have whole := fun piece membership => (reads.whole piece membership).2
  rw [Cursor.insert, Pieces.segments, List.map_append, List.append_assoc]
  cases unfinished : (Pieces.ofText text).unfinished with
  | none =>
      rw [Block.ofText_eq, unfinished]
      exact (Stands.lines lines).pieces whole number
  | some tag =>
      have segment := (reads.unfinished_tag unfinished).2
      have inside : tag ∈ (Pieces.ofText (trim text)).segments := by
        rw [trimmed, Pieces.segments, unfinished]
        simp
      have same : (Line.mk number tag).text = tag := (Pieces.trim_of_mem_segments inside).2
      have last : Stands ⟨[⟨number, tag⟩], lines⟩ (Block.ofText number tag lines) := by
        have stands : Stands ⟨[⟨number, tag⟩], lines⟩
            (Block.ofText number (Line.mk number tag).text lines) := .tag (by rwa [same])
        rwa [same] at stands
      rw [Block.ofText_of_unfinished unfinished]
      exact last.pieces whole number

/-- What blocks start with at a line that is read as markup, the cursor behind it. -/
inductive Meets (inside : Bool) (line : Line) : Cursor → List Block → Prop where
  | piece {behind piece blocks} :
      Pieces.Segment line.text ⟨[piece], none⟩ → Stands behind blocks →
      Meets inside line behind (.piece line.number piece :: blocks)
  | word {lines} :
      inside = true → Pieces.Segment line.text ⟨[.text line.text], none⟩ →
      Meets inside line ⟨[], lines⟩ (.word line.text :: Block.ofLines lines)
  | tag {lines} :
      Pieces.Segment line.text ⟨[], some line.text⟩ →
      Meets inside line ⟨[], lines⟩ (Block.ofText line.number line.text lines)

theorem Stands.meets {cursor behind : Cursor} {line : Line} {blocks : List Block}
    (stands : Stands cursor blocks) (cut : cursor.segments ≠ [])
    (found : cursor.next? = some (line, behind)) (inside : Bool) :
    Meets inside line behind blocks := by
  cases stands with
  | lines lines => exact absurd rfl cut
  | piece segment stands =>
      obtain ⟨rfl, rfl⟩ := Prod.mk.inj (Option.some.inj found)
      exact .piece segment stands
  | tag segment =>
      obtain ⟨rfl, rfl⟩ := Prod.mk.inj (Option.some.inj found)
      exact .tag segment

theorem expand_of_segment {cursor behind : Cursor} {line : Line} {pieces : Pieces}
    (found : cursor.next? = some (line, behind)) (segment : Pieces.Segment line.text pieces) :
    cursor.expand = cursor := by
  rw [Cursor.expand, found]
  simp only [segment.ofText, segment.segments, List.length_singleton, Nat.lt_irrefl, ↓reduceIte]

theorem segment_of_isModuleName {line : Line} (solid : line.text ≠ [])
    (isName : Import.isModuleName line.text = true) :
    Pieces.Segment line.text ⟨[.text line.text], none⟩ :=
  .text solid (trim_trim line.raw)
    (Pieces.beforeTag_of_notMem (Import.bracket_notMem_of_isModuleName isName) 0)

/-- A line of the source that declares nothing above its lines.  Inside elements it may still be a
module name. -/
structure ReadsAsMarkup (inside : Bool) (line : Line) (lines : List Line) : Prop where
  noFunction : Function.open? line lines = none
  simple : Block.simple? line.text = none ∨
    inside = true ∧ Import.isModuleName line.text = true ∧
      Block.simple? line.text = some (.word line.text)

theorem readsAsMarkup_of_declaration? {catalog : Catalog} {inside : Bool} {line : Line}
    {lines : List Line}
    (undeclared : (Cursor.mk [] (line :: lines)).declaration? catalog inside = none) :
    ReadsAsMarkup inside line lines := by
  rw [declaration?] at undeclared
  split at undeclared
  · simp at undeclared
  · rename_i noLine
    exact ⟨Option.map_eq_none_iff.mp undeclared, Declaration.simple?_of_ofLine? noLine⟩

namespace ReadsAsMarkup

variable {inside : Bool} {line : Line} {lines : List Line}

/-- A line that is one segment stands for the block that is met there. -/
theorem meets {pieces : Pieces} (markup : ReadsAsMarkup inside line lines)
    (segment : Pieces.Segment line.text pieces) :
    Meets inside line ⟨[], lines⟩ (Block.ofLines (line :: lines)) := by
  rw [Block.ofLines_cons]
  rcases markup.simple with simple | ⟨isInside, isName, simple⟩
  · rw [simple, markup.noFunction]
    rcases segment.piece_or_tag with ⟨piece, rfl⟩ | rfl
    · simp only [Block.ofText_of_piece segment]
      exact .piece segment (.lines lines)
    · exact .tag segment
  · rw [simple]
    exact .word isInside (segment_of_isModuleName segment.ne_nil isName)

/-- A module name is one segment, so a line of several has no declaration in any place. -/
theorem ofLines_eq (markup : ReadsAsMarkup inside line lines)
    (several : 1 < (Pieces.ofText line.text).segments.length) :
    Block.ofLines (line :: lines) = Block.ofText line.number line.text lines := by
  have noWord : Block.simple? line.text = none := by
    refine markup.simple.resolve_right fun word => ?_
    obtain ⟨-, isName, -⟩ := word
    have solid : line.text ≠ [] := by
      intro empty
      rw [empty, Pieces.ofText_nil] at several
      exact absurd several (Nat.not_lt_zero 1)
    have segment := segment_of_isModuleName solid isName
    rw [segment.ofText, segment.segments] at several
    exact absurd several (Nat.lt_irrefl 1)
  rw [Block.ofLines_cons, noWord, markup.noFunction]

theorem expand (markup : ReadsAsMarkup inside line lines) (solid : line.text ≠ []) :
    Stands (Cursor.mk [] (line :: lines)).expand (Block.ofLines (line :: lines)) ∧
      ∀ next behind, (Cursor.mk [] (line :: lines)).expand.next? = some (next, behind) →
        Meets inside next behind (Block.ofLines (line :: lines)) := by
  have trimmed : trim line.text = line.text := trim_trim line.raw
  by_cases several : 1 < (Pieces.ofText line.text).segments.length
  · have shape : (Cursor.mk [] (line :: lines)).expand =
        (Cursor.mk [] lines).insert line.number (Pieces.ofText line.text).segments := if_pos several
    have stands := stands_insert trimmed line.number lines
    rw [shape, markup.ofLines_eq several]
    refine ⟨stands, fun next behind found => stands.meets ?_ found inside⟩
    intro empty
    rw [List.map_eq_nil_iff.mp (List.append_eq_nil_iff.mp empty).1] at several
    exact absurd several (Nat.not_lt_zero 1)
  · have segment := Pieces.segment_of_length_le solid trimmed (Nat.le_of_not_lt several)
    rw [expand_of_segment rfl segment]
    refine ⟨.lines _, fun next behind found => ?_⟩
    obtain ⟨rfl, rfl⟩ := Prod.mk.inj (Option.some.inj found)
    exact markup.meets segment

end ReadsAsMarkup

/-- A line that declares nothing gives way to its segments, and markup is met there. -/
theorem Stands.expand {catalog : Catalog} {inside : Bool} {cursor : Cursor} {blocks : List Block}
    (stands : Stands cursor blocks) (solid : cursor.IsSolid)
    (undeclared : cursor.declaration? catalog inside = none) :
    Stands cursor.expand blocks ∧ ∀ line behind, cursor.expand.next? = some (line, behind) →
      Meets inside line behind blocks := by
  have whole := stands
  cases stands with
  | piece segment stands =>
      rw [expand_of_segment rfl segment]
      exact ⟨whole, fun line behind found => whole.meets (List.cons_ne_nil _ _) found inside⟩
  | tag segment =>
      rw [expand_of_segment rfl segment]
      exact ⟨whole, fun line behind found => whole.meets (List.cons_ne_nil _ _) found inside⟩
  | lines lines =>
      cases lines with
      | nil => exact ⟨whole, fun line behind found => by simp [Cursor.expand, next?] at found⟩
      | cons line lines =>
          have markup := readsAsMarkup_of_declaration? undeclared
          exact markup.expand (solid line List.mem_cons_self)

end Cursor

end ScreenCompiler
