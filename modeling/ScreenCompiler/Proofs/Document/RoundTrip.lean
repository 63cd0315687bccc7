import ScreenCompiler.Catalog.Standard
import ScreenCompiler.Proofs.Document.SourceLines
import ScreenCompiler.Proofs.Document.Writing
import ScreenCompiler.Proofs.Text.Lines

/-!
# Round trip of markup

A forest that is written one piece per line is read back as it was, whatever the
indentation and whatever stands in its quoted values.
-/

namespace ScreenCompiler

open Text

namespace Markup

open Forest

variable (catalog : Catalog)

def items (number : Nat) (found : List Piece) : List Item :=
  (found.zipIdx number).flatMap fun (piece, line) => Item.ofPiece catalog line piece

theorem items_append (number : Nat) (first second : List Piece) :
    items catalog number (first ++ second) =
      items catalog number first ++ items catalog (number + first.length) second := by
  rw [items, List.zipIdx_append, List.flatMap_append, items, items]

theorem scan_tag (tag : TagName) {rest : List Char}
    (ends : ∀ c, rest.head? = some c → Head.isTagChar c = false) :
    (tag.text ++ rest).takeWhile Head.isTagChar = tag.text ∧
      (tag.text ++ rest).dropWhile Head.isTagChar = rest := by
  have name : ∀ c ∈ tag.text, Head.isTagChar c = true :=
    fun _ membership => tag.isTagChar_of_mem_text membership
  rw [List.takeWhile_append_of_pos name, List.dropWhile_append_of_pos name]
  cases rest with
  | nil => simp
  | cons c rest => simp [ends c rfl]

theorem ofInside_closed (tag : TagName) {attributes : List Char}
    (apart : ∀ c, attributes.head? = some c → Head.isTagChar c = false) :
    Head.ofInside (tag.text ++ attributes ++ ['/']) = ⟨tag.text, attributes, true⟩ := by
  have stops : ∀ c, (attributes ++ ['/']).head? = some c → Head.isTagChar c = false := by
    intro c first
    cases attributes with
    | nil =>
        obtain rfl := Option.some.inj first
        decide
    | cons d more => exact apart c first
  obtain ⟨name, behind⟩ := scan_tag tag stops
  have slash : isBlank '/' = false := by decide
  have kept : trimEnd (attributes ++ ['/']) = attributes ++ ['/'] := by
    apply trimEnd_eq_self
    intro last found
    rw [List.getLast?_concat] at found
    exact Option.some.inj found ▸ slash
  have cut : beforeSuffix? ['/'] (attributes ++ ['/']) = some attributes :=
    beforeSuffix?_eq_some_iff.mpr rfl
  rw [List.append_assoc, Head.ofInside, name, behind, kept, cut]

theorem ofInside_open (tag : TagName) {attributes : List Char}
    (apart : ∀ c, attributes.head? = some c → Head.isTagChar c = false)
    (ends : ∀ c, attributes.getLast? = some c → isBlank c = false ∧ c ≠ '/') :
    Head.ofInside (tag.text ++ attributes) = ⟨tag.text, attributes, false⟩ := by
  obtain ⟨name, behind⟩ := scan_tag tag apart
  have kept : trimEnd attributes = attributes :=
    trimEnd_eq_self fun last found => (ends last found).1
  have cut : beforeSuffix? ['/'] attributes = none := by
    rw [Option.eq_none_iff_forall_ne_some]
    intro rest found
    have shape := beforeSuffix?_eq_some_iff.mp found
    have last : attributes.getLast? = some '/' := by rw [shape, List.getLast?_concat]
    exact (ends '/' last).2 rfl
  rw [Head.ofInside, name, behind, kept, cut]

theorem isTagChar_of_head? (attributes : WrittenAttributes) (c : Char)
    (first : attributes.text.head? = some c) : Head.isTagChar c = false := by
  rw [WrittenAttributes.text] at first
  cases entries : attributes.entries with
  | nil => simp [entries] at first
  | cons entry more =>
      rw [entries] at first
      obtain rfl : ' ' = c := by simpa [WrittenAttributes.entryText] using first
      decide

theorem ofPiece_closed (tag : TagName) (attributes : WrittenAttributes) (number : Nat) :
    Item.ofPiece catalog number (.head (tag.text ++ attributes.text ++ ['/'])) =
      [.leaf (String.ofList tag.text) (attributes.props catalog) number] := by
  rw [Item.ofPiece, ofInside_closed tag (isTagChar_of_head? attributes), Item.ofHead,
    attributes.read_text]
  rfl

theorem ofPiece_open (tag : TagName) (attributes : WrittenAttributes) (number : Nat) :
    Item.ofPiece catalog number (.head (tag.text ++ attributes.text)) =
      [.opening (String.ofList tag.text) (attributes.props catalog) number] := by
  have ends : ∀ c, attributes.text.getLast? = some c → isBlank c = false ∧ c ≠ '/' := by
    intro c last
    rw [attributes.getLast?_text last]
    decide
  rw [Item.ofPiece, ofInside_open tag (isTagChar_of_head? attributes) ends, Item.ofHead,
    attributes.read_text]
  rfl

theorem ofPiece_closing (tag : TagName) (number : Nat) :
    Item.ofPiece catalog number (.closing tag.text) =
      [.closing (String.ofList tag.text) number] := by
  rw [Item.ofPiece, tag.trim_text]

mutual

/-- The pieces of a tree are read to its node. -/
theorem descent_pieces (markup : Markup) (number : Nat) :
    Yields (items catalog number (pieces markup)) [toNode catalog number markup] := by
  match markup with
  | text run =>
      rw [pieces, toNode]
      exact .text _
  | element tag attributes [] =>
      have item : items catalog number (pieces (element tag attributes [])) =
          [.leaf (String.ofList tag.text) (attributes.props catalog) number] := by
        rw [pieces]
        exact (List.append_nil _).trans (ofPiece_closed catalog tag attributes number)
      rw [item, toNode, toNodes]
      exact .leaf ..
  | element tag attributes (child :: children) =>
      have head : items catalog number [.head (tag.text ++ attributes.text)] =
          [.opening (String.ofList tag.text) (attributes.props catalog) number] :=
        (List.append_nil _).trans (ofPiece_open catalog tag attributes number)
      have last : ∀ line, items catalog line [.closing tag.text] =
          [.closing (String.ofList tag.text) line] := fun line =>
        (List.append_nil _).trans (ofPiece_closing catalog tag line)
      have shape : pieces (element tag attributes (child :: children)) =
          [.head (tag.text ++ attributes.text)] ++ (piecesOf (child :: children) ++
            [.closing tag.text]) := by
        rw [pieces]
        rfl
      rw [shape, items_append, items_append, head, last, toNode]
      exact (descent_piecesOf (child :: children) (number + 1)).element ..

theorem descent_piecesOf (forest : List Markup) (number : Nat) :
    Yields (items catalog number (piecesOf forest)) (toNodes catalog number forest) := by
  match forest with
  | [] =>
      rw [piecesOf, toNodes]
      exact .nil
  | markup :: forest =>
      rw [piecesOf, toNodes, items_append]
      exact (descent_pieces markup number).append (descent_piecesOf forest _)

end

theorem isLine_indented {indent : Nat → List Char} {piece : Piece} (isLine : IsLinePiece piece)
    {index : Nat} (flat : '\n' ∉ indent index) : IsLine (indent index ++ piece.written) := by
  obtain ⟨nonempty, trimmed⟩ := isLine.segment.trimmed rfl
  refine ⟨?_, by simp [nonempty], ?_⟩
  · intro feed
    rcases List.mem_append.mp feed with inIndent | inPiece
    · exact flat inIndent
    · exact isLine.noFeed inPiece
  · intro last
    rw [List.getLast?_append_of_ne_nil _ nonempty, ← trimmed] at last
    exact absurd (getLast?_trim last) (by decide)

section

variable {indent : Nat → List Char} (blank : ∀ index, isAllBlank (indent index) = true)

include blank

theorem trim_indented {piece : Piece} (isLine : IsLinePiece piece) (index : Nat) :
    trim (indent index ++ piece.written) = piece.written := by
  rw [trim_append_left_of_isAllBlank (blank index)]
  exact (isLine.segment.trimmed rfl).2

/-- The block of an indented line is the piece that is written on it. -/
theorem flatMap_numbered_indented {found : List Piece} (isLine : ∀ piece ∈ found, IsLinePiece piece)
    (number : Nat) :
    (Line.numbered number (found.mapIdx fun index piece => indent index ++ piece.written)).flatMap
        (fun line => Block.ofMarkup line.number line.text) =
      (found.zipIdx number).map fun (piece, line) => Block.piece line piece := by
  induction found generalizing number indent with
  | nil => rfl
  | cons piece found inductionHypothesis =>
      obtain ⟨first, isLine⟩ := List.forall_mem_cons.mp isLine
      have text := trim_indented blank first 0
      have solid : (trim (indent 0 ++ piece.written)).isEmpty = false := by
        rw [text]
        simpa using (first.segment.trimmed rfl).1
      have block : Block.ofMarkup number (trim (indent 0 ++ piece.written)) =
          [Block.piece number piece] := by
        rw [text, Block.ofMarkup, first.segment.ofText]
        rfl
      rw [List.mapIdx_cons, Line.numbered, solid, List.zipIdx_cons, List.map_cons,
        ← inductionHypothesis (fun index => blank (index + 1)) isLine]
      simp only [Bool.false_eq_true, ↓reduceIte, List.flatMap_cons, Line.text, block]
      rfl

theorem isMarkup_of_mem_indented {found : List Piece} (isLine : ∀ piece ∈ found, IsLinePiece piece)
    {line : Line} (membership : line ∈ Line.numbered 1
      (found.mapIdx fun index piece => indent index ++ piece.written)) : IsMarkup line.text := by
  obtain ⟨index, bound, raw⟩ := List.mem_mapIdx.mp (Line.mem_numbered membership)
  have own := isLine _ (List.getElem_mem bound)
  rw [Line.text, ← raw, trim_indented blank own]
  exact own.markup

end

end Markup

namespace Document

/-- Pieces that are written one per line are read to the forest of their items. -/
theorem parse_pieces (catalog : Catalog) {found : List Piece}
    (isLine : ∀ piece ∈ found, Markup.IsLinePiece piece) {indent : Nat → List Char}
    (blank : ∀ index, isAllBlank (indent index) = true) (flat : ∀ index, '\n' ∉ indent index)
    (plain : Stylesheet.find?
      (unlines (found.mapIdx fun index piece => indent index ++ piece.written)) = none) :
    parse catalog (unlines (found.mapIdx fun index piece => indent index ++ piece.written)) =
      ofNodes (Forest.ofItems (Markup.items catalog 1 found)).nodes
        (Forest.ofItems (Markup.items catalog 1 found)).diagnostics := by
  have lines : lines (unlines (found.mapIdx fun index piece => indent index ++ piece.written)) =
      found.mapIdx fun index piece => indent index ++ piece.written := by
    refine lines_unlines fun raw membership => ?_
    obtain ⟨index, bound, rfl⟩ := List.mem_mapIdx.mp membership
    exact Markup.isLine_indented (isLine _ (List.getElem_mem bound)) (flat index)
  have markup : ∀ line ∈ Line.ofSource
      (unlines (found.mapIdx fun index piece => indent index ++ piece.written)),
        IsMarkup line.text := by
    intro line membership
    rw [Line.ofSource, lines] at membership
    exact Markup.isMarkup_of_mem_indented blank isLine membership
  have items : Item.ofSource catalog
      (unlines (found.mapIdx fun index piece => indent index ++ piece.written)) =
        Markup.items catalog 1 found := by
    rw [Item.ofSource, Block.ofSource_of_markup markup, Line.ofSource, lines,
      Markup.flatMap_numbered_indented blank isLine, List.flatMap_map]
    rfl
  rw [parse_of_markup catalog plain markup, items]

theorem parse_source (catalog : Catalog) (forest : List Markup) {indent : Nat → List Char}
    (blank : ∀ index, isAllBlank (indent index) = true) (flat : ∀ index, '\n' ∉ indent index)
    (plain : Stylesheet.find? (Markup.source indent forest) = none) :
    parse catalog (Markup.source indent forest) =
      ofNodes (Markup.toNodes catalog 1 forest) [] := by
  rw [Markup.source,
    parse_pieces catalog (Markup.isLinePiece_of_mem_piecesOf forest) blank flat plain,
    (Markup.descent_piecesOf catalog forest 1).ofItems_eq]

/-- An element inside another one of its name; the value ends like a tag and opens a brace. -/
def nestedMarkup : List Markup :=
  [.element ⟨'A', [], by decide, by decide⟩
    ⟨[("on-x".toList, "it's \x7b />".toList)], by decide, by decide, by decide⟩
    [.element ⟨'A', ['.', '1'], by decide, by decide⟩ ⟨[], by decide, by decide, by decide⟩ [],
      .text ⟨"> To be".toList, by decide, by decide, by decide, by decide, by decide +kernel⟩]]

theorem parse_source_nestedMarkup :
    Stylesheet.find? (Markup.source (fun index => List.replicate index '\t') nestedMarkup) = none ∧
      parse .standard (Markup.source (fun index => List.replicate index '\t') nestedMarkup) =
        ofNodes (Markup.toNodes .standard 1 nestedMarkup) [] := by
  have plain : Stylesheet.find?
      (Markup.source (fun index => List.replicate index '\t') nestedMarkup) = none := by
    decide +kernel
  have blank : ∀ index, isAllBlank (List.replicate index '\t') = true := by
    intro index
    refine isAllBlank_iff.mpr fun c membership => ?_
    rw [List.eq_of_mem_replicate membership]
    decide
  have flat : ∀ index, '\n' ∉ List.replicate index '\t' := by
    intro index membership
    exact absurd (List.eq_of_mem_replicate membership) (by decide)
  exact ⟨plain, parse_source .standard nestedMarkup blank flat plain⟩

end Document

end ScreenCompiler
