import ScreenCompiler.Proofs.Document.RoundTrip
import ScreenCompiler.Proofs.Document.SegmentLines
import ScreenCompiler.Proofs.Markup.Runs

/-!
# Layouts

How markup is laid out on lines: an element is closed in its own tag, written on one
line around a run of text, or a block around the lines of its children.  Each layout
is read to its element, whatever the layouts inside it, the indentation and the line
numbers are.
-/

namespace ScreenCompiler

open Text Forest

/-- The items of a line of markup, with zero for the number of the line. -/
def Item.ofMarkup (catalog : Catalog) (text : List Char) : List Item :=
  (Block.ofMarkup 0 text).flatMap (Block.items catalog)

theorem Item.ofMarkup_of_whole (catalog : Catalog) {text : List Char} {pieces : List Piece}
    (read : Pieces.ofText text = ⟨pieces, none⟩) :
    ofMarkup catalog text = pieces.flatMap (ofPiece catalog 0) := by
  rw [ofMarkup, Block.ofMarkup, read, Option.toList_none, List.map_nil, List.append_nil,
    List.flatMap_map]
  rfl

@[simp]
theorem Item.ofMarkup_nil (catalog : Catalog) : ofMarkup catalog [] = [] := by
  simp [ofMarkup, Block.ofMarkup]

/-- A text of markup lines that stand for the given items. -/
structure Layout (catalog : Catalog) (text : List Char) (items : List Item) : Prop where
  markup : ∀ raw ∈ text.splitOn '\n', IsMarkup (trim raw)
  items : (text.splitOn '\n').flatMap (fun raw => Item.ofMarkup catalog (trim raw)) = items

namespace Layout

variable {catalog : Catalog}

theorem nil : Layout catalog [] [] where
  markup := by decide +kernel
  items := by
    have empty : Item.ofMarkup catalog (trim []) = [] := Item.ofMarkup_nil catalog
    simp [empty]

theorem line (catalog : Catalog) {gap row : List Char} {pieces : List Piece}
    (blank : isAllBlank gap = true) (gapFlat : '\n' ∉ gap) (trimmed : trim row = row)
    (rowFlat : '\n' ∉ row) (undeclared : isDeclarationLike row = false)
    (read : Pieces.ofText row = ⟨pieces, none⟩) :
    Layout catalog (gap ++ row) (pieces.flatMap (Item.ofPiece catalog 0)) := by
  have alone : (gap ++ row).splitOn '\n' = [gap ++ row] :=
    splitOn_of_notMem (by simp [gapFlat, rowFlat])
  have text : trim (gap ++ row) = row := by rw [trim_append_left_of_isAllBlank blank, trimmed]
  constructor
  · rw [alone]
    refine List.forall_mem_singleton.mpr ?_
    rw [text]
    exact isMarkup_of_whole read undeclared
  · rw [alone, List.flatMap_singleton, text, Item.ofMarkup_of_whole catalog read]

/-- A piece on a line of its own. -/
theorem piece (catalog : Catalog) {gap : List Char} {piece : Piece} (blank : isAllBlank gap = true)
    (flat : '\n' ∉ gap) (isLine : Markup.IsLinePiece piece) :
    Layout catalog (gap ++ piece.written) (Item.ofPiece catalog 0 piece) := by
  have layout := line catalog blank flat (isLine.segment.trimmed rfl).2 isLine.noFeed
    isLine.markup.undeclared isLine.segment.ofText
  rwa [List.flatMap_singleton] at layout

theorem below {first second : List Char} {items later : List Item}
    (layout : Layout catalog first items) (next : Layout catalog second later) :
    Layout catalog (first ++ '\n' :: second) (items ++ later) where
  markup := by
    rw [List.splitOn_append_cons_self]
    exact List.forall_mem_append.mpr ⟨layout.markup, next.markup⟩
  items := by
    rw [List.splitOn_append_cons_self, List.flatMap_append, layout.items, next.items]

section

variable {source : List Char} {items : List Item}

theorem isMarkup_ofSource (layout : Layout catalog source items) :
    ∀ line ∈ Line.ofSource source, IsMarkup line.text := by
  intro line membership
  obtain ⟨ending, blank, piece⟩ := exists_of_mem_lines (Line.mem_numbered membership)
  have markup := layout.markup _ piece
  rwa [trim_append_of_isAllBlank blank] at markup

theorem map_renumber_ofSource (layout : Layout catalog source items) :
    (Item.ofSource catalog source).map (Item.renumber fun _ => 0) = items := by
  have ending : ∀ raw, Item.ofMarkup catalog (trim (dropReturn raw)) =
      Item.ofMarkup catalog (trim raw) := fun raw => by rw [trim_dropReturn]
  have empty : Item.ofMarkup catalog (trim []) = [] := Item.ofMarkup_nil catalog
  rw [Item.ofSource, ← Block.flatMap_items_renumber,
    Block.map_renumber_ofSource layout.isMarkup_ofSource 0, List.flatMap_assoc, ← layout.items]
  exact @flatMap_lines _ (fun raw => Item.ofMarkup catalog (trim raw)) ending empty source

/-- A layout of items that are read to nodes is a document of these nodes and nothing else. -/
theorem parse_eq (layout : Layout catalog source items) {nodes : List Node}
    (yields : Yields items nodes) (plain : Stylesheet.find? source = none) :
    ∃ found, Document.parse catalog source = .ofNodes found [] ∧
      Node.renumberAll (fun _ => 0) found = nodes := by
  have numbered : (ofItems (Item.ofSource catalog source)).renumber (fun _ => 0) =
      ⟨nodes, [], []⟩ := by
    rw [← ofItems_renumber, layout.map_renumber_ofSource, yields.ofItems_eq]
  have faultless : (ofItems (Item.ofSource catalog source)).diagnostics = [] :=
    List.map_eq_nil_iff.mp (congrArg Forest.diagnostics numbered)
  refine ⟨(ofItems (Item.ofSource catalog source)).nodes, ?_, ?_⟩
  · rw [Document.parse_of_markup catalog plain layout.isMarkup_ofSource, faultless]
  · rw [Node.renumberAll_eq_map]
    exact congrArg Forest.nodes numbered

end

end Layout

/-- A text of markup lines that are read to nodes, wherever they stand. -/
def ReadsAs (catalog : Catalog) (text : List Char) (nodes : List Node) : Prop :=
  ∃ items, Layout catalog text items ∧ Yields items nodes

/-- A text that may stand behind the name in an opening tag. -/
structure IsAttributeText (text : List Char) : Prop where
  apart : ∀ c, text.head? = some c → Head.isTagChar c = false
  ends : ∀ c, text.getLast? = some c → isBlank c = false ∧ c ≠ '/'
  quiet : Head.Quiet text
  noFeed : '\n' ∉ text

theorem isAttributeText_nil : IsAttributeText [] :=
  ⟨by simp, by simp, ⟨rfl, rfl⟩, by simp⟩

namespace Markup

theorem ofText_around (tag : TagName) {attributes run : List Char}
    (behind : IsAttributeText attributes) (isRun : IsInlineRun run) :
    Pieces.ofText ((Piece.head (tag.text ++ attributes)).written ++
        (run ++ (Piece.closing tag.text).written)) =
      ⟨[.head (tag.text ++ attributes), .text run, .closing tag.text], none⟩ := by
  have shape : (Piece.head (tag.text ++ attributes)).written ++
      (run ++ (Piece.closing tag.text).written) =
        '<' :: (tag.text ++ attributes) ++ '>' :: (run ++ (Piece.closing tag.text).written) := by
    simp [Piece.written]
  have ends := ((quiet_tag tag).append behind.quiet).findEnd?
    (run ++ (Piece.closing tag.text).written)
  rw [shape, Pieces.ofText_tag_append (by simpa using startsTag_tag tag _) ends,
    Pieces.ofText_run_append isRun rfl, (isLinePiece_closing tag).segment.ofText, ofInside_tag]
  rfl

theorem trim_around (inside run closed : List Char) :
    trim ((Piece.head inside).written ++ (run ++ (Piece.closing closed).written)) =
      (Piece.head inside).written ++ (run ++ (Piece.closing closed).written) := by
  have opening : isBlank '<' = false := by decide
  have ending : isBlank '>' = false := by decide
  refine trim_eq_self (fun c first => ?_) (fun c last => ?_)
  · exact Option.some.inj first ▸ opening
  · rw [← List.append_assoc, Piece.written, ← List.append_assoc, List.getLast?_concat] at last
    exact Option.some.inj last ▸ ending

end Markup

namespace ReadsAs

open Markup

variable {catalog : Catalog} {text later gap : List Char} {nodes more : List Node}

theorem below (reads : ReadsAs catalog text nodes) (next : ReadsAs catalog later more) :
    ReadsAs catalog (text ++ '\n' :: later) (nodes ++ more) := by
  obtain ⟨items, layout, yields⟩ := reads
  obtain ⟨others, behind, follows⟩ := next
  exact ⟨items ++ others, layout.below behind, yields.append follows⟩

/-- Texts below each other show their nodes one after another. -/
theorem unlines {texts : List (List Char)} {nodes : List Node}
    (reads : List.Forall₂ (fun text node => ReadsAs catalog text [node]) texts nodes) :
    ReadsAs catalog (Text.unlines texts) nodes := by
  induction reads with
  | nil => exact ⟨[], .nil, .nil⟩
  | @cons text node texts nodes first others inductionHypothesis =>
      cases others with
      | nil => simpa [Text.unlines] using first
      | @cons next more texts nodes second others =>
          have whole := first.below inductionHypothesis
          rw [Text.unlines, List.intercalate_cons_cons, List.append_assoc]
          exact whole

section

variable (blank : isAllBlank gap = true) (flat : '\n' ∉ gap)

include blank flat

theorem run (run : TextRun) : ReadsAs catalog (gap ++ run.text) [.text (String.ofList run.text)] :=
  ⟨_, .piece catalog blank flat (isLinePiece_text run), .text _⟩

variable (tag : TagName) {attributes : List Char} (behind : IsAttributeText attributes)
  {props : Props} (read : ScannedProps.read catalog attributes = ⟨props, []⟩)

include behind read

/-- An element that is closed in its own tag, with a blank in front of the slash. -/
theorem selfClosed :
    ReadsAs catalog (gap ++ (Piece.head (tag.text ++ (attributes ++ [' ', '/']))).written)
      [.element (String.ofList tag.text) props [] 0] := by
  have slash : Head.Quiet [' ', '/'] := ⟨by decide, by decide⟩
  have layout := Layout.piece catalog blank flat
    (isLinePiece_head tag (behind.quiet.append slash) (by simp [behind.noFeed]))
  have apart : ∀ c, (attributes ++ [' ']).head? = some c → Head.isTagChar c = false := by
    intro c first
    cases attributes with
    | nil =>
        obtain rfl := Option.some.inj first
        decide
    | cons d more => exact behind.apart c first
  have shape : tag.text ++ (attributes ++ [' ', '/']) =
      tag.text ++ (attributes ++ [' ']) ++ ['/'] := by simp
  have item : Item.ofPiece catalog 0 (.head (tag.text ++ (attributes ++ [' ', '/']))) =
      [.leaf (String.ofList tag.text) props 0] := by
    rw [shape, Item.ofPiece, ofInside_closed tag apart, Item.ofHead,
      ScannedProps.read_append_of_isAllBlank catalog attributes (by decide), read]
    rfl
  rw [item] at layout
  exact ⟨_, layout, .leaf ..⟩

omit blank flat in
theorem item_opening :
    Item.ofPiece catalog 0 (.head (tag.text ++ attributes)) =
      [.opening (String.ofList tag.text) props 0] := by
  rw [Item.ofPiece, ofInside_open tag behind.apart behind.ends, Item.ofHead, read]
  rfl

/-- An element on one line with the text in it. -/
theorem around {run : List Char} (isRun : IsInlineRun run) :
    ReadsAs catalog (gap ++ ((Piece.head (tag.text ++ attributes)).written ++
        (run ++ (Piece.closing tag.text).written)))
      [.element (String.ofList tag.text) props [.text (String.ofList run)] 0] := by
  have trimmed := trim_around (tag.text ++ attributes) run tag.text
  have rowFlat : '\n' ∉ (Piece.head (tag.text ++ attributes)).written ++
      (run ++ (Piece.closing tag.text).written) := by
    simp [Piece.written, feed_notMem_tag, behind.noFeed, isRun.noFeed]
  have items : [.head (tag.text ++ attributes), .text run, .closing tag.text].flatMap
      (Item.ofPiece catalog 0) = .opening (String.ofList tag.text) props 0 ::
        ([.text (String.ofList run)] ++ [.closing (String.ofList tag.text) 0]) := by
    rw [List.flatMap_cons, List.flatMap_cons, List.flatMap_singleton, item_opening tag behind read,
      ofPiece_closing]
    rfl
  have layout := Layout.line catalog blank flat trimmed rowFlat
    (isDeclarationLike_of_bracket _) (ofText_around tag behind isRun)
  rw [items] at layout
  exact ⟨_, layout, (Yields.text _).element ..⟩

/-- An element on lines of its own around the lines of its children. -/
theorem block {inner : List Char} (reads : ReadsAs catalog inner nodes) :
    ReadsAs catalog (gap ++ (Piece.head (tag.text ++ attributes)).written ++
        '\n' :: (inner ++ '\n' :: (gap ++ (Piece.closing tag.text).written)))
      [.element (String.ofList tag.text) props nodes 0] := by
  obtain ⟨items, layout, yields⟩ := reads
  have opening := Layout.piece catalog blank flat
    (isLinePiece_head tag behind.quiet behind.noFeed)
  have closing := Layout.piece catalog blank flat (isLinePiece_closing tag)
  rw [item_opening tag behind read] at opening
  rw [ofPiece_closing] at closing
  exact ⟨_, opening.below (layout.below closing), yields.element ..⟩

end

end ReadsAs

end ScreenCompiler
