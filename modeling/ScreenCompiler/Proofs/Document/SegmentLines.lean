import ScreenCompiler.Catalog.Standard
import ScreenCompiler.Proofs.Document.MarkupLines
import ScreenCompiler.Proofs.Document.Renumber
import ScreenCompiler.Proofs.Document.Respacing
import ScreenCompiler.Proofs.Document.SourceLines
import ScreenCompiler.Proofs.Text.Lines

/-!
# One segment per line

Markup may stand on one line or on many.  A source whose lines are broken into their
segments is read as the source itself, up to line numbers.
-/

namespace ScreenCompiler

open Text

/-- The segments of all lines of a source. -/
def segmentLines (source : List Char) : List (List Char) :=
  (lines source).flatMap fun raw => (Pieces.ofText (trim raw)).segments

/-- The source with every segment on a line of its own. -/
def unfolded (source : List Char) : List Char :=
  unlines (segmentLines source)

namespace Stylesheet

theorem follows_addText {run tight loose tail : List Char} {pieces : Pieces}
    (segments : pieces.segments.flatMap ('\n' :: ·) ++ tail = '\n' :: '<' :: tight)
    (loosens : Loosens ('<' :: tight) ('<' :: loose)) :
    Follows ((Pieces.addText run pieces).segments.flatMap ('\n' :: ·) ++ tail)
      (run ++ '<' :: loose) := by
  by_cases solid : trim run = []
  · have blank := isAllBlank_of_trim_eq_nil solid
    rw [Pieces.addText_of_isAllBlank blank, segments]
    exact .gap blank loosens
  · have first : (Pieces.addText run pieces).segments = trim run :: pieces.segments := by
      rw [Pieces.addText_of_solid solid]
      rfl
    obtain ⟨before, after, blankBefore, blankAfter, shape⟩ :=
      exists_trim_append run ('<' :: loose)
    rw [first, List.flatMap_cons, List.append_assoc, segments, shape]
    exact .gap blankBefore ((Loosens.beforeTag blankAfter loosens).append_same (trim run))

theorem follows_of_reads {text tight loose : List Char} {pieces : Pieces}
    (reads : Pieces.Reads text pieces) (broken : Broken tight loose) :
    Follows (pieces.segments.flatMap ('\n' :: ·) ++ tight) (text ++ loose) := by
  induction reads with
  | @text run _ =>
      by_cases solid : trim run = []
      · have blank := isAllBlank_of_trim_eq_nil solid
        rw [Pieces.addText_of_isAllBlank blank]
        exact broken.follows.append_gap blank
      · obtain ⟨before, after, blankBefore, blankAfter, shape⟩ := exists_trim_append run loose
        rw [Pieces.addText_of_solid solid, shape]
        have behind := (broken.append_gap blankAfter).loosens.append_same (trim run)
        simpa [Pieces.cons, Pieces.segments, Piece.written] using Follows.gap blankBefore behind
  | @tag run rest inside behind pieces _ _ ended _ inductionHypothesis =>
      have inner := (inductionHypothesis.afterTag.append_same inside).same '<'
      rw [List.append_assoc, List.cons_append, Head.append_of_findEnd? ended, List.append_assoc]
      refine follows_addText ?_ inner
      simp [Pieces.cons, Pieces.segments, Pieces.written_ofInside]
  | @unfinished run rest _ _ _ =>
      have inner := broken.loosens.append_same ('<' :: rest)
      rw [List.append_assoc]
      exact follows_addText (by simp [Pieces.segments]) inner

theorem broken_of_lines (raws : List (List Char)) :
    Broken ((raws.flatMap fun raw => (Pieces.ofText (trim raw)).segments).flatMap ('\n' :: ·))
      (raws.flatMap ('\n' :: ·)) := by
  induction raws with
  | nil => exact .done
  | cons raw raws inductionHypothesis =>
      obtain ⟨before, after, blankBefore, blankAfter, shape⟩ :=
        exists_trim_append raw (raws.flatMap ('\n' :: ·))
      have line := (follows_of_reads (Pieces.reads_ofText (trim raw))
        (inductionHypothesis.append_gap blankAfter)).append_gap blankBefore
      rw [List.flatMap_cons, List.flatMap_cons, List.flatMap_append]
      refine .gap isBlank_newline ?_
      change Follows _ (raw ++ _)
      rw [shape]
      exact line

end Stylesheet

theorem segmentLines_eq (source : List Char) : segmentLines source =
    (source.splitOn '\n').flatMap fun raw => (Pieces.ofText (trim raw)).segments :=
  flatMap_lines (fun raw => by rw [trim_dropReturn]) (by simp [trim, trimEnd, Pieces.segments])
    source

theorem find?_unfolded {source : List Char} (plain : Stylesheet.find? source = none) :
    Stylesheet.find? (unfolded source) = none := by
  rw [← Option.isNone_iff_eq_none, ← Option.isSome_eq_false_iff] at plain ⊢
  by_contra found
  rw [Bool.not_eq_false] at found
  cases segments : segmentLines source with
  | nil =>
      rw [unfolded, segments] at found
      exact absurd found (by decide)
  | cons first more =>
      have nonempty : segmentLines source ≠ [] := by simp [segments]
      have loosens := (Stylesheet.broken_of_lines (source.splitOn '\n')).loosens
      rw [← segmentLines_eq, ← cons_unlines nonempty,
        ← cons_unlines (List.splitOn_ne_nil '\n' source)] at loosens
      rw [unlines_splitOn] at loosens
      have later := Stylesheet.isSome_find?_of_respaced loosens.respaced
        (Stylesheet.isSome_find?_append ['\n'] found)
      rw [Stylesheet.isSome_find?_cons_of_ne (by decide), plain] at later
      exact absurd later Bool.false_ne_true

theorem isLine_of_mem_segmentLines {source segment : List Char}
    (membership : segment ∈ segmentLines source) : IsLine segment := by
  obtain ⟨raw, line, inside⟩ := List.mem_flatMap.mp membership
  obtain ⟨nonempty, trimmed⟩ := Pieces.trim_of_mem_segments inside
  refine ⟨?_, nonempty, ?_⟩
  · intro feed
    exact feed_not_mem_of_mem_lines line
      (mem_of_mem_trim ((Pieces.segment_of_mem_segments inside).1.subset feed))
  · intro last
    rw [← trimmed] at last
    exact absurd (getLast?_trim last) (by decide)

theorem lines_unfolded (source : List Char) : lines (unfolded source) = segmentLines source :=
  lines_unlines fun _ membership => isLine_of_mem_segmentLines membership

namespace Block

theorem ofMarkup_renumber (change : Nat → Nat) (number : Nat) (text : List Char) :
    (ofMarkup number text).map (renumber change) = ofMarkup (change number) text := by
  rw [ofMarkup, ofMarkup, List.map_append, List.map_map, List.map_map]
  rfl

/-- A segment on its own stands for the same block as within its line. -/
theorem flatMap_ofMarkup_segments (number : Nat) (text : List Char) :
    (Pieces.ofText text).segments.flatMap (ofMarkup number) = ofMarkup number text := by
  have reads := Pieces.reads_ofText text
  have whole : ((Pieces.ofText text).whole.map Piece.written).flatMap (ofMarkup number) =
      (Pieces.ofText text).whole.map (piece number) := by
    rw [List.flatMap_map, ← List.flatMap_pure_eq_map]
    refine List.flatMap_congr fun found membership => ?_
    rw [ofMarkup, (reads.whole found membership).2.ofText]
    rfl
  have unfinished : (Pieces.ofText text).unfinished.toList.flatMap (ofMarkup number) =
      (Pieces.ofText text).unfinished.toList.map (openClosing number) := by
    rw [← List.flatMap_pure_eq_map]
    refine List.flatMap_congr fun tag membership => ?_
    rw [ofMarkup, (reads.unfinished_tag (Option.mem_toList.mp membership)).2.ofText]
    rfl
  rw [Pieces.segments, List.flatMap_append, whole, unfinished, ofMarkup]

theorem map_renumber_ofSource {source : List Char}
    (markup : ∀ line ∈ Line.ofSource source, IsMarkup line.text) (number : Nat) :
    (ofSource source).map (renumber fun _ => number) =
      (lines source).flatMap fun raw => ofMarkup number (trim raw) := by
  have empty : ofMarkup number [] = [] := by simp [ofMarkup]
  rw [ofSource_of_markup markup, List.map_flatMap, Line.ofSource,
    ← Line.flatMap_text_numbered empty 1]
  exact List.flatMap_congr fun line _ => ofMarkup_renumber (fun _ => number) line.number line.text

end Block

theorem isMarkup_of_mem_unfolded {source : List Char}
    (markup : ∀ line ∈ Line.ofSource source, IsMarkup line.text)
    (undeclared : ∀ line ∈ Line.ofSource source, ∀ segment ∈ (Pieces.ofText line.text).segments,
      isDeclarationLike segment = false) :
    ∀ line ∈ Line.ofSource (unfolded source), IsMarkup line.text := by
  intro line membership
  have segment := Line.mem_numbered membership
  rw [lines_unfolded] at segment
  obtain ⟨raw, rawLine, inside⟩ := List.mem_flatMap.mp segment
  obtain ⟨-, trimmed⟩ := Pieces.trim_of_mem_segments inside
  have solid : trim raw ≠ [] := by
    intro empty
    simp [empty, Pieces.segments] at inside
  obtain ⟨whole, wholeLine, same⟩ := Line.exists_mem_numbered solid 1 rawLine
  have text : whole.text = trim raw := by rw [Line.text, same]
  have stable := (Pieces.segment_of_mem_segments inside).2.segments
  rw [Line.text, trimmed]
  refine ⟨undeclared whole wholeLine line.raw (text ▸ inside), fun part isPart => ?_⟩
  rw [stable, List.mem_singleton] at isPart
  rw [isPart]
  exact (markup whole wholeLine).ended line.raw (text ▸ inside)

namespace Document

theorem parse_unfolded {catalog : Catalog} {source : List Char}
    (plain : Stylesheet.find? source = none)
    (markup : ∀ line ∈ Line.ofSource source, IsMarkup line.text)
    (undeclared : ∀ line ∈ Line.ofSource source, ∀ segment ∈ (Pieces.ofText line.text).segments,
      isDeclarationLike segment = false) :
    (parse catalog (unfolded source)).renumber (fun _ => 0) =
        (parse catalog source).renumber (fun _ => 0) ∧
      (parse catalog (unfolded source)).IsUndeclared ∧ (parse catalog source).IsUndeclared := by
  have plainUnfolded := find?_unfolded plain
  have markupUnfolded := isMarkup_of_mem_unfolded markup undeclared
  refine ⟨?_, isUndeclared_of_markup catalog plainUnfolded markupUnfolded,
    isUndeclared_of_markup catalog plain markup⟩
  have blocks : (Block.ofSource (unfolded source)).map (Block.renumber fun _ => 0) =
      (Block.ofSource source).map (Block.renumber fun _ => 0) := by
    rw [Block.map_renumber_ofSource markupUnfolded, Block.map_renumber_ofSource markup,
      lines_unfolded, segmentLines, List.flatMap_assoc]
    refine List.flatMap_congr fun raw _ => ?_
    rw [← Block.flatMap_ofMarkup_segments]
    refine List.flatMap_congr fun segment membership => ?_
    rw [(Pieces.trim_of_mem_segments membership).2]
  rw [parse_of_find?_eq_none catalog plainUnfolded, parse_of_find?_eq_none catalog plain,
    ← ofForest_renumber, ← ofForest_renumber, ← Forest.ofItems_renumber,
    ← Forest.ofItems_renumber, Item.ofSource, Item.ofSource, ← Block.flatMap_items_renumber,
    ← Block.flatMap_items_renumber, blocks]

/-- Text between tags, a brace that hides a tag, and a stray closing tag on one line. -/
theorem parse_unfolded_mixed_line :
    (parse .standard (unfolded "<A>To \x7b<B/>\x7d<C p='>'/> </D></A>\n".toList)).renumber
          (fun _ => 0) =
        (parse .standard "<A>To \x7b<B/>\x7d<C p='>'/> </D></A>\n".toList).renumber (fun _ => 0) ∧
      (parse .standard (unfolded "<A>To \x7b<B/>\x7d<C p='>'/> </D></A>\n".toList)).IsUndeclared ∧
        (parse .standard "<A>To \x7b<B/>\x7d<C p='>'/> </D></A>\n".toList).IsUndeclared :=
  parse_unfolded (by decide +kernel) (by decide +kernel) (by decide +kernel)

end Document

end ScreenCompiler
