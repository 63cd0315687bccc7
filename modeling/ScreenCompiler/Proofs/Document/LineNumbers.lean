import ScreenCompiler.Proofs.Document.WellFormed

/-!
# Recorded line numbers

A tag is recorded with the number of the line that opens with it.  Blank lines,
the stylesheet and the lines that continue a head do not move the tags below them.
Two things do.  What stands behind a head that has gone on over lines is read under
the number of the head's first line.  A stylesheet block cut out of the middle of a
line may leave a tag that its source does not have.
-/

namespace ScreenCompiler

open Text

/-- How a tag starts, and the number recorded with it. -/
structure TagStart where
  line : Nat
  text : List Char
  deriving DecidableEq, Repr

namespace TagStart

def opening (line : Nat) (tag : List Char) : TagStart :=
  ⟨line, '<' :: tag⟩

def closing (line : Nat) : TagStart :=
  ⟨line, ['<', '/']⟩

/-- Whether a tag is recorded with the number of a text and stands in that text. -/
def IsIn (start : TagStart) (number : Nat) (text : List Char) : Prop :=
  start.line = number ∧ start.text <:+: text

/-- Whether a tag stands on the line that is recorded with it. -/
def IsAmong (start : TagStart) (lines : List Line) : Prop :=
  ∃ line ∈ lines, start.IsIn line.number line.raw

theorem IsAmong.widen {start : TagStart} {lines more : List Line} (among : start.IsAmong lines)
    (within : lines ⊆ more) : start.IsAmong more := by
  obtain ⟨line, membership, isIn⟩ := among
  exact ⟨line, within membership, isIn⟩

end TagStart

def Diagnostic.tagStart? : Diagnostic → Option TagStart
  | unmatchedClosingTag _ line => some (.closing line)
  | _ => none

def Item.tagStart? : Item → Option TagStart
  | leaf tag _ line => some (.opening line tag.toList)
  | opening tag _ line => some (.opening line tag.toList)
  | closing _ line => some (.closing line)
  | fault diagnostic => diagnostic.tagStart?
  | _ => none

namespace Head

/-- A blank ends the tag, so the lines that continue a head do not change it. -/
theorem tagOf_joined {text : List Char} (solid : text ≠ []) (added : List Line) :
    tagOf (Continued.joined text added) = tagOf text := by
  induction added generalizing text with
  | nil => rfl
  | cons line added inductionHypothesis =>
      have blank : isTagChar ' ' = false := by decide
      obtain ⟨c, rest, rfl⟩ := List.exists_cons_of_ne_nil solid
      have solid : c :: rest ++ ' ' :: line.text ≠ [] := by simp
      exact (inductionHypothesis solid).trans (takeWhile_append_cons blank rest line.text)

end Head

namespace Block

/-- The tag that a block of markup starts with. -/
def tagStart? : Block → Option TagStart
  | piece number (.head inside) => some (.opening number (inside.takeWhile Head.isTagChar))
  | piece number (.closing _) => some (.closing number)
  | openClosing number _ => some (.closing number)
  | head number found => some (.opening number found.tag)
  | unfinished number text => some (.opening number (Head.tagOf text))
  | _ => none

/-- The tags that some blocks start with, in order. -/
def tagStarts (blocks : List Block) : List TagStart :=
  blocks.filterMap tagStart?

/-- The number of a head that has gone on over lines. -/
def joinedLine? : Block → Option Nat
  | head number _ => some number
  | _ => none

/-- The tags that are read behind a head which has gone on over lines, under its number. -/
def resumed : List Block → List TagStart
  | [] => []
  | block :: blocks =>
      (tagStarts blocks).filter (fun start => block.joinedLine? = some start.line) ++ resumed blocks

theorem resumed_subset_append (first second : List Block) :
    resumed second ⊆ resumed (first ++ second) := by
  induction first with
  | nil => exact List.Subset.refl _
  | cons block first inductionHypothesis =>
      exact List.subset_append_of_subset_right _ inductionHypothesis

end Block

namespace Item

variable {catalog : Catalog} {item : Item} {start : TagStart}

theorem tagStart?_ofHead {number : Nat} {head : Head}
    (membership : item ∈ ofHead catalog number head) (starts : item.tagStart? = some start) :
    start = .opening number head.tag := by
  rcases List.mem_append.mp membership with fault | tag
  · obtain ⟨name, -, rfl⟩ := List.mem_map.mp fault
    simp [tagStart?, Diagnostic.tagStart?] at starts
  · obtain rfl := List.mem_singleton.mp tag
    split at starts
    · simpa [tagStart?] using starts.symm
    · simpa [tagStart?] using starts.symm

theorem tagStart?_ofUnfinished {number : Nat} {text : List Char}
    (membership : item ∈ ofUnfinished catalog number text) (starts : item.tagStart? = some start) :
    start = .opening number (Head.tagOf text) := by
  unfold ofUnfinished at membership
  split at membership
  · rename_i head found
    rw [← Head.tag_of_recover? found]
    exact tagStart?_ofHead membership starts
  · rcases List.mem_cons.mp membership with rfl | inHead
    · simp [tagStart?, Diagnostic.tagStart?] at starts
    · exact tagStart?_ofHead inHead starts

/-- A tag among the items of a block is the tag of the block. -/
theorem tagStart?_of_mem_items {block : Block} (membership : item ∈ block.items catalog)
    (starts : item.tagStart? = some start) : block.tagStart? = some start := by
  cases block with
  | piece number piece =>
      cases piece with
      | text run =>
          obtain rfl := List.mem_singleton.mp membership
          simp [tagStart?] at starts
      | closing inside =>
          obtain rfl := List.mem_singleton.mp membership
          exact starts
      | head inside =>
          rw [tagStart?_ofHead membership starts, Head.tag_ofInside]
          rfl
  | openClosing number tag =>
      obtain rfl := List.mem_singleton.mp membership
      unfold ofOpenClosing at starts
      split at starts
      · exact starts
      · simp [tagStart?] at starts
  | head number found =>
      rw [tagStart?_ofHead membership starts]
      rfl
  | unfinished number text =>
      rw [tagStart?_ofUnfinished membership starts]
      rfl
  | function number found closed =>
      rcases List.mem_append.mp membership with fault | declared
      · split at fault
        · simp at fault
        · obtain rfl := List.mem_singleton.mp fault
          simp [tagStart?, Diagnostic.tagStart?] at starts
      · obtain rfl := List.mem_singleton.mp declared
        simp [tagStart?] at starts
  | _ =>
      obtain rfl := List.mem_singleton.mp membership
      simp [tagStart?] at starts

end Item

namespace Block

section Text

variable {text tag : List Char} {number : Nat} {start : TagStart}

theorem isIn_of_whole {found : Piece} (whole : found ∈ (Pieces.ofText text).whole)
    (starts : (piece number found).tagStart? = some start) : start.IsIn number text := by
  obtain ⟨written, -⟩ := (Pieces.reads_ofText text).whole found whole
  cases found with
  | text run => simp [tagStart?] at starts
  | closing inside =>
      obtain rfl := Option.some.inj starts
      exact ⟨rfl, (List.prefix_append ['<', '/'] (inside ++ ['>'])).isInfix.trans written⟩
  | head inside =>
      obtain rfl := Option.some.inj starts
      have front : inside.takeWhile Head.isTagChar <+: inside ++ ['>'] :=
        (List.takeWhile_prefix _).trans (List.prefix_append inside ['>'])
      exact ⟨rfl, (List.cons_prefix_cons.mpr ⟨rfl, front⟩).isInfix.trans written⟩

theorem isIn_of_closing (tagged : (Pieces.ofText text).unfinished = some tag)
    (closes : startsWith ['<', '/'] tag = true) : (TagStart.closing number).IsIn number text := by
  have within := ((Pieces.reads_ofText text).unfinished_tag tagged).1
  exact ⟨rfl, (startsWith_iff.mp closes).isInfix.trans within.isInfix⟩

/-- A head that goes on over lines starts where its first line leaves a tag open. -/
theorem isIn_of_unfinished (tagged : (Pieces.ofText text).unfinished = some tag)
    (added : List Line) :
    (TagStart.opening number (Head.tagOf (Continued.joined tag added))).IsIn number text := by
  obtain ⟨within, segment⟩ := (Pieces.reads_ofText text).unfinished_tag tagged
  cases segment with
  | @unfinished rest _ _ =>
      rw [Head.tagOf_joined (List.cons_ne_nil '<' rest)]
      exact ⟨rfl, (Head.opening_prefix rest).isInfix.trans within.isInfix⟩

end Text

/-- Whether the tags of some blocks have a property, but for those that are resumed. -/
def Locates (holds : TagStart → Prop) (blocks : List Block) : Prop :=
  ∀ start ∈ tagStarts blocks, start ∈ resumed blocks ∨ holds start

namespace Locates

variable {holds other : TagStart → Prop} {blocks : List Block}

theorem imp (locates : Locates holds blocks) (weaker : ∀ start, holds start → other start) :
    Locates other blocks :=
  fun start membership => (locates start membership).imp_right (weaker start)

theorem append {front : List Block} (later : Locates holds blocks)
    (own : ∀ start ∈ tagStarts front, holds start) : Locates holds (front ++ blocks) := by
  intro start membership
  rw [tagStarts, List.filterMap_append] at membership
  rcases List.mem_append.mp membership with inFront | behind
  · exact .inr (own start inFront)
  · exact (later start behind).imp_left (@resumed_subset_append front blocks start)

theorem cons {block : Block} (later : Locates holds blocks)
    (own : ∀ start, block.tagStart? = some start → holds start) :
    Locates holds (block :: blocks) := by
  have alone : ∀ start ∈ tagStarts [block], holds start := by
    intro start membership
    obtain ⟨only, isBlock, starts⟩ := List.mem_filterMap.mp membership
    obtain rfl := List.mem_singleton.mp isBlock
    exact own start starts
  exact later.append alone

/-- Behind a head that has gone on over lines its number says nothing. -/
theorem cons_head {number : Nat} {found : Head}
    (later : Locates (fun start => start.line = number ∨ holds start) blocks)
    (own : holds (.opening number found.tag)) : Locates holds (head number found :: blocks) := by
  intro start membership
  rcases List.mem_cons.mp membership with rfl | behind
  · exact .inr own
  · rcases later start behind with inResumed | same | held
    · exact .inl (List.mem_append_right _ inResumed)
    · refine .inl (List.mem_append_left _ (List.mem_filter.mpr ⟨behind, ?_⟩))
      simp [joinedLine?, same]
    · exact .inr held

end Locates

theorem tagStart?_of_simple? {line : List Char} {block : Block}
    (simple : simple? line = some block) : block.tagStart? = none := by
  cases declares_of_simple? simple <;> rfl

/-- The tags of a text stand in it or on the lines below, if this is so behind every head that goes
on over lines. -/
theorem locates_ofText {number : Nat} {text : List Char} {lines : List Line}
    (later : Locates (·.IsAmong lines) (ofLines lines))
    (behindHead : ∀ tag head rest more, Continued.read tag lines = .complete head rest more →
      Locates (fun start => start.IsIn number rest ∨ start.IsAmong more) (ofText number rest more))
    (behindUnfinished : ∀ tag last more, Continued.read tag lines = .unfinished last more →
      Locates (·.IsAmong more) (ofLines more)) :
    Locates (fun start => start.IsIn number text ∨ start.IsAmong lines)
      (ofText number text lines) := by
  rw [ofText_eq]
  refine Locates.append ?_ fun start membership => ?_
  · cases tagged : (Pieces.ofText text).unfinished with
    | none => exact later.imp fun start => .inr
    | some tag =>
        cases closes : startsWith ['<', '/'] tag with
        | true =>
            simp only [closes, ↓reduceIte]
            refine (later.imp fun start => .inr).cons fun start starts => ?_
            obtain rfl := Option.some.inj starts
            exact .inl (isIn_of_closing tagged closes)
        | false =>
            simp only [closes, Bool.false_eq_true, ↓reduceIte]
            cases found : Continued.read tag lines with
            | complete head rest more =>
                obtain ⟨added, rfl, ended⟩ := Continued.exists_joined_of_complete found
                refine .cons_head ?_ (.inl ?_)
                -- a tag behind the head has its number and counts as resumed, whatever its line
                · refine (behindHead tag head rest more found).imp fun start => ?_
                  rintro (⟨same, -⟩ | among)
                  · exact .inl same
                  · exact .inr (.inr (among.widen (List.subset_append_right added more)))
                · rw [Head.tag_of_read? ended]
                  exact isIn_of_unfinished tagged added
            | unfinished last more =>
                obtain ⟨added, rfl, rfl⟩ := Continued.exists_joined_of_unfinished found
                have below := (behindUnfinished tag _ more found).imp fun start among =>
                  among.widen (List.subset_append_right added more)
                refine (below.imp fun start => .inr).cons fun start starts => ?_
                obtain rfl := Option.some.inj starts
                exact .inl (isIn_of_unfinished tagged added)
  · obtain ⟨block, isPiece, starts⟩ := List.mem_filterMap.mp membership
    obtain ⟨found, whole, rfl⟩ := List.mem_map.mp isPiece
    exact .inl (isIn_of_whole whole starts)

/-- The tags of some lines stand on them, but for those that are resumed. -/
theorem locates_ofLines (lines : List Line) : Locates (·.IsAmong lines) (ofLines lines) := by
  refine ofLines.induct
    (fun lines => Locates (·.IsAmong lines) (ofLines lines))
    (fun number text lines => Locates (fun start => start.IsIn number text ∨ start.IsAmong lines)
      (ofText number text lines))
    ?ended ?simple ?opened ?markup ?text lines
  case ended =>
    intro start membership
    simp [tagStarts] at membership
  case simple =>
    intro line lines block simple inductionHypothesis
    rw [ofLines_cons, simple]
    have below := inductionHypothesis.imp fun start among =>
      among.widen (List.subset_cons_self line lines)
    refine below.cons fun start starts => ?_
    simp [tagStart?_of_simple? simple] at starts
  case opened =>
    intro line lines simple opened found _ inductionHypothesis
    rw [ofLines_cons, simple, found]
    refine Locates.cons ?_ fun start starts => ?_
    · cases closed : (Function.readBody opened).rest with
      | none => exact fun start membership => absurd membership List.not_mem_nil
      | some rest =>
          have behind : rest <:+ lines :=
            (Function.rest_readBody_suffix closed).trans (Function.lines_open?_suffix found)
          exact (inductionHypothesis rest closed).imp fun start among =>
            among.widen (List.subset_cons_of_subset line behind.subset)
    · simp [tagStart?] at starts
  case markup =>
    intro line lines simple found inductionHypothesis
    rw [ofLines_cons, simple, found]
    refine inductionHypothesis.imp fun start => ?_
    rintro (⟨same, within⟩ | among)
    · exact ⟨line, List.mem_cons_self, same, within.trans (Pieces.trim_within line.raw)⟩
    · exact among.widen (List.subset_cons_self line lines)
  case text =>
    intro number text lines later behindHead behindUnfinished
    exact locates_ofText later behindHead behindUnfinished

end Block

/-- A tag on a line of a source stands on the line that a line feed count leads to. -/
theorem TagStart.IsAmong.isOnLine {start : TagStart} {source : List Char}
    (among : start.IsAmong (Line.ofSource source)) : IsOnLine source start.line start.text := by
  obtain ⟨line, membership, same, within⟩ := among
  obtain ⟨positive, found⟩ := Line.getElem?_of_mem_numbered membership
  rw [same]
  exact isOnLine_of_lines positive found within

namespace Document

/-- The tags whose recorded numbers may be wrong: those behind heads that have gone on over lines,
and one that is put together when the stylesheet is cut out of it. -/
inductive IsDisplaced (source : List Char) (start : TagStart) : Prop where
  | resumed :
      start ∈ Block.resumed (Block.ofSource (Stylesheet.cut source).remaining) →
      IsDisplaced source start
  | parted :
      Stylesheet.Parts source (Stylesheet.cut source) start.line start.text →
      IsDisplaced source start

variable (catalog : Catalog) (source : List Char)

theorem isOnLine_of_mem_items {item : Item} {start : TagStart}
    (membership : item ∈ Item.ofSource catalog (Stylesheet.cut source).remaining)
    (starts : item.tagStart? = some start) (solid : start.text ≠ [])
    (inPlace : ¬IsDisplaced source start) : IsOnLine source start.line start.text := by
  obtain ⟨block, inSource, inBlock⟩ := List.mem_flatMap.mp membership
  have isStart : start ∈ Block.tagStarts (Block.ofSource (Stylesheet.cut source).remaining) :=
    List.mem_filterMap.mpr ⟨block, inSource, Item.tagStart?_of_mem_items inBlock starts⟩
  rcases Block.locates_ofLines _ start isStart with resumed | among
  · exact absurd (.resumed resumed) inPlace
  · rcases (Stylesheet.cutOf_cut source).isOnLine_or_parts solid among.isOnLine with onLine | parted
    · exact onLine
    · exact absurd (.parted parted) inPlace

/-- The line that is recorded with an element holds its tag, and the line that is recorded with an
unmatched closing tag holds one. -/
theorem parse_locates_tags :
    (∀ element ∈ Node.elementsOf (parse catalog source).nodes,
      ¬IsDisplaced source (.opening element.line element.tag.toList) →
        IsOnLine source element.line ('<' :: element.tag.toList)) ∧
      ∀ tag line, .unmatchedClosingTag tag line ∈ (parse catalog source).diagnostics →
        ¬IsDisplaced source (.closing line) → IsOnLine source line ['<', '/'] := by
  have stems := stemsFrom_forestOf catalog source
  constructor
  · intro element membership inPlace
    rw [nodes_parse] at membership
    rcases stems.elements element membership with leaf | opening
    · exact isOnLine_of_mem_items catalog source leaf rfl (List.cons_ne_nil _ _) inPlace
    · exact isOnLine_of_mem_items catalog source opening rfl (List.cons_ne_nil _ _) inPlace
  · intro tag line membership inPlace
    have onLine : ∀ item ∈ Item.ofSource catalog (Stylesheet.cut source).remaining,
        item.tagStart? = some (.closing line) → IsOnLine source line ['<', '/'] :=
      fun item inside starts =>
        isOnLine_of_mem_items catalog source inside starts (List.cons_ne_nil _ _) inPlace
    rw [diagnostics_parse] at membership
    rcases List.mem_append.mp membership with stylesheet | own
    · obtain ⟨number, -, same⟩ := Option.map_eq_some_iff.mp (Option.mem_toList.mp stylesheet)
      simp at same
    · rcases stems.diagnostics _ own with fault | ⟨name, number, closing, same⟩ |
        ⟨name, props, number, -, same⟩
      · exact onLine _ fault rfl
      · obtain ⟨rfl, rfl⟩ := Diagnostic.unmatchedClosingTag.inj same
        exact onLine _ closing rfl
      · simp at same

/-- A head over three lines below a stylesheet, and a closing tag too many. -/
def locatedSource : List Char :=
  ("<View>\n\nconst styles = StyleSheet.create(\n)\n" ++
    "  <Text\n    a='x'\n  /> y\n</View>\n</Foo>\n").toList

theorem parse_locates_tags_below_stylesheet :
    (∃ element ∈ Node.elementsOf (parse .standard locatedSource).nodes,
      element.tag = "Text" ∧ element.line = 5 ∧
        ¬IsDisplaced locatedSource (.opening element.line element.tag.toList) ∧
          IsOnLine locatedSource element.line ('<' :: element.tag.toList)) ∧
      .unmatchedClosingTag "Foo" 9 ∈ (parse .standard locatedSource).diagnostics ∧
        ¬IsDisplaced locatedSource (.closing 9) ∧ IsOnLine locatedSource 9 ['<', '/'] := by
  have inPlace : ∀ start, ¬IsDisplaced locatedSource start := by
    rintro start (resumed | parted)
    · have none : Block.resumed (Block.ofSource (Stylesheet.cut locatedSource).remaining) = [] := by
        decide +kernel
      exact absurd (none ▸ resumed) List.not_mem_nil
    · have isBlock : (Stylesheet.cut locatedSource).block =
          some "const styles = StyleSheet.create(\n)".toList := by
        decide +kernel
      exact Stylesheet.not_parts_of_mem isBlock (by decide) parted
  obtain ⟨elements, closings⟩ := parse_locates_tags .standard locatedSource
  have text : ∃ element ∈ Node.elementsOf (parse .standard locatedSource).nodes,
      element.tag = "Text" ∧ element.line = 5 := by
    decide +kernel
  have foo : .unmatchedClosingTag "Foo" 9 ∈ (parse .standard locatedSource).diagnostics := by
    decide +kernel
  obtain ⟨element, membership, isText, isFifth⟩ := text
  exact ⟨⟨element, membership, isText, isFifth, inPlace _, elements element membership (inPlace _)⟩,
    foo, inPlace _, closings "Foo" 9 foo (inPlace _)⟩

/-- Behind a head that has gone on over lines, and where a stylesheet is cut out of a tag, a line is
recorded that does not hold the tag. -/
theorem parse_displaces_tags :
    (∀ source ∈ ["<View\na='x'><Text/></View>", "<Viconst styles = StyleSheet.create()ew/>"].map
        String.toList,
      ∃ element ∈ Node.elementsOf (parse .standard source).nodes,
        ¬IsOnLine source element.line ('<' :: element.tag.toList)) ∧
      .unmatchedClosingTag "Foo" 1 ∈
          (parse .standard "<View\na='x'/></Foo>".toList).diagnostics ∧
        ¬IsOnLine "<View\na='x'/></Foo>".toList 1 ['<', '/'] := by
  decide +kernel

end Document

end ScreenCompiler
