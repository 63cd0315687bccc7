import ScreenCompiler.Component.Markup
import ScreenCompiler.Proofs.Document.Layout

/-!
# Rendered markup is read again

The code of markup is markup.  Read as a source, the code of a forest gives the same
forest back: with the components for the tags, the texts of a text element in one, and
the texts of a button in elements of their own.
-/

namespace ScreenCompiler

open Text

/-- A run of text that closes the braces it opens. -/
structure ClosedRun extends TextRun where
  closes : ClosesBraces text

theorem ClosedRun.isInlineRun (run : ClosedRun) : IsInlineRun run.text :=
  ⟨⟨run.nonempty, run.trimmed, run.noFeed⟩, run.noBracket, run.closes⟩

/-- A tree of elements without props, and of runs of text. -/
inductive Outline where
  | text (run : ClosedRun)
  | element (tag : TagName) (children : List Outline) (line : Nat)

namespace Outline

mutual

def toNode : Outline → Node
  | text run => .text (String.ofList run.text)
  | element tag children line => .element (String.ofList tag.text) .empty (toNodes children) line

def toNodes : List Outline → List Node
  | [] => []
  | outline :: forest => toNode outline :: toNodes forest

end

theorem toNodes_eq_map (forest : List Outline) : toNodes forest = forest.map toNode := by
  induction forest with
  | nil => rw [toNodes, List.map_nil]
  | cons outline forest inductionHypothesis => rw [toNodes, List.map_cons, inductionHypothesis]

end Outline

namespace Node

/-- A text in an element of its own, as it stands in a button. -/
def wrapText : Node → Node
  | text run => element "Text" ⟨[("style", .expression "styles.buttonText")]⟩ [text run] 0
  | element tag props children line => element tag props children line

/-- The children that an element of this tag has in its code. -/
def arranged (catalog : Catalog) (tag : String) (nodes : List Node) : List Node :=
  if catalog.isText tag && !nodes.isEmpty && nodes.all isText then
    [text (String.intercalate " " (nodes.filterMap text?))]
  else if catalog.isButton tag then nodes.map wrapText
  else nodes

mutual

/-- The node that the code of a node is read as, without its line numbers. -/
def rendered (catalog : Catalog) : Node → Node
  | text run => text run
  | element tag props children _ =>
      element (catalog.target tag) props
        (arranged catalog tag (renderedAll catalog children)) 0

def renderedAll (catalog : Catalog) : List Node → List Node
  | [] => []
  | node :: nodes => rendered catalog node :: renderedAll catalog nodes

end

theorem renderedAll_eq_map (catalog : Catalog) (nodes : List Node) :
    renderedAll catalog nodes = nodes.map (rendered catalog) := by
  induction nodes with
  | nil => rw [renderedAll, List.map_nil]
  | cons node nodes inductionHypothesis => rw [renderedAll, List.map_cons, inductionHypothesis]

theorem text?_rendered (catalog : Catalog) (node : Node) :
    text? (rendered catalog node) = text? node := by
  cases node with
  | text run => rw [rendered]
  | element tag props children line => rw [rendered, text?, text?]

theorem isText_rendered (catalog : Catalog) (node : Node) :
    isText (rendered catalog node) = isText node := by
  cases node with
  | text run => rw [rendered]
  | element tag props children line => rw [rendered, isText, isText]

section

variable {catalog : Catalog} {tag : String} {nodes : List Node}

theorem all_isText_renderedAll (catalog : Catalog) (nodes : List Node) :
    (renderedAll catalog nodes).all isText = nodes.all isText := by
  rw [renderedAll_eq_map, List.all_map]
  exact congrArg nodes.all (funext (isText_rendered catalog))

theorem arranged_of_texts (parent : nodes ≠ [])
    (inline : (catalog.isText tag && nodes.all isText) = true) :
    arranged catalog tag (renderedAll catalog nodes) =
      [text (String.intercalate " " (nodes.filterMap text?))] := by
  obtain ⟨ofText, texts⟩ := Bool.and_eq_true_iff.mp inline
  have solid : (renderedAll catalog nodes).isEmpty = false := by
    rw [renderedAll_eq_map]
    simpa using parent
  have same : (renderedAll catalog nodes).filterMap text? = nodes.filterMap text? := by
    rw [renderedAll_eq_map, List.filterMap_map]
    exact congrArg (nodes.filterMap ·) (funext (text?_rendered catalog))
  rw [arranged, all_isText_renderedAll, ofText, texts, solid, same]
  rfl

theorem arranged_of_block (block : (catalog.isText tag && nodes.all isText) = false) :
    arranged catalog tag (renderedAll catalog nodes) =
      (renderedAll catalog nodes).map (if catalog.isButton tag then wrapText else id) := by
  have apart : (catalog.isText tag && !(renderedAll catalog nodes).isEmpty &&
      (renderedAll catalog nodes).all isText) = false := by
    rw [all_isText_renderedAll, Bool.and_right_comm, block, Bool.false_and]
  rw [arranged, apart]
  cases catalog.isButton tag <;> simp

end

end Node

namespace Outline

theorem isInlineRun_of_mem_texts {forest : List Outline} {text : String}
    (membership : text ∈ (toNodes forest).filterMap Node.text?) : IsInlineRun text.toList := by
  rw [toNodes_eq_map] at membership
  obtain ⟨node, inside, isText⟩ := List.mem_filterMap.mp membership
  obtain ⟨outline, -, rfl⟩ := List.mem_map.mp inside
  cases outline with
  | text run =>
      rw [toNode] at isText
      rw [← Option.some.inj isText, String.toList_ofList]
      exact run.isInlineRun
  | element tag children line =>
      rw [toNode] at isText
      exact absurd isText (Option.some_ne_none text).symm

/-- Texts joined by blanks are a run of text again. -/
theorem exists_isInlineRun_of_texts {forest : List Outline} (nonempty : toNodes forest ≠ [])
    (texts : (toNodes forest).all Node.isText = true) :
    ∃ run, IsInlineRun run ∧
      String.intercalate " " ((toNodes forest).filterMap Node.text?) = String.ofList run := by
  have present : (toNodes forest).filterMap Node.text? ≠ [] := by
    obtain ⟨node, nodes, shape⟩ := List.exists_cons_of_ne_nil nonempty
    rw [shape, List.all_cons, Bool.and_eq_true] at texts
    rw [shape]
    cases node with
    | text run => exact List.cons_ne_nil _ _
    | element tag props children line => exact absurd texts.1 Bool.false_ne_true
  refine ⟨List.intercalate [' '] (((toNodes forest).filterMap Node.text?).map String.toList),
    ?_, ?_⟩
  · refine .intercalate (by simpa using present) fun run membership => ?_
    obtain ⟨text, inside, rfl⟩ := List.mem_map.mp membership
    exact isInlineRun_of_mem_texts inside
  · have gap : " ".toList = [' '] := by decide
    rw [← gap, ← String.toList_intercalate, String.ofList_toList]

end Outline

namespace Catalog

/-- Whether every tag stands for a component whose name can be a tag. -/
def NamesTags (catalog : Catalog) : Prop :=
  ∀ tag : TagName, ∃ target : TagName,
    catalog.target (String.ofList tag.text) = String.ofList target.text

theorem exists_tagName {text : List Char} (letter : text.head?.any isAsciiLetter = true)
    (solid : text.all Head.isTagChar = true) : ∃ tag : TagName, tag.text = text := by
  cases text with
  | nil => exact absurd letter Bool.false_ne_true
  | cons c text => exact ⟨⟨c, text, letter, (Bool.and_eq_true_iff.mp solid).2⟩, rfl⟩

theorem namesTags_standard : standard.NamesTags := by
  have named : ∀ entry ∈ standard.components, entry.2.toList.head?.any isAsciiLetter = true ∧
      entry.2.toList.all Head.isTagChar = true := by decide +kernel
  intro tag
  rw [target]
  cases found : standard.components.lookup (String.ofList tag.text) with
  | none => exact ⟨tag, rfl⟩
  | some name =>
      obtain ⟨before, after, shape, -⟩ := List.lookup_eq_some_iff.mp found
      have entry : (String.ofList tag.text, name) ∈ standard.components := by simp [shape]
      obtain ⟨letter, solid⟩ := named _ entry
      obtain ⟨target, same⟩ := exists_tagName letter solid
      exact ⟨target, by rw [same, String.ofList_toList, Option.getD_some]⟩

end Catalog

namespace Rendering

/-- The code of a forest, each tree at a depth of its own. -/
def forestCode (rendering : Rendering) (depth : Nat → Nat) (nodes : List Node) : String :=
  String.intercalate "\n" (nodes.mapIdx fun index node => rendering.node (depth index) node)

variable (rendering : Rendering)

theorem openTag_empty (tag : String) :
    rendering.openTag tag .empty = rendering.catalog.target tag :=
  rfl

theorem isAllBlank_padding (depth : Nat) : isAllBlank (padding depth).toList = true := by
  rw [padding, String.toList_ofList]
  exact isAllBlank_iff.mpr fun c membership => (List.eq_of_mem_replicate membership) ▸ rfl

theorem feed_notMem_padding (depth : Nat) : '\n' ∉ (padding depth).toList := by
  rw [padding, String.toList_ofList]
  exact fun membership => absurd (List.eq_of_mem_replicate membership) (by decide)

/-- The name of the element around the text of a button. -/
def textTag : TagName :=
  ⟨'T', ['e', 'x', 't'], by decide, by decide⟩

/-- What stands behind that name. -/
def buttonStyle : List Char :=
  " style=\x7bstyles.buttonText\x7d".toList

theorem isAttributeText_buttonStyle : IsAttributeText buttonStyle where
  apart := by
    intro c first
    obtain rfl := Option.some.inj first
    decide
  ends := by
    intro c last
    obtain rfl : '\x7d' = c := Option.some.inj last
    decide
  quiet := ⟨by decide, by decide⟩
  noFeed := by decide

theorem list_buttonStyle :
    Attribute.list (trim buttonStyle) = [⟨"style", .braced "styles.buttonText".toList true⟩] := by
  have started : trimStart (trim buttonStyle) =
      's' :: "tyle=\x7bstyles.buttonText\x7d".toList := by decide
  have letter : Attribute.isNameChar 's' = true := by decide
  have name : "tyle=\x7bstyles.buttonText\x7d".toList.takeWhile Attribute.isNameChar =
      "tyle".toList := by decide
  have form : Attribute.readForm
      ("tyle=\x7bstyles.buttonText\x7d".toList.dropWhile Attribute.isNameChar) =
        (.braced "styles.buttonText".toList true, []) := by decide
  have ended : Attribute.list [] = [] := by
    rw [Attribute.list]
    rfl
  rw [Attribute.list, started]
  simp only [letter, name, form, ended, ↓reduceIte]
  rfl

theorem ofBraced_buttonStyle :
    PropValue.ofBraced "styles.buttonText".toList = .expression "styles.buttonText" := by
  have noFlag : trim "styles.buttonText".toList ≠ "true".toList ∧
      trim "styles.buttonText".toList ≠ "false".toList := by decide
  have noNumber : Decimal.number? (trim "styles.buttonText".toList) = none := by decide
  rw [PropValue.ofBraced, PropValue.literalOr, if_neg noFlag.1, if_neg noFlag.2, noNumber,
    String.ofList_toList]

theorem read_buttonStyle (catalog : Catalog) : ScannedProps.read catalog buttonStyle =
    ⟨⟨[("style", .expression "styles.buttonText")]⟩, []⟩ := by
  have value : Attribute.toValue catalog ⟨"style", .braced "styles.buttonText".toList true⟩ =
      .expression "styles.buttonText" := ofBraced_buttonStyle
  rw [ScannedProps.read, list_buttonStyle, ScannedProps.ofAttributes, List.foldl_cons,
    List.foldl_nil, value]
  rfl

theorem toList_buttonText (run : List Char) : (buttonText (String.ofList run)).toList =
    (Piece.head (textTag.text ++ buttonStyle)).written ++
      (run ++ (Piece.closing textTag.text).written) := by
  have opening : (Piece.head (textTag.text ++ buttonStyle)).written =
      ("<Text style=" ++ braced "styles.buttonText" ++ ">").toList := by decide
  have closing : (Piece.closing textTag.text).written = "</Text>".toList := by decide
  have code : (buttonText (String.ofList run)).toList =
      ("<Text style=" ++ braced "styles.buttonText" ++ ">").toList ++
        (run ++ "</Text>".toList) := by
    rw [buttonText, String.toList_append, String.toList_append, List.append_assoc,
      String.toList_ofList]
  rw [code, opening, closing]

theorem readsAs_buttonText (catalog : Catalog) (depth : Nat) (run : ClosedRun) :
    ReadsAs catalog (padding depth ++ buttonText (String.ofList run.text)).toList
      [(Node.text (String.ofList run.text)).wrapText] := by
  have reads := ReadsAs.around (isAllBlank_padding depth) (feed_notMem_padding depth) textTag
    isAttributeText_buttonStyle (read_buttonStyle catalog) run.isInlineRun
  rw [String.toList_append, toList_buttonText]
  exact reads

mutual

theorem readsAs_node (named : rendering.catalog.NamesTags) (depth : Nat) (outline : Outline) :
    ReadsAs rendering.catalog (rendering.node depth outline.toNode).toList
      [outline.toNode.rendered rendering.catalog] := by
  match outline with
  | .text run =>
      rw [Outline.toNode, Node.rendered, node, String.toList_append, String.toList_ofList]
      exact .run (isAllBlank_padding depth) (feed_notMem_padding depth) run.toTextRun
  | .element tag children line =>
      obtain ⟨target, resolved⟩ := named tag
      have blank := isAllBlank_padding depth
      have flat := feed_notMem_padding depth
      have read := ScannedProps.read_nil rendering.catalog
      rw [Outline.toNode, Node.rendered, node, openTag_empty, resolved]
      split
      · rename_i childless
        have reads := ReadsAs.selfClosed blank flat target isAttributeText_nil read
        rw [List.isEmpty_iff.mp childless]
        simpa [Piece.written, Node.renderedAll, Node.arranged] using reads
      · rename_i parent
        split
        · rename_i inline
          have parent : Outline.toNodes children ≠ [] := by simpa using parent
          obtain ⟨run, isRun, joined⟩ :=
            Outline.exists_isInlineRun_of_texts parent (Bool.and_eq_true_iff.mp inline).2
          have reads := ReadsAs.around blank flat target isAttributeText_nil read isRun
          rw [Node.arranged_of_texts parent inline, joined]
          simpa [Piece.written] using reads
        · rename_i block
          have inner := ReadsAs.unlines (readsAs_children named (depth + 1)
            (rendering.catalog.isButton (String.ofList tag.text)) children)
          have reads := ReadsAs.block blank flat target isAttributeText_nil read inner
          rw [Node.arranged_of_block (by simpa using block)]
          simpa [Piece.written, unlines] using reads

theorem readsAs_children (named : rendering.catalog.NamesTags) (depth : Nat) (inButton : Bool)
    (forest : List Outline) :
    List.Forall₂ (fun text node => ReadsAs rendering.catalog text [node])
      ((rendering.children depth inButton (Outline.toNodes forest)).map String.toList)
      ((Node.renderedAll rendering.catalog (Outline.toNodes forest)).map
        (if inButton then Node.wrapText else id)) := by
  match forest with
  | [] =>
      rw [Outline.toNodes, children, Node.renderedAll]
      exact .nil
  | .text run :: forest =>
      rw [Outline.toNodes, Outline.toNode, children, Node.renderedAll, Node.rendered]
      refine .cons ?_ (readsAs_children named depth inButton forest)
      cases inButton with
      | true => exact readsAs_buttonText rendering.catalog depth run
      | false =>
          have reads := readsAs_node named depth (.text run)
          rw [Outline.toNode, Node.rendered, node] at reads
          exact reads
  | .element tag inner line :: forest =>
      have reads := readsAs_node named depth (.element tag inner line)
      have whole := readsAs_children named depth inButton forest
      rw [Outline.toNode] at reads
      rw [Outline.toNodes, Outline.toNode, children, Node.renderedAll]
      refine .cons ?_ whole
      rw [Node.rendered] at reads ⊢
      cases inButton <;> exact reads

end

theorem readsAs_forestCode (named : rendering.catalog.NamesTags) (depth : Nat → Nat)
    (forest : List Outline) :
    ReadsAs rendering.catalog (rendering.forestCode depth (Outline.toNodes forest)).toList
      (Node.renderedAll rendering.catalog (Outline.toNodes forest)) := by
  have each : List.Forall₂ (fun text node => ReadsAs rendering.catalog text [node])
      (((Outline.toNodes forest).mapIdx fun index node =>
        rendering.node (depth index) node).map String.toList)
      (Node.renderedAll rendering.catalog (Outline.toNodes forest)) := by
    induction forest generalizing depth with
    | nil =>
        rw [Outline.toNodes, Node.renderedAll]
        exact .nil
    | cons outline forest inductionHypothesis =>
        rw [Outline.toNodes, Node.renderedAll, List.mapIdx_cons, List.map_cons]
        exact .cons (rendering.readsAs_node named (depth 0) outline)
          (inductionHypothesis fun index => depth (index + 1))
  have feed : "\n".toList = ['\n'] := by decide
  rw [forestCode, String.toList_intercalate, feed]
  exact .unlines each

end Rendering

namespace Document

/-- The code of a forest is read as the forest that it shows, without declarations or faults. -/
theorem parse_forestCode (routes : List Route) (stateTypes : List (String × StateType))
    (depth : Nat → Nat) (forest : List Outline)
    (plain : Stylesheet.find? ((Rendering.mk .standard routes stateTypes).forestCode depth
      (Outline.toNodes forest)).toList = none) :
    ∃ nodes, parse .standard ((Rendering.mk .standard routes stateTypes).forestCode depth
          (Outline.toNodes forest)).toList = ofNodes nodes [] ∧
      Node.renumberAll (fun _ => 0) nodes =
        Node.renderedAll .standard (Outline.toNodes forest) := by
  obtain ⟨items, layout, yields⟩ :=
    (Rendering.mk .standard routes stateTypes).readsAs_forestCode Catalog.namesTags_standard
      depth forest
  exact layout.parse_eq yields plain

/-- A run with a brace that is closed, and one that closes nothing. -/
def savedRun : ClosedRun :=
  ⟨⟨"Saved \x7bn\x7d \x7d".toList, by decide, by decide, by decide, by decide,
    by decide +kernel⟩, by decide⟩

def quotedRun : ClosedRun :=
  ⟨⟨"it's > 1".toList, by decide, by decide, by decide, by decide, by decide +kernel⟩, by decide⟩

/-- A button with a text and a text element in it. -/
def buttonOutline : List Outline :=
  [.element ⟨'B', "utton".toList, by decide, by decide⟩
      [.text savedRun, .element Rendering.textTag [.text quotedRun, .text savedRun] 7] 1,
    .text quotedRun]

def buttonCode : List Char :=
  ((Rendering.mk .standard [] []).forestCode (fun index => 3 * index)
    (Outline.toNodes buttonOutline)).toList

theorem parse_forestCode_buttonOutline :
    Stylesheet.find? buttonCode = none ∧
      ∃ nodes, parse .standard buttonCode = ofNodes nodes [] ∧
        Node.renumberAll (fun _ => 0) nodes =
          Node.renderedAll .standard (Outline.toNodes buttonOutline) := by
  have plain : Stylesheet.find? buttonCode = none := by decide +kernel
  exact ⟨plain, parse_forestCode [] [] (fun index => 3 * index) buttonOutline plain⟩

end Document

end ScreenCompiler
