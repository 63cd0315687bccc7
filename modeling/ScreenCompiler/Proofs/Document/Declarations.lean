import ScreenCompiler.Proofs.Document.Blocks
import ScreenCompiler.Proofs.Document.MarkupLines
import ScreenCompiler.Proofs.Document.Nodes

/-!
# Declarations between markup

A declaration is read where it stands and touches neither the tree nor its faults,
however many elements are open around it.  A stretch of lines that declares and does
nothing else is complete in itself: no line below it can be drawn into it.
-/

namespace ScreenCompiler

open Text

namespace Machine

variable (machine : Machine) (declarations : List Declaration)

theorem add_declare (nodes : List Node) :
    (machine.declare declarations).add nodes = (machine.add nodes).declare declarations := by
  obtain ⟨stack, outside, found, diagnostics⟩ := machine
  cases stack <;> rfl

theorem leave_declare (closed : Bool) :
    (machine.declare declarations).leave closed = (machine.leave closed).declare declarations := by
  obtain ⟨stack, outside, found, diagnostics⟩ := machine
  cases stack with
  | nil => rfl
  | cons element outer => cases outer <;> rfl

theorem closeInnermost_declare (tag : String) :
    (machine.declare declarations).closeInnermost tag =
      (machine.closeInnermost tag).declare declarations := by
  fun_induction closeInnermost tag machine with
  | case1 machine empty =>
      obtain ⟨stack, outside, found, diagnostics⟩ := machine
      obtain rfl : stack = [] := empty
      rw [declare, closeInnermost]
  | case2 machine element outer found same =>
      obtain ⟨stack, outside, declared, diagnostics⟩ := machine
      obtain rfl : stack = element :: outer := found
      rw [← leave_declare, declare, closeInnermost]
      simp only [same, ↓reduceIte]
  | case3 machine element outer found differs inductionHypothesis =>
      obtain ⟨stack, outside, declared, diagnostics⟩ := machine
      obtain rfl : stack = element :: outer := found
      rw [← inductionHypothesis, ← leave_declare, declare, closeInnermost]
      simp only [differs, ↓reduceIte]

theorem close_declare (tag : String) (line : Nat) :
    (machine.declare declarations).close tag line =
      (machine.close tag line).declare declarations := by
  by_cases opened : tag ∈ machine.tags
  · have remains : tag ∈ (machine.declare declarations).tags := opened
    rw [close, close, if_pos opened, if_pos remains, closeInnermost_declare]
  · have absent : tag ∉ (machine.declare declarations).tags := opened
    rw [close, close, if_neg opened, if_neg absent]
    rfl

theorem finish_declare :
    (machine.declare declarations).finish = machine.finish.declare declarations := by
  fun_induction finish machine with
  | case1 machine empty => exact finish_of_tags_nil (by simp [tags, declare, empty])
  | case2 machine element outer found inductionHypothesis =>
      have opened : (machine.declare declarations).tags =
          element.tag :: outer.map OpenElement.tag := by
        simp [tags, declare, found]
      rw [finish_of_tags_cons opened, leave_declare, inductionHypothesis]

variable {machine declarations}

/-- What declares nothing is read alike whatever has been declared. -/
theorem step_declare {item : Item} (plain : item.isPlain = true) :
    (machine.declare declarations).step item = (machine.step item).declare declarations := by
  cases item with
  | declaration found => exact absurd plain Bool.false_ne_true
  | word name => exact absurd plain Bool.false_ne_true
  | fault diagnostic => rfl
  | text run => exact add_declare machine declarations _
  | leaf tag props line => exact add_declare machine declarations _
  | opening tag props line => rfl
  | closing tag line => exact close_declare machine declarations tag line

theorem run_declare {items : List Item} (plain : ∀ item ∈ items, item.isPlain = true) :
    (machine.declare declarations).run items = (machine.run items).declare declarations := by
  induction items generalizing machine with
  | nil => exact finish_declare machine declarations
  | cons item items inductionHypothesis =>
      obtain ⟨isPlain, plain⟩ := List.forall_mem_cons.mp plain
      rw [run_cons, run_cons, step_declare isPlain, inductionHypothesis plain]

theorem foldl_step_declarations (machine : Machine) (declarations : List Declaration) :
    (declarations.map Item.declaration).foldl step machine = machine.declare declarations := by
  induction declarations generalizing machine with
  | nil => simp [declare]
  | cons declaration declarations inductionHypothesis =>
      rw [List.map_cons, List.foldl_cons, inductionHypothesis]
      simp [step, declare]

end Machine

namespace Forest

/-- Declarations are gathered; the tree and its faults are those without them. -/
theorem ofItems_insert (above : List Item) (declarations : List Declaration) {below : List Item}
    (plain : ∀ item ∈ below, item.isPlain = true) :
    ofItems (above ++ (declarations.map .declaration ++ below)) =
      { ofItems (above ++ below) with
        declarations := (ofItems (above ++ below)).declarations ++ declarations } := by
  rw [← Machine.forest_run_start, ← Machine.forest_run_start, Machine.run_append,
    Machine.run_append, Machine.run_append, Machine.foldl_step_declarations,
    Machine.run_declare plain]
  rfl

/-- A forest without nodes and faults has been read from items that declare. -/
theorem Descent.declarations_of_bare {enclosing : List String} {items final : List Item}
    {forest : Forest} (descent : Descent enclosing items forest final) (outside : enclosing = [])
    (nodes : forest.nodes = []) (diagnostics : forest.diagnostics = []) :
    items.map declaration? = forest.declarations.map some := by
  induction descent with
  | done => rfl
  | leave matched =>
      rw [outside] at matched
      exact absurd matched List.not_mem_nil
  | unmatched _ _ _ => simp [ofDiagnostic] at diagnostics
  | enter _ _ _ _ => simp [wrap] at nodes
  | @alone _ item rest alone after final found _ inductionHypothesis =>
      rw [nodes_append, List.append_eq_nil_iff] at nodes
      rw [diagnostics_append, List.append_eq_nil_iff] at diagnostics
      have later := inductionHypothesis outside nodes.2 diagnostics.2
      rw [List.map_cons, later, declarations_append, List.map_append]
      subst outside
      cases item with
      | declaration declaration =>
          obtain rfl := Option.some.inj found
          rfl
      | word name =>
          obtain rfl := Option.some.inj found
          rfl
      | opening tag props line => simp [alone?] at found
      | closing tag line => simp [alone?] at found
      | fault diagnostic =>
          obtain rfl := Option.some.inj found
          simp [ofDiagnostic] at diagnostics
      | text run =>
          obtain rfl := Option.some.inj found
          simp [ofNode] at nodes
      | leaf tag props line =>
          obtain rfl := Option.some.inj found
          simp [ofNode] at nodes

/-- Without module names the items are the declarations themselves. -/
theorem items_of_declaration? {items : List Item} {declarations : List Declaration}
    (declared : items.map declaration? = declarations.map some)
    (noWord : ∀ name, .word name ∉ items) : items = declarations.map .declaration := by
  induction items generalizing declarations with
  | nil =>
      obtain rfl : declarations = [] := by simpa using declared.symm
      rfl
  | cons item items inductionHypothesis =>
      cases declarations with
      | nil => simp at declared
      | cons declaration declarations =>
          rw [List.map_cons, List.map_cons, List.cons.injEq] at declared
          have later := inductionHypothesis declared.2
            fun name membership => noWord name (List.mem_cons_of_mem _ membership)
          rw [later, List.map_cons]
          congr 1
          cases item with
          | declaration found => rw [Option.some.inj declared.1]
          | word name => exact absurd List.mem_cons_self (noWord name)
          | _ => simp [declaration?] at declared

end Forest

namespace Function

theorem open?_append_of_open? {line : Line} {above : List Line} {opened : Opened}
    (found : open? line above = some opened) (below : List Line) :
    open? line (above ++ below) = some (opened.append below) := by
  cases above with
  | cons next above => rw [open?_cons_append, found, Option.map_some]
  | nil =>
      obtain ⟨read, allowed⟩ := signature_of_open? found
      simp only [open?, read, allowed, Bool.false_eq_true, ↓reduceIte] at found
      obtain ⟨opens, same⟩ := Option.ite_none_right_eq_some.mp found
      rw [List.nil_append, open?_of_opens read opens allowed below, ← Option.some.inj same]
      rfl

end Function

theorem Pieces.Reads.unfinished_of_whole_eq_nil {text : List Char} {pieces : Pieces}
    (reads : Reads text pieces) (solid : trim text ≠ []) (whole : pieces.whole = []) :
    pieces.unfinished.isSome = true := by
  cases reads with
  | text _ =>
      rw [addText_of_solid solid] at whole
      exact absurd whole (by simp [cons])
  | @tag run rest inside behind pieces =>
      have last : Piece.ofInside inside ∈
          (addText run (pieces.cons (Piece.ofInside inside))).whole := by
        unfold addText flush
        split
        · exact List.mem_cons_self
        · exact List.mem_cons_of_mem _ List.mem_cons_self
      rw [whole] at last
      exact absurd last List.not_mem_nil
  | unfinished _ _ _ =>
      rw [unfinished_addText]
      rfl

namespace Block

/-- Whether a block is a declaration and complete; a module name need not be one. -/
def isDeclaration : Block → Bool
  | imports _ => true
  | screen _ => true
  | state _ _ => true
  | function _ _ closed => closed
  | _ => false

/-- Whether a block may be a declaration: one that is complete, or a module name. -/
def mayDeclare : Block → Bool
  | word _ => true
  | block => block.isDeclaration

theorem mayDeclare_of_isDeclaration {block : Block} (declared : block.isDeclaration = true) :
    block.mayDeclare = true := by
  cases block with
  | word name => rfl
  | _ => exact declared

theorem isDeclaration_of_items {catalog : Catalog} {block : Block}
    (declared : ∀ item ∈ block.items catalog, ∃ declaration, item = .declaration declaration) :
    block.isDeclaration = true := by
  have tagged : ∀ number head, ∃ item ∈ Item.ofHead catalog number head,
      ∀ declaration, item ≠ .declaration declaration := by
    intro number head
    refine ⟨_, List.mem_append_right _ List.mem_cons_self, ?_⟩
    split <;> simp
  cases block with
  | imports statement => rfl
  | screen attributes => rfl
  | state name literal => rfl
  | word name => simp [items] at declared
  | function number function closed =>
      cases closed with
      | true => rfl
      | false => simp [items, Item.ofFunction] at declared
  | piece number found =>
      cases found with
      | text run => simp [items, Item.ofPiece] at declared
      | closing inside => simp [items, Item.ofPiece] at declared
      | head inside =>
          obtain ⟨item, membership, other⟩ := tagged number (Head.ofInside inside)
          obtain ⟨declaration, same⟩ := declared item membership
          exact absurd same (other declaration)
  | openClosing number tag =>
      obtain ⟨declaration, same⟩ := declared _ List.mem_cons_self
      unfold Item.ofOpenClosing at same
      split at same <;> simp at same
  | head number head =>
      obtain ⟨item, membership, other⟩ := tagged number head
      obtain ⟨declaration, same⟩ := declared item membership
      exact absurd same (other declaration)
  | unfinished number text =>
      have found : ∃ item ∈ Item.ofUnfinished catalog number text,
          ∀ declaration, item ≠ .declaration declaration := by
        unfold Item.ofUnfinished
        split
        · exact tagged number _
        · exact ⟨_, List.mem_cons_self, by simp⟩
      obtain ⟨item, membership, other⟩ := found
      obtain ⟨declaration, same⟩ := declared item membership
      exact absurd same (other declaration)

theorem exists_mem_ofText {text : List Char} (solid : trim text ≠ []) (number : Nat)
    (lines : List Line) : ∃ block ∈ ofText number text lines, block.mayDeclare = false := by
  rw [ofText_eq]
  cases whole : (Pieces.ofText text).whole with
  | cons found others => exact ⟨piece number found, by simp, rfl⟩
  | nil =>
      have unfinished := (Pieces.reads_ofText text).unfinished_of_whole_eq_nil solid whole
      obtain ⟨tag, isOpen⟩ := Option.isSome_iff_exists.mp unfinished
      simp only [List.map_nil, List.nil_append, isOpen]
      split
      · exact ⟨openClosing number tag, List.mem_cons_self, rfl⟩
      · split
        · exact ⟨_, List.mem_cons_self, rfl⟩
        · exact ⟨_, List.mem_cons_self, rfl⟩

/-- Lines that declare take nothing from the lines below them. -/
theorem ofLines_append_of_declarations {above : List Line} (below : List Line)
    (solid : ∀ line ∈ above, trim line.text ≠ [])
    (declared : ∀ block ∈ ofLines above, block.isDeclaration = true) :
    ofLines (above ++ below) = ofLines above ++ ofLines below := by
  revert solid declared
  refine ofLines.induct
    (fun above => (∀ line ∈ above, trim line.text ≠ []) →
      (∀ block ∈ ofLines above, block.isDeclaration = true) →
        ofLines (above ++ below) = ofLines above ++ ofLines below)
    (fun _ _ _ => True) ?ended ?simple ?opened ?markup ?text above
  case ended =>
    intro solid declared
    simp
  case simple =>
    intro line lines block simple inductionHypothesis solid declared
    rw [ofLines_cons, simple] at declared
    have joined := inductionHypothesis (List.forall_mem_cons.mp solid).2
      (List.forall_mem_cons.mp declared).2
    rw [List.cons_append, ofLines_cons, ofLines_cons, simple]
    simp only [List.cons_append, joined]
  case opened =>
    intro line lines simple opened found _ inductionHypothesis solid declared
    rw [ofLines_cons, simple, found] at declared
    obtain ⟨isClosed, declared⟩ := List.forall_mem_cons.mp declared
    obtain ⟨rest, closed⟩ := Option.isSome_iff_exists.mp isClosed
    rw [closed] at declared
    have behind : rest <:+ line :: lines :=
      ((Function.rest_readBody_suffix closed).trans (Function.lines_open?_suffix found)).trans
        (List.suffix_cons ..)
    have joined := inductionHypothesis rest closed
      (fun line membership => solid line (behind.subset membership)) declared
    rw [List.cons_append, ofLines_cons, ofLines_cons, simple,
      Function.open?_append_of_open? found, found]
    exact ofOpened_append closed joined
  case markup =>
    -- a line that is read as markup has a piece, and that is no declaration
    intro line lines simple found _ solid declared
    rw [ofLines_cons, simple, found] at declared
    obtain ⟨block, membership, other⟩ :=
      exists_mem_ofText (solid line List.mem_cons_self) line.number lines
    rw [mayDeclare_of_isDeclaration (declared block membership)] at other
    exact absurd other.symm Bool.false_ne_true
  case text =>
    intros
    trivial

theorem isModuleName_of_simple? {line name : List Char} (found : simple? line = some (word name)) :
    Import.isModuleName line = true := by
  cases declares_of_simple? found with
  | word isName => exact isName

/-- A module name among the blocks stands alone on a line. -/
theorem exists_isModuleName_of_word {name : List Char} {lines : List Line}
    (membership : word name ∈ ofLines lines) :
    ∃ line ∈ lines, Import.isModuleName line.text = true := by
  cases standsIn_of_mem_ofLines _ membership with
  | simple within simple =>
      exact ⟨_, within.subset List.mem_cons_self, isModuleName_of_simple? simple⟩

end Block

end ScreenCompiler
