import ScreenCompiler.Proofs.Document.CursorBlocks
import ScreenCompiler.Proofs.Document.OpenFunctions

/-!
# A cursor reads what its blocks stand for

What a round, a call or a loop reads at a cursor is what recursive descent finds in the
items of the blocks there.  So a cursor over a whole source reads the forest of that source.
-/

namespace ScreenCompiler

open Text

namespace Cursor

/-- Items stand for a forest in front of what the lines behind it stand for. -/
def Leads (catalog : Catalog) (enclosing : List String) (items : List Item) (forest : Forest)
    (behind : Cursor) : Prop :=
  ∃ blocks, Stands behind blocks ∧ ∀ after final,
    Forest.Descent enclosing (blocks.flatMap (Block.items catalog)) after final →
      Forest.Descent enclosing items (forest ++ after) final

/-- Items stand for a tag, with its children still to be read. -/
inductive Tag.StandsFor (catalog : Catalog) (enclosing : List String) (items : List Item) :
    Tag → Prop where
  | alone {forest behind} :
      Leads catalog enclosing items forest behind →
      StandsFor catalog enclosing items (.alone forest behind)
  | element {faults tag props line inside blocks} :
      Stands inside blocks →
      items = faults.map .fault ++
        .opening tag props line :: blocks.flatMap (Block.items catalog) →
      StandsFor catalog enclosing items (.element faults tag props line inside)

variable {catalog : Catalog} {enclosing : List String}

theorem leads_alone {item : Item} {behind : Cursor} {blocks : List Block} {forest : Forest}
    (found : Forest.alone? (!enclosing.isEmpty) item = some forest)
    (stands : Stands behind blocks) :
    Leads catalog enclosing (item :: blocks.flatMap (Block.items catalog)) forest behind :=
  ⟨blocks, stands, fun _ _ descent => .alone found descent⟩

theorem Leads.faults {items : List Item} {forest : Forest} {behind : Cursor}
    (leads : Leads catalog enclosing items forest behind) (diagnostics : List Diagnostic) :
    Leads catalog enclosing (diagnostics.map .fault ++ items) (⟨[], [], diagnostics⟩ ++ forest)
      behind := by
  obtain ⟨blocks, stands, descends⟩ := leads
  refine ⟨blocks, stands, fun after final descent => ?_⟩
  rw [Forest.append_assoc]
  exact (descends after final descent).faults diagnostics

theorem leads_function {behind : Cursor} {blocks : List Block} (stands : Stands behind blocks)
    (number : Nat) (function : Function) (closed : Bool) :
    Leads catalog enclosing
      (Item.ofFunction number function closed ++ blocks.flatMap (Block.items catalog))
      (.ofFunction number function closed) behind := by
  have declared : Leads catalog enclosing
      (.declaration (.function function) :: blocks.flatMap (Block.items catalog))
      (.ofDeclaration (.function function)) behind := leads_alone rfl stands
  cases closed with
  | true => exact declared
  | false => exact declared.faults [.unterminatedFunction function.name number]

theorem items_ofHead (catalog : Catalog) (number : Nat) (head : Head) :
    Item.ofHead catalog number head =
      ((ScannedProps.read catalog head.attributes).unterminated.map
        (Diagnostic.unterminatedValue · number)).map .fault ++
          [if head.selfClosing then
            .leaf (String.ofList head.tag) (ScannedProps.read catalog head.attributes).props number
          else
            .opening (String.ofList head.tag) (ScannedProps.read catalog head.attributes).props
              number] := by
  rw [List.map_map]
  rfl

theorem Tag.standsFor_ofHead {behind : Cursor} {blocks : List Block} (stands : Stands behind blocks)
    (number : Nat) (head : Head) :
    (Tag.ofHead catalog number head behind).StandsFor catalog enclosing
      (Item.ofHead catalog number head ++ blocks.flatMap (Block.items catalog)) := by
  rw [items_ofHead, Tag.ofHead, List.append_assoc]
  cases head.selfClosing with
  | true => exact .alone ((leads_alone rfl stands).faults _)
  | false => exact .element stands rfl

theorem Tag.standsFor_ofAbandoned {behind : Cursor} {blocks : List Block}
    (stands : Stands behind blocks) (number : Nat) (text : List Char) :
    (Tag.ofAbandoned catalog number text behind).StandsFor catalog enclosing
      (.fault (.unterminatedTag (String.ofList (Head.abandoned text).tag) number) ::
        Item.ofHead catalog number (Head.abandoned text) ++
          blocks.flatMap (Block.items catalog)) := by
  rw [items_ofHead, Tag.ofAbandoned, List.cons_append, List.append_assoc]
  exact .alone ((leads_alone rfl stands).faults (.unterminatedTag _ number :: _))

theorem insert_ofText_nil (cursor : Cursor) (number : Nat) :
    cursor.insert number (Pieces.ofText []).segments = cursor := by
  rw [Pieces.ofText_nil]
  rfl

theorem Tag.standsFor_ofUnfinished {behind : Cursor} {blocks : List Block}
    (stands : Stands behind blocks) (number : Nat) (text : List Char) :
    (Tag.ofOpening catalog number behind (.ofUnfinished text)).StandsFor catalog enclosing
      (Item.ofUnfinished catalog number text ++ blocks.flatMap (Block.items catalog)) := by
  unfold Opening.ofUnfinished Item.ofUnfinished
  cases Head.recover? text with
  | some head =>
      simp only [Tag.ofOpening, insert_ofText_nil]
      exact standsFor_ofHead stands number head
  | none => exact standsFor_ofAbandoned stands number text

/-- What starts with an angle bracket and is no head stays text. -/
theorem tag_of_text {cursor behind : Cursor} {line : Line}
    (found : cursor.next? = some (line, behind)) (noHead : Head.isHead line.text = false) :
    cursor.tag catalog = .alone (.ofNode (.text (String.ofList line.text))) behind := by
  have opening : behind.readHead line.text = (.text line.text, behind) := by
    rw [readHead, noHead]
    rfl
  rw [tag_of_next? found, opening]
  rfl

/-- A line that is neither a head nor a closing tag is text. -/
theorem Meets.leads_text {behind : Cursor} {line : Line} {blocks : List Block}
    (meets : Meets (!enclosing.isEmpty) line behind blocks)
    (noHead : Head.isHead line.text = false) (noClosing : closingName? line.text = none) :
    Leads catalog enclosing (blocks.flatMap (Block.items catalog))
      (.ofNode (.text (String.ofList line.text))) behind := by
  cases meets with
  | piece segment stands =>
      cases lineKind_of_segment segment with
      | text _ => exact leads_alone rfl stands
      | closing closes => simp [noClosing] at closes
      | head isHead _ => simp [noHead] at isHead
  | word inside _ => exact leads_alone (by rw [inside]; rfl) (.lines _)
  | @tag lines segment =>
      cases lineKind_of_segment segment with
      | openHead isHead _ => simp [noHead] at isHead
      | openClosing closes =>
          have item : Item.ofOpenClosing line.number line.text =
              .text (String.ofList line.text) := by
            rw [Item.ofOpenClosing, Option.map_eq_none_iff.mp noClosing]
          have leads : Leads catalog enclosing
              (Item.ofOpenClosing line.number line.text ::
                (Block.ofLines lines).flatMap (Block.items catalog))
              (.ofNode (.text (String.ofList line.text))) ⟨[], lines⟩ :=
            leads_alone (by rw [item]; rfl) (.lines lines)
          rw [Block.ofText_of_openClosing segment closes]
          exact leads

theorem Meets.closing {inside : Bool} {behind : Cursor} {line : Line} {blocks : List Block}
    {name : List Char} (meets : Meets inside line behind blocks)
    (found : closingName? line.text = some name) :
    ∃ rest, Stands behind rest ∧ blocks.flatMap (Block.items catalog) =
      .closing (String.ofList name) line.number :: rest.flatMap (Block.items catalog) := by
  cases meets with
  | piece segment stands =>
      cases lineKind_of_segment segment with
      | text noTag => simp [closingName?_of_startsTag noTag] at found
      | head isHead _ => simp [closingName?_of_isHead isHead] at found
      | closing closes =>
          obtain rfl := Option.some.inj (closes.symm.trans found)
          exact ⟨_, stands, rfl⟩
  | word _ segment =>
      cases lineKind_of_segment segment with
      | text noTag => simp [closingName?_of_startsTag noTag] at found
  | @tag lines segment =>
      cases lineKind_of_segment segment with
      | openHead isHead _ => simp [closingName?_of_isHead isHead] at found
      | openClosing closes =>
          obtain ⟨written, shape, rfl⟩ := Option.map_eq_some_iff.mp found
          have item : Item.ofOpenClosing line.number line.text =
              .closing (String.ofList (trim written)) line.number := by
            rw [Item.ofOpenClosing, shape]
          refine ⟨_, .lines lines, ?_⟩
          rw [Block.ofText_of_openClosing segment closes, ← item]
          rfl

theorem Meets.tag_standsFor {cursor behind : Cursor} {line : Line} {blocks : List Block}
    (meets : Meets (!enclosing.isEmpty) line behind blocks)
    (found : cursor.next? = some (line, behind)) (noClosing : closingName? line.text = none) :
    (cursor.tag catalog).StandsFor catalog enclosing (blocks.flatMap (Block.items catalog)) := by
  by_cases isHead : Head.isHead line.text = true
  · cases meets with
    | piece segment stands =>
        cases lineKind_of_segment segment with
        | text noTag => simp [Head.isHead_of_startsTag noTag] at isHead
        | closing closes => simp [noClosing] at closes
        | @head inside _ ended =>
            have opening : behind.readHead line.text =
                (.complete (Head.ofInside inside) [], behind) := by
              rw [readHead, if_pos isHead, ended]
            rw [tag_of_next? found, opening, Tag.ofOpening, insert_ofText_nil]
            exact Tag.standsFor_ofHead stands line.number _
    | word _ segment =>
        cases lineKind_of_segment segment with
        | text noTag => simp [Head.isHead_of_startsTag noTag] at isHead
    | @tag lines segment =>
        cases lineKind_of_segment segment with
        | openClosing closes => simp [Head.isHead_of_closing closes] at isHead
        | openHead _ goesOn =>
            have other : startsWith ['<', '/'] line.text = false := by
              rw [Bool.eq_false_iff]
              intro closes
              simp [Head.isHead_of_closing closes] at isHead
            rw [tag_of_next? found, readHead_lines isHead goesOn lines, Block.ofText_eq,
              segment.ofText]
            simp only [other, Bool.false_eq_true, ↓reduceIte]
            cases read : Continued.read line.text lines with
            | unfinished last more =>
                exact Tag.standsFor_ofUnfinished (.lines more) line.number last
            | complete head rest more =>
                obtain ⟨added, -, ended⟩ := Continued.exists_joined_of_complete read
                exact Tag.standsFor_ofHead
                  (stands_insert (Head.trim_rest_read? ended) line.number more) line.number head
  · have noHead := Bool.eq_false_iff.mpr isHead
    rw [tag_of_text found noHead]
    exact .alone (meets.leads_text noHead noClosing)

theorem Stands.leads_declaration {cursor behind : Cursor} {blocks : List Block} {forest : Forest}
    (stands : Stands cursor blocks)
    (found : cursor.declaration? catalog (!enclosing.isEmpty) = some (forest, behind)) :
    Leads catalog enclosing (blocks.flatMap (Block.items catalog)) forest behind := by
  cases stands with
  | piece _ _ => simp [declaration?] at found
  | tag _ => simp [declaration?] at found
  | lines lines =>
      cases lines with
      | nil => simp [declaration?] at found
      | cons line lines =>
          rw [declaration?] at found
          rw [Block.ofLines_cons]
          split at found
          · rename_i declaration isLine
            obtain ⟨block, item, simple, items, alone⟩ := Declaration.exists_item_of_ofLine? isLine
            obtain ⟨rfl, rfl⟩ := Prod.mk.inj (Option.some.inj found)
            rw [simple]
            simp only [List.flatMap_cons, items]
            exact leads_alone alone (.lines lines)
          · rename_i noLine
            obtain ⟨opened, isOpened, same⟩ := Option.map_eq_some_iff.mp found
            obtain ⟨rfl, rfl⟩ := Prod.mk.inj same
            have simple : Block.simple? line.text = none := by
              refine (Declaration.simple?_of_ofLine? noLine).resolve_right fun word => ?_
              obtain ⟨-, isName, -⟩ := word
              have call :=
                Function.Signature.parenthesis_mem (Function.signature_of_open? isOpened).1
              simp [Import.isModuleName_of_parenthesis call] at isName
            rw [simple, isOpened]
            simp only [Block.ofOpened_eq]
            exact leads_function (.lines _) line.number _ _

/-- What a loop has read, up to the items at which it stops.  They start with the closing tag of an
element exactly if that tag stands at the cursor. -/
def Stops (catalog : Catalog) (enclosing : List String) (items : List Item) (forest : Forest)
    (rest : Cursor) : Prop :=
  ∃ left, Forest.Descent enclosing items forest left ∧ ∀ tag, ∃ blocks,
    Stands (rest.afterClosing tag).2 blocks ∧ Forest.afterClosing tag left =
      ((rest.afterClosing tag).1, blocks.flatMap (Block.items catalog))

theorem Leads.stops {items : List Item} {forest after : Forest} {behind rest : Cursor}
    (leads : Leads catalog enclosing items forest behind)
    (later : ∀ blocks, Stands behind blocks →
      Stops catalog enclosing (blocks.flatMap (Block.items catalog)) after rest) :
    Stops catalog enclosing items (forest ++ after) rest := by
  obtain ⟨blocks, stands, descends⟩ := leads
  obtain ⟨left, descent, closing⟩ := later blocks stands
  exact ⟨left, descends after left descent, closing⟩

theorem Stands.stops_of_turn {cursor rest : Cursor} {blocks : List Block}
    (stands : Stands cursor blocks) (solid : cursor.IsSolid)
    (found : cursor.turn catalog enclosing = .stop rest) :
    Stops catalog enclosing (blocks.flatMap (Block.items catalog)) .empty rest := by
  have turns := turns_turn catalog enclosing cursor
  rw [found] at turns
  cases turns with
  | ended undeclared noLine =>
      obtain ⟨stands, -⟩ := stands.expand solid undeclared
      rw [eq_of_next?_eq_none noLine] at stands ⊢
      cases stands with
      | lines =>
          rw [Block.ofLines_nil]
          exact ⟨[], .done, fun tag => ⟨[], Block.ofLines_nil ▸ .lines [], rfl⟩⟩
  | @closed line behind name undeclared next closes matched =>
      obtain ⟨stands, meets⟩ := stands.expand solid undeclared
      obtain ⟨more, standsBehind, items⟩ := (meets line behind next).closing closes
      refine ⟨blocks.flatMap (Block.items catalog), ?_, fun tag => ?_⟩
      · rw [items]
        exact .leave matched
      · rw [afterClosing, next, items]
        simp only [closes, Option.map_some, Option.some.injEq, Forest.afterClosing]
        by_cases same : String.ofList name = tag
        · simp only [same, ↓reduceIte]
          exact ⟨more, standsBehind, rfl⟩
        · simp only [same, ↓reduceIte]
          exact ⟨blocks, stands, by rw [items]⟩

/-- The children of an element and its closing tag are the element. -/
theorem Stops.leads {tag : String} {items : List Item} {children : Forest} {remaining : Cursor}
    (stops : Stops catalog (tag :: enclosing) items children remaining) (props : Props)
    (number : Nat) :
    Leads catalog enclosing (.opening tag props number :: items)
      (.wrap tag props number (remaining.afterClosing tag).1 children)
      (remaining.afterClosing tag).2 := by
  obtain ⟨left, inner, closing⟩ := stops
  obtain ⟨blocks, stands, closed⟩ := closing tag
  refine ⟨blocks, stands, fun after final outer => ?_⟩
  have behind : Forest.Descent enclosing (Forest.afterClosing tag left).2 after final := by
    rw [closed]
    exact outer
  have whole : Forest.Descent enclosing (.opening tag props number :: items) _ final :=
    .enter inner behind
  rw [closed] at whole
  exact whole

theorem Stands.leads_of_turn {cursor behind : Cursor} {blocks : List Block} {forest : Forest}
    (stands : Stands cursor blocks) (solid : cursor.IsSolid)
    (found : cursor.turn catalog enclosing = .alone forest behind) :
    Leads catalog enclosing (blocks.flatMap (Block.items catalog)) forest behind := by
  have turns := turns_turn catalog enclosing cursor
  rw [found] at turns
  cases turns with
  | declaration declared => exact stands.leads_declaration declared
  | @unmatched line _ name undeclared next closes unmatched =>
      obtain ⟨more, standsBehind, items⟩ :=
        ((stands.expand solid undeclared).2 line behind next).closing closes
      rw [items]
      exact ⟨more, standsBehind, fun after final descent => .unmatched unmatched descent⟩
  | @text line _ undeclared next noClosing noBracket =>
      have noHead : Head.isHead line.text = false := by
        rw [Bool.eq_false_iff]
        intro isHead
        rw [startsWith_of_isHead isHead] at noBracket
        exact Bool.false_ne_true noBracket.symm
      exact ((stands.expand solid undeclared).2 line behind next).leads_text noHead noClosing

theorem Stands.standsFor_of_turn {cursor opened : Cursor} {blocks : List Block}
    (stands : Stands cursor blocks) (solid : cursor.IsSolid)
    (found : cursor.turn catalog enclosing = .tag opened) :
    (opened.tag catalog).StandsFor catalog enclosing (blocks.flatMap (Block.items catalog)) := by
  have turns := turns_turn catalog enclosing cursor
  rw [found] at turns
  cases turns with
  | @tag line behind undeclared next noClosing _ =>
      exact ((stands.expand solid undeclared).2 line behind next).tag_standsFor next noClosing

mutual

theorem ReadsTag.leads {catalog : Catalog} : ∀ {enclosing : List String} {cursor : Cursor}
    {forest : Forest} {behind : Cursor} {rounds : Nat} {items : List Item},
    ReadsTag catalog enclosing cursor forest behind rounds → cursor.IsSolid →
      (cursor.tag catalog).StandsFor catalog enclosing items →
        Leads catalog enclosing items forest behind
  | _, _, _, _, _, _, .alone found, _, standsFor => by
      rw [found] at standsFor
      cases standsFor with
      | alone leads => exact leads
  | _, _, _, _, _, _, .element found loop, solid, standsFor => by
      rw [found] at standsFor
      cases standsFor with
      | element stands items =>
          rw [items]
          exact ((loop.stops (solid.inside found) stands).leads _ _).faults _

theorem Round.leads {catalog : Catalog} : ∀ {enclosing : List String} {cursor : Cursor}
    {forest : Forest} {behind : Cursor} {rounds : Nat} {blocks : List Block},
    Round catalog enclosing cursor forest behind rounds → cursor.IsSolid → Stands cursor blocks →
      Leads catalog enclosing (blocks.flatMap (Block.items catalog)) forest behind
  | _, _, _, _, _, _, .alone found, solid, stands => stands.leads_of_turn solid found
  | _, _, _, _, _, _, .tag found reads, solid, stands =>
      reads.leads ((startsTag_of_turn found).1 ▸ solid.expand)
        (stands.standsFor_of_turn solid found)

theorem Loop.stops {catalog : Catalog} : ∀ {enclosing : List String} {cursor : Cursor}
    {forest : Forest} {rest : Cursor} {rounds : Nat} {blocks : List Block},
    Loop catalog enclosing cursor forest rest rounds → cursor.IsSolid → Stands cursor blocks →
      Stops catalog enclosing (blocks.flatMap (Block.items catalog)) forest rest
  | _, _, _, _, _, _, .stop found, solid, stands => stands.stops_of_turn solid found
  | _, _, _, _, _, _, .next round loop, solid, stands =>
      (round.leads solid stands).stops fun _ standsBehind =>
        loop.stops (round.progress solid).1 standsBehind

end

theorem isSolid_ofSource (source : List Char) : (ofSource source).IsSolid :=
  fun _ membership => Line.text_ne_nil_of_mem_ofSource membership

/-- Outside of all elements nothing but the end of the lines stops a loop. -/
theorem pending_of_stop {cursor rest : Cursor} (found : cursor.turn catalog [] = .stop rest) :
    rest.pending = [] := by
  have turns := turns_turn catalog [] cursor
  rw [found] at turns
  cases turns with
  | closed _ _ _ matched => exact absurd matched List.not_mem_nil
  | ended _ noLine =>
      rw [eq_of_next?_eq_none noLine]
      rfl

theorem Loop.pending_eq_nil {catalog : Catalog} : ∀ {enclosing : List String} {cursor : Cursor}
    {forest : Forest} {rest : Cursor} {rounds : Nat},
    Loop catalog enclosing cursor forest rest rounds → enclosing = [] → rest.pending = []
  | _, _, _, _, _, .stop found, outside => by
      subst outside
      exact pending_of_stop found
  | _, _, _, _, _, .next _ loop, outside => loop.pending_eq_nil outside

/-- A loop over a whole source reads the forest of its items. -/
theorem Loop.forest_eq {source : List Char} {forest : Forest} {rest : Cursor} {rounds : Nat}
    (loop : Loop catalog [] (ofSource source) forest rest rounds) :
    forest = Forest.ofItems (Item.ofSource catalog source) := by
  obtain ⟨left, descent, -⟩ := loop.stops (isSolid_ofSource source) (.lines _)
  rcases descent.stops with rfl | ⟨_, _, _, -, matched⟩
  · exact descent.eq_ofItems.symm
  · exact absurd matched List.not_mem_nil

end Cursor

end ScreenCompiler
