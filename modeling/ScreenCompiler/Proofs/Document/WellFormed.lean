import ScreenCompiler.Proofs.Document.Blocks
import ScreenCompiler.Proofs.Document.Declared
import ScreenCompiler.Proofs.Document.Elements
import ScreenCompiler.Proofs.Document.Insertion
import ScreenCompiler.Proofs.Document.Stylesheets
import ScreenCompiler.Proofs.Document.Writing
import ScreenCompiler.Proofs.Markup.Runs

/-!
# Parsed documents are well-formed

Whatever a source holds, its document keeps the invariants that the generated module
relies on.  They hold of every item where it is read, and a document has nothing that
does not stem from an item.
-/

namespace ScreenCompiler

open Text

/-- Whether some of the lines has the number. -/
def Line.Numbers (lines : List Line) (number : Nat) : Prop :=
  ∃ line ∈ lines, line.number = number

/-- A letter, followed by the other characters of a tag. -/
def Head.IsTag (tag : List Char) : Prop :=
  ∃ name : TagName, tag = name.text

namespace Head

theorem isTag_takeWhile {c : Char} (letter : isAsciiLetter c = true) (rest : List Char) :
    IsTag ((c :: rest).takeWhile isTagChar) := by
  have first : isTagChar c = true := by simp [isTagChar, isAsciiAlphanumeric, letter]
  rw [List.takeWhile_cons_of_pos first]
  exact ⟨⟨c, rest.takeWhile isTagChar, letter, List.all_takeWhile⟩, rfl⟩

theorem isTag_ofInside {c : Char} (letter : isAsciiLetter c = true) (rest : List Char) :
    IsTag (ofInside (c :: rest)).tag := by
  rw [tag_ofInside]
  exact isTag_takeWhile letter rest

theorem exists_behind_of_read? {text rest : List Char} {head : Head}
    (found : read? text = some (head, rest)) : ∃ behind, behind <:+ text ∧ rest = trim behind := by
  unfold read? at found
  split at found
  · rename_i inner
    obtain ⟨⟨inside, behind⟩, ended, same⟩ := Option.map_eq_some_iff.mp found
    obtain ⟨-, rfl⟩ := Prod.mk.inj same
    refine ⟨behind, ?_, rfl⟩
    rw [append_of_findEnd? ended]
    exact ⟨'<' :: inside ++ ['>'], by simp⟩
  · simp at found

/-- A text that starts like an opening tag. -/
def Opens (text : List Char) : Prop :=
  ∃ c rest, text = '<' :: c :: rest ∧ isAsciiLetter c = true

theorem Opens.widen {text longer : List Char} (opens : Opens text) (within : text <+: longer) :
    Opens longer := by
  obtain ⟨c, rest, rfl, letter⟩ := opens
  obtain ⟨more, rfl⟩ := within
  exact ⟨c, rest ++ more, rfl, letter⟩

theorem Opens.isTag_tagOf {text : List Char} (opens : Opens text) : IsTag (tagOf text) := by
  obtain ⟨c, rest, rfl, letter⟩ := opens
  exact isTag_takeWhile letter rest

end Head

namespace Block

variable {source : List Line}

theorem Reaches.numbers {number : Nat} {text : List Char} {below : List Line}
    (reaches : Reaches source number text below) : Line.Numbers source number := by
  induction reaches with
  | line within => exact ⟨_, within.subset List.mem_cons_self, rfl⟩
  | behind _ _ _ _ inductionHypothesis => exact inductionHypothesis

theorem opens_of_unfinished {text tag : List Char}
    (tagged : (Pieces.ofText text).unfinished = some tag)
    (isOpening : startsWith ['<', '/'] tag = false) : Head.Opens tag := by
  obtain ⟨-, segment⟩ := (Pieces.reads_ofText text).unfinished_tag tagged
  cases segment with
  | unfinished starts _ =>
      obtain ⟨c, rest, shape, solid⟩ := Head.startsTag_iff.mp starts
      rw [shape] at isOpening ⊢
      rcases Bool.or_eq_true_iff.mp solid with letter | slash
      · exact ⟨c, rest, rfl, letter⟩
      · rw [beq_iff_eq.mp slash] at isOpening
        exact absurd isOpening (by simp [startsWith, afterPrefix?])

section Flat

variable (noFeed : ∀ line ∈ source, '\n' ∉ line.raw)

include noFeed

theorem feed_notMem_text {line : Line} (membership : line ∈ source) : '\n' ∉ line.text :=
  fun inside => noFeed line membership (mem_of_mem_trim inside)

theorem feed_notMem_joined {text : List Char} {added : List Line} (flat : '\n' ∉ text)
    (within : added ⊆ source) : '\n' ∉ Continued.joined text added := by
  intro membership
  rcases Continued.mem_joined membership with inText | blank | ⟨line, isAdded, inLine⟩
  · exact flat inText
  · exact absurd blank (by decide)
  · exact feed_notMem_text noFeed (within isAdded) inLine

/-- The texts that the reading reaches have no blanks at their ends and stand on one line. -/
theorem Reaches.isTrimmed {number : Nat} {text : List Char} {below : List Line}
    (reaches : Reaches source number text below) : trim text = text ∧ '\n' ∉ text := by
  induction reaches with
  | line within =>
      exact ⟨trim_trim _, feed_notMem_text noFeed (within.subset List.mem_cons_self)⟩
  | behind reaches tagged _ found inductionHypothesis =>
      obtain ⟨added, rfl, ended⟩ := Continued.exists_joined_of_complete found
      obtain ⟨behind, within, rfl⟩ := Head.exists_behind_of_read? ended
      have tagWithin := ((Pieces.reads_ofText _).unfinished_tag tagged).1
      have flat := feed_notMem_joined noFeed
        (fun inTag => inductionHypothesis.2 (tagWithin.subset inTag))
        (List.Subset.trans (List.subset_append_left added _) reaches.suffix.subset)
      exact ⟨trim_trim _, fun inside => flat (within.subset (mem_of_mem_trim inside))⟩

/-- A run of text among the pieces of a text that the reading reaches. -/
theorem Reaches.isRun {number : Nat} {text segment : List Char} {below : List Line}
    (reaches : Reaches source number text below)
    (membership : segment ∈ (Pieces.ofText text).segments) : IsRun segment := by
  obtain ⟨trimmed, flat⟩ := reaches.isTrimmed noFeed
  have within := (Pieces.segment_of_mem_segments membership).1
  rw [← trimmed] at membership
  obtain ⟨nonempty, isTrimmed⟩ := Pieces.trim_of_mem_segments membership
  exact ⟨nonempty, isTrimmed, fun inside => flat (within.subset inside)⟩

end Flat

end Block

namespace Item

/-- What holds of every item that is read from some lines. -/
def IsSound (source : List Line) : Item → Prop
  | .fault diagnostic => Line.Numbers source diagnostic.line
  | .declaration (.function function) => function.name.toList ∉ Function.reservedNames
  | .declaration (.screen screen) => screen.extra.IsWellFormed
  | .declaration _ => True
  | .word name => IsRun name
  | .text run => IsRun run.toList
  | .leaf tag props line => Head.IsTag tag.toList ∧ props.IsWellFormed ∧ Line.Numbers source line
  | .opening tag props line =>
      Head.IsTag tag.toList ∧ props.IsWellFormed ∧ Line.Numbers source line
  | .closing _ line => Line.Numbers source line

variable {source : List Line} {catalog : Catalog}

theorem isSound_ofHead {number : Nat} {head : Head} (numbers : Line.Numbers source number)
    (isTag : Head.IsTag head.tag) : ∀ item ∈ ofHead catalog number head, item.IsSound source := by
  intro item membership
  have props : (ScannedProps.read catalog head.attributes).props.IsWellFormed :=
    ScannedProps.isWellFormed_ofAttributes catalog _
  have named : Head.IsTag (String.ofList head.tag).toList := by rwa [String.toList_ofList]
  rcases List.mem_append.mp membership with fault | tag
  · obtain ⟨name, -, rfl⟩ := List.mem_map.mp fault
    exact numbers
  · obtain rfl := List.mem_singleton.mp tag
    split <;> exact ⟨named, props, numbers⟩

theorem isSound_ofUnfinished {number : Nat} {text : List Char}
    (numbers : Line.Numbers source number) (opens : Head.Opens text) :
    ∀ item ∈ ofUnfinished catalog number text, item.IsSound source := by
  unfold ofUnfinished
  split
  · rename_i head found
    exact isSound_ofHead numbers (Head.tag_of_recover? found ▸ opens.isTag_tagOf)
  · exact List.forall_mem_cons.mpr ⟨numbers, isSound_ofHead numbers opens.isTag_tagOf⟩

end Item

namespace Screen

theorem extra_set (screen : Screen) (key : String) (value : PropValue) :
    (screen.set key value).extra = screen.extra ∨
      (screen.set key value).extra = screen.extra.insert key value := by
  unfold set
  split
  · exact .inl rfl
  · split
    · exact .inl rfl
    · split
      · exact .inl rfl
      · split
        · exact .inl rfl
        · split
          · exact .inl rfl
          · exact .inr rfl

theorem isWellFormed_extra_set {screen : Screen} (wellFormed : screen.extra.IsWellFormed)
    {key : String} {value : PropValue} (fits : value.FitsName key) :
    (screen.set key value).extra.IsWellFormed := by
  rcases screen.extra_set key value with same | inserted
  · rwa [same]
  · rw [inserted]
    exact wellFormed.insert fits

theorem isWellFormed_extra_ofProps {props : Props} (wellFormed : props.IsWellFormed) :
    (ofProps props).extra.IsWellFormed := by
  obtain ⟨-, fits⟩ := wellFormed
  obtain ⟨entries⟩ := props
  rw [ofProps]
  induction entries using List.reverseRecOn with
  | nil => exact .empty
  | append_singleton entries last inductionHypothesis =>
      obtain ⟨earlier, own⟩ := List.forall_mem_append.mp fits
      rw [List.foldl_append]
      exact isWellFormed_extra_set (inductionHypothesis earlier) (own last List.mem_cons_self)

end Screen

namespace Block

variable {source : List Line} {catalog : Catalog} {block : Block}

theorem isSound_of_simple? {line : Line} (noFeed : '\n' ∉ line.text)
    (solid : line.text ≠ []) (found : simple? line.text = some block) :
    ∀ item ∈ block.items catalog, item.IsSound source := by
  cases declares_of_simple? found with
  | imports _ => exact List.forall_mem_singleton.mpr trivial
  | word _ => exact List.forall_mem_singleton.mpr ⟨solid, trim_trim _, noFeed⟩
  | screen _ =>
      exact List.forall_mem_singleton.mpr
        (Screen.isWellFormed_extra_ofProps (ScannedProps.isWellFormed_ofAttributes catalog _))
  | state _ => exact List.forall_mem_singleton.mpr trivial

theorem name_of_open? {line : Line} {below : List Line} {opened : Function.Opened}
    (found : Function.open? line below = some opened) :
    opened.signature.name ∉ Function.reservedNames := by
  have allowed := (Function.signature_of_open? found).2
  intro reserved
  rw [Function.Signature.isReserved, List.contains_iff_mem.mpr reserved] at allowed
  contradiction

/-- A head among the pieces of a text starts with the letter of its tag. -/
theorem exists_letter_of_head {text inside : List Char}
    (membership : .head inside ∈ (Pieces.ofText text).whole) :
    ∃ c rest, inside = c :: rest ∧ isAsciiLetter c = true := by
  have segment := ((Pieces.reads_ofText text).whole _ membership).2
  generalize Piece.written (.head inside) = written at segment
  generalize pieces : (⟨[.head inside], none⟩ : Pieces) = found at segment
  cases segment with
  | text _ _ _ => simp at pieces
  | unfinished _ _ => simp at pieces
  | @tag other starts ended =>
      obtain ⟨c, rest, rfl, solid⟩ := Head.exists_of_startsTag starts ended
      have isHead : Piece.head inside = Piece.ofInside (c :: rest) := by simpa using pieces
      rcases Bool.or_eq_true_iff.mp solid with letter | slash
      · have other : c ≠ '/' := ne_of_class letter (by decide)
        rw [Piece.ofInside] at isHead
        · exact ⟨c, rest, Piece.head.inj isHead, letter⟩
        · exact fun inner same => other (List.cons.inj same).1
      · rw [beq_iff_eq.mp slash] at isHead
        simp [Piece.ofInside] at isHead

/-- Every item of a block that stands in some lines is sound. -/
theorem StandsIn.isSound (noFeed : ∀ line ∈ source, '\n' ∉ line.raw)
    (solid : ∀ line ∈ source, line.text ≠ []) (stands : StandsIn source block) :
    ∀ item ∈ block.items catalog, item.IsSound source := by
  cases stands with
  | simple within simple =>
      have inside := within.subset List.mem_cons_self
      exact isSound_of_simple? (feed_notMem_text noFeed inside) (solid _ inside) simple
  | function within opened =>
      have numbers : Line.Numbers source _ := ⟨_, within.subset List.mem_cons_self, rfl⟩
      refine List.forall_mem_append.mpr ⟨?_, List.forall_mem_singleton.mpr ?_⟩
      · split
        · exact List.forall_mem_nil _
        · exact List.forall_mem_singleton.mpr numbers
      · rw [Item.IsSound, Function.ofBody, String.toList_ofList]
        exact name_of_open? opened
  | @piece number text below found reaches whole =>
      have written : found.written ∈ (Pieces.ofText text).segments :=
        List.mem_append_left _ (List.mem_map_of_mem whole)
      cases found with
      | text run =>
          refine List.forall_mem_singleton.mpr ?_
          rw [Item.IsSound, String.toList_ofList]
          exact reaches.isRun noFeed written
      | closing inside => exact List.forall_mem_singleton.mpr reaches.numbers
      | head inside =>
          obtain ⟨c, rest, rfl, letter⟩ := exists_letter_of_head whole
          exact Item.isSound_ofHead reaches.numbers (Head.isTag_ofInside letter rest)
  | openClosing reaches tagged closes =>
      refine List.forall_mem_singleton.mpr ?_
      unfold Item.ofOpenClosing
      split
      · exact reaches.numbers
      · rw [Item.IsSound, String.toList_ofList]
        exact reaches.isRun noFeed
          (List.mem_append_right _ (Option.mem_toList.mpr tagged))
  | head reaches tagged isOpening found =>
      obtain ⟨added, -, ended⟩ := Continued.exists_joined_of_complete found
      have opens := (opens_of_unfinished tagged isOpening).widen
        (Continued.prefix_joined _ added)
      exact Item.isSound_ofHead reaches.numbers (Head.tag_of_read? ended ▸ opens.isTag_tagOf)
  | unfinished reaches tagged isOpening found =>
      obtain ⟨added, -, rfl⟩ := Continued.exists_joined_of_unfinished found
      exact Item.isSound_ofUnfinished reaches.numbers
        ((opens_of_unfinished tagged isOpening).widen (Continued.prefix_joined _ added))

end Block

namespace Item

theorem isSound_of_mem_ofSource {catalog : Catalog} {source : List Char} :
    ∀ item ∈ ofSource catalog source, item.IsSound (Line.ofSource source) := by
  intro item membership
  obtain ⟨block, inSource, inBlock⟩ := List.mem_flatMap.mp membership
  refine (Block.standsIn_of_mem_ofLines block inSource).isSound ?_ ?_ item inBlock
  · exact fun line isLine => feed_not_mem_of_mem_lines (Line.mem_numbered isLine)
  · exact fun line isLine => Line.text_ne_nil_of_mem_ofSource isLine

end Item

namespace Forest.StemsFrom

variable {source : List Line} {items : List Item} {forest : Forest}
variable (stems : StemsFrom items forest) (sound : ∀ item ∈ items, item.IsSound source)

include stems sound

theorem sound_elements : ∀ element ∈ Node.elementsOf forest.nodes,
    Head.IsTag element.tag.toList ∧ element.props.IsWellFormed ∧
      Line.Numbers source element.line := by
  intro element membership
  rcases stems.elements element membership with leaf | opening
  · exact sound _ leaf
  · exact sound _ opening

theorem sound_texts : ∀ text ∈ Node.textsOf forest.nodes, IsRun text.toList := by
  intro text membership
  rcases stems.texts text membership with run | ⟨name, word, rfl⟩
  · exact sound _ run
  · rw [String.toList_ofList]
    exact sound _ word

theorem sound_declarations : ∀ declaration ∈ forest.declarations,
    Item.IsSound source (.declaration declaration) := by
  intro declaration membership
  obtain ⟨item, inside, declares⟩ := stems.declarations declaration membership
  have isSound := sound item inside
  cases item with
  | declaration own => rwa [← Option.some.inj declares]
  | word name =>
      rw [← Option.some.inj declares]
      trivial
  | _ => simp [declaration?] at declares

theorem sound_diagnostics : ∀ diagnostic ∈ forest.diagnostics,
    Line.Numbers source diagnostic.line := by
  intro diagnostic membership
  rcases stems.diagnostics diagnostic membership with fault | ⟨tag, line, closing, rfl⟩ |
    ⟨tag, props, line, opening, rfl⟩
  · exact sound _ fault
  · exact sound _ closing
  · exact (sound _ opening).2.2

end Forest.StemsFrom

namespace Document

/-- What holds of the document of every source. -/
structure IsWellFormed (source : List Char) (document : Document) : Prop where
  /-- States stand in the order of their first declarations. -/
  states : document.states.map State.name = ((declaredStates source).map State.name).eraseDups
  distinctStates : (document.states.map State.name).Nodup
  /-- A state is its last declaration. -/
  lastStates : ∀ state ∈ document.states,
    (declaredStates source).reverse.find? (fun other => other.name = state.name) = some state
  props : ∀ element ∈ Node.elementsOf document.nodes, element.props.IsWellFormed
  extra : ∀ screen, document.screen = some screen → screen.extra.IsWellFormed
  tags : ∀ element ∈ Node.elementsOf document.nodes, Head.IsTag element.tag.toList
  texts : ∀ text ∈ Node.textsOf document.nodes, IsRun text.toList
  functions : ∀ function ∈ document.functions, function.name.toList ∉ Function.reservedNames
  elementLines : ∀ element ∈ Node.elementsOf document.nodes,
    1 ≤ element.line ∧ element.line ≤ (lines source).length
  diagnosticLines : ∀ diagnostic ∈ document.diagnostics,
    1 ≤ diagnostic.line ∧ diagnostic.line ≤ (lines source).length

variable (catalog : Catalog) (source : List Char)

theorem sound_items_forestOf :
    ∀ item ∈ Item.ofSource catalog (Stylesheet.cut source).remaining,
      item.IsSound (Line.ofSource (Stylesheet.cut source).remaining) :=
  Item.isSound_of_mem_ofSource

theorem stemsFrom_forestOf :
    Forest.StemsFrom (Item.ofSource catalog (Stylesheet.cut source).remaining)
      (forestOf catalog source) :=
  Forest.stemsFrom_ofItems _

theorem isWellFormed_extra {screen : Screen}
    (isScreen : (parse catalog source).screen = some screen) :
    screen.extra.IsWellFormed := by
  rw [screen_parse] at isScreen
  obtain ⟨declaration, inside, isSettings⟩ :=
    List.mem_filterMap.mp (List.mem_of_mem_getLast? isScreen)
  have sound := (stemsFrom_forestOf catalog source).sound_declarations
    (sound_items_forestOf catalog source) declaration inside
  cases declaration with
  | screen settings => rwa [← Option.some.inj isSettings]
  | _ => simp [Declaration.screen?] at isSettings

theorem name_of_mem_functions {function : Function}
    (membership : function ∈ (parse catalog source).functions) :
    function.name.toList ∉ Function.reservedNames := by
  rw [functions_parse] at membership
  obtain ⟨declaration, inside, isFunction⟩ := List.mem_filterMap.mp membership
  have sound := (stemsFrom_forestOf catalog source).sound_declarations
    (sound_items_forestOf catalog source) declaration inside
  cases declaration with
  | function own => rwa [← Option.some.inj isFunction]
  | _ => simp [Declaration.function?] at isFunction

/-- A line number of what remains without the stylesheet is one of the source. -/
theorem bounds_of_numbers {number : Nat}
    (numbers : Line.Numbers (Line.ofSource (Stylesheet.cut source).remaining) number) :
    1 ≤ number ∧ number ≤ (lines source).length := by
  obtain ⟨line, membership, rfl⟩ := numbers
  have bounds := Line.number_of_mem_numbered membership
  have fewer := (Stylesheet.cutOf_cut source).length_lines
  omega

theorem line_of_mem_diagnostics {diagnostic : Diagnostic}
    (membership : diagnostic ∈ (parse catalog source).diagnostics) :
    1 ≤ diagnostic.line ∧ diagnostic.line ≤ (lines source).length := by
  rw [diagnostics_parse] at membership
  rcases List.mem_append.mp membership with stylesheet | own
  · obtain ⟨line, unterminated, rfl⟩ := Option.map_eq_some_iff.mp (Option.mem_toList.mp stylesheet)
    exact (Stylesheet.cutOf_cut source).unterminatedAt_le unterminated
  · exact bounds_of_numbers source ((stemsFrom_forestOf catalog source).sound_diagnostics
      (sound_items_forestOf catalog source) diagnostic own)

/-- Every source has a well-formed document. -/
theorem parse_isWellFormed : IsWellFormed source (parse catalog source) := by
  have stems := stemsFrom_forestOf catalog source
  have sound := sound_items_forestOf catalog source
  have elements := stems.sound_elements sound
  have texts := stems.sound_texts sound
  rw [← nodes_parse] at elements texts
  have states := states_parse catalog source
  exact {
    states := by rw [states, State.names_putAll]
    distinctStates := by
      rw [states]
      exact State.nodup_names_putAll _
    lastStates := by
      rw [states]
      exact fun _ membership => State.find?_reverse_of_mem_putAll membership
    props := fun element membership => (elements element membership).2.1
    extra := fun _ isScreen => isWellFormed_extra catalog source isScreen
    tags := fun element membership => (elements element membership).1
    texts := texts
    functions := fun _ membership => name_of_mem_functions catalog source membership
    elementLines := fun element membership =>
      bounds_of_numbers source (elements element membership).2.2
    diagnosticLines := fun _ membership => line_of_mem_diagnostics catalog source membership }

end Document

end ScreenCompiler
