import ScreenCompiler.Catalog.Standard
import ScreenCompiler.Proofs.Document.Machine
import ScreenCompiler.Proofs.Document.MarkupLines

/-!
# The machine on lines

Where every line is one segment, the machine reads the lines themselves, from left
to right and each one once.  What recursive descent makes of the source is what the
machine has put out at the end.
-/

namespace ScreenCompiler

open Text

/-- The name in a line that is a closing tag. -/
def closingName? (text : List Char) : Option (List Char) :=
  ((afterPrefix? ['<', '/'] text).bind (beforeSuffix? ['>'])).map trim

namespace Machine

/-- The faults of a head are reported when it is read, before anything inside it. -/
def readHead (catalog : Catalog) (number : Nat) (machine : Machine) (head : Head) : Machine :=
  let scanned := ScannedProps.read catalog head.attributes
  let tag := String.ofList head.tag
  let reported := machine.report (scanned.unterminated.map (.unterminatedValue · number))
  if head.selfClosing then reported.add [.element tag scanned.props [] number]
  else reported.enter tag scanned.props number

/-- A line is a closing tag, a head, or text. -/
def readLine (catalog : Catalog) (machine : Machine) (line : Line) : Machine :=
  match closingName? line.text with
  | some name => machine.close (String.ofList name) line.number
  | none =>
      match Head.isHead line.text, Head.read? line.text with
      | true, some (head, _) => machine.readHead catalog line.number head
      | _, _ => machine.add [.text (String.ofList line.text)]

theorem foldl_step_fault (machine : Machine) (diagnostics : List Diagnostic) :
    (diagnostics.map Item.fault).foldl step machine = machine.report diagnostics := by
  induction diagnostics generalizing machine with
  | nil => simp [report]
  | cons diagnostic diagnostics inductionHypothesis =>
      rw [List.map_cons, List.foldl_cons, inductionHypothesis]
      simp [step, report]

theorem foldl_step_ofHead (catalog : Catalog) (number : Nat) (machine : Machine) (head : Head) :
    (Item.ofHead catalog number head).foldl step machine =
      machine.readHead catalog number head := by
  have faults := foldl_step_fault machine
    ((ScannedProps.read catalog head.attributes).unterminated.map (.unterminatedValue · number))
  rw [List.map_map] at faults
  rw [Item.ofHead, List.foldl_append]
  change List.foldl step (List.foldl step machine (List.map (Item.fault ∘ _) _)) _ = _
  rw [faults, readHead]
  cases head.selfClosing <;> rfl

end Machine

theorem closingName?_eq_none {text : List Char} (other : ∀ rest, text ≠ '<' :: '/' :: rest) :
    closingName? text = none := by
  cases found : afterPrefix? ['<', '/'] text with
  | none => rw [closingName?, found]; rfl
  | some rest => exact absurd (afterPrefix?_eq_some_iff.mp found) (other rest)

theorem closingName?_closing (inside : List Char) :
    closingName? ('<' :: '/' :: inside ++ ['>']) = some (trim inside) := by
  have opening : afterPrefix? ['<', '/'] ('<' :: '/' :: inside ++ ['>']) = some (inside ++ ['>']) :=
    afterPrefix?_eq_some_iff.mpr rfl
  have ending : beforeSuffix? ['>'] (inside ++ ['>']) = some inside :=
    beforeSuffix?_eq_some_iff.mpr rfl
  rw [closingName?, opening, Option.bind_some, ending, Option.map_some]

theorem Head.isHead_of_startsTag {text : List Char} (noTag : startsTag text = false) :
    isHead text = false := by
  match text, noTag with
  | [], _ => rfl
  | [c], _ => simp [isHead]
  | c :: d :: rest, noTag =>
      by_cases bracket : c = '<'
      · subst bracket
        exact (Bool.or_eq_false_iff.mp noTag).1
      · simp [isHead, bracket]

theorem Pieces.startsTag_of_beforeTag {run : List Char} (solid : run ≠ [])
    (alone : beforeTag 0 run = (run, [])) : Head.startsTag run = false := by
  by_contra starts
  rw [Bool.not_eq_false] at starts
  rw [beforeTag_of_startsTag starts, Prod.mk.injEq] at alone
  exact solid alone.1.symm

namespace Machine

theorem readLine_text (catalog : Catalog) (machine : Machine) {line : Line}
    (noTag : Head.startsTag line.text = false) :
    machine.readLine catalog line = machine.add [.text (String.ofList line.text)] := by
  have noClosing : closingName? line.text = none := by
    apply closingName?_eq_none
    intro rest shape
    rw [shape] at noTag
    exact absurd noTag (by simp [Head.startsTag])
  simp only [readLine, noClosing, Head.isHead_of_startsTag noTag]

theorem readLine_closing (catalog : Catalog) (machine : Machine) {line : Line}
    {inside : List Char} (shape : line.text = '<' :: '/' :: inside ++ ['>']) :
    machine.readLine catalog line =
      machine.close (String.ofList (trim inside)) line.number := by
  rw [readLine, shape, closingName?_closing]

theorem readLine_head (catalog : Catalog) (machine : Machine) {line : Line} {c : Char}
    {rest : List Char} (letter : isAsciiLetter c = true)
    (shape : line.text = '<' :: (c :: rest) ++ ['>'])
    (ended : Head.findEnd? .start (c :: rest ++ ['>']) = some (c :: rest, [])) :
    machine.readLine catalog line =
      machine.readHead catalog line.number (Head.ofInside (c :: rest)) := by
  have other : c ≠ '/' := ne_of_class letter (by decide)
  have noClosing : closingName? line.text = none := by
    apply closingName?_eq_none
    intro more same
    rw [shape] at same
    exact other (List.head_eq_of_cons_eq (List.tail_eq_of_cons_eq same))
  have head : Head.isHead line.text = true := by
    rw [shape]
    exact letter
  have read : Head.read? line.text = some (Head.ofInside (c :: rest), trim []) := by
    rw [shape]
    change (Head.findEnd? .start (c :: rest ++ ['>'])).map _ = _
    rw [ended]
    rfl
  simp only [readLine, noClosing, head, read]

theorem readLine_openClosing (catalog : Catalog) (machine : Machine) {line : Line}
    (closes : startsWith ['<', '/'] line.text = true) :
    machine.readLine catalog line =
      machine.step (Item.ofOpenClosing line.number line.text) := by
  obtain ⟨more, shape⟩ := Option.isSome_iff_exists.mp closes
  have noHead : Head.isHead line.text = false := by
    rw [afterPrefix?_eq_some_iff.mp shape]
    rfl
  cases ending : beforeSuffix? ['>'] more with
  | none =>
      have noClosing : closingName? line.text = none := by
        rw [closingName?, shape, Option.bind_some, ending, Option.map_none]
      simp only [readLine, noClosing, noHead, Item.ofOpenClosing, shape, Option.bind_some, ending,
        step]
  | some inside =>
      have name : closingName? line.text = some (trim inside) := by
        rw [closingName?, shape, Option.bind_some, ending, Option.map_some]
      simp only [readLine, name, Item.ofOpenClosing, shape, Option.bind_some, ending, step]

theorem items_ofMarkup_piece {text : List Char} {found : Piece}
    (alone : Pieces.ofText text = ⟨[found], none⟩) (catalog : Catalog) (number : Nat) :
    (Block.ofMarkup number text).flatMap (Block.items catalog) =
      Item.ofPiece catalog number found := by
  rw [Block.ofMarkup, alone]
  exact List.append_nil _

/-- The items of a line that is one segment, read by the machine. -/
theorem foldl_step_segment {line : Line} {pieces : Pieces}
    (segment : Pieces.Segment line.text pieces) (markup : IsMarkup line.text) (catalog : Catalog)
    (machine : Machine) :
    ((Block.ofMarkup line.number line.text).flatMap (Block.items catalog)).foldl step machine =
      machine.readLine catalog line := by
  have found := segment.ofText
  generalize shape : line.text = text at segment found
  cases segment with
  | text solid trimmed alone =>
      have noTag := Pieces.startsTag_of_beforeTag solid alone
      rw [readLine_text catalog machine (shape ▸ noTag), shape, items_ofMarkup_piece found]
      rfl
  | @tag inside starts ended =>
      obtain ⟨c, rest, rfl, solid⟩ := Head.exists_of_startsTag starts ended
      rcases Bool.or_eq_true_iff.mp solid with letter | slash
      · have piece : Piece.ofInside (c :: rest) = .head (c :: rest) := by
          unfold Piece.ofInside
          split
          · rename_i same
            exact absurd (List.cons.inj same).1 (ne_of_class letter (by decide))
          · rfl
        rw [piece] at found
        rw [readLine_head catalog machine letter shape ended, items_ofMarkup_piece found]
        exact foldl_step_ofHead ..
      · rw [beq_iff_eq] at slash
        subst slash
        rw [readLine_closing catalog machine shape, items_ofMarkup_piece found]
        rfl
  | @unfinished rest starts ended =>
      have unfinished : (Pieces.ofText line.text).unfinished = some line.text := by
        rw [shape, found]
      rw [readLine_openClosing catalog machine (markup.closes unfinished), Block.ofMarkup, shape,
        found]
      rfl

theorem foldl_step_lines {lines : List Line} (markup : ∀ line ∈ lines, IsMarkup line.text)
    (single : ∀ line ∈ lines, (Pieces.ofText line.text).segments = [line.text])
    (catalog : Catalog) (machine : Machine) :
    ((lines.flatMap fun line => Block.ofMarkup line.number line.text).flatMap
        (Block.items catalog)).foldl step machine =
      lines.foldl (readLine catalog) machine := by
  induction lines generalizing machine with
  | nil => rfl
  | cons line lines inductionHypothesis =>
      obtain ⟨isMarkup, markup⟩ := List.forall_mem_cons.mp markup
      obtain ⟨alone, single⟩ := List.forall_mem_cons.mp single
      have itself : line.text ∈ (Pieces.ofText line.text).segments := by
        rw [alone]
        exact List.mem_cons_self
      have segment := (Pieces.segment_of_mem_segments itself).2
      rw [List.flatMap_cons, List.flatMap_append, List.foldl_append,
        foldl_step_segment segment isMarkup catalog machine,
        inductionHypothesis markup single, List.foldl_cons]

end Machine

namespace Document

theorem parse_eq_machine {catalog : Catalog} {source : List Char}
    (plain : Stylesheet.find? source = none)
    (markup : ∀ line ∈ Line.ofSource source, IsMarkup line.text)
    (single : ∀ line ∈ Line.ofSource source, (Pieces.ofText line.text).segments = [line.text]) :
    (parse catalog source).nodes =
        ((Line.ofSource source).foldl (Machine.readLine catalog) .start).finish.nodes ∧
      (parse catalog source).diagnostics =
        ((Line.ofSource source).foldl (Machine.readLine catalog) .start).finish.diagnostics := by
  have run : Machine.start.run (Item.ofSource catalog source) =
      ((Line.ofSource source).foldl (Machine.readLine catalog) .start).finish := by
    rw [Machine.run, Item.ofSource, Block.ofSource_of_markup markup,
      Machine.foldl_step_lines markup single]
  rw [parse_of_find?_eq_none catalog plain, nodes_ofForest, diagnostics_ofForest,
    ← Machine.forest_run_start, run]
  exact ⟨rfl, rfl⟩

/-- Closing tags in the wrong order, one that closes nothing, and an element left open. -/
theorem parse_eq_machine_crossed :
    (parse .standard "<A>\n <B>\n X\n</A>\n</B>\n<C p='1'>".toList).nodes =
        ((Line.ofSource "<A>\n <B>\n X\n</A>\n</B>\n<C p='1'>".toList).foldl
          (Machine.readLine .standard) .start).finish.nodes ∧
      (parse .standard "<A>\n <B>\n X\n</A>\n</B>\n<C p='1'>".toList).diagnostics =
        ((Line.ofSource "<A>\n <B>\n X\n</A>\n</B>\n<C p='1'>".toList).foldl
          (Machine.readLine .standard) .start).finish.diagnostics :=
  parse_eq_machine (by decide +kernel) (by decide +kernel) (by decide +kernel)

end Document

end ScreenCompiler
