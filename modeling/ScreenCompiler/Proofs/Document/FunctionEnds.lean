import ScreenCompiler.Catalog.Standard
import ScreenCompiler.Proofs.Document.OpenFunctions
import ScreenCompiler.Proofs.Markup.Runs

/-!
# Behind the end of a function

Nothing of the line on which a function ends is read behind the brace that closes it.
On the line below, markup is read as if it stood alone.
-/

namespace ScreenCompiler

open Text

namespace Document

variable {catalog : Catalog} {source : List Char}

theorem exists_unclosed_of_diagnostics (plain : Stylesheet.find? source = none)
    (unclosed : ∃ name line, .unterminatedFunction name line ∈ (parse catalog source).diagnostics) :
    ∃ block ∈ Block.ofSource source, block.isUnclosed = true := by
  obtain ⟨name, line, reported⟩ := unclosed
  rw [parse_of_find?_eq_none catalog plain, diagnostics_ofForest] at reported
  rcases (Forest.stemsFrom_ofItems _).diagnostics _ reported with
    fault | ⟨tag, number, -, same⟩ | ⟨tag, props, number, -, same⟩
  · obtain ⟨block, membership, inside⟩ := List.mem_flatMap.mp fault
    exact ⟨block, membership, Block.isUnclosed_of_fault inside⟩
  · cases same
  · cases same

theorem mayDeclare_of_bare (plain : Stylesheet.find? source = none)
    (noNode : (parse catalog source).nodes = [])
    (noFault : (parse catalog source).diagnostics = []) :
    ∀ block ∈ Block.ofSource source, block.mayDeclare = true := by
  rw [parse_of_find?_eq_none catalog plain] at noNode noFault
  rw [nodes_ofForest] at noNode
  rw [diagnostics_ofForest] at noFault
  have declared :=
    (Forest.descent_ofItems (Item.ofSource catalog source)).declarations_of_bare rfl noNode noFault
  intro block membership
  have isDeclared : ∀ item ∈ block.items catalog, (Forest.declaration? item).isSome = true := by
    intro item inside
    have listed : Forest.declaration? item ∈
        (Item.ofSource catalog source).map Forest.declaration? :=
      List.mem_map_of_mem (List.mem_flatMap.mpr ⟨block, membership, inside⟩)
    rw [declared] at listed
    obtain ⟨declaration, -, same⟩ := List.mem_map.mp listed
    rw [← same, Option.isSome_some]
  by_cases word : ∃ name, .word name ∈ block.items catalog
  · obtain ⟨name, isWord⟩ := word
    rw [Block.eq_word_of_mem_items isWord]
    rfl
  · apply Block.mayDeclare_of_isDeclaration
    refine @Block.isDeclaration_of_items catalog block fun item inside => ?_
    have found := isDeclared item inside
    cases item with
    | declaration declaration => exact ⟨declaration, rfl⟩
    | word name => exact absurd ⟨name, inside⟩ word
    | _ => exact absurd found Bool.false_ne_true

/-- Nothing is read behind the brace that closes a function, up to the end of its line. -/
theorem parse_append_closing {opening more : List Char} (flat : '\n' ∉ more)
    (plain : Stylesheet.find? (opening ++ '}' :: more) = none)
    (noNode : (parse catalog (opening ++ ['}'])).nodes = [])
    (noFault : (parse catalog (opening ++ ['}'])).diagnostics = [])
    (unclosed : ∃ name line,
      .unterminatedFunction name line ∈ (parse catalog opening).diagnostics) :
    parse catalog (opening ++ '}' :: more) = parse catalog (opening ++ ['}']) := by
  have plainOpening : Stylesheet.find? opening = none :=
    Stylesheet.find?_eq_none_of_infix (List.prefix_append _ _).isInfix plain
  have plainFunction : Stylesheet.find? (opening ++ ['}']) = none := by
    refine Stylesheet.find?_eq_none_of_infix (List.IsPrefix.isInfix ?_) plain
    exact ⟨more, by simp⟩
  obtain ⟨above, number, raw, solid, blocks⟩ := Block.exists_ofSource_append opening
  have blocksOpening := blocks [] List.not_mem_nil
  have blocksFunction := blocks ['}'] (by decide)
  have blocksMore := blocks ('}' :: more) (by simp [flat])
  have found := exists_unclosed_of_diagnostics plainOpening unclosed
  have declared := mayDeclare_of_bare plainFunction noNode noFault
  rw [List.append_nil] at blocksOpening
  rw [blocksOpening] at found
  rw [blocksFunction] at declared
  have settled := Block.settles_ofLines solid found declared more
  rw [parse_of_find?_eq_none catalog plain, parse_of_find?_eq_none catalog plainFunction,
    Item.ofSource, Item.ofSource, blocksMore, blocksFunction]
  exact congrArg (fun blocks => ofForest (Forest.ofItems (blocks.flatMap (Block.items catalog))))
    settled

end Document

namespace Forest

/-- A head leaves an element behind it, whatever follows. -/
theorem nodes_ofHead_append (catalog : Catalog) (number : Nat) (head : Head) (rest : List Item) :
    (ofItems (Item.ofHead catalog number head ++ rest)).nodes ≠ [] := by
  rw [Item.ofHead, List.append_assoc, List.singleton_append]
  generalize (ScannedProps.read catalog head.attributes).unterminated = names
  induction names with
  | nil =>
      rw [List.map_nil, List.nil_append]
      split
      · rw [ofItems_alone rfl]
        exact List.cons_ne_nil _ _
      · have descent := descent_ofItems (Item.opening (String.ofList head.tag)
          (ScannedProps.read catalog head.attributes).props number :: rest)
        generalize ofItems _ = forest at descent ⊢
        cases descent with
        | enter inner outer => exact List.cons_ne_nil _ _
        | alone found _ => exact absurd found (Option.some_ne_none _).symm
  | cons name names inductionHypothesis =>
      rw [List.map_cons, List.cons_append, ofItems_alone rfl]
      exact inductionHypothesis

end Forest

section

variable {markup : List Char} (flat : '\n' ∉ markup)
variable (isHead : Head.isHead (trimStart markup) = true)
variable (complete : (Head.read? (trimStart markup)).isSome = true)

include isHead complete

theorem Pieces.exists_ofText_head : ∃ inside behind,
    trim markup = '<' :: inside ++ '>' :: behind ∧
      Pieces.ofText (trim markup) = (Pieces.ofText behind).cons (.head inside) := by
  obtain ⟨c, rest, shape, letter⟩ : ∃ c rest, trimStart markup = '<' :: c :: rest ∧
      isAsciiLetter c = true := by
    unfold Head.isHead at isHead
    split at isHead
    · exact ⟨_, _, by assumption, isHead⟩
    · exact absurd isHead Bool.false_ne_true
  rw [shape, Head.read?, Option.isSome_map] at complete
  obtain ⟨⟨inside, behind⟩, found⟩ := Option.isSome_iff_exists.mp complete
  have split := Head.append_of_findEnd? found
  have solid : isBlank '>' = false := by decide
  have whole : trim markup = '<' :: inside ++ '>' :: trimEnd behind := by
    rw [trim, shape, split, ← List.cons_append, trimEnd_append_cons solid]
  obtain ⟨d, more, rfl, isLetter⟩ : ∃ d more, inside = d :: more ∧ isAsciiLetter d = true := by
    cases inside with
    | nil =>
        obtain ⟨rfl, -⟩ := List.cons.inj split
        exact absurd letter (by decide)
    | cons d more =>
        obtain ⟨rfl, -⟩ := List.cons.inj split
        exact ⟨c, more, rfl, letter⟩
  refine ⟨d :: more, trimEnd behind, whole, ?_⟩
  have starts : Head.startsTag ('<' :: (d :: more) ++ '>' :: trimEnd behind) = true :=
    Head.startsTag_iff.mpr ⟨d, more ++ '>' :: trimEnd behind, rfl, by rw [isLetter, Bool.true_or]⟩
  have noSlash : Piece.ofInside (d :: more) = .head (d :: more) := by
    unfold Piece.ofInside
    split
    · rename_i same
      obtain ⟨rfl, -⟩ := List.cons.inj same
      exact absurd isLetter (by decide)
    · rfl
  rw [whole, Pieces.ofText_tag_append starts (Head.findEnd?_inside found _), noSlash]

include flat

theorem Line.ofSource_head : ofSource markup = [⟨1, markup⟩] := by
  obtain ⟨inside, behind, text, -⟩ := Pieces.exists_ofText_head isHead complete
  have kept : (trim markup).isEmpty = false := by
    rw [text]
    rfl
  have nonempty : markup.isEmpty = false := by
    rw [← Bool.not_eq_true, List.isEmpty_iff]
    rintro rfl
    exact absurd text (List.cons_ne_nil _ _).symm
  have alone : lines markup = [markup] := by
    simp [lines, splitOn_of_notMem flat, nonempty]
  rw [ofSource, alone, numbered, kept]
  rfl

theorem Block.exists_ofSource_head : ∃ inside blocks,
    ofSource markup = .piece 1 (.head inside) :: blocks := by
  obtain ⟨inside, behind, text, pieces⟩ := Pieces.exists_ofText_head isHead complete
  have undeclared : isDeclarationLike (Line.text ⟨1, markup⟩) = false := by
    rw [Line.text, text]
    exact Markup.isDeclarationLike_of_bracket _
  rw [ofSource, Line.ofSource_head flat isHead complete, ofLines_cons,
    simple?_eq_none undeclared, open?_eq_none undeclared]
  simp only [Line.text]
  rw [ofText_eq, pieces]
  exact ⟨inside, _, rfl⟩

/-- No function takes the head of a tag for its opening brace. -/
theorem Function.apart_ofSource_head (above : List Line) : Apart above (Line.ofSource markup) := by
  obtain ⟨inside, behind, text, -⟩ := Pieces.exists_ofText_head isHead complete
  intro last _ next isNext _
  rw [Line.ofSource_head flat isHead complete] at isNext
  obtain rfl : ⟨1, markup⟩ = next := Option.some.inj isNext
  rw [Line.text, text]
  rfl

theorem Document.nodes_parse_ne_nil (catalog : Catalog)
    (plain : Stylesheet.find? markup = none) : (parse catalog markup).nodes ≠ [] := by
  obtain ⟨inside, blocks, shape⟩ := Block.exists_ofSource_head flat isHead complete
  rw [parse_of_find?_eq_none catalog plain, nodes_ofForest, Item.ofSource, shape,
    List.flatMap_cons]
  exact Forest.nodes_ofHead_append catalog 1 (Head.ofInside inside) _

namespace Document

/-- A tag on the line below is read as if it stood alone, and one behind the brace is lost. -/
theorem parse_behind_function {catalog : Catalog} {opening : List Char}
    (plain : Stylesheet.find? (opening ++ '}' :: ' ' :: markup) = none)
    (plainBelow : Stylesheet.find? (opening ++ '}' :: '\n' :: markup) = none)
    (noNode : (parse catalog (opening ++ ['}'])).nodes = [])
    (noFault : (parse catalog (opening ++ ['}'])).diagnostics = [])
    (unclosed : ∃ name line,
      .unterminatedFunction name line ∈ (parse catalog opening).diagnostics) :
    parse catalog (opening ++ '}' :: ' ' :: markup) = parse catalog (opening ++ ['}']) ∧
      parse catalog (opening ++ '}' :: '\n' :: markup) =
        (parse catalog (opening ++ ['}'])).append
          ((parse catalog markup).renumber (· + (lineFeeds opening + 1))) ∧
      (parse catalog markup).nodes ≠ [] := by
  have plainFunction : Stylesheet.find? (opening ++ ['}']) = none := by
    refine Stylesheet.find?_eq_none_of_infix (List.IsPrefix.isInfix ?_) plain
    exact ⟨' ' :: markup, by simp⟩
  have plainMarkup : Stylesheet.find? markup = none := by
    refine Stylesheet.find?_eq_none_of_infix (List.IsSuffix.isInfix ?_) plain
    exact ⟨opening ++ ['}', ' '], by simp⟩
  have isComplete : ∀ block ∈ Block.ofSource (opening ++ ['}']), block.isComplete = true :=
    fun block membership => Block.isComplete_of_mayDeclare
      (mayDeclare_of_bare plainFunction noNode noFault block membership)
  have feeds : lineFeeds (opening ++ ['}']) = lineFeeds opening := by
    rw [lineFeeds_append]
    rfl
  have shape : opening ++ '}' :: '\n' :: markup = opening ++ ['}'] ++ '\n' :: markup := by simp
  have flatBehind : '\n' ∉ ' ' :: markup := by simp [flat]
  refine ⟨parse_append_closing flatBehind plain noNode noFault unclosed, ?_,
    nodes_parse_ne_nil flat isHead complete catalog plainMarkup⟩
  rw [shape] at plainBelow ⊢
  have apart := Function.apart_ofSource_head flat isHead complete (Line.ofSource (opening ++ ['}']))
  rw [parse_append_of_complete plainFunction plainMarkup plainBelow noFault isComplete apart, feeds]

end Document

end

namespace Document

theorem parse_behind_nested_function :
    '\n' ∉ "  <View a=\x7bb\x7d>text".toList ∧
      Head.isHead (trimStart "  <View a=\x7bb\x7d>text".toList) = true ∧
      (Head.read? (trimStart "  <View a=\x7bb\x7d>text".toList)).isSome = true ∧
      parse .standard ("state n = 0\ngo(x) \x7b\n  if (x) \x7b n = 1 \x7d\n".toList ++
          '\x7d' :: ' ' :: "  <View a=\x7bb\x7d>text".toList) =
        parse .standard
          ("state n = 0\ngo(x) \x7b\n  if (x) \x7b n = 1 \x7d\n".toList ++ ['\x7d']) ∧
      parse .standard ("state n = 0\ngo(x) \x7b\n  if (x) \x7b n = 1 \x7d\n".toList ++
          '\x7d' :: '\n' :: "  <View a=\x7bb\x7d>text".toList) =
        (parse .standard
          ("state n = 0\ngo(x) \x7b\n  if (x) \x7b n = 1 \x7d\n".toList ++ ['\x7d'])).append
            ((parse .standard "  <View a=\x7bb\x7d>text".toList).renumber
              (· + (lineFeeds
                "state n = 0\ngo(x) \x7b\n  if (x) \x7b n = 1 \x7d\n".toList + 1))) ∧
      (parse .standard "  <View a=\x7bb\x7d>text".toList).nodes ≠ [] := by
  have flat : '\n' ∉ "  <View a=\x7bb\x7d>text".toList := by decide
  have isHead : Head.isHead (trimStart "  <View a=\x7bb\x7d>text".toList) = true := by
    decide +kernel
  have complete : (Head.read? (trimStart "  <View a=\x7bb\x7d>text".toList)).isSome = true := by
    decide +kernel
  have unclosed : Diagnostic.unterminatedFunction "go" 2 ∈ (parse .standard
      "state n = 0\ngo(x) \x7b\n  if (x) \x7b n = 1 \x7d\n".toList).diagnostics := by
    decide +kernel
  refine ⟨flat, isHead, complete, ?_⟩
  exact parse_behind_function flat isHead complete (by decide +kernel) (by decide +kernel)
    (by decide +kernel) (by decide +kernel) ⟨"go", 2, unclosed⟩

/-- A tag is lost without a fault on the line that closes a function. -/
theorem parse_loses_tag_behind_function :
    (parse .standard "f() \x7b\x7d".toList).functions = [⟨"f", false, "", ""⟩] ∧
      (parse .standard "f() \x7b\x7d".toList).nodes.length = 0 ∧
      (parse .standard "f() \x7b\x7d".toList).diagnostics = [] ∧
      .unterminatedFunction "f" 1 ∈ (parse .standard "f() \x7b".toList).diagnostics ∧
      Head.isHead "<View/>".toList = true ∧ (Head.read? "<View/>".toList).isSome = true ∧
      Stylesheet.find? "f() \x7b\x7d <View/>".toList = none ∧
      Stylesheet.find? "f() \x7b\x7d\n<View/>".toList = none ∧
      (Node.elementsOf (parse .standard "f() \x7b\x7d <View/>".toList).nodes).map
        Element.tag = [] ∧
      (parse .standard "f() \x7b\x7d <View/>".toList).diagnostics = [] ∧
      (Node.elementsOf (parse .standard "f() \x7b\x7d\n<View/>".toList).nodes).map
        Element.tag = ["View"] := by
  decide +kernel

end Document

end ScreenCompiler
