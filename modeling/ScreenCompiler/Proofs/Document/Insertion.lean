import ScreenCompiler.Catalog.Standard
import ScreenCompiler.Proofs.Document.Declarations
import ScreenCompiler.Proofs.Document.Numbering
import ScreenCompiler.Proofs.Document.Respacing

/-!
# Declarations put into markup

Lines of markup with a block of declarations put between two of them read as the
markup alone and the declarations alone, at any depth and at either end.  The lines
below the block only change their numbers.
-/

namespace ScreenCompiler

open Text

namespace Stylesheet

theorem afterPrefix?_append {start text rest : List Char} (more : List Char)
    (found : afterPrefix? start text = some rest) :
    afterPrefix? start (text ++ more) = some (rest ++ more) := by
  rw [afterPrefix?_eq_some_iff] at found ⊢
  rw [found, List.append_assoc]

theorem afterPrefix?_trimStart_append {c : Char} {start text rest : List Char} (more : List Char)
    (found : afterPrefix? (c :: start) (trimStart text) = some rest) :
    afterPrefix? (c :: start) (trimStart (text ++ more)) = some (rest ++ more) := by
  have solid : trimStart text ≠ [] := by
    intro empty
    rw [empty] at found
    simp [afterPrefix?] at found
  rw [trimStart_append_of_ne_nil solid]
  exact afterPrefix?_append more found

theorem afterOpening?_append {text inside : List Char} (more : List Char)
    (found : afterOpening? text = some inside) :
    afterOpening? (text ++ more) = some (inside ++ more) := by
  obtain ⟨behindConst, const, found⟩ := Option.bind_eq_some_iff.mp found
  cases behindConst with
  | nil => simp at found
  | cons c rest =>
      simp only [Option.ite_none_right_eq_some] at found
      obtain ⟨blank, found⟩ := found
      obtain ⟨behindName, name, found⟩ := Option.bind_eq_some_iff.mp found
      obtain ⟨behindSign, sign, found⟩ := Option.bind_eq_some_iff.mp found
      obtain ⟨behindCall, call, found⟩ := Option.bind_eq_some_iff.mp found
      rw [afterOpening?, afterPrefix?_append more const]
      simp only [Option.bind_some, List.cons_append, blank, ↓reduceIte]
      rw [show "styles".toList = 's' :: "tyles".toList from rfl] at name ⊢
      rw [show "StyleSheet.create".toList = 'S' :: "tyleSheet.create".toList from rfl] at call ⊢
      rw [afterPrefix?_trimStart_append more name, Option.bind_some,
        afterPrefix?_trimStart_append more sign, Option.bind_some,
        afterPrefix?_trimStart_append more call, Option.bind_some,
        afterPrefix?_trimStart_append more found]

theorem isSome_find?_append_right {text : List Char} (more : List Char)
    (found : (find? text).isSome = true) : (find? (text ++ more)).isSome = true := by
  induction text with
  | nil => exact absurd found (by decide)
  | cons c rest inductionHypothesis =>
      rw [isSome_find?_cons, Bool.or_eq_true_iff] at found
      rw [List.cons_append, isSome_find?_cons, Bool.or_eq_true_iff]
      rcases found with here | later
      · obtain ⟨inside, opening⟩ := Option.isSome_iff_exists.mp here
        apply Or.inl
        rw [← List.cons_append, afterOpening?_append more opening]
        rfl
      · exact .inr (inductionHypothesis later)

/-- A part of a text without a stylesheet has none. -/
theorem find?_eq_none_of_infix {part text : List Char} (within : part <:+: text)
    (plain : find? text = none) : find? part = none := by
  obtain ⟨before, after, rfl⟩ := within
  rw [← Option.isNone_iff_eq_none, ← Option.isSome_eq_false_iff] at plain ⊢
  by_contra found
  rw [Bool.not_eq_false] at found
  rw [List.append_assoc,
    isSome_find?_append before (isSome_find?_append_right after found)] at plain
  exact absurd plain.symm Bool.false_ne_true

/-- A stylesheet within a block of lines is one of all lines. -/
theorem find?_unlines_of_insert {above block below : List (List Char)}
    (plain : find? (unlines (above ++ (block ++ below))) = none) :
    find? (unlines block) = none := by
  cases block with
  | nil => decide
  | cons raw block =>
      have feed : find? ('\n' :: unlines (above ++ (raw :: block ++ below))) = none := by
        rw [← Option.isNone_iff_eq_none, ← Option.isSome_eq_false_iff] at plain ⊢
        rwa [isSome_find?_cons_of_ne (by decide)]
      apply find?_eq_none_of_infix _ feed
      rw [cons_unlines (by simp), List.flatMap_append, List.flatMap_append,
        ← cons_unlines (List.cons_ne_nil raw block)]
      exact ⟨above.flatMap ('\n' :: ·) ++ ['\n'], below.flatMap ('\n' :: ·), by simp⟩

end Stylesheet

namespace Line

/-- The new number of a line when lines are put in behind the first ones. -/
def makeRoom (place count number : Nat) : Nat :=
  if number ≤ place then number else number + count

def renumber (change : Nat → Nat) (line : Line) : Line :=
  ⟨change line.number, line.raw⟩

theorem keepsText_renumber (change : Nat → Nat) : KeepsText change (renumber change) where
  number _ := rfl
  raw _ := rfl

theorem map_makeRoom_numbered (above below : List (List Char)) (count : Nat) :
    (numbered 1 (above ++ below)).map (renumber (makeRoom above.length count)) =
      numbered 1 above ++ numbered (1 + above.length + count) below := by
  rw [numbered_append, List.map_append, numbered_add (1 + above.length) count]
  congr 1
  · refine (List.map_congr_left fun line membership => ?_).trans (List.map_id _)
    have stays : line.number ≤ above.length := by
      have bounds := number_of_mem_numbered membership
      omega
    rw [renumber, makeRoom, if_pos stays]
    rfl
  · refine List.map_congr_left fun line membership => ?_
    have moves : ¬line.number ≤ above.length := by
      have bounds := number_of_mem_numbered membership
      omega
    rw [renumber, makeRoom, if_neg moves]
    rfl

theorem map_tidy_ofSource_unlines {raws : List (List Char)} (noFeed : ∀ raw ∈ raws, '\n' ∉ raw) :
    (ofSource (unlines raws)).map tidy = (numbered 1 raws).map tidy := by
  cases raws with
  | nil => rfl
  | cons raw raws =>
      have split : (unlines (raw :: raws)).splitOn '\n' = raw :: raws :=
        List.splitOn_intercalate '\n' noFeed (by simp)
      have tidied : ((raw :: raws).map dropReturn).map trimEnd = (raw :: raws).map trimEnd := by
        rw [List.map_map]
        exact List.map_congr_left fun other _ => trimEnd_dropReturn other
      rw [ofSource, ← numbered_lines, split, map_tidy_numbered, tidied, map_tidy_numbered]

end Line

namespace Block

theorem ofSource_unlines {raws : List (List Char)} (noFeed : ∀ raw ∈ raws, '\n' ∉ raw) :
    ofSource (unlines raws) = ofLines (Line.numbered 1 raws) := by
  rw [ofSource, ← ofLines_map_tidy, Line.map_tidy_ofSource_unlines noFeed, ofLines_map_tidy]

theorem isMarkup_of_mem_numbered {number : Nat} {raws : List (List Char)}
    (markup : ∀ raw ∈ raws, IsMarkup (trim raw)) :
    ∀ line ∈ Line.numbered number raws, IsMarkup line.text := by
  intro line membership
  exact markup line.raw (Line.mem_numbered membership)

theorem isDeclaration_renumber (change : Nat → Nat) (block : Block) :
    (block.renumber change).isDeclaration = block.isDeclaration := by
  cases block <;> rfl

variable {above block below : List (List Char)}

/-- The blocks around a block of declarations are those of the markup with room for it. -/
theorem ofLines_insert (markup : ∀ raw ∈ above ++ below, IsMarkup (trim raw))
    (declared : ∀ found ∈ ofLines (Line.numbered 1 block), found.isDeclaration = true) :
    ofLines (Line.numbered 1 (above ++ (block ++ below))) =
      ofLines (Line.numbered 1 above) ++
        ((ofLines (Line.numbered 1 block)).map (renumber (· + above.length)) ++
          ofLines (Line.numbered (1 + above.length + block.length) below)) ∧
      (ofLines (Line.numbered 1 (above ++ below))).map
          (renumber (Line.makeRoom above.length block.length)) =
        ofLines (Line.numbered 1 above) ++
          ofLines (Line.numbered (1 + above.length + block.length) below) := by
  obtain ⟨markupAbove, markupBelow⟩ := List.forall_mem_append.mp markup
  have top : ∀ more, ofLines (Line.numbered 1 above ++ more) =
      ofLines (Line.numbered 1 above) ++ ofLines more := by
    intro more
    have isMarkup : ∀ line ∈ Line.numbered 1 above, IsMarkup line.text :=
      isMarkup_of_mem_numbered markupAbove
    have alone := ofLines_of_markup isMarkup []
    rw [List.append_nil, ofLines.eq_def [], List.append_nil] at alone
    rw [ofLines_of_markup isMarkup more, alone]
  have shifted : ofLines (Line.numbered (1 + above.length) block) =
      (ofLines (Line.numbered 1 block)).map (renumber (· + above.length)) := by
    rw [Line.numbered_add]
    exact ofLines_map (Line.keepsText_renumber (· + above.length)) (Line.numbered 1 block)
  constructor
  · rw [Line.numbered_append, Line.numbered_append, top, ← shifted]
    congr 1
    apply ofLines_append_of_declarations
    · intro line membership
      rw [Line.text, trim_trim]
      exact Line.text_ne_nil_of_mem_numbered membership
    · intro found membership
      rw [shifted] at membership
      obtain ⟨original, inside, rfl⟩ := List.mem_map.mp membership
      rw [isDeclaration_renumber]
      exact declared original inside
  · rw [← ofLines_map (Line.keepsText_renumber _), Line.map_makeRoom_numbered, top]

end Block

theorem Item.word_mem_ofHead {catalog : Catalog} {number : Nat} {head : Head} {name : List Char} :
    word name ∉ ofHead catalog number head := by
  intro membership
  exact absurd (isPlain_ofHead _ membership) Bool.false_ne_true

theorem Block.eq_word_of_mem_items {catalog : Catalog} {block : Block} {name : List Char}
    (membership : .word name ∈ block.items catalog) : block = word name := by
  cases block with
  | word other =>
      obtain rfl : name = other := by simpa [items] using membership
      rfl
  | function number function closed =>
      cases closed <;> simp [items, Item.ofFunction] at membership
  | piece number found =>
      cases found with
      | head inside => exact absurd membership Item.word_mem_ofHead
      | _ => simp [items, Item.ofPiece] at membership
  | openClosing number tag =>
      rw [items, List.mem_singleton, Item.ofOpenClosing] at membership
      split at membership <;> simp at membership
  | head number head => exact absurd membership Item.word_mem_ofHead
  | unfinished number text =>
      rw [items, Item.ofUnfinished] at membership
      split at membership
      · exact absurd membership Item.word_mem_ofHead
      · exact absurd ((List.mem_cons.mp membership).resolve_left (by simp)) Item.word_mem_ofHead
  | _ => simp [items] at membership

namespace Document

theorem imports_ne_nil_of_mem {declarations : List Declaration} {first : Import}
    {others : List Import} (membership : .imports (first :: others) ∈ declarations)
    (document : Document) : (declarations.foldl declare document).imports ≠ [] := by
  induction declarations using List.reverseRecOn with
  | nil => exact absurd membership List.not_mem_nil
  | append_singleton declarations last inductionHypothesis =>
      rw [List.foldl_append]
      rcases List.mem_append.mp membership with earlier | here
      · have kept := inductionHypothesis earlier
        cases last <;> simp [declare, kept]
      · obtain rfl := List.mem_singleton.mp here
        simp [declare]

variable {catalog : Catalog} {above block below : List (List Char)}

/-- Where a source has no nodes, no faults and imports no bare module name, its items are its
declarations. -/
theorem items_eq_declarations (noFeed : ∀ raw ∈ block, '\n' ∉ raw)
    (plain : Stylesheet.find? (unlines block) = none)
    (noNode : (parse catalog (unlines block)).nodes = [])
    (noFault : (parse catalog (unlines block)).diagnostics = [])
    (noWord : (parse catalog (unlines block)).imports ≠ [] →
      ∀ raw ∈ block, Import.isModuleName (trim raw) = false) :
    Item.ofSource catalog (unlines block) =
      (Forest.ofItems (Item.ofSource catalog (unlines block))).declarations.map .declaration := by
  rw [parse_of_find?_eq_none catalog plain] at noNode noFault noWord
  rw [nodes_ofForest] at noNode
  rw [diagnostics_ofForest] at noFault
  have declared :=
    (Forest.descent_ofItems (Item.ofSource catalog (unlines block))).declarations_of_bare
      rfl noNode noFault
  refine Forest.items_of_declaration? declared fun name membership => ?_
  obtain ⟨found, inside, stands⟩ := List.mem_flatMap.mp membership
  obtain rfl := Block.eq_word_of_mem_items stands
  have isDeclared : some (Declaration.imports [Import.ofModuleName name]) ∈
      (Forest.ofItems (Item.ofSource catalog (unlines block))).declarations.map some := by
    rw [← declared]
    exact List.mem_map_of_mem membership
  obtain ⟨declaration, isImport, rfl⟩ : ∃ declaration ∈
      (Forest.ofItems (Item.ofSource catalog (unlines block))).declarations,
        declaration = .imports [Import.ofModuleName name] := by
    simpa using isDeclared
  have noName := noWord (imports_ne_nil_of_mem isImport _)
  rw [Block.ofSource_unlines noFeed] at inside
  obtain ⟨line, member, isName⟩ := Block.exists_isModuleName_of_word inside
  have other := noName line.raw (Line.mem_numbered member)
  rw [← Line.text, isName] at other
  exact absurd other.symm Bool.false_ne_true

/-- The items of a source with a block of declarations in it. -/
theorem items_insert {declarations : List Declaration}
    (noFeed : ∀ raw ∈ above ++ (block ++ below), '\n' ∉ raw)
    (markup : ∀ raw ∈ above ++ below, IsMarkup (trim raw))
    (declared : Item.ofSource catalog (unlines block) = declarations.map .declaration) :
    ∃ top bottom, (∀ item ∈ top ++ bottom, item.isPlain = true) ∧
      Item.ofSource catalog (unlines (above ++ (block ++ below))) =
        top ++ (declarations.map .declaration ++ bottom) ∧
      (Item.ofSource catalog (unlines (above ++ below))).map
        (Item.renumber (Line.makeRoom above.length block.length)) = top ++ bottom := by
  obtain ⟨feedAbove, feedBlock, feedBelow⟩ :
      (∀ raw ∈ above, '\n' ∉ raw) ∧ (∀ raw ∈ block, '\n' ∉ raw) ∧ ∀ raw ∈ below, '\n' ∉ raw := by
    simpa only [List.forall_mem_append] using noFeed
  have feedMarkup : ∀ raw ∈ above ++ below, '\n' ∉ raw :=
    List.forall_mem_append.mpr ⟨feedAbove, feedBelow⟩
  rw [Item.ofSource, Block.ofSource_unlines feedBlock] at declared
  have complete : ∀ found ∈ Block.ofLines (Line.numbered 1 block), found.isDeclaration = true := by
    intro found membership
    refine @Block.isDeclaration_of_items catalog found ?_
    intro item inside
    have stands := List.mem_flatMap.mpr ⟨found, membership, inside⟩
    rw [declared] at stands
    obtain ⟨declaration, -, rfl⟩ := List.mem_map.mp stands
    exact ⟨declaration, rfl⟩
  obtain ⟨inserted, room⟩ := Block.ofLines_insert markup complete
  obtain ⟨markupAbove, markupBelow⟩ := List.forall_mem_append.mp markup
  refine ⟨(Block.ofLines (Line.numbered 1 above)).flatMap (Block.items catalog),
    (Block.ofLines (Line.numbered (1 + above.length + block.length) below)).flatMap
      (Block.items catalog), ?_, ?_, ?_⟩
  · exact List.forall_mem_append.mpr
      ⟨Block.isPlain_of_markup (Block.isMarkup_of_mem_numbered markupAbove),
        Block.isPlain_of_markup (Block.isMarkup_of_mem_numbered markupBelow)⟩
  · rw [Item.ofSource, Block.ofSource_unlines noFeed, inserted, List.flatMap_append,
      List.flatMap_append, Block.flatMap_items_renumber, declared, List.map_map]
    rfl
  · rw [Item.ofSource, Block.ofSource_unlines feedMarkup, ← Block.flatMap_items_renumber, room,
      List.flatMap_append]

/-- The declarations of a document do not depend on its markup. -/
theorem ofForest_of_declarations_eq {forest other : Forest}
    (same : forest.declarations = other.declarations) :
    ofForest forest =
      { ofForest other with nodes := forest.nodes, diagnostics := forest.diagnostics } := by
  have carried : ∀ (declarations : List Declaration) (document : Document),
      declarations.foldl declare
          { document with nodes := forest.nodes, diagnostics := forest.diagnostics } =
        { declarations.foldl declare document with
          nodes := forest.nodes, diagnostics := forest.diagnostics } := by
    intro declarations
    induction declarations with
    | nil =>
        intro document
        rfl
    | cons declaration declarations inductionHypothesis =>
        intro document
        rw [List.foldl_cons, List.foldl_cons, ← inductionHypothesis]
        cases declaration <;> rfl
  rw [ofForest, ofForest, same]
  exact carried other.declarations (ofNodes other.nodes other.diagnostics)

/-- The markup reads as if the block were not there, and the block as if it stood alone. -/
theorem parse_insert
    (noFeed : ∀ raw ∈ above ++ (block ++ below), '\n' ∉ raw)
    (markup : ∀ raw ∈ above ++ below, IsMarkup (trim raw))
    (plainMarkup : Stylesheet.find? (unlines (above ++ below)) = none)
    (plain : Stylesheet.find? (unlines (above ++ (block ++ below))) = none)
    (noNode : (parse catalog (unlines block)).nodes = [])
    (noFault : (parse catalog (unlines block)).diagnostics = [])
    (noWord : (parse catalog (unlines block)).imports ≠ [] →
      ∀ raw ∈ block, Import.isModuleName (trim raw) = false) :
    parse catalog (unlines (above ++ (block ++ below))) =
      { parse catalog (unlines block) with
        nodes := ((parse catalog (unlines (above ++ below))).renumber
          (Line.makeRoom above.length block.length)).nodes
        diagnostics := ((parse catalog (unlines (above ++ below))).renumber
          (Line.makeRoom above.length block.length)).diagnostics } := by
  have plainBlock := Stylesheet.find?_unlines_of_insert plain
  have feedBlock := (List.forall_mem_append.mp (List.forall_mem_append.mp noFeed).2).1
  have declared := items_eq_declarations feedBlock plainBlock noNode noFault noWord
  obtain ⟨top, bottom, isPlain, whole, around⟩ := items_insert noFeed markup declared
  have forest : Forest.ofItems (Item.ofSource catalog (unlines (above ++ (block ++ below)))) =
      { (Forest.ofItems (Item.ofSource catalog (unlines (above ++ below)))).renumber
          (Line.makeRoom above.length block.length) with
        declarations :=
          (Forest.ofItems (Item.ofSource catalog (unlines block))).declarations } := by
    rw [whole, Forest.ofItems_insert _ _ (List.forall_mem_append.mp isPlain).2,
      Forest.declarations_ofItems_of_plain isPlain, ← around, Forest.ofItems_renumber]
    rfl
  rw [parse_of_find?_eq_none catalog plain, parse_of_find?_eq_none catalog plainBlock,
    parse_of_find?_eq_none catalog plainMarkup, forest, ← ofForest_renumber, nodes_ofForest,
    diagnostics_ofForest]
  exact ofForest_of_declarations_eq rfl

/-- A function whose body looks like markup, two elements deep, above a line in braces. -/
theorem parse_insert_nested_function :
    (parse .standard (unlines ["go() \x7b".toList, " <C>".toList, "\x7d".toList])).nodes = [] ∧
      parse .standard (unlines (["<A>".toList, " <B p='>'>".toList] ++
          (["go() \x7b".toList, " <C>".toList, "\x7d".toList] ++
            ["\x7bx\x7d</D>".toList, " </B></A>".toList]))) =
        { parse .standard (unlines ["go() \x7b".toList, " <C>".toList, "\x7d".toList]) with
          nodes := ((parse .standard (unlines (["<A>".toList, " <B p='>'>".toList] ++
              ["\x7bx\x7d</D>".toList, " </B></A>".toList]))).renumber (Line.makeRoom 2 3)).nodes
          diagnostics := ((parse .standard (unlines (["<A>".toList, " <B p='>'>".toList] ++
              ["\x7bx\x7d</D>".toList, " </B></A>".toList]))).renumber
                (Line.makeRoom 2 3)).diagnostics } := by
  have noNode : (parse .standard
      (unlines ["go() \x7b".toList, " <C>".toList, "\x7d".toList])).nodes = [] := by
    decide +kernel
  exact ⟨noNode, parse_insert (by decide +kernel) (by decide +kernel) (by decide +kernel)
    (by decide +kernel) noNode (by decide +kernel) (by decide +kernel)⟩

/-- Lines that together open a stylesheet are markup again when a declaration parts them. -/
theorem parse_insert_parted_stylesheet :
    (∀ raw ∈ ["A const".toList] ++ ["styles = StyleSheet.create(\x7b\x7d)".toList],
        '\n' ∉ raw ∧ IsMarkup (trim raw)) ∧
      (parse .standard (unlines ["state x = 1".toList])).nodes = [] ∧
      (parse .standard (unlines ["state x = 1".toList])).diagnostics = [] ∧
      (parse .standard (unlines ["state x = 1".toList])).imports = [] ∧
      (parse .standard (unlines ["state x = 1".toList])).states.map State.name = ["x"] ∧
      Stylesheet.find? (unlines (["A const".toList] ++
        (["state x = 1".toList] ++ ["styles = StyleSheet.create(\x7b\x7d)".toList]))) = none ∧
      ∀ change : Nat → Nat,
        (parse .standard (unlines (["A const".toList] ++
          (["state x = 1".toList] ++ ["styles = StyleSheet.create(\x7b\x7d)".toList])))).nodes ≠
        ((parse .standard (unlines (["A const".toList] ++
          ["styles = StyleSheet.create(\x7b\x7d)".toList]))).renumber change).nodes := by
  refine ⟨by decide +kernel, by decide +kernel, by decide +kernel, by decide +kernel,
    by decide +kernel, by decide +kernel, ?_⟩
  intro change same
  have lengths := congrArg List.length same
  have parted : (parse .standard (unlines (["A const".toList] ++
      (["state x = 1".toList] ++
        ["styles = StyleSheet.create(\x7b\x7d)".toList])))).nodes.length = 2 := by
    decide +kernel
  have joined : (parse .standard (unlines (["A const".toList] ++
      ["styles = StyleSheet.create(\x7b\x7d)".toList]))).nodes.length = 1 := by
    decide +kernel
  rw [parted, renumber, List.length_map, joined] at lengths
  exact absurd lengths (by decide)

end Document

end ScreenCompiler
