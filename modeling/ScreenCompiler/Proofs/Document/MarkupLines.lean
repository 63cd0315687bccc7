import ScreenCompiler.Proofs.Document.Plain
import ScreenCompiler.Proofs.Markup.Pieces

/-!
# Lines of markup

A line that declares nothing and leaves no head open is read without a look at the
lines around it: it stands for its pieces.
-/

namespace ScreenCompiler

open Text

/-- Whether a text is a tag from its angle bracket on, and no closing one. -/
def Head.isHead : List Char → Bool
  | '<' :: c :: _ => isAsciiLetter c
  | _ => false

/-- Whether a line on its own reads as a declaration, or as the signature of a function. -/
def isDeclarationLike (line : List Char) : Bool :=
  startsWith "import ".toList line || Import.isModuleName line ||
    (Screen.attributes? line).isSome || (State.line? line).isSome ||
    (Function.Signature.read? line).isSome

/-- Lines of markup only: no declaration, and no head left open. -/
structure IsMarkup (text : List Char) : Prop where
  undeclared : isDeclarationLike text = false
  ended : ∀ segment ∈ (Pieces.ofText text).segments,
    Head.isHead segment = true → (Head.read? segment).isSome = true

instance (text : List Char) : Decidable (IsMarkup text) :=
  decidable_of_iff (isDeclarationLike text = false ∧
    ∀ segment ∈ (Pieces.ofText text).segments,
      Head.isHead segment = true → (Head.read? segment).isSome = true)
    ⟨fun ⟨undeclared, ended⟩ => ⟨undeclared, ended⟩, fun ⟨undeclared, ended⟩ => ⟨undeclared, ended⟩⟩

/-- A tag that a line of markup leaves open is a closing one. -/
theorem IsMarkup.closes {text tag : List Char} (markup : IsMarkup text)
    (found : (Pieces.ofText text).unfinished = some tag) : startsWith ['<', '/'] tag = true := by
  have membership : tag ∈ (Pieces.ofText text).segments :=
    List.mem_append_right _ (Option.mem_toList.mpr found)
  obtain ⟨-, segment⟩ := (Pieces.reads_ofText text).unfinished_tag found
  cases segment with
  | @unfinished rest starts ended =>
      obtain ⟨c, more, shape, solid⟩ := Head.startsTag_iff.mp starts
      obtain rfl : rest = c :: more := (List.cons.inj shape).2
      rcases Bool.or_eq_true_iff.mp solid with letter | slash
      · have read := markup.ended _ membership letter
        simp [Head.read?, ended] at read
      · rw [beq_iff_eq] at slash
        subst slash
        rfl

theorem Head.startsTag_of_isHead {text : List Char} (isHead : isHead text = true) :
    startsTag text = true := by
  unfold Head.isHead at isHead
  split at isHead
  · exact startsTag_iff.mpr ⟨_, _, rfl, by rw [isHead, Bool.true_or]⟩
  · exact absurd isHead Bool.false_ne_true

/-- A piece that starts as a head is one, with nothing behind it. -/
theorem Pieces.Segment.exists_read? {text : List Char} {piece : Piece}
    (segment : Segment text ⟨[piece], none⟩) (isHead : Head.isHead text = true) :
    ∃ head, Head.read? text = some (head, []) := by
  cases segment with
  | text solid _ alone =>
      rw [beforeTag_of_startsTag (Head.startsTag_of_isHead isHead), Prod.mk.injEq] at alone
      exact absurd alone.2 solid
  | @tag inside _ ended =>
      refine ⟨Head.ofInside inside, ?_⟩
      rw [List.cons_append, Head.read?, ended]
      rfl

/-- A line that falls into whole pieces leaves no head open. -/
theorem isMarkup_of_whole {text : List Char} {pieces : List Piece}
    (read : Pieces.ofText text = ⟨pieces, none⟩) (undeclared : isDeclarationLike text = false) :
    IsMarkup text := by
  refine ⟨undeclared, fun segment membership isHead => ?_⟩
  have stable := (Pieces.reads_ofText text).whole
  rw [read] at membership stable
  obtain ⟨piece, whole, rfl⟩ : ∃ piece ∈ pieces, piece.written = segment := by
    simpa [Pieces.segments] using membership
  obtain ⟨head, found⟩ := (stable piece whole).2.exists_read? isHead
  rw [found]
  rfl

namespace Block

theorem simple?_eq_none {line : List Char} (undeclared : isDeclarationLike line = false) :
    simple? line = none := by
  simp only [isDeclarationLike, Bool.or_eq_false_iff, Option.isSome_eq_false_iff,
    Option.isNone_iff_eq_none] at undeclared
  obtain ⟨⟨⟨⟨noImport, noModule⟩, noScreen⟩, noState⟩, -⟩ := undeclared
  simp only [startsWith, Option.isSome_eq_false_iff, Option.isNone_iff_eq_none] at noImport
  have noStatement : importStatement? line = none := by
    rw [importStatement?, noImport]
    rfl
  simp [simple?, noStatement, noModule, noScreen, noState]

theorem open?_eq_none {line : Line} (undeclared : isDeclarationLike line.text = false)
    (lines : List Line) : Function.open? line lines = none := by
  simp only [isDeclarationLike, Bool.or_eq_false_iff, Option.isSome_eq_false_iff,
    Option.isNone_iff_eq_none] at undeclared
  rw [Function.open?, undeclared.2]

/-- The blocks of a line of markup. -/
def ofMarkup (number : Nat) (text : List Char) : List Block :=
  (Pieces.ofText text).whole.map (piece number) ++
    (Pieces.ofText text).unfinished.toList.map (openClosing number)

theorem ofText_of_markup {text : List Char} (markup : IsMarkup text) (number : Nat)
    (below : List Line) : ofText number text below = ofMarkup number text ++ ofLines below := by
  rw [ofText_eq, ofMarkup, List.append_assoc]
  cases found : (Pieces.ofText text).unfinished with
  | none => rfl
  | some tag =>
      simp only [markup.closes found, ↓reduceIte]
      rfl

theorem ofLines_of_markup {lines : List Line} (markup : ∀ line ∈ lines, IsMarkup line.text)
    (below : List Line) : ofLines (lines ++ below) =
      lines.flatMap (fun line => ofMarkup line.number line.text) ++ ofLines below := by
  induction lines with
  | nil => rfl
  | cons line lines inductionHypothesis =>
      obtain ⟨isMarkup, markup⟩ := List.forall_mem_cons.mp markup
      rw [List.cons_append, ofLines_cons, simple?_eq_none isMarkup.undeclared,
        open?_eq_none isMarkup.undeclared]
      simp only [ofText_of_markup isMarkup, inductionHypothesis markup, List.flatMap_cons,
        List.append_assoc]

theorem ofLines_eq_of_markup {lines : List Line} (markup : ∀ line ∈ lines, IsMarkup line.text) :
    ofLines lines = lines.flatMap fun line => ofMarkup line.number line.text := by
  have whole := ofLines_of_markup markup []
  rwa [List.append_nil, ofLines_nil, List.append_nil] at whole

theorem ofSource_of_markup {source : List Char}
    (markup : ∀ line ∈ Line.ofSource source, IsMarkup line.text) :
    ofSource source =
      (Line.ofSource source).flatMap fun line => ofMarkup line.number line.text :=
  ofLines_eq_of_markup markup

end Block

theorem Item.isPlain_ofHead {catalog : Catalog} {number : Nat} {head : Head} :
    ∀ item ∈ ofHead catalog number head, item.isPlain = true := by
  intro item membership
  rcases List.mem_append.mp membership with fault | tag
  · obtain ⟨name, -, rfl⟩ := List.mem_map.mp fault
    rfl
  · rw [List.mem_singleton] at tag
    rw [tag]
    split <;> rfl

theorem Block.isPlain_ofMarkup {catalog : Catalog} {number : Nat} {text : List Char} :
    ∀ block ∈ ofMarkup number text, ∀ item ∈ block.items catalog, item.isPlain = true := by
  intro block membership
  rcases List.mem_append.mp membership with whole | unfinished
  · obtain ⟨found, -, rfl⟩ := List.mem_map.mp whole
    cases found with
    | text run => simp [items, Item.ofPiece, Item.isPlain]
    | closing inside => simp [items, Item.ofPiece, Item.isPlain]
    | head inside => exact Item.isPlain_ofHead
  · obtain ⟨tag, -, rfl⟩ := List.mem_map.mp unfinished
    simp only [items, List.mem_singleton, forall_eq]
    unfold Item.ofOpenClosing
    split <;> rfl

theorem Block.isPlain_of_markup {catalog : Catalog} {lines : List Line}
    (markup : ∀ line ∈ lines, IsMarkup line.text) :
    ∀ item ∈ (ofLines lines).flatMap (items catalog), item.isPlain = true := by
  intro item membership
  rw [ofLines_eq_of_markup markup] at membership
  obtain ⟨block, inside, stands⟩ := List.mem_flatMap.mp membership
  obtain ⟨line, -, piece⟩ := List.mem_flatMap.mp inside
  exact isPlain_ofMarkup block piece item stands

namespace Document

theorem parse_of_markup (catalog : Catalog) {source : List Char}
    (plain : Stylesheet.find? source = none)
    (markup : ∀ line ∈ Line.ofSource source, IsMarkup line.text) :
    parse catalog source =
      ofNodes (Forest.ofItems (Item.ofSource catalog source)).nodes
        (Forest.ofItems (Item.ofSource catalog source)).diagnostics := by
  rw [parse_of_find?_eq_none catalog plain]
  exact ofForest_of_undeclared
    (Forest.declarations_ofItems_of_plain (Block.isPlain_of_markup markup))

theorem isUndeclared_of_markup (catalog : Catalog) {source : List Char}
    (plain : Stylesheet.find? source = none)
    (markup : ∀ line ∈ Line.ofSource source, IsMarkup line.text) :
    (parse catalog source).IsUndeclared := by
  rw [parse_of_markup catalog plain markup]
  exact ⟨rfl, rfl, rfl, rfl⟩

end Document

end ScreenCompiler
