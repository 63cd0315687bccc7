import ScreenCompiler.Component.Module
import ScreenCompiler.Proofs.Document.Respacing
import ScreenCompiler.Proofs.Document.Stylesheets
import ScreenCompiler.Proofs.Text.OpenPairs
import ScreenCompiler.Proofs.Text.Trim

/-!
# Stylesheet blocks

What is cut out of a source is one block: it starts at the first opening and ends where
nothing that it opens is open any more.  All else stays, on the lines where it was, and
the block comes back as it was at the end of the generated module.
-/

namespace ScreenCompiler

open Text

namespace Stylesheet

/-- What opens a block: words and signs, with blanks between them. -/
inductive IsOpening : List Char → Prop where
  | intro {behindConst behindName behindSign behindCall : List Char} :
      behindConst ≠ [] → isAllBlank behindConst = true → isAllBlank behindName = true →
      isAllBlank behindSign = true → isAllBlank behindCall = true →
      IsOpening ("const".toList ++ (behindConst ++ ("styles".toList ++ (behindName ++ (['='] ++
        (behindSign ++ ("StyleSheet.create".toList ++ (behindCall ++ ['(']))))))))

/-- A word is found behind blanks, and only there. -/
theorem afterPrefix?_trimStart_iff {word text rest : List Char}
    (solid : word.head?.any (fun c => !isBlank c) = true) :
    afterPrefix? word (trimStart text) = some rest ↔
      ∃ gap, isAllBlank gap = true ∧ text = gap ++ (word ++ rest) := by
  rw [afterPrefix?_eq_some_iff]
  constructor
  · intro shape
    obtain ⟨gap, blank, split⟩ := exists_append_trimStart text
    exact ⟨gap, blank, by rw [split, shape]⟩
  · rintro ⟨gap, blank, rfl⟩
    rw [trimStart_append_of_isAllBlank blank]
    cases word with
    | nil => exact absurd solid Bool.false_ne_true
    | cons c word => exact trimStart_cons_of_not_blank (by simpa using solid)

theorem afterOpening?_eq_some_iff {text inside : List Char} :
    afterOpening? text = some inside ↔ ∃ opening, IsOpening opening ∧ text = opening ++ inside := by
  have styles : "styles".toList.head?.any (fun c => !isBlank c) = true := by decide
  have sign : ['='].head?.any (fun c => !isBlank c) = true := by decide
  have create : "StyleSheet.create".toList.head?.any (fun c => !isBlank c) = true := by decide
  have parenthesis : ['('].head?.any (fun c => !isBlank c) = true := by decide
  constructor
  · intro found
    obtain ⟨behindConst, isConst, named⟩ := Option.bind_eq_some_iff.mp found
    cases behindConst with
    | nil => simp at named
    | cons c rest =>
        obtain ⟨blank, named⟩ := Option.ite_none_right_eq_some.mp named
        obtain ⟨behindName, isName, signed⟩ := Option.bind_eq_some_iff.mp named
        obtain ⟨behindSign, isSign, called⟩ := Option.bind_eq_some_iff.mp signed
        obtain ⟨behindCall, isCall, opened⟩ := Option.bind_eq_some_iff.mp called
        obtain ⟨first, blankFirst, rfl⟩ := (afterPrefix?_trimStart_iff styles).mp isName
        obtain ⟨second, blankSecond, rfl⟩ := (afterPrefix?_trimStart_iff sign).mp isSign
        obtain ⟨third, blankThird, rfl⟩ := (afterPrefix?_trimStart_iff create).mp isCall
        obtain ⟨fourth, blankFourth, rfl⟩ := (afterPrefix?_trimStart_iff parenthesis).mp opened
        refine ⟨_, .intro (List.cons_ne_nil c first) (isAllBlank_cons.mpr ⟨blank, blankFirst⟩)
          blankSecond blankThird blankFourth, ?_⟩
        rw [afterPrefix?_eq_some_iff.mp isConst]
        simp only [List.append_assoc, List.cons_append]
  · rintro ⟨opening, isOpening, rfl⟩
    obtain @⟨space, second, third, fourth, some, blankSpace, blankSecond, blankThird,
      blankFourth⟩ := isOpening
    obtain ⟨c, first, rfl⟩ := List.exists_cons_of_ne_nil some
    obtain ⟨blank, blankFirst⟩ := isAllBlank_cons.mp blankSpace
    have apart : ∀ rest, c :: first ++ rest = c :: (first ++ rest) := fun _ => rfl
    simp only [List.append_assoc]
    rw [afterOpening?, afterPrefix?_eq_some_iff.mpr rfl, Option.bind_some, apart]
    simp only [blank, ↓reduceIte]
    rw [(afterPrefix?_trimStart_iff styles).mpr ⟨first, blankFirst, rfl⟩, Option.bind_some,
      (afterPrefix?_trimStart_iff sign).mpr ⟨second, blankSecond, rfl⟩, Option.bind_some,
      (afterPrefix?_trimStart_iff create).mpr ⟨third, blankThird, rfl⟩, Option.bind_some]
    exact (afterPrefix?_trimStart_iff parenthesis).mpr ⟨fourth, blankFourth, rfl⟩

/-- The first opening of a text, with what stands before and behind it. -/
structure IsFirstOpening (text before opening inside : List Char) : Prop where
  isOpening : IsOpening opening
  text_eq : text = before ++ (opening ++ inside)
  first : ∀ front other rest, IsOpening other → text = front ++ (other ++ rest) →
    before.length ≤ front.length

theorem IsFirstOpening.cons {c : Char} {text before opening inside : List Char}
    (first : IsFirstOpening text before opening inside)
    (noOpening : afterOpening? (c :: text) = none) :
    IsFirstOpening (c :: text) (c :: before) opening inside where
  isOpening := first.isOpening
  text_eq := by rw [first.text_eq, List.cons_append]
  first front other rest isOpening shape := by
    cases front with
    | nil =>
        have opened := afterOpening?_eq_some_iff.mpr ⟨other, isOpening, shape⟩
        exact absurd (noOpening.symm.trans opened) (Option.some_ne_none rest).symm
    | cons d front =>
        have further := first.first front other rest isOpening (List.cons.inj shape).2
        exact Nat.succ_le_succ further

theorem isFirstOpening_of_find? {text before opening inside : List Char}
    (found : find? text = some (before, opening, inside)) :
    IsFirstOpening text before opening inside := by
  induction text generalizing before with
  | nil =>
      have nothing : (find? []).isSome = false := by decide
      rw [found] at nothing
      contradiction
  | cons c text inductionHypothesis =>
      have shape := (find?_spec found).1
      unfold find? at found
      split at found
      · rename_i behind opened
        obtain ⟨rfl, same⟩ := Prod.mk.inj (Option.some.inj found)
        obtain rfl := (Prod.mk.inj same).2
        obtain ⟨other, isOpening, whole⟩ := afterOpening?_eq_some_iff.mp opened
        rw [List.nil_append] at shape
        obtain rfl : other = opening := List.append_cancel_right (whole.symm.trans shape)
        exact ⟨isOpening, shape, fun _ _ _ _ _ => Nat.zero_le _⟩
      · rename_i noOpening
        obtain ⟨⟨inner, head, behind⟩, later, same⟩ := Option.map_eq_some_iff.mp found
        simp only [Prod.mk.injEq] at same
        obtain ⟨rfl, rfl, rfl⟩ := same
        exact (inductionHypothesis later).cons noOpening

theorem not_infix_of_find?_eq_none {text opening : List Char} (plain : find? text = none)
    (isOpening : IsOpening opening) : ¬opening <:+: text := by
  rintro ⟨before, inside, rfl⟩
  have opened := afterOpening?_eq_some_iff.mpr
    ⟨opening, isOpening, (rfl : opening ++ inside = opening ++ inside)⟩
  have found : (find? (opening ++ inside)).isSome = true := by
    unfold find?
    rw [opened]
    rfl
  have further := isSome_find?_append before found
  rw [← List.append_assoc, plain] at further
  exact absurd further Bool.false_ne_true

/-- What belongs to a block behind its last parenthesis, and the text after it. -/
inductive IsEnding : List Char → List Char → Prop where
  | semicolon {gap after} : (∀ c ∈ gap, c = ' ' ∨ c = '\t') → IsEnding (gap ++ [';']) after
  | nothing {after} :
      (∀ gap rest, (∀ c ∈ gap, c = ' ' ∨ c = '\t') → after ≠ gap ++ ';' :: rest) →
      IsEnding [] after

theorem isEnding_splitEnd {text ending after : List Char}
    (found : splitEnd text = (ending, after)) :
    IsEnding ending after := by
  unfold splitEnd at found
  split at found
  · rename_i rest behind
    obtain ⟨rfl, rfl⟩ := Prod.mk.inj found
    refine .semicolon fun c membership => ?_
    simpa using List.mem_takeWhile_imp membership
  · rename_i other
    obtain ⟨rfl, rfl⟩ := Prod.mk.inj found
    refine .nothing fun gap rest blank shape => other rest ?_
    rw [shape, List.dropWhile_append_of_pos (by simpa using blank)]
    rfl

/-- A block is taken out of a source and leaves its line feeds. -/
structure TakesOut (source before block after : List Char) (cut : StylesheetCut) : Prop where
  source_eq : source = before ++ (block ++ after)
  block_eq : cut.block = some block
  remaining_eq : cut.remaining = before ++ (List.replicate (lineFeeds block) '\n' ++ after)
  /-- What stands behind the block stays on its line. -/
  sameLines : ∀ front rest, after = front ++ rest →
    lineFeeds (before ++ (List.replicate (lineFeeds block) '\n' ++ front)) =
      lineFeeds (before ++ (block ++ front))

theorem takesOut_assemble {source before block after : List Char}
    (shape : source = before ++ (block ++ after)) (unterminatedAt : Option Nat) :
    TakesOut source before block after (assemble before block after unterminatedAt) where
  source_eq := shape
  block_eq := rfl
  remaining_eq := List.append_assoc _ _ _
  sameLines front _ _ := by simp only [lineFeeds_append, lineFeeds_replicate]

/-- What a cut takes out of its source. -/
inductive CutsBlock (source : List Char) (cut : StylesheetCut) : Prop where
  | nothing : (∀ opening, IsOpening opening → ¬opening <:+: source) →
      cut.block = none → cut.remaining = source → cut.unterminatedAt = none →
      CutsBlock source cut
  /-- The block ends behind the parenthesis that closes its first one. -/
  | closed {before opening body ending after} :
      IsFirstOpening source before opening (body ++ ')' :: (ending ++ after)) →
      ClosesAtEnd parentheses ('(' :: (body ++ [')'])) → IsEnding ending after →
      TakesOut source before (opening ++ (body ++ ')' :: ending)) after cut →
      cut.unterminatedAt = none → CutsBlock source cut
  /-- No parenthesis closes the first one, and the block goes on to the end. -/
  | unclosed {before opening inside} :
      IsFirstOpening source before opening inside → StaysOpen parentheses ('(' :: inside) →
      TakesOut source before (opening ++ inside) [] cut →
      cut.unterminatedAt = some (lineFeeds before + 1) → CutsBlock source cut

theorem cutsBlock_cut (source : List Char) : CutsBlock source (cut source) := by
  unfold cut
  split
  · rename_i plain
    exact .nothing (fun opening => not_infix_of_find?_eq_none plain) rfl rfl rfl
  · rename_i before opening inside found
    have first := isFirstOpening_of_find? found
    split
    · rename_i body rest ended
      have inner : inside = body ++ ')' :: rest := Closing.append_of_find_closed ended
      cases ends : splitEnd rest with
      | mk ending after =>
      obtain rfl := (splitEnd_spec ends).1
      subst inner
      refine .closed first (Closing.closesAtEnd_of_find (by decide) (by decide) (by decide) ended)
        (isEnding_splitEnd ends) ?_ rfl
      have shape : source = before ++ (opening ++ (body ++ ')' :: ending) ++ after) := by
        rw [first.text_eq]
        simp only [List.append_assoc, List.cons_append]
      have block : opening ++ body ++ ')' :: ending = opening ++ (body ++ ')' :: ending) :=
        List.append_assoc _ _ _
      simp only [block]
      exact takesOut_assemble shape none
    · rename_i last ended
      have staysOpen := Closing.staysOpen_of_find (by decide) (by decide) (by decide) ended
      refine .unclosed first staysOpen (takesOut_assemble ?_ _) rfl
      rw [first.text_eq, List.append_nil]

/-- A parenthesis in a literal closes nothing, and the lines of the block stay as empty ones. -/
example : (cut "a\nconst styles = StyleSheet.create(\x7b\n  b: ')' \x7d) ;c".toList).remaining =
    "a\n\nc".toList := by
  decide +kernel

end Stylesheet

namespace Document

theorem exists_generate_eq (catalog : Catalog) (routes : List Route) (name : String)
    (document : Document) : ∃ front, (document.generate catalog routes name).toList =
      front ++ ((document.stylesheet.getD emptyStylesheet).toList ++ ['\n']) := by
  let component := document.component catalog routes name
  refine ⟨(component.importText ++ "\n\n" ++ component.header ++ "\n  return (\n" ++
    component.markup ++ "  );\n\x7d\n\n").toList, ?_⟩
  rw [generate, ComponentModule.text, String.toList_append, String.toList_append, List.append_assoc]
  rfl

/-- One block is cut out of a source, from its first opening to where nothing is open any more, and
all else stays where it was.  The generated module ends in this block. -/
theorem generate_ends_in_cut (catalog : Catalog) (routes : List Route) (name : String)
    (source : List Char) :
    Stylesheet.CutsBlock source (Stylesheet.cut source) ∧
      ∃ front, (generate catalog routes name (parse catalog source)).toList =
        front ++ ((Stylesheet.cut source).block.getD emptyStylesheet.toList ++ ['\n']) := by
  refine ⟨Stylesheet.cutsBlock_cut source, ?_⟩
  obtain ⟨front, text⟩ := exists_generate_eq catalog routes name (parse catalog source)
  refine ⟨front, ?_⟩
  rw [text]
  have stylesheet : (parse catalog source).stylesheet =
    (Stylesheet.cut source).block.map String.ofList := rfl
  rw [stylesheet]
  cases (Stylesheet.cut source).block with
  | none => rfl
  | some block => rw [Option.map_some, Option.getD_some, Option.getD_some, String.toList_ofList]

end Document

end ScreenCompiler
