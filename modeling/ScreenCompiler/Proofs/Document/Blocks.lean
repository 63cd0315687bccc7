import ScreenCompiler.Proofs.Document.Joining
import ScreenCompiler.Proofs.Markup.Pieces

/-!
# Where blocks come from

Every block stands at a line of its source.  Markup is read from texts that the reading
reaches: the text of a line, and what follows a head that has gone on over lines.
-/

namespace ScreenCompiler

open Text

namespace Block

/-- Reading the lines of a source comes to a text of markup under a number, with lines below it. -/
inductive Reaches (source : List Line) : Nat → List Char → List Line → Prop where
  | line {line below} :
      line :: below <:+ source →
      Reaches source line.number line.text below
  | behind {number text below tag head rest more} :
      Reaches source number text below →
      (Pieces.ofText text).unfinished = some tag →
      startsWith ['<', '/'] tag = false →
      Continued.read tag below = .complete head rest more →
      Reaches source number rest more

theorem Reaches.suffix {source below : List Line} {number : Nat} {text : List Char}
    (reaches : Reaches source number text below) : below <:+ source := by
  induction reaches with
  | line within => exact (List.suffix_cons _ _).trans within
  | behind _ _ _ found inductionHypothesis =>
      exact (Continued.suffix_of_complete found).trans inductionHypothesis

/-- The lines of a source at which a block stands. -/
inductive StandsIn (source : List Line) : Block → Prop where
  | simple {line below block} :
      line :: below <:+ source → simple? line.text = some block → StandsIn source block
  | function {line below opened} :
      line :: below <:+ source →
      Function.open? line below = some opened →
      StandsIn source (function line.number
        (Function.ofBody opened.signature (Function.readBody opened))
        (Function.readBody opened).rest.isSome)
  | piece {number text below found} :
      Reaches source number text below →
      found ∈ (Pieces.ofText text).whole →
      StandsIn source (piece number found)
  | openClosing {number text below tag} :
      Reaches source number text below →
      (Pieces.ofText text).unfinished = some tag →
      startsWith ['<', '/'] tag = true →
      StandsIn source (openClosing number tag)
  | head {number text below tag found rest more} :
      Reaches source number text below →
      (Pieces.ofText text).unfinished = some tag →
      startsWith ['<', '/'] tag = false →
      Continued.read tag below = .complete found rest more →
      StandsIn source (head number found)
  | unfinished {number text below tag last more} :
      Reaches source number text below →
      (Pieces.ofText text).unfinished = some tag →
      startsWith ['<', '/'] tag = false →
      Continued.read tag below = .unfinished last more →
      StandsIn source (unfinished number last)

theorem standsIn_of_mem_ofLines_of_suffix {source lines : List Line} (within : lines <:+ source) :
    ∀ block ∈ ofLines lines, StandsIn source block := by
  revert within
  refine ofLines.induct
    (fun lines => lines <:+ source → ∀ block ∈ ofLines lines, StandsIn source block)
    (fun number text lines => Reaches source number text lines →
      ∀ block ∈ ofText number text lines, StandsIn source block)
    ?ended ?simple ?opened ?markup ?text lines
  case ended =>
    intro _ block membership
    simp at membership
  case simple =>
    intro line lines block simple inductionHypothesis within
    rw [ofLines_cons, simple]
    exact List.forall_mem_cons.mpr
      ⟨.simple within simple, inductionHypothesis ((List.suffix_cons _ _).trans within)⟩
  case opened =>
    intro line lines simple opened found _ inductionHypothesis within
    rw [ofLines_cons, simple, found]
    refine List.forall_mem_cons.mpr ⟨.function within found, ?_⟩
    cases closed : (Function.readBody opened).rest with
    | none => exact List.forall_mem_nil _
    | some rest =>
        have behind : rest <:+ lines :=
          (Function.rest_readBody_suffix closed).trans (Function.lines_open?_suffix found)
        exact inductionHypothesis rest closed (behind.trans ((List.suffix_cons _ _).trans within))
  case markup =>
    intro line lines simple found inductionHypothesis within
    rw [ofLines_cons, simple, found]
    exact inductionHypothesis (.line within)
  case text =>
    intro number text lines later resumed unfinished reaches
    rw [ofText_eq, List.forall_mem_append]
    refine ⟨?_, ?_⟩
    · intro block membership
      obtain ⟨found, whole, rfl⟩ := List.mem_map.mp membership
      exact .piece reaches whole
    · cases tagged : (Pieces.ofText text).unfinished with
      | none => exact later reaches.suffix
      | some tag =>
          cases closes : startsWith ['<', '/'] tag with
          | true =>
              simp only [closes, ↓reduceIte]
              exact List.forall_mem_cons.mpr
                ⟨.openClosing reaches tagged closes, later reaches.suffix⟩
          | false =>
              simp only [closes, Bool.false_eq_true, ↓reduceIte]
              cases found : Continued.read tag lines with
              | complete head rest more =>
                  exact List.forall_mem_cons.mpr ⟨.head reaches tagged closes found,
                    resumed tag head rest more found (.behind reaches tagged closes found)⟩
              | unfinished last more =>
                  exact List.forall_mem_cons.mpr ⟨.unfinished reaches tagged closes found,
                    unfinished tag last more found
                      ((Continued.suffix_of_unfinished found).trans reaches.suffix)⟩

/-- Every block of some lines stands at a place in them. -/
theorem standsIn_of_mem_ofLines {lines : List Line} :
    ∀ block ∈ ofLines lines, StandsIn lines block :=
  standsIn_of_mem_ofLines_of_suffix List.suffix_rfl

end Block

end ScreenCompiler
