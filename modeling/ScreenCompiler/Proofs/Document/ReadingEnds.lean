import ScreenCompiler.Proofs.Document.CursorDescent
import ScreenCompiler.Proofs.Document.HeadSlices
import ScreenCompiler.Proofs.Document.Stylesheets

/-!
# Reading a source ends

A cursor starts with no more characters than its source has, and every round leaves fewer of
them.  So the source is read to its document in no more rounds than it has characters.
-/

namespace ScreenCompiler

open Text

theorem textSize_numbered (number : Nat) (raws : List (List Char)) :
    textSize (Line.numbered number raws) = (raws.flatMap trim).length := by
  induction raws generalizing number with
  | nil => rfl
  | cons raw raws inductionHypothesis =>
      rw [Line.numbered, List.flatMap_cons, List.length_append]
      split
      · rename_i blank
        rw [inductionHypothesis, List.isEmpty_iff.mp blank, List.length_nil, Nat.zero_add]
      · rw [textSize, inductionHypothesis]
        rfl

theorem length_flatMap_trim_le (pieces : List (List Char)) :
    (pieces.flatMap trim).length ≤ (unlines pieces).length := by
  induction pieces with
  | nil => exact Nat.le_refl 0
  | cons piece pieces inductionHypothesis =>
      have shorter := length_trim_le piece
      cases pieces with
      | nil => simpa [unlines] using shorter
      | cons next pieces =>
          have whole : (unlines (piece :: next :: pieces)).length =
              piece.length + ((unlines (next :: pieces)).length + 1) := by
            have apart := unlines_append [piece] (List.cons_ne_nil next pieces)
            simpa using congrArg List.length apart
          rw [List.flatMap_cons, List.length_append, whole]
          omega

theorem textSize_ofSource_le (source : List Char) :
    textSize (Line.ofSource source) ≤ source.length := by
  rw [Line.ofSource, textSize_numbered, flatMap_lines trim_dropReturn rfl]
  conv_rhs => rw [← unlines_splitOn source]
  exact length_flatMap_trim_le _

theorem Stylesheet.CutOf.length_remaining_le {source : List Char} {cut : StylesheetCut}
    (cuts : CutOf source cut) : cut.remaining.length ≤ source.length := by
  have feeds : ∀ block, Text.lineFeeds block ≤ block.length := fun _ => List.count_le_length
  cases cuts with
  | whole => exact Nat.le_refl _
  | @closed before block after shape _ _ =>
      have fewer := feeds block
      rw [shape, assemble]
      simp only [List.length_append, List.length_replicate]
      omega
  | @unclosed before block shape _ =>
      have fewer := feeds block
      rw [shape, assemble]
      simp only [List.length_append, List.length_replicate, List.length_nil]
      omega

/-- The document of a source, given the forest that its lines are read to. -/
def Document.ofReading (cut : StylesheetCut) (forest : Forest) : Document :=
  { ofForest forest with
    stylesheet := cut.block.map String.ofList
    diagnostics := stylesheetFaults cut ++ (ofForest forest).diagnostics }

namespace Cursor

/-- The cursor at the first line of a source, its stylesheet cut out. -/
def start (source : List Char) : Cursor :=
  ofSource (Stylesheet.cut source).remaining

/-- The cursors that a run over a source comes to, within the open elements. -/
inductive Visits (catalog : Catalog) (source : List Char) : List String → Cursor → Prop where
  | start : Visits catalog source [] (start source)
  | expand {enclosing cursor} :
      Visits catalog source enclosing cursor → Visits catalog source enclosing cursor.expand
  | next {enclosing cursor line behind} :
      Visits catalog source enclosing cursor → cursor.next? = some (line, behind) →
      Visits catalog source enclosing behind
  | inside {enclosing cursor faults tag props line inside} :
      Visits catalog source enclosing cursor →
      cursor.tag catalog = .element faults tag props line inside →
      Visits catalog source (tag :: enclosing) inside
  | round {enclosing cursor forest behind rounds} :
      Visits catalog source enclosing cursor →
      Round catalog enclosing cursor forest behind rounds →
      Visits catalog source enclosing behind

/-- Reading a source makes progress. -/
structure MakesProgress (catalog : Catalog) (source : List Char) : Prop where
  solid : ∀ {enclosing cursor}, Visits catalog source enclosing cursor →
    ∀ line ∈ cursor.pending, line.text ≠ []
  expand : ∀ cursor : Cursor, cursor.expand.size ≤ cursor.size
  declaration : ∀ {enclosing cursor inside forest behind},
    Visits catalog source enclosing cursor →
      cursor.declaration? catalog inside = some (forest, behind) → behind.size < cursor.size
  /-- What is put back behind a head is less than the head and what it has taken in. -/
  head : ∀ {enclosing cursor}, Visits catalog source enclosing cursor → cursor.StartsTag →
    (cursor.tag catalog).leftAt.size < cursor.size
  returns : ∀ {enclosing cursor}, Visits catalog source enclosing cursor → cursor.StartsTag →
    ∃ forest behind rounds, ReadsTag catalog enclosing cursor forest behind rounds
  call : ∀ {enclosing cursor forest behind rounds}, Visits catalog source enclosing cursor →
    cursor.StartsTag → ReadsTag catalog enclosing cursor forest behind rounds →
      behind.size < cursor.size
  round : ∀ {enclosing cursor forest behind rounds}, Visits catalog source enclosing cursor →
    Round catalog enclosing cursor forest behind rounds → behind.size < cursor.size
  ends : ∃ forest rest rounds, Loop catalog [] (start source) forest rest rounds
  bounded : ∀ {forest rest rounds}, Loop catalog [] (start source) forest rest rounds →
    rounds ≤ source.length
  /-- The loop stops when all is read, and has read the document. -/
  whole : ∀ {forest rest rounds}, Loop catalog [] (start source) forest rest rounds →
    rest.pending = [] ∧ Document.ofReading (Stylesheet.cut source) forest = .parse catalog source
  slices : ∀ text, Head.HasSlices text
  /-- A text that is given up is not empty, so its name can be cut out. -/
  abandoned : ∀ {enclosing cursor line behind text}, Visits catalog source enclosing cursor →
    cursor.next? = some (line, behind) → (behind.readHead line.text).1 = .abandoned text →
      text ≠ []

theorem isSolid_start (source : List Char) : (start source).IsSolid :=
  isSolid_ofSource _

theorem isSolid_of_visits {catalog : Catalog} {source : List Char} {enclosing : List String}
    {cursor : Cursor} (visits : Visits catalog source enclosing cursor) : cursor.IsSolid := by
  induction visits with
  | start => exact isSolid_start source
  | expand _ inductionHypothesis => exact inductionHypothesis.expand
  | next _ found inductionHypothesis =>
      exact inductionHypothesis.of_suffix (suffix_of_next? found)
  | inside _ element inductionHypothesis => exact inductionHypothesis.inside element
  | round _ round inductionHypothesis => exact (round.progress inductionHypothesis).1

theorem size_start_le (source : List Char) : (start source).size ≤ source.length :=
  (textSize_ofSource_le _).trans (Stylesheet.cutOf_cut source).length_remaining_le

theorem Loop.document_eq {catalog : Catalog} {source : List Char} {forest : Forest}
    {rest : Cursor} {rounds : Nat} (loop : Loop catalog [] (start source) forest rest rounds) :
    Document.ofReading (Stylesheet.cut source) forest = .parse catalog source := by
  rw [loop.forest_eq]
  rfl

theorem eq_of_abandoned {text last : List Char}
    (found : Opening.ofUnfinished text = .abandoned last) : text = last := by
  unfold Opening.ofUnfinished at found
  split at found
  · simp at found
  · exact Opening.abandoned.inj found

theorem isHead_of_abandoned {text last : List Char} {cursor : Cursor}
    (found : (cursor.readHead text).1 = .abandoned last) : Head.isHead last = true := by
  fun_induction readHead text cursor with
  | case1 text cursor isHead first behind complete => simp at found
  | case5 text cursor isHead goesOn quoted next behind more structured inductionHypothesis =>
      exact inductionHypothesis found
  | case6 text cursor noHead => simp at found
  | case2 text cursor isHead _ _ => exact eq_of_abandoned found ▸ isHead
  | case3 text cursor isHead _ _ _ => exact eq_of_abandoned found ▸ isHead
  | case4 text cursor isHead _ _ _ _ _ _ => exact eq_of_abandoned found ▸ isHead

theorem makesProgress (catalog : Catalog) (source : List Char) : MakesProgress catalog source where
  solid := isSolid_of_visits
  expand := size_expand_le
  declaration visits found := size_declaration?_lt (isSolid_of_visits visits) found
  head visits starts := by
    obtain ⟨line, behind, next, -⟩ := starts
    exact size_tag_lt (isSolid_of_visits visits) next catalog
  returns visits _ := exists_readsTag (isSolid_of_visits visits)
  call visits starts reads := by
    obtain ⟨-, less⟩ := reads.progress (isSolid_of_visits visits) starts
    omega
  round visits round := by
    obtain ⟨-, some, less⟩ := round.progress (isSolid_of_visits visits)
    omega
  ends := exists_loop (isSolid_start source)
  bounded loop := by
    obtain ⟨-, less⟩ := loop.progress (isSolid_start source)
    have size := size_start_le source
    omega
  whole loop := ⟨loop.pending_eq_nil rfl, loop.document_eq⟩
  slices := Head.hasSlices
  abandoned _ _ found := by
    rintro rfl
    exact Bool.false_ne_true (isHead_of_abandoned found)

example : (ofSource "<A\n b>c</A>".toList).size = 9 ∧
    ((ofSource "<A\n b>c</A>".toList).tag .standard).leftAt.size = 5 := by
  decide +kernel

end Cursor

end ScreenCompiler
