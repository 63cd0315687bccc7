import ScreenCompiler.Proofs.Document.Cursor
import ScreenCompiler.Proofs.Document.Segmentation

/-!
# Progress of a cursor

What is put back at a cursor is always less than what was taken from it.  So every round
leaves fewer characters to read, the calls and loops end, and a source takes no more
rounds than it has characters.
-/

namespace ScreenCompiler

open Text

theorem textSize_append (first second : List Line) :
    textSize (first ++ second) = textSize first + textSize second := by
  induction first with
  | nil => rw [List.nil_append, textSize, Nat.zero_add]
  | cons line first inductionHypothesis =>
      rw [List.cons_append, textSize, textSize, inductionHypothesis, Nat.add_assoc]

theorem textSize_le_of_suffix {lines source : List Line} (within : lines <:+ source) :
    textSize lines ≤ textSize source := by
  obtain ⟨above, rfl⟩ := within
  rw [textSize_append]
  exact Nat.le_add_left ..

theorem length_trim_le (text : List Char) : (trim text).length ≤ text.length :=
  (Pieces.trim_within text).length_le

/-- Segments have no more characters than the text that they lie in. -/
theorem Pieces.LaidOut.textSize_le {segments : List (List Char)} {text : List Char}
    (laidOut : LaidOut segments text) (number : Nat) :
    textSize (segments.map (⟨number, ·⟩)) ≤ text.length := by
  induction laidOut with
  | done _ => exact Nat.zero_le _
  | @next gap segment _ _ _ _ inductionHypothesis =>
      have shorter : (Line.text ⟨number, segment⟩).length ≤ segment.length :=
        length_trim_le segment
      rw [List.map_cons, textSize, List.length_append, List.length_append]
      omega

/-- A segment is not blank. -/
theorem Pieces.Segment.trim_ne_nil {text : List Char} {pieces : Pieces}
    (segment : Segment text pieces) : trim text ≠ [] := by
  obtain ⟨c, rest, rfl⟩ := List.exists_cons_of_ne_nil segment.ne_nil
  intro empty
  have blank := (isAllBlank_cons.mp (isAllBlank_of_trim_eq_nil empty)).1
  rw [head?_segment segment rfl] at blank
  exact absurd blank Bool.false_ne_true

theorem Head.length_rest_read? {text rest : List Char} {head : Head}
    (found : read? text = some (head, rest)) : rest.length + 2 ≤ text.length := by
  unfold read? at found
  split at found
  · obtain ⟨⟨inside, behind⟩, ended, same⟩ := Option.map_eq_some_iff.mp found
    obtain ⟨-, rfl⟩ := Prod.mk.inj same
    have shorter := length_trim_le behind
    rw [append_of_findEnd? ended]
    simp only [List.length_cons, List.length_append]
    omega
  · simp at found

/-- A head that goes on over lines ends on its last line, so what follows it is part of that. -/
theorem Head.length_rest_of_joined {text next rest : List Char} {head : Head}
    (isHead : isHead text = true) (goesOn : read? text = none)
    (found : read? (text ++ ' ' :: next) = some (head, rest)) : rest.length < next.length := by
  obtain ⟨c, more, rfl, -⟩ := startsTag_iff.mp (Head.startsTag_of_isHead isHead)
  have noEnd : findEnd? .start (c :: more) = none := Option.map_eq_none_iff.mp goesOn
  obtain ⟨⟨inside, behind⟩, ended, same⟩ := Option.map_eq_some_iff.mp found
  obtain ⟨-, rfl⟩ := Prod.mk.inj same
  have whole := findEnd?_append noEnd (' ' :: next)
  rw [List.cons_append] at whole
  obtain ⟨⟨inner, after⟩, here, same⟩ := Option.map_eq_some_iff.mp (whole.symm.trans ended)
  obtain ⟨-, rfl⟩ := Prod.mk.inj same
  have shape := append_of_findEnd? here
  have shorter := length_trim_le after
  cases inner with
  | nil => exact absurd (List.cons.inj shape).1 (by decide)
  | cons d inner =>
      rw [List.cons_append] at shape
      have size := congrArg List.length (List.cons.inj shape).2
      rw [List.length_append, List.length_cons] at size
      omega

theorem Opening.rest_ofUnfinished {text rest : List Char} {head : Head}
    (found : ofUnfinished text = .complete head rest) : rest = [] := by
  unfold ofUnfinished at found
  split at found
  · exact ((complete.injEq ..).mp found).2.symm
  · simp at found

theorem Head.isHead_append {text : List Char} (isHead : isHead text = true) (more : List Char) :
    Head.isHead (text ++ more) = true := by
  unfold Head.isHead at isHead
  split at isHead
  · exact isHead
  · exact absurd isHead Bool.false_ne_true

namespace Cursor

variable {cursor behind : Cursor} {line : Line}

/-- No line from the cursor on is empty. -/
def IsSolid (cursor : Cursor) : Prop :=
  ∀ line ∈ cursor.pending, line.text ≠ []

theorem size_of_next? (found : cursor.next? = some (line, behind)) :
    cursor.size = line.text.length + behind.size := by
  rw [size, pending_of_next? found, textSize, size]

theorem IsSolid.of_suffix (solid : cursor.IsSolid) (within : behind.pending <:+ cursor.pending) :
    behind.IsSolid :=
  fun line membership => solid line (within.subset membership)

theorem IsSolid.length_pos (solid : cursor.IsSolid) (found : cursor.next? = some (line, behind)) :
    0 < line.text.length := by
  refine List.length_pos_of_ne_nil (solid line ?_)
  rw [pending_of_next? found]
  exact List.mem_cons_self

theorem suffix_of_next? (found : cursor.next? = some (line, behind)) :
    behind.pending <:+ cursor.pending := by
  rw [pending_of_next? found]
  exact List.suffix_cons ..

theorem pending_insert (number : Nat) (texts : List (List Char)) (cursor : Cursor) :
    (cursor.insert number texts).pending = texts.map (⟨number, ·⟩) ++ cursor.pending :=
  List.append_assoc ..

theorem size_insert_le (number : Nat) (text : List Char) (cursor : Cursor) :
    (cursor.insert number (Pieces.ofText text).segments).size ≤ text.length + cursor.size := by
  have segments := (Pieces.reads_ofText text).laidOut.textSize_le number
  rw [size, pending_insert, textSize_append]
  exact Nat.add_le_add_right segments _

theorem IsSolid.insert (solid : cursor.IsSolid) (number : Nat) (text : List Char) :
    (cursor.insert number (Pieces.ofText text).segments).IsSolid := by
  intro line membership
  rw [pending_insert, List.mem_append] at membership
  rcases membership with segment | later
  · obtain ⟨text, inside, rfl⟩ := List.mem_map.mp segment
    exact (Pieces.segment_of_mem_segments inside).2.trim_ne_nil
  · exact solid line later

theorem size_expand_le (cursor : Cursor) : cursor.expand.size ≤ cursor.size := by
  rw [expand]
  split
  · exact Nat.le_refl _
  · rename_i line behind found
    simp only
    split
    · rw [size_of_next? found]
      exact size_insert_le ..
    · exact Nat.le_refl _

theorem IsSolid.expand (solid : cursor.IsSolid) : cursor.expand.IsSolid := by
  rw [Cursor.expand]
  split
  · exact solid
  · rename_i line behind found
    simp only
    split
    · exact (solid.of_suffix (suffix_of_next? found)).insert _ _
    · exact solid

theorem rest_declaration? {catalog : Catalog} {inside : Bool} {forest : Forest}
    (found : cursor.declaration? catalog inside = some (forest, behind)) :
    ∃ line rest, cursor.next? = some (line, rest) ∧ behind.pending <:+ rest.pending := by
  obtain ⟨segments, lines⟩ := cursor
  cases segments with
  | cons segment segments => simp [declaration?] at found
  | nil =>
      cases lines with
      | nil => simp [declaration?] at found
      | cons line lines =>
          refine ⟨line, ⟨[], lines⟩, rfl, ?_⟩
          rw [declaration?] at found
          split at found
          · obtain ⟨-, rfl⟩ := Prod.mk.inj (Option.some.inj found)
            exact List.suffix_rfl
          · obtain ⟨opened, isOpened, same⟩ := Option.map_eq_some_iff.mp found
            obtain ⟨-, rfl⟩ := Prod.mk.inj same
            cases closed : (Function.readBody opened).rest with
            | none => exact List.nil_suffix
            | some rest =>
                exact (Function.rest_readBody_suffix closed).trans
                  (Function.lines_open?_suffix isOpened)

theorem size_declaration?_lt {catalog : Catalog} {inside : Bool} {forest : Forest}
    (solid : cursor.IsSolid)
    (found : cursor.declaration? catalog inside = some (forest, behind)) :
    behind.size < cursor.size := by
  obtain ⟨line, rest, next, within⟩ := rest_declaration? found
  have shorter : behind.size ≤ rest.size := textSize_le_of_suffix within
  have first := solid.length_pos next
  rw [size_of_next? next]
  omega

theorem suffix_readHead (text : List Char) (cursor : Cursor) :
    (cursor.readHead text).2.pending <:+ cursor.pending := by
  fun_induction readHead text cursor with
  | case5 text cursor _ _ _ next behind found _ inductionHypothesis =>
      exact inductionHypothesis.trans (suffix_of_next? found)
  | _ => exact List.suffix_rfl

/-- What follows a head that has taken in lines is less than those lines. -/
theorem size_readHead {text rest : List Char} {head : Head} {cursor : Cursor}
    (isHead : Head.isHead text = true) (goesOn : Head.read? text = none)
    (found : (cursor.readHead text).1 = .complete head rest) :
    rest.length + (cursor.readHead text).2.size ≤ cursor.size := by
  fun_induction readHead text cursor with
  | case1 text cursor _ first behind complete =>
      rw [goesOn] at complete
      exact absurd complete.symm (Option.some_ne_none _)
  | case5 text cursor _ _ _ next behind more _ inductionHypothesis =>
      have longer := Head.isHead_append isHead (' ' :: next.text)
      have size := size_of_next? more
      cases joined : Head.read? (text ++ ' ' :: next.text) with
      | none =>
          have within := inductionHypothesis longer joined found
          omega
      | some ended =>
          -- the head ends on the line just taken in, so what follows it is part of that line
          rw [readHead, if_pos longer, joined] at found ⊢
          obtain ⟨rfl, rfl⟩ := (Opening.complete.injEq ..).mp found
          have part := Head.length_rest_of_joined isHead goesOn joined
          simp only
          omega
  | case6 text cursor noHead => exact absurd isHead noHead
  | _ =>
      rw [Opening.rest_ofUnfinished found]
      exact Nat.le_of_eq (Nat.zero_add _)

theorem size_complete {text rest : List Char} {head : Head} {cursor : Cursor}
    (found : (cursor.readHead text).1 = .complete head rest) :
    rest.length + (cursor.readHead text).2.size + 2 ≤ text.length + cursor.size := by
  by_cases isHead : Head.isHead text = true
  · cases ended : Head.read? text with
    | some parts =>
        rw [readHead, if_pos isHead, ended] at found ⊢
        obtain ⟨rfl, rfl⟩ := (Opening.complete.injEq ..).mp found
        have shorter := Head.length_rest_read? ended
        simp only
        omega
    | none =>
        obtain ⟨c, more, rfl, -⟩ := Head.startsTag_iff.mp (Head.startsTag_of_isHead isHead)
        have within := size_readHead isHead ended found
        simp only [List.length_cons]
        omega
  · rw [readHead, if_neg isHead] at found
    simp at found

/-- Where a tag leaves the cursor. -/
def Tag.leftAt : Tag → Cursor
  | alone _ behind => behind
  | element _ _ _ _ inside => inside

theorem Tag.leftAt_ofHead (catalog : Catalog) (number : Nat) (head : Head) (behind : Cursor) :
    (Tag.ofHead catalog number head behind).leftAt = behind := by
  unfold Tag.ofHead
  simp only
  split <;> rfl

theorem tag_of_next? (found : cursor.next? = some (line, behind)) (catalog : Catalog) :
    cursor.tag catalog = .ofOpening catalog line.number (behind.readHead line.text).2
      (behind.readHead line.text).1 := by
  rw [tag, found]

theorem IsSolid.tag (solid : cursor.IsSolid) (catalog : Catalog) :
    (cursor.tag catalog).leftAt.IsSolid := by
  cases found : cursor.next? with
  | none =>
      rw [Cursor.tag, found]
      exact solid
  | some parts =>
      obtain ⟨line, below⟩ := parts
      have behindHead : (below.readHead line.text).2.IsSolid :=
        solid.of_suffix ((suffix_readHead ..).trans (suffix_of_next? found))
      rw [tag_of_next? found]
      cases (below.readHead line.text).1 with
      | text run => exact behindHead
      | complete head rest =>
          rw [Tag.ofOpening, Tag.leftAt_ofHead]
          exact behindHead.insert _ _
      | abandoned text => exact behindHead

/-- What follows a head and is put back is less than what the head has taken. -/
theorem size_ofOpening_complete {head : Head} {rest : List Char}
    (found : cursor.next? = some (line, behind))
    (opening : (behind.readHead line.text).1 = .complete head rest) (catalog : Catalog) :
    (cursor.tag catalog).leftAt.size + 2 ≤ cursor.size := by
  have taken := size_complete opening
  have spliced := size_insert_le line.number rest (behind.readHead line.text).2
  rw [tag_of_next? found, opening, Tag.ofOpening, Tag.leftAt_ofHead, size_of_next? found]
  omega

theorem size_tag_lt (solid : cursor.IsSolid) (found : cursor.next? = some (line, behind))
    (catalog : Catalog) : (cursor.tag catalog).leftAt.size < cursor.size := by
  have first := solid.length_pos found
  have within : (behind.readHead line.text).2.size ≤ behind.size :=
    textSize_le_of_suffix (suffix_readHead ..)
  have whole := size_of_next? found
  cases opening : (behind.readHead line.text).1 with
  | complete head rest =>
      have taken := size_ofOpening_complete found opening catalog
      omega
  | text run =>
      rw [tag_of_next? found, opening, Tag.ofOpening, Tag.leftAt]
      omega
  | abandoned text =>
      rw [tag_of_next? found, opening, Tag.ofOpening, Tag.ofAbandoned, Tag.leftAt]
      omega

/-- An element takes its angle brackets at least. -/
theorem size_inside {catalog : Catalog} {faults : List Diagnostic} {tag : String} {props : Props}
    {number : Nat} {inside : Cursor}
    (element : cursor.tag catalog = .element faults tag props number inside) :
    inside.size + 2 ≤ cursor.size := by
  cases found : cursor.next? with
  | none =>
      rw [Cursor.tag, found] at element
      simp at element
  | some parts =>
      obtain ⟨line, below⟩ := parts
      cases opening : (below.readHead line.text).1 with
      | complete head rest =>
          have taken := size_ofOpening_complete found opening catalog
          rw [element] at taken
          exact taken
      | text run =>
          rw [tag_of_next? found, opening, Tag.ofOpening] at element
          simp at element
      | abandoned text =>
          rw [tag_of_next? found, opening, Tag.ofOpening, Tag.ofAbandoned] at element
          simp at element

theorem IsSolid.inside {catalog : Catalog} {faults : List Diagnostic} {tag : String} {props : Props}
    {number : Nat} {inside : Cursor} (solid : cursor.IsSolid)
    (element : cursor.tag catalog = .element faults tag props number inside) : inside.IsSolid := by
  have isSolid := solid.tag catalog
  rw [element] at isSolid
  exact isSolid

theorem progress_of_alone {catalog : Catalog} {enclosing : List String} {forest : Forest}
    (solid : cursor.IsSolid) (found : cursor.turn catalog enclosing = .alone forest behind) :
    behind.IsSolid ∧ behind.size < cursor.size := by
  have advanced : ∀ {line : Line}, cursor.expand.next? = some (line, behind) →
      behind.IsSolid ∧ behind.size < cursor.size := by
    intro line next
    have first := solid.expand.length_pos next
    have whole := size_of_next? next
    have expanded := size_expand_le cursor
    exact ⟨solid.expand.of_suffix (suffix_of_next? next), by omega⟩
  have turns := turns_turn catalog enclosing cursor
  rw [found] at turns
  cases turns with
  | declaration declared =>
      obtain ⟨line, rest, next, within⟩ := rest_declaration? declared
      exact ⟨solid.of_suffix (within.trans (suffix_of_next? next)),
        size_declaration?_lt solid declared⟩
  | unmatched _ next _ _ => exact advanced next
  | text _ next _ _ => exact advanced next

/-- Whether a tag stands at the cursor, or what looks like one. -/
def StartsTag (cursor : Cursor) : Prop :=
  ∃ line behind, cursor.next? = some (line, behind) ∧ startsWith ['<'] line.text = true

theorem startsTag_of_turn {catalog : Catalog} {enclosing : List String} {opened : Cursor}
    (found : cursor.turn catalog enclosing = .tag opened) :
    opened = cursor.expand ∧ opened.StartsTag := by
  have turns := turns_turn catalog enclosing cursor
  rw [found] at turns
  cases turns with
  | tag _ next _ bracket => exact ⟨rfl, _, _, next, bracket⟩

theorem eq_expand_of_stop {catalog : Catalog} {enclosing : List String} {rest : Cursor}
    (found : cursor.turn catalog enclosing = .stop rest) : rest = cursor.expand := by
  have turns := turns_turn catalog enclosing cursor
  rw [found] at turns
  cases turns with
  | ended => rfl
  | closed => rfl

theorem suffix_afterClosing (tag : String) (cursor : Cursor) :
    (cursor.afterClosing tag).2.pending <:+ cursor.pending := by
  unfold afterClosing
  split
  · exact List.suffix_rfl
  · rename_i line behind found
    split
    · exact suffix_of_next? found
    · exact List.suffix_rfl

theorem size_afterClosing_le (tag : String) (cursor : Cursor) :
    (cursor.afterClosing tag).2.size ≤ cursor.size :=
  textSize_le_of_suffix (suffix_afterClosing tag cursor)

-- The three statements are proved together, along the calls and loops within.
mutual

theorem ReadsTag.progress {catalog : Catalog} : ∀ {enclosing : List String} {cursor : Cursor}
    {forest : Forest} {behind : Cursor} {rounds : Nat},
    ReadsTag catalog enclosing cursor forest behind rounds → cursor.IsSolid → cursor.StartsTag →
      behind.IsSolid ∧ rounds + behind.size + 1 ≤ cursor.size
  | _, cursor, _, behind, _, .alone found, solid, starts => by
      obtain ⟨line, below, next, -⟩ := starts
      have isSolid := solid.tag catalog
      have less := size_tag_lt solid next catalog
      rw [found] at isSolid less
      have shorter : behind.size < cursor.size := less
      exact ⟨isSolid, by omega⟩
  | _, _, _, _, _, @ReadsTag.element _ _ _ _ tag _ _ _ _ remaining _ found loop, solid, _ => by
      obtain ⟨stopped, inner⟩ := loop.progress (solid.inside found)
      -- the brackets of the head pay for the round that ends the inner loop
      have less := size_inside found
      have closing := size_afterClosing_le tag remaining
      exact ⟨stopped.of_suffix (suffix_afterClosing tag remaining), by omega⟩

theorem Round.progress {catalog : Catalog} : ∀ {enclosing : List String} {cursor : Cursor}
    {forest : Forest} {behind : Cursor} {rounds : Nat},
    Round catalog enclosing cursor forest behind rounds → cursor.IsSolid →
      behind.IsSolid ∧ 1 ≤ rounds ∧ rounds + behind.size ≤ cursor.size
  | _, _, _, _, _, .alone found, solid => by
      obtain ⟨isSolid, less⟩ := progress_of_alone solid found
      exact ⟨isSolid, Nat.le_refl 1, by omega⟩
  | _, cursor, _, _, _, .tag found reads, solid => by
      obtain ⟨same, starts⟩ := startsTag_of_turn found
      obtain ⟨isSolid, less⟩ := reads.progress (same ▸ solid.expand) starts
      have expanded := size_expand_le cursor
      rw [← same] at expanded
      exact ⟨isSolid, by omega, by omega⟩

theorem Loop.progress {catalog : Catalog} : ∀ {enclosing : List String} {cursor : Cursor}
    {forest : Forest} {rest : Cursor} {rounds : Nat},
    Loop catalog enclosing cursor forest rest rounds → cursor.IsSolid →
      rest.IsSolid ∧ rounds + rest.size ≤ cursor.size
  | _, cursor, _, _, _, .stop found, solid => by
      rw [eq_expand_of_stop found, Nat.zero_add]
      exact ⟨solid.expand, size_expand_le cursor⟩
  | _, _, _, _, _, .next round loop, solid => by
      obtain ⟨isSolid, -, less⟩ := round.progress solid
      obtain ⟨stopped, later⟩ := loop.progress isSolid
      exact ⟨stopped, by omega⟩

end

/-- Every loop ends. -/
theorem exists_loop {catalog : Catalog} {enclosing : List String} {cursor : Cursor}
    (solid : cursor.IsSolid) :
    ∃ forest rest rounds, Loop catalog enclosing cursor forest rest rounds := by
  generalize bound : cursor.size = size
  induction size using Nat.strong_induction_on generalizing cursor enclosing with
  | _ size inductionHypothesis =>
      subst bound
      cases begun : cursor.turn catalog enclosing with
      | stop rest => exact ⟨_, _, _, .stop begun⟩
      | alone forest behind =>
          obtain ⟨isSolid, less⟩ := progress_of_alone solid begun
          obtain ⟨after, rest, rounds, loop⟩ := inductionHypothesis _ less isSolid rfl
          exact ⟨_, _, _, .next (.alone begun) loop⟩
      | tag opened =>
          -- cutting the line into segments leaves as much as before, reading its tag leaves less
          obtain ⟨rfl, starts⟩ := startsTag_of_turn begun
          have expanded := size_expand_le cursor
          suffices called : ∃ forest behind rounds,
              ReadsTag catalog enclosing cursor.expand forest behind rounds by
            obtain ⟨forest, behind, rounds, reads⟩ := called
            obtain ⟨isSolid, less⟩ := reads.progress solid.expand starts
            obtain ⟨after, rest, more, loop⟩ := inductionHypothesis _ (by omega) isSolid rfl
            exact ⟨_, _, _, .next (.tag begun reads) loop⟩
          cases found : cursor.expand.tag catalog with
          | alone forest behind => exact ⟨_, _, _, .alone found⟩
          | element faults tag props line inside =>
              have less := size_inside found
              obtain ⟨children, remaining, rounds, loop⟩ :=
                inductionHypothesis _ (by omega) (solid.expand.inside found) rfl
              exact ⟨_, _, _, .element found loop⟩

/-- Every call on a tag returns. -/
theorem exists_readsTag {catalog : Catalog} {enclosing : List String} {cursor : Cursor}
    (solid : cursor.IsSolid) :
    ∃ forest behind rounds, ReadsTag catalog enclosing cursor forest behind rounds := by
  cases found : cursor.tag catalog with
  | alone forest behind => exact ⟨_, _, _, .alone found⟩
  | element faults tag props line inside =>
      obtain ⟨children, remaining, rounds, loop⟩ := exists_loop (solid.inside found)
      exact ⟨_, _, _, .element found loop⟩

end Cursor

end ScreenCompiler
