import ScreenCompiler.Document.Stylesheet
import ScreenCompiler.Proofs.Text.Trim

/-!
# Stylesheet openings and gaps

How wide a gap is does not matter to the opening of a stylesheet, and the opening
holds no angle bracket and no slash.  So a text in which gaps are narrowed, and in which lines
are broken next to angle brackets, has no opening that the text before did not have.
-/

namespace ScreenCompiler.Stylesheet

open Text

/-- A bracket or slash, next to which gaps may come and go. -/
def isMark (c : Char) : Bool :=
  c == '<' || c == '>' || c == '/'

/-- The two texts differ in their gaps: where one has a gap the other has one too, unless it is
next to a mark or at the end. -/
inductive Respaced : List Char → List Char → Prop where
  | blanks {gap other} : isAllBlank gap = true → isAllBlank other = true → Respaced gap other
  | same {text other} (c : Char) : Respaced text other → Respaced (c :: text) (c :: other)
  | gap {c d gap other text rest} :
      isAllBlank (c :: gap) = true → isAllBlank (d :: other) = true → Respaced text rest →
      Respaced (c :: (gap ++ text)) (d :: (other ++ rest))
  | before {c gap other text rest} :
      isMark c = true → isAllBlank gap = true → isAllBlank other = true →
      Respaced (c :: text) (c :: rest) → Respaced (gap ++ c :: text) (other ++ c :: rest)
  | after {c gap other text rest} :
      isMark c = true → isAllBlank gap = true → isAllBlank other = true → Respaced text rest →
      Respaced (c :: (gap ++ text)) (c :: (other ++ rest))

theorem isBlank_of_isMark {c : Char} (mark : isMark c = true) : isBlank c = false := by
  simp only [isMark, Bool.or_eq_true, beq_iff_eq] at mark
  rcases mark with (rfl | rfl) | rfl
  · decide
  · decide
  · decide

namespace Respaced

variable {text other : List Char}

theorem refl (text : List Char) : Respaced text text := by
  induction text with
  | nil => exact .blanks rfl rfl
  | cons c text inductionHypothesis => exact .same c inductionHypothesis

theorem append_same (front : List Char) (respaced : Respaced text other) :
    Respaced (front ++ text) (front ++ other) := by
  induction front with
  | nil => exact respaced
  | cons c front inductionHypothesis => exact .same c inductionHypothesis

theorem trimStart (respaced : Respaced text other) :
    Respaced (Text.trimStart text) (Text.trimStart other) := by
  induction respaced with
  | blanks blank blankOther =>
      rw [trimStart_of_isAllBlank blank, trimStart_of_isAllBlank blankOther]
      exact .refl []
  | same c respaced inductionHypothesis =>
      by_cases blank : isBlank c = true
      · rw [trimStart_cons_of_blank blank, trimStart_cons_of_blank blank]
        exact inductionHypothesis
      · rw [Bool.not_eq_true] at blank
        rw [trimStart_cons_of_not_blank blank, trimStart_cons_of_not_blank blank]
        exact .same c respaced
  | @gap c d gap other text rest blank blankOther _ inductionHypothesis =>
      rw [← List.cons_append, ← List.cons_append, trimStart_append_of_isAllBlank blank,
        trimStart_append_of_isAllBlank blankOther]
      exact inductionHypothesis
  | before mark blank blankOther _ inductionHypothesis =>
      rw [trimStart_append_of_isAllBlank blank, trimStart_append_of_isAllBlank blankOther]
      exact inductionHypothesis
  | after mark blank blankOther respaced _ =>
      have solid := isBlank_of_isMark mark
      rw [trimStart_cons_of_not_blank solid, trimStart_cons_of_not_blank solid]
      exact .after mark blank blankOther respaced

theorem exists_of_solid {c : Char} (solid : isBlank c = false) (noMark : isMark c = false)
    (respaced : Respaced (c :: text) other) : ∃ rest, other = c :: rest ∧ Respaced text rest := by
  have notBlank : isBlank c ≠ true := Bool.eq_false_iff.mp solid
  have notMark : isMark c ≠ true := Bool.eq_false_iff.mp noMark
  generalize shape : c :: text = whole at respaced
  cases respaced with
  | blanks blank _ =>
      rw [← shape] at blank
      exact absurd (isAllBlank_cons.mp blank).1 notBlank
  | same d respaced =>
      obtain ⟨rfl, rfl⟩ := List.cons.inj shape
      exact ⟨_, rfl, respaced⟩
  | gap blank _ _ =>
      obtain ⟨rfl, -⟩ := List.cons.inj shape
      exact absurd (isAllBlank_cons.mp blank).1 notBlank
  | @before d gap _ _ _ mark blank _ _ =>
      cases gap with
      | nil =>
          obtain ⟨rfl, -⟩ := List.cons.inj shape
          exact absurd mark notMark
      | cons e gap =>
          obtain ⟨rfl, -⟩ := List.cons.inj shape
          exact absurd (isAllBlank_cons.mp blank).1 notBlank
  | after mark _ _ _ =>
      obtain ⟨rfl, -⟩ := List.cons.inj shape
      exact absurd mark notMark

/-- A gap in front of a character that is no mark is there in both texts. -/
theorem exists_of_blank {c first : Char} (blank : isBlank c = true)
    (found : (Text.trimStart text).head? = some first) (noMark : isMark first = false)
    (respaced : Respaced (c :: text) other) :
    ∃ d rest, other = d :: rest ∧ isBlank d = true ∧
      Respaced (Text.trimStart text) (Text.trimStart rest) := by
  have notMark : ∀ {d : Char}, isMark d = true → isBlank d ≠ true := fun mark =>
    Bool.eq_false_iff.mp (isBlank_of_isMark mark)
  generalize shape : c :: text = whole at respaced
  cases respaced with
  | blanks allBlank _ =>
      rw [← shape] at allBlank
      rw [trimStart_of_isAllBlank (isAllBlank_cons.mp allBlank).2] at found
      exact absurd found.symm (Option.some_ne_none first)
  | same d respaced =>
      obtain ⟨rfl, rfl⟩ := List.cons.inj shape
      exact ⟨c, _, rfl, blank, respaced.trimStart⟩
  | gap allBlank otherBlank respaced =>
      obtain ⟨rfl, rfl⟩ := List.cons.inj shape
      refine ⟨_, _, rfl, (isAllBlank_cons.mp otherBlank).1, ?_⟩
      rw [trimStart_append_of_isAllBlank (isAllBlank_cons.mp allBlank).2,
        trimStart_append_of_isAllBlank (isAllBlank_cons.mp otherBlank).2]
      exact respaced.trimStart
  | @before d gap _ rest _ mark allBlank _ _ =>
      cases gap with
      | nil =>
          obtain ⟨rfl, -⟩ := List.cons.inj shape
          exact absurd blank (notMark mark)
      | cons e gap =>
          rw [List.cons_append] at shape
          obtain ⟨rfl, rfl⟩ := List.cons.inj shape
          rw [trimStart_append_of_isAllBlank (isAllBlank_cons.mp allBlank).2,
            trimStart_cons_of_not_blank (isBlank_of_isMark mark)] at found
          obtain rfl : d = first := Option.some.inj found
          rw [mark] at noMark
          exact absurd noMark.symm Bool.false_ne_true
  | after mark _ _ _ =>
      obtain ⟨rfl, -⟩ := List.cons.inj shape
      exact absurd blank (notMark mark)

/-- A word without blanks and marks stands in both texts alike. -/
theorem afterPrefix? {word rest : List Char}
    (solid : (word.all fun c => !isBlank c && !isMark c) = true)
    (respaced : Respaced text other) (found : Text.afterPrefix? word text = some rest) :
    ∃ behind, Text.afterPrefix? word other = some behind ∧ Respaced rest behind := by
  obtain rfl := afterPrefix?_eq_some_iff.mp found
  clear found
  induction word generalizing other with
  | nil => exact ⟨other, rfl, respaced⟩
  | cons c word inductionHypothesis =>
      simp only [List.all_cons, Bool.and_eq_true, Bool.not_eq_true'] at solid
      obtain ⟨⟨isSolid, noMark⟩, solid⟩ := solid
      rw [List.cons_append] at respaced
      obtain ⟨more, rfl, behind⟩ := respaced.exists_of_solid isSolid noMark
      simp only [Text.afterPrefix?, ↓reduceIte]
      exact inductionHypothesis (by simpa using solid) behind

theorem afterPrefix?_trimStart {word rest : List Char}
    (solid : (word.all fun c => !isBlank c && !isMark c) = true)
    (respaced : Respaced text other)
    (found : Text.afterPrefix? word (Text.trimStart text) = some rest) :
    ∃ behind, Text.afterPrefix? word (Text.trimStart other) = some behind ∧
      Respaced rest behind :=
  respaced.trimStart.afterPrefix? solid found

theorem isSome_afterOpening? (respaced : Respaced text other)
    (found : (afterOpening? text).isSome = true) : (afterOpening? other).isSome = true := by
  obtain ⟨inside, found⟩ := Option.isSome_iff_exists.mp found
  obtain ⟨gap, const, found⟩ := Option.bind_eq_some_iff.mp found
  obtain ⟨otherGap, otherConst, respaced⟩ := respaced.afterPrefix? (by decide +kernel) const
  cases gap with
  | nil => exact absurd found.symm (Option.some_ne_none inside)
  | cons c rest =>
      simp only [Option.ite_none_right_eq_some] at found
      obtain ⟨blank, found⟩ := found
      obtain ⟨afterStyles, styles, found⟩ := Option.bind_eq_some_iff.mp found
      obtain ⟨afterEquals, equals, found⟩ := Option.bind_eq_some_iff.mp found
      obtain ⟨afterCreate, create, found⟩ := Option.bind_eq_some_iff.mp found
      have first : (Text.trimStart rest).head? = some 's' := by
        rw [afterPrefix?_eq_some_iff.mp styles]
        rfl
      obtain ⟨d, otherRest, rfl, otherBlank, respaced⟩ :=
        respaced.exists_of_blank blank first (by decide)
      obtain ⟨otherStyles, foundStyles, respaced⟩ :=
        respaced.afterPrefix? (by decide +kernel) styles
      obtain ⟨otherEquals, foundEquals, respaced⟩ :=
        respaced.afterPrefix?_trimStart (by decide +kernel) equals
      obtain ⟨otherCreate, foundCreate, respaced⟩ :=
        respaced.afterPrefix?_trimStart (by decide +kernel) create
      obtain ⟨otherInside, foundInside, -⟩ :=
        respaced.afterPrefix?_trimStart (by decide +kernel) found
      rw [afterOpening?, otherConst, Option.bind_some]
      simp only [otherBlank, ↓reduceIte]
      rw [foundStyles, Option.bind_some, foundEquals, Option.bind_some, foundCreate,
        Option.bind_some, foundInside, Option.isSome_some]

end Respaced

theorem isSome_find?_cons (c : Char) (rest : List Char) :
    (find? (c :: rest)).isSome = ((afterOpening? (c :: rest)).isSome || (find? rest).isSome) := by
  rw [find?]
  cases afterOpening? (c :: rest) with
  | some inside => rfl
  | none => simp

theorem isSome_find?_append {rest : List Char} (before : List Char)
    (found : (find? rest).isSome = true) : (find? (before ++ rest)).isSome = true := by
  induction before with
  | nil => exact found
  | cons c before inductionHypothesis =>
      rw [List.cons_append, isSome_find?_cons, inductionHypothesis, Bool.or_true]

/-- An opening starts with a letter. -/
theorem afterOpening?_cons_of_ne {c : Char} (other : c ≠ 'c') (rest : List Char) :
    afterOpening? (c :: rest) = none := by
  have noConst : Text.afterPrefix? "const".toList (c :: rest) = none := by
    simp [Text.afterPrefix?, Ne.symm other]
  rw [afterOpening?, noConst]
  rfl

theorem isSome_find?_cons_of_ne {c : Char} (other : c ≠ 'c') (rest : List Char) :
    (find? (c :: rest)).isSome = (find? rest).isSome := by
  rw [isSome_find?_cons, afterOpening?_cons_of_ne other]
  rfl

theorem isSome_find?_append_of_isAllBlank {gap : List Char} (blank : isAllBlank gap = true)
    (rest : List Char) : (find? (gap ++ rest)).isSome = (find? rest).isSome := by
  induction gap with
  | nil => rfl
  | cons c gap inductionHypothesis =>
      obtain ⟨isBlank, blank⟩ := isAllBlank_cons.mp blank
      have other : c ≠ 'c' := by
        rintro rfl
        exact absurd isBlank (by decide)
      rw [List.cons_append, isSome_find?_cons_of_ne other, inductionHypothesis blank]

theorem isSome_find?_of_respaced {text other : List Char} (respaced : Respaced text other)
    (found : (find? text).isSome = true) : (find? other).isSome = true := by
  induction respaced with
  | @blanks gap _ blank _ =>
      rw [← List.append_nil gap, isSome_find?_append_of_isAllBlank blank] at found
      exact absurd found (by decide)
  | same c respaced inductionHypothesis =>
      rw [isSome_find?_cons, Bool.or_eq_true_iff] at found ⊢
      rcases found with here | later
      · exact .inl (Respaced.isSome_afterOpening? (.same c respaced) here)
      · exact .inr (inductionHypothesis later)
  | gap blank _ _ inductionHypothesis =>
      rw [← List.cons_append, isSome_find?_append_of_isAllBlank blank] at found
      rw [← List.cons_append]
      exact isSome_find?_append _ (inductionHypothesis found)
  | before _ blank _ _ inductionHypothesis =>
      rw [isSome_find?_append_of_isAllBlank blank] at found
      exact isSome_find?_append _ (inductionHypothesis found)
  | @after c _ _ _ _ mark blank _ _ inductionHypothesis =>
      have noLetter : c ≠ 'c' := by
        rintro rfl
        exact absurd mark (by decide)
      rw [isSome_find?_cons_of_ne noLetter, isSome_find?_append_of_isAllBlank blank] at found
      rw [isSome_find?_cons_of_ne noLetter]
      exact isSome_find?_append _ (inductionHypothesis found)

/-- The second text is the first with other gaps in place of its line feeds; next to an angle
bracket it may have none. -/
inductive Loosens : List Char → List Char → Prop where
  | done {gap} : isAllBlank gap = true → Loosens [] gap
  | same {tight loose} (c : Char) : Loosens tight loose → Loosens (c :: tight) (c :: loose)
  | gap {c gap tight loose} :
      isAllBlank (c :: gap) = true → Loosens tight loose →
      Loosens ('\n' :: tight) (c :: gap ++ loose)
  | beforeTag {gap tight loose} :
      isAllBlank gap = true → Loosens ('<' :: tight) ('<' :: loose) →
      Loosens ('\n' :: '<' :: tight) (gap ++ '<' :: loose)
  | afterTag {gap tight loose} :
      isAllBlank gap = true → Loosens tight loose →
      Loosens ('>' :: '\n' :: tight) ('>' :: (gap ++ loose))

namespace Loosens

variable {tight loose : List Char}

theorem append_same (text : List Char) (loosens : Loosens tight loose) :
    Loosens (text ++ tight) (text ++ loose) := by
  induction text with
  | nil => exact loosens
  | cons c text inductionHypothesis => exact .same c inductionHypothesis

theorem respaced (loosens : Loosens tight loose) : Respaced tight loose := by
  have feed : isAllBlank ['\n'] = true := by decide
  induction loosens with
  | done blank => exact .blanks rfl blank
  | same c _ inductionHypothesis => exact .same c inductionHypothesis
  | gap blank _ inductionHypothesis => exact .gap feed blank inductionHypothesis
  | beforeTag blank _ inductionHypothesis => exact .before rfl feed blank inductionHypothesis
  | afterTag blank _ inductionHypothesis => exact .after rfl feed blank inductionHypothesis

end Loosens

/-- What stands in the two texts behind a segment: its line ends, and the gap behind it may be
empty if a bracket is next to it. -/
inductive Follows : List Char → List Char → Prop where
  | done {gap} : isAllBlank gap = true → Follows [] gap
  | gap {gap tight loose} :
      isAllBlank gap = true → Loosens tight loose → Follows ('\n' :: tight) (gap ++ loose)

namespace Follows

variable {tight loose : List Char}

theorem append_gap (follows : Follows tight loose) {gap : List Char}
    (blank : isAllBlank gap = true) : Follows tight (gap ++ loose) := by
  cases follows with
  | done isBlank =>
      refine .done ?_
      rw [isAllBlank_append, blank, isBlank]
      rfl
  | @gap behind _ rest isBlank loosens =>
      rw [← List.append_assoc]
      refine .gap ?_ loosens
      rw [isAllBlank_append, blank, isBlank]
      rfl

theorem loosens (follows : Follows tight loose) {c : Char} (blank : isBlank c = true) :
    Loosens tight (c :: loose) := by
  cases follows with
  | done isBlank => exact .done (by simpa [isAllBlank, blank] using isBlank)
  | gap isBlank loosens => exact .gap (by simpa [isAllBlank, blank] using isBlank) loosens

theorem afterTag (follows : Follows tight loose) : Loosens ('>' :: tight) ('>' :: loose) := by
  cases follows with
  | done blank => exact .same _ (.done blank)
  | gap blank loosens => exact .afterTag blank loosens

end Follows

/-- What stands in the two texts behind a line. -/
inductive Broken : List Char → List Char → Prop where
  | done : Broken [] []
  | gap {c tight loose} : isBlank c = true → Follows tight loose → Broken tight (c :: loose)

namespace Broken

variable {tight loose : List Char}

theorem follows (broken : Broken tight loose) : Follows tight loose := by
  cases broken with
  | done => exact .done rfl
  | @gap c _ _ blank follows =>
      have single : isAllBlank [c] = true := by simpa [isAllBlank] using blank
      exact follows.append_gap single

theorem append_gap (broken : Broken tight loose) {gap : List Char}
    (blank : isAllBlank gap = true) : Broken tight (gap ++ loose) := by
  cases gap with
  | nil => exact broken
  | cons c gap =>
      obtain ⟨first, others⟩ : isBlank c = true ∧ isAllBlank gap = true := by
        simpa [isAllBlank] using blank
      exact .gap first (broken.follows.append_gap others)

theorem loosens (broken : Broken tight loose) : Loosens tight loose := by
  cases broken with
  | done => exact .done rfl
  | gap blank follows => exact follows.loosens blank

end Broken

end ScreenCompiler.Stylesheet
