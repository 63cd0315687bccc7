import ScreenCompiler.Proofs.Route.ModulePath
import ScreenCompiler.Proofs.Route.Names

/-!
# Names derived from paths

A component name spells the letters and digits of a path, and neither the component name nor the
logical path sees empty segments and tab groups.  The spelling is stated by one pass over each
segment, which marks the letters and digits that begin a part.
-/

namespace ScreenCompiler

open Text

namespace RoutePath

/-- A letter or digit of a path. -/
structure Sign where
  char : Char
  /-- Whether no other letter or digit of the segment stands directly in front of it. -/
  isInitial : Bool
  deriving DecidableEq, Repr

/-- A sign as a name spells it: an initial is upper-cased. -/
def Sign.spelled (sign : Sign) : Char :=
  if sign.isInitial then sign.char.toUpper else sign.char

/-- The signs of a text, behind a letter or digit or not. -/
def signsFrom (inPart : Bool) : List Char → List Sign
  | [] => []
  | c :: text =>
      if isAsciiAlphanumeric c then ⟨c, !inPart⟩ :: signsFrom true text
      else signsFrom false text

/-- The signs of the segments that a route is named by, in order. -/
def signs (path : List Char) : List Sign :=
  (namedSegments path).flatMap (signsFrom false)

theorem map_char_signsFrom (inPart : Bool) (text : List Char) :
    (signsFrom inPart text).map Sign.char = text.filter isAsciiAlphanumeric := by
  induction text generalizing inPart with
  | nil => rfl
  | cons c text inductionHypothesis =>
      rw [signsFrom, List.filter_cons]
      split
      · rw [List.map_cons, inductionHypothesis]
      · exact inductionHypothesis false

/-- No letter or digit is lost or moved. -/
theorem map_char_signs (path : List Char) :
    (signs path).map Sign.char =
      (namedSegments path).flatMap fun segment => segment.filter isAsciiAlphanumeric := by
  rw [signs, List.map_flatMap]
  exact List.flatMap_congr fun segment _ => map_char_signsFrom false segment

theorem asciiUpper_eq_toUpper (c : Char) : asciiUpper c = c.toUpper := by
  by_cases small : 'a' ≤ c ∧ c ≤ 'z'
  · obtain ⟨shifted, low, high⟩ := toNat_asciiUpper_of_small small
    have bounds : 'a'.val ≤ c.val ∧ c.val ≤ 'z'.val := small
    -- The library adds the distance between the alphabets modulo two to the power of 32.
    have distance : ('A'.val - 'a'.val).toNat = 4294967264 := by decide
    have raised : c.toUpper.val = c.val + ('A'.val - 'a'.val) := by
      delta Char.toUpper
      rw [dif_pos bounds]
    have range : 97 ≤ c.val.toNat ∧ c.val.toNat ≤ 122 := ⟨low, high⟩
    apply Char.toNat_inj.mp
    calc (asciiUpper c).toNat = c.val.toNat - 32 := shifted
      _ = (c.val.toNat + 4294967264) % 2 ^ 32 := by omega
      _ = c.toUpper.val.toNat := by rw [raised, UInt32.toNat_add, distance]
  · have bounds : ¬('a'.val ≤ c.val ∧ c.val ≤ 'z'.val) := small
    delta Char.toUpper
    rw [asciiUpper, if_neg small, dif_neg bounds]

/-- Upper-casing makes no digit and changes none. -/
theorem isAsciiDigit_asciiUpper (c : Char) : isAsciiDigit (asciiUpper c) = isAsciiDigit c := by
  by_cases small : 'a' ≤ c ∧ c ≤ 'z'
  · obtain ⟨shifted, low, high⟩ := toNat_asciiUpper_of_small small
    have noDigit : ∀ d : Char, 57 < d.toNat → isAsciiDigit d = false := by
      intro d above
      have beyond : ¬d ≤ '9' := by
        rw [Char.le_def, UInt32.le_iff_toNat_le]
        exact Nat.not_le_of_gt above
      rw [isAsciiDigit, decide_eq_false beyond, Bool.and_false]
    rw [noDigit c (by omega), noDigit (asciiUpper c) (by omega)]
  · rw [asciiUpper, if_neg small]

/-- One pass over a segment finds what its parts begin with: behind a letter or digit the first
part is the rest of one that has begun. -/
theorem map_spelled_signsFrom (text : List Char) :
    ∃ first parts, text.splitOnP (!isAsciiAlphanumeric ·) = first :: parts ∧
      (signsFrom true text).map Sign.spelled = first ++ parts.flatMap capitalize ∧
      (signsFrom false text).map Sign.spelled = (first :: parts).flatMap capitalize := by
  induction text with
  | nil => exact ⟨[], [], List.splitOnP_nil, rfl, rfl⟩
  | cons c text inductionHypothesis =>
      obtain ⟨first, parts, split, inside, outside⟩ := inductionHypothesis
      rw [List.splitOnP_cons_eq_if_modifyHead, split]
      by_cases plain : isAsciiAlphanumeric c = true
      · refine ⟨c :: first, parts, by simp [plain], ?_, ?_⟩
        · rw [signsFrom, if_pos plain, List.map_cons, inside]
          rfl
        · rw [signsFrom, if_pos plain, List.map_cons, inside, List.flatMap_cons, capitalize,
            asciiUpper_eq_toUpper]
          rfl
      · refine ⟨[], first :: parts, by simp [plain], ?_, ?_⟩
        · rw [signsFrom, if_neg plain, outside]
          rfl
        · rw [signsFrom, if_neg plain, outside]
          rfl

theorem camelCase_eq_map_spelled (segment : List Char) :
    camelCase segment = (signsFrom false segment).map Sign.spelled := by
  obtain ⟨first, parts, split, -, spelled⟩ := map_spelled_signsFrom segment
  rw [camelCase, split, spelled]

theorem flatMap_camelCase_eq_map_spelled (path : List Char) :
    (namedSegments path).flatMap camelCase = (signs path).map Sign.spelled := by
  rw [signs, List.map_flatMap]
  exact List.flatMap_congr fun segment _ => camelCase_eq_map_spelled segment

/-- A name that stands for the signs of a path. -/
inductive Spells : List Sign → List Char → Prop
  | index : Spells [] "Index".toList
  | digitFirst {first : Sign} {rest : List Sign} (digit : isAsciiDigit first.char = true) :
      Spells (first :: rest) ("Screen".toList ++ (first :: rest).map Sign.spelled)
  | letterFirst {first : Sign} {rest : List Sign} (letter : isAsciiDigit first.char = false) :
      Spells (first :: rest) ((first :: rest).map Sign.spelled)

theorem isAsciiDigit_spelled (sign : Sign) :
    isAsciiDigit sign.spelled = isAsciiDigit sign.char := by
  rw [Sign.spelled]
  split
  · rw [← asciiUpper_eq_toUpper, isAsciiDigit_asciiUpper]
  · rfl

theorem spells_componentName (path : List Char) : Spells (signs path) (componentName path) := by
  rw [componentName, flatMap_camelCase_eq_map_spelled]
  cases signs path with
  | nil => exact .index
  | cons first rest =>
      rw [List.map_cons]
      simp only [isAsciiDigit_spelled]
      cases begins : isAsciiDigit first.char with
      | true => exact .digitFirst begins
      | false => exact .letterFirst begins

def IsIgnored (segment : List Char) : Prop :=
  segment = [] ∨ segment = tabGroup

instance (segment : List Char) : Decidable (IsIgnored segment) :=
  inferInstanceAs (Decidable (segment = [] ∨ segment = tabGroup))

theorem namedSegments_eq_filter (path : List Char) :
    namedSegments path = (segments path).filter (¬IsIgnored ·) := by
  apply List.filter_congr
  intro segment _
  rw [Bool.eq_iff_iff]
  simp [IsIgnored]

/-- Ignored segments are inserted into a list of segments and removed from it. -/
inductive Regrouped : List (List Char) → List (List Char) → Prop
  | done : Regrouped [] []
  | keep (segment : List Char) {before after : List (List Char)} (rest : Regrouped before after) :
      Regrouped (segment :: before) (segment :: after)
  | insert {segment : List Char} {before after : List (List Char)} (ignored : IsIgnored segment)
      (rest : Regrouped before after) : Regrouped before (segment :: after)
  | remove {segment : List Char} {before after : List (List Char)} (ignored : IsIgnored segment)
      (rest : Regrouped before after) : Regrouped (segment :: before) after

theorem Regrouped.filter_eq {before after : List (List Char)}
    (regrouped : Regrouped before after) :
    before.filter (¬IsIgnored ·) = after.filter (¬IsIgnored ·) := by
  induction regrouped with
  | done => rfl
  | keep segment rest inductionHypothesis =>
      rw [List.filter_cons, List.filter_cons, inductionHypothesis]
  | insert ignored rest inductionHypothesis =>
      rw [List.filter_cons_of_neg (by simpa using ignored), inductionHypothesis]
  | remove ignored rest inductionHypothesis =>
      rw [List.filter_cons_of_neg (by simpa using ignored), inductionHypothesis]

theorem namedSegments_of_regrouped {path other : List Char}
    (regrouped : Regrouped (segments path) (segments other)) :
    namedSegments path = namedSegments other := by
  rw [namedSegments_eq_filter, namedSegments_eq_filter, regrouped.filter_eq]

end RoutePath

/-- The relative path of a source file: names of directories and a name with an extension. -/
structure SourceFile where
  directories : List (List Char)
  stem : List Char
  ending : List Char
  stemNonempty : stem ≠ []
  stemFree : '/' ∉ stem
  endingFree : '/' ∉ ending ∧ '.' ∉ ending

namespace SourceFile

def path (source : SourceFile) : List Char :=
  RoutePath.joinSegments (source.directories ++ [source.stem ++ '.' :: source.ending])

def pathWithoutExtension (source : SourceFile) : List Char :=
  RoutePath.joinSegments (source.directories ++ [source.stem])

/-- A path ends as its last name does. -/
theorem getLast?_pathWithoutExtension (source : SourceFile) :
    source.pathWithoutExtension.getLast? = source.stem.getLast? := by
  have joined := RoutePath.joinSegments_concat_append source.directories [] source.stem
  rw [List.nil_append] at joined
  rw [pathWithoutExtension, ← joined, List.getLast?_append_of_ne_nil _ source.stemNonempty]

theorem withoutExtension_path (source : SourceFile) :
    RouteIdentity.withoutExtension source.path = source.pathWithoutExtension := by
  have cut : splitLast? '.' source.path = some (source.pathWithoutExtension, source.ending) := by
    rw [path, ← RoutePath.joinSegments_concat_append, splitLast?_append _ source.endingFree.2]
    rfl
  have filled : source.pathWithoutExtension ≠ [] := by
    intro empty
    have ends := source.getLast?_pathWithoutExtension
    rw [empty, List.getLast?_nil] at ends
    exact source.stemNonempty (List.getLast?_eq_none_iff.mp ends.symm)
  have solid : source.pathWithoutExtension.getLast? ≠ some '/' := by
    rw [getLast?_pathWithoutExtension]
    intro isSlash
    exact source.stemFree (List.mem_of_getLast? isSlash)
  rw [RouteIdentity.withoutExtension, cut]
  simp [filled, solid]

end SourceFile

namespace RouteIdentity

open RoutePath

/-- An identity has the names of the screen path: the tab groups that it removes are ignored. -/
theorem names_ofRelative (sourceFile : List Char) :
    (ofRelative sourceFile).componentName =
        RoutePath.componentName (withoutExtension sourceFile) ∧
      (ofRelative sourceFile).logicalPath =
        RoutePath.logicalPath (withoutExtension sourceFile) := by
  have sameNames := namedSegments_ungrouped (withoutExtension sourceFile)
  constructor
  · rw [RoutePath.componentName, ← sameNames]
    rfl
  · rw [RoutePath.logicalPath, ← sameNames]
    rfl

end RouteIdentity

namespace RoutePath

/-- The names of a path are an identifier and a path that no ignored segment changes, and the
identifier is spelled with all letters and digits of the other segments. -/
structure HasDerivedNames (path : List Char) : Prop where
  identifier : ∃ first rest, componentName path = first :: rest ∧
    ('A' ≤ first ∧ first ≤ 'Z') ∧ ∀ c ∈ rest, isAsciiAlphanumeric c = true
  regrouped : ∀ other, Regrouped (segments path) (segments other) →
    componentName other = componentName path ∧ logicalPath other = logicalPath path
  letters : (signs path).map Sign.char =
    ((segments path).filter (¬IsIgnored ·)).flatMap fun segment =>
      segment.filter isAsciiAlphanumeric
  spelling : Spells (signs path) (componentName path)

theorem hasDerivedNames (path : List Char) : HasDerivedNames path where
  identifier := by
    obtain ⟨first, rest, shape, letter⟩ := exists_letter_componentName path
    have plain := @isAsciiAlphanumeric_of_mem_componentName path
    have notSmall : ¬('a' ≤ first ∧ first ≤ 'z') :=
      not_small_of_head?_componentName (by rw [shape]; rfl)
    rw [shape] at plain
    refine ⟨first, rest, shape, ?_, fun c membership => plain c (List.mem_cons_of_mem _ membership)⟩
    simp only [isAsciiLetter, Bool.or_eq_true, Bool.and_eq_true, decide_eq_true_eq] at letter
    exact letter.resolve_left notSmall
  regrouped := by
    intro other regrouped
    have sameNames := namedSegments_of_regrouped regrouped
    exact ⟨by rw [componentName, componentName, sameNames],
      by rw [logicalPath, logicalPath, sameNames]⟩
  letters := by rw [map_char_signs, namedSegments_eq_filter]
  spelling := spells_componentName path

/-- Every path has its derived names, and a source file those of its path without extension. -/
theorem hasDerivedNames_and_names_ofRelative :
    (∀ path, HasDerivedNames path) ∧
      ∀ source : SourceFile,
        (RouteIdentity.ofRelative source.path).componentName =
            componentName source.pathWithoutExtension ∧
          (RouteIdentity.ofRelative source.path).logicalPath =
            logicalPath source.pathWithoutExtension := by
  refine ⟨hasDerivedNames, ?_⟩
  intro source
  rw [← source.withoutExtension_path]
  exact RouteIdentity.names_ofRelative source.path

/-- The tab group and an empty segment are removed, and a digit stands first. -/
theorem names_secondTry :
    (componentName "2nd-try".toList = componentName "(tabs)//2nd-try".toList ∧
        logicalPath "2nd-try".toList = logicalPath "(tabs)//2nd-try".toList) ∧
      componentName "2nd-try".toList = "Screen2ndTry".toList := by
  have regrouped :
      Regrouped (segments "(tabs)//2nd-try".toList) (segments "2nd-try".toList) := by
    have full : segments "(tabs)//2nd-try".toList = [tabGroup, [], "2nd-try".toList] := by decide
    have short : segments "2nd-try".toList = ["2nd-try".toList] := by decide
    rw [full, short]
    exact .remove (.inr rfl) (.remove (.inl rfl) (.keep _ .done))
  exact ⟨(hasDerivedNames_and_names_ofRelative.1 _).regrouped _ regrouped, by decide⟩

end RoutePath

end ScreenCompiler
