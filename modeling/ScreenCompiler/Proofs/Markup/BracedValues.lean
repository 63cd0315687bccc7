import ScreenCompiler.Proofs.Decimal.Numerals
import ScreenCompiler.Proofs.Markup.Attributes
import ScreenCompiler.Proofs.Text.Braces

/-!
# Values in braces

The scan for the end of a tag passes over a value in braces when its braces outside
literals are balanced.  The value itself is cut where its braces are balanced with
those in literals counted, so the two agree on values for which both hold.
-/

namespace ScreenCompiler

open Text

namespace Head

/-- Inside braces no tag ends, and braces in literals do not count. -/
theorem after_of_outsideLiterals? {quote : Option Char} {depth last : Nat}
    {text outside : List Char} (found : outsideLiterals? quote text = some outside)
    (balanced : braceDepth? depth outside = some last) :
    findEnd? ⟨depth + 1, quote⟩ text = none ∧
      Place.after ⟨depth + 1, quote⟩ text = ⟨last + 1, none⟩ := by
  induction text generalizing quote depth outside with
  | nil =>
      cases quote with
      | some mark => exact absurd found.symm (Option.some_ne_none outside)
      | none =>
          obtain rfl : [] = outside := Option.some.inj found
          obtain rfl : depth = last := Option.some.inj balanced
          exact ⟨rfl, rfl⟩
  | cons c text inductionHypothesis =>
      have inside : Place.closesAt ⟨depth + 1, quote⟩ c = false := by
        simp [Place.closesAt]
      rw [findEnd?, inside, if_neg Bool.false_ne_true, Place.after, List.foldl_cons,
        Option.map_eq_none_iff]
      cases quote with
      | some mark =>
          rw [outsideLiterals?] at found
          have step : Place.step ⟨depth + 1, some mark⟩ c =
              ⟨depth + 1, if c = mark then none else some mark⟩ := by
            by_cases closes : c = mark <;> simp [Place.step, closes]
          rw [step]
          exact inductionHypothesis found balanced
      | none =>
          rw [outsideLiterals?] at found
          split at found
          · rename_i opens
            have step : Place.step ⟨depth + 1, none⟩ c = ⟨depth + 1, some c⟩ := by
              simp [Place.step, opens]
            rw [step]
            exact inductionHypothesis found balanced
          · rename_i plain
            obtain ⟨more, others, rfl⟩ := Option.map_eq_some_iff.mp found
            simp only [Place.step, plain, Bool.false_eq_true, ↓reduceIte]
            rw [braceDepth?] at balanced
            by_cases opening : c = '{'
            · rw [if_pos opening] at balanced ⊢
              exact inductionHypothesis others balanced
            · by_cases closing : c = '}'
              · rw [if_neg opening, if_pos closing] at balanced ⊢
                cases depth with
                | zero => exact absurd balanced.symm (Option.some_ne_none last)
                | succ depth => exact inductionHypothesis others balanced
              · rw [if_neg opening, if_neg closing] at balanced ⊢
                exact inductionHypothesis others balanced

theorem quiet_braced {code : List Char} (balanced : IsBalancedCode code) :
    Quiet ('{' :: code ++ ['}']) := by
  obtain ⟨outside, found, depth⟩ := balanced
  obtain ⟨goesOn, returns⟩ := after_of_outsideLiterals? found (hasBalancedBraces_iff.mp depth)
  have opened : Place.start.step '{' = ⟨1, none⟩ := rfl
  have ended : findEnd? ⟨1, none⟩ ['}'] = none := rfl
  constructor
  · rw [List.cons_append, findEnd?, opened, findEnd?_append goesOn, returns, ended]
    rfl
  · rw [List.cons_append, Place.after, List.foldl_cons, opened]
    change Place.after _ (code ++ ['}']) = _
    rw [after_append, returns]
    rfl

end Head

theorem PropValue.eq_of_literalOr {text : List Char} {other : PropValue} {code : String}
    (value : literalOr text other = .expression code) : other = .expression code := by
  unfold literalOr at value
  split at value
  · simp at value
  · split at value
    · simp at value
    · split at value
      · simp at value
      · exact value

/-- Code with a brace in it is no flag and no number. -/
theorem PropValue.ofBraced_of_brace {code : List Char} (brace : '}' ∈ code) :
    ofBraced code = .expression (String.ofList code) := by
  have inTrim : '}' ∈ trim code := by
    obtain ⟨before, after, blankBefore, blankAfter, shape⟩ := exists_trim code
    rw [shape] at brace
    have solid : isBlank '}' = false := by decide
    have notIn : ∀ {gap : List Char}, isAllBlank gap = true → '}' ∉ gap := by
      intro gap blank inside
      rw [isAllBlank_iff.mp blank _ inside] at solid
      exact Bool.noConfusion solid
    simpa [notIn blankBefore, notIn blankAfter] using brace
  have foreign : Decimal.IsForeign '}' := by
    constructor <;> decide
  have noFlag : trim code ≠ "true".toList ∧ trim code ≠ "false".toList := by
    constructor <;>
    · intro flag
      rw [flag] at inTrim
      exact absurd inTrim (by decide)
  rw [ofBraced, literalOr, if_neg noFlag.1, if_neg noFlag.2,
    Decimal.number?_of_mem foreign (by rwa [trim_trim])]

namespace Attribute

theorem braced_append {depth last : Nat} {text : List Char}
    (balanced : braceDepth? depth text = some last) (rest : List Char) :
    braced depth (text ++ rest) = (text ++ (braced last rest).1, (braced last rest).2) := by
  induction text generalizing depth with
  | nil =>
      obtain rfl : depth = last := Option.some.inj balanced
      rfl
  | cons c text inductionHypothesis =>
      rw [braceDepth?] at balanced
      rw [List.cons_append]
      by_cases opening : c = '{'
      · rw [if_pos opening] at balanced
        simp only [braced, if_pos opening, inductionHypothesis balanced, List.cons_append]
      · by_cases closing : c = '}'
        · rw [if_neg opening, if_pos closing] at balanced
          cases depth with
          | zero => exact absurd balanced.symm (Option.some_ne_none last)
          | succ depth =>
              have lower : braceDepth? depth text = some last := by simpa using balanced
              simp only [braced, if_neg opening, if_pos closing, inductionHypothesis lower,
                List.cons_append]
        · rw [if_neg opening, if_neg closing] at balanced
          simp only [braced, if_neg opening, if_neg closing, inductionHypothesis balanced,
            List.cons_append]

theorem length_fst_braced (depth : Nat) (text : List Char) :
    (braced depth text).1.length ≤ text.length := by
  induction text generalizing depth with
  | nil => simp [braced]
  | cons c text inductionHypothesis =>
      simp only [braced, List.length_cons]
      split
      · exact Nat.succ_le_succ (inductionHypothesis (depth + 1))
      · split
        · cases depth with
          | zero => exact Nat.zero_le _
          | succ depth => exact Nat.succ_le_succ (inductionHypothesis depth)
        · exact Nat.succ_le_succ (inductionHypothesis depth)

theorem readForm_braced (inside : List Char) :
    readForm ('=' :: '{' :: inside) =
      (.braced (braced 0 inside).1 (braced 0 inside).2.isSome, (braced 0 inside).2.getD []) := by
  have equals : isBlank '=' = false := by decide
  have brace : isBlank '{' = false := by decide
  rw [readForm, trimStart_cons_of_not_blank equals]
  simp only [↓reduceIte]
  rw [trimStart_cons_of_not_blank brace]
  rfl

theorem length_code_of_readForm {text code : List Char} {closed : Bool}
    (found : (readForm text).1 = .braced code closed) : code.length ≤ text.length := by
  have outer : (trimStart text).length ≤ text.length := (List.dropWhile_sublist _).length_le
  unfold readForm at found
  split at found
  · simp at found
  · rename_i c rest shape
    rw [shape, List.length_cons] at outer
    split at found
    · have inner : (trimStart rest).length ≤ rest.length := (List.dropWhile_sublist _).length_le
      split at found
      · simp at found
      · rename_i first inside opened
        rw [opened, List.length_cons] at inner
        unfold readValue at found
        split at found
        · obtain ⟨rfl, -⟩ := Form.braced.inj found
          have bound := length_fst_braced 0 inside
          omega
        · split at found <;> simp at found
    · simp at found

/-- A value in braces is shorter than the attributes that it stands in. -/
theorem length_code_of_mem_list {item : Attribute} {text code : List Char} {closed : Bool}
    (membership : item ∈ list text) (form : item.form = .braced code closed) :
    code.length < text.length := by
  fun_induction list text with
  | case1 text empty => exact absurd membership List.not_mem_nil
  | case2 text c rest found isName name value inductionHypothesis =>
      have outer := (List.dropWhile_sublist isBlank (l := text)).length_le
      have named := (List.dropWhile_sublist isNameChar (l := rest)).length_le
      have behind := length_after_readForm (rest.dropWhile isNameChar)
      rw [← trimStart, found, List.length_cons] at outer
      rcases List.mem_cons.mp membership with rfl | later
      · have here := length_code_of_readForm form
        omega
      · have bound : code.length < (readForm (rest.dropWhile isNameChar)).2.length :=
          inductionHypothesis later
        omega
  | case3 text c rest found noName inductionHypothesis =>
      have outer := (List.dropWhile_sublist isBlank (l := text)).length_le
      rw [← trimStart, found, List.length_cons] at outer
      have bound := inductionHypothesis membership
      omega

theorem eq_braced_of_toValue {catalog : Catalog} {item : Attribute} {code : String}
    (value : item.toValue catalog = .expression code) :
    ∃ closed, item.form = .braced code.toList closed := by
  have ofLiteral : ∀ text, PropValue.ofLiteral text ≠ .expression code := by
    intro text value
    exact absurd (PropValue.eq_of_literalOr value) (by simp)
  unfold toValue at value
  split at value
  · simp at value
  · simp at value
  · exact absurd value (ofLiteral _)
  · unfold PropValue.ofQuoted at value
    split at value
    · split at value
      · simp at value
      · exact absurd value (ofLiteral _)
    · split at value
      · split at value
        · exact absurd value (ofLiteral _)
        · simp at value
      · split at value
        · simp at value
        · split at value
          · simp at value
          · exact absurd value (ofLiteral _)
  · rename_i written closed form
    refine ⟨closed, ?_⟩
    rw [form, ← PropValue.expression.inj (PropValue.eq_of_literalOr value), String.toList_ofList]

end Attribute

namespace ScannedProps

theorem list_trim_braced {name code : List Char} (nonempty : name ≠ [])
    (named : name.all Attribute.isNameChar = true) :
    Attribute.list (trim (' ' :: (name ++ '=' :: '{' :: (code ++ ['}'])))) =
      ⟨String.ofList name, .braced (Attribute.braced 0 (code ++ ['}'])).1
          (Attribute.braced 0 (code ++ ['}'])).2.isSome⟩ ::
        Attribute.list ((Attribute.braced 0 (code ++ ['}'])).2.getD []) := by
  have trimmed : trim ([' '] ++ (name ++ '=' :: '{' :: (code ++ ['}']))) =
      name ++ '=' :: '{' :: (code ++ ['}']) := by
    rw [trim_append_left_of_isAllBlank rfl]
    refine trim_eq_self (fun c first => ?_) (fun c last => ?_)
    · rw [List.head?_append_of_ne_nil _ nonempty] at first
      exact Attribute.isBlank_of_isNameChar
        (List.all_eq_true.mp named c (List.mem_of_mem_head? first))
    · have ends : name ++ '=' :: '{' :: (code ++ ['}']) = name ++ '=' :: '{' :: code ++ ['}'] := by
        simp
      rw [ends, List.getLast?_concat] at last
      obtain rfl : '}' = c := Option.some.inj last
      decide
  rw [← List.singleton_append, trimmed, Attribute.list_name nonempty named
    (Attribute.equals_ends _), Attribute.readForm_braced]

/-- A value that ends too early is shorter than the code, and so is every value behind it. -/
theorem notMem_of_early {before behind code : List Char} (shape : code = before ++ '}' :: behind)
    (catalog : Catalog) (name : List Char) :
    (String.ofList name, PropValue.ofBraced code) ∉ (ofAttributes catalog
      (⟨String.ofList name, .braced before true⟩ ::
        Attribute.list (behind ++ ['}']))).props.entries := by
  intro entry
  have brace : '}' ∈ code := by simp [shape]
  obtain ⟨item, membership, same⟩ := exists_toValue_of_mem entry
  have value := (Prod.mk.inj same).2
  rw [PropValue.ofBraced_of_brace brace] at value
  obtain ⟨closed, form⟩ := Attribute.eq_braced_of_toValue value.symm
  have length := congrArg List.length shape
  simp only [List.length_append, List.length_cons] at length
  rw [String.toList_ofList] at form
  rcases List.mem_cons.mp membership with rfl | later
  · obtain ⟨same, -⟩ := Attribute.Form.braced.inj form
    rw [← same] at length
    omega
  · have short := Attribute.length_code_of_mem_list later form
    rw [List.length_append, List.length_singleton] at short
    omega

/-- A value in braces is read whole, and as the only one, just when its braces are balanced. -/
theorem read_braced_iff (catalog : Catalog) {name code : List Char} (nonempty : name ≠ [])
    (named : name.all Attribute.isNameChar = true) :
    read catalog (' ' :: (name ++ '=' :: '{' :: (code ++ ['}']))) =
        ⟨⟨[(String.ofList name, .ofBraced code)]⟩, []⟩ ↔ HasBalancedBraces code := by
  rw [read, list_trim_braced nonempty named, hasBalancedBraces_iff]
  constructor
  · intro whole
    cases balance : braceDepth? 0 code with
    | none =>
        obtain ⟨before, behind, shape, balanced⟩ := exists_of_braceDepth?_eq_none balance
        have early : Attribute.braced 0 (code ++ ['}']) = (before, some (behind ++ ['}'])) := by
          rw [shape, List.append_assoc, Attribute.braced_append balanced]
          simp [Attribute.braced]
        rw [early] at whole
        exact absurd (whole ▸ List.mem_singleton_self _) (notMem_of_early shape catalog name)
    | some last =>
        rw [Attribute.braced_append balance] at whole
        cases last with
        | zero => rfl
        | succ last =>
            have faults := congrArg ScannedProps.unterminated whole
            simp [ofAttributes, Attribute.braced, Attribute.isUnterminated] at faults
  · intro balanced
    have nothing : Attribute.list [] = [] := by
      rw [Attribute.list]
      rfl
    rw [Attribute.braced_append balanced]
    simp [nothing, Attribute.braced, ofAttributes, Attribute.isUnterminated, Attribute.toValue,
      Props.insert, Props.put, Props.empty]

end ScannedProps

end ScreenCompiler
