import ScreenCompiler.Component.Props
import ScreenCompiler.Proofs.Markup.ValueStyles

/-!
# Press handlers

A press handler in quotes is a navigation when it starts and ends like a call with a
quoted path, and is kept as it is written otherwise.  So a handler of one call is read
right, and one that starts with a call and ends with another is taken for a single call,
with all that stands between the outer quotes for its path.
-/

namespace ScreenCompiler

open Text PropValue

/-- A press handler in quotes. -/
def Attribute.press (written : List Char) (closed : Bool) : Attribute :=
  ⟨"onPress", .quoted written closed⟩

namespace PressHandler

/-- The code that a kept handler has: text is the body of a function, and a literal stands for
itself. -/
inductive Writes : PropValue → String → Prop where
  | body (text : String) : Writes (.string text) ("() => " ++ text)
  | flag (value : Bool) : Writes (.bool value) (toString value)
  | number (value : Float) : Writes (.number value) (Decimal.numberText value)

/-- A handler that is kept: it is what it spells, and so is its code. -/
structure IsKept (written : List Char) (value : PropValue) : Prop where
  literal : value = .ofLiteral written
  spells : Spells written value
  code : ∃ code, Writes value code ∧ ∀ (rendering : Rendering) (tag : String),
    rendering.prop tag "onPress" value = [codeProp "onPress" code]

/-- A handler that is read as it is meant: it is a navigation to a path just when it is one call of
the path, and it is kept otherwise. -/
structure IsReadRight (written : List Char) (value : PropValue) : Prop where
  call : ∀ path, value = .navigation (String.ofList path) ↔ IsCall path written
  other : (∀ path, ¬IsCall path written) → IsKept written value

theorem exists_writes {written : List Char} {value : PropValue} (spells : Spells written value) :
    ∃ code, Writes value code ∧ ∀ (rendering : Rendering) (tag : String),
      rendering.prop tag "onPress" value = [codeProp "onPress" code] := by
  cases spells with
  | flag value word => exact ⟨_, .flag value, fun _ _ => rfl⟩
  | number read => exact ⟨_, .number _, fun _ _ => rfl⟩
  | itself noFlag noNumber => exact ⟨_, .body _, fun _ _ => rfl⟩

theorem isKept_ofLiteral (written : List Char) : IsKept written (.ofLiteral written) where
  literal := rfl
  spells := spells_ofLiteral written
  code := exists_writes (spells_ofLiteral written)

variable (catalog : Catalog) (written : List Char) (closed : Bool)

theorem toValue_of_framed {path : List Char} (framed : IsFramedCall path written) :
    (Attribute.press written closed).toValue catalog = .navigation (String.ofList path) := by
  simp [Attribute.toValue, Attribute.press, ofQuoted, navigationTarget?_eq_some_iff.mpr framed]

theorem toValue_of_unframed (unframed : ∀ path, ¬IsFramedCall path written) :
    (Attribute.press written closed).toValue catalog = .ofLiteral written := by
  have noCall : navigationTarget? written = none :=
    Option.eq_none_iff_forall_ne_some.mpr fun path found =>
      unframed path (navigationTarget?_eq_some_iff.mp found)
  simp [Attribute.toValue, Attribute.press, ofQuoted, noCall]

theorem toValue_eq_navigation_iff (path : List Char) :
    (Attribute.press written closed).toValue catalog = .navigation (String.ofList path) ↔
      IsFramedCall path written := by
  refine ⟨fun navigates => ?_, toValue_of_framed catalog written closed⟩
  by_cases unframed : ∀ other, ¬IsFramedCall other written
  · have spells := spells_ofLiteral written
    rw [← toValue_of_unframed catalog written closed unframed, navigates] at spells
    cases spells
  · obtain ⟨other, framed⟩ := not_forall_not.mp unframed
    rw [toValue_of_framed catalog written closed framed, navigation.injEq,
      String.ofList_inj] at navigates
    exact navigates ▸ framed

/-- A press handler is a navigation when it is framed like a call, and kept otherwise.  It is read
right just when nothing but a call is framed like one. -/
theorem isReadRight_press_iff :
    (∀ path, (Attribute.press written closed).toValue catalog = .navigation (String.ofList path) ↔
        IsFramedCall path written) ∧
      ((∀ path, ¬IsFramedCall path written) →
        IsKept written ((Attribute.press written closed).toValue catalog)) ∧
      (IsReadRight written ((Attribute.press written closed).toValue catalog) ↔
        ∀ path, IsFramedCall path written → IsCall path written) := by
  have navigates := toValue_eq_navigation_iff catalog written closed
  have kept : (∀ path, ¬IsFramedCall path written) →
      IsKept written ((Attribute.press written closed).toValue catalog) := by
    intro unframed
    rw [toValue_of_unframed catalog written closed unframed]
    exact isKept_ofLiteral written
  refine ⟨navigates, kept, fun right path framed => ?_, fun onlyCalls => ⟨fun path => ?_, ?_⟩⟩
  · exact (right.call path).mp ((navigates path).mpr framed)
  · exact (navigates path).trans ⟨onlyCalls path, IsCall.framed⟩
  · exact fun noCall => kept fun path framed => noCall path (onlyCalls path framed)

/-- A path with an apostrophe, in double quotes. -/
def apostropheCall : List Char :=
  "go(\"/it's\")".toList

theorem isReadRight_apostropheCall :
    (∀ path, IsFramedCall path apostropheCall → IsCall path apostropheCall) ∧
      IsReadRight apostropheCall
        ((Attribute.press apostropheCall true).toValue .standard) := by
  have onlyCalls : ∀ path, IsFramedCall path apostropheCall → IsCall path apostropheCall := by
    intro path framed
    have found : navigationTarget? apostropheCall = some "/it's".toList := by decide +kernel
    obtain rfl := Option.some.inj (found.symm.trans (navigationTarget?_eq_some_iff.mpr framed))
    exact ⟨'"', by decide, by decide, by decide⟩
  exact ⟨onlyCalls, (isReadRight_press_iff .standard apostropheCall true).2.2.mpr onlyCalls⟩

/-- Two statements, of which only the first is a navigation. -/
def twoStatements : List Char :=
  "go('/a'); track('b')".toList

/-- Two statements become one navigation to a screen that is made up from both. -/
theorem not_isReadRight_twoStatements :
    (ScannedProps.read .standard ("onPress=\"".toList ++ twoStatements ++ ['"'])).props =
        ⟨[("onPress", .navigation "/a'); track('b")]⟩ ∧
      (∀ path, ¬IsCall path twoStatements) ∧
      ¬IsReadRight twoStatements (.navigation "/a'); track('b") ∧
      (⟨.standard, [], []⟩ : Rendering).prop "Button" "onPress" (.navigation "/a'); track('b") =
        ["onPress=\x7b() => navigation.navigate('ATrackB')\x7d"] := by
  have noCall : ∀ path, ¬IsCall path twoStatements := by
    intro path call
    have found : navigationTarget? twoStatements = some "/a'); track('b".toList := by
      decide +kernel
    obtain rfl :=
      Option.some.inj (found.symm.trans (navigationTarget?_eq_some_iff.mpr call.framed))
    obtain ⟨quote, isQuote, other, shape⟩ := call
    rcases List.mem_pair.mp isQuote with rfl | rfl
    · exact other (by decide)
    · exact absurd shape (by decide)
  have read : (ScannedProps.read .standard ("onPress=\"".toList ++ twoStatements ++ ['"'])).props =
      ⟨[("onPress", .navigation "/a'); track('b")]⟩ := by
    decide +kernel
  refine ⟨read, noCall, fun right => ?_, by decide +kernel⟩
  exact noCall _ ((right.call "/a'); track('b".toList).mp (by decide))

end PressHandler

end ScreenCompiler
