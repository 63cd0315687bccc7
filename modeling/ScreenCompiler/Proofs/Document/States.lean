import Mathlib.Data.List.Induction
import ScreenCompiler.Document.State
import ScreenCompiler.Proofs.Markup.Props

/-!
# Putting states

A state that is put replaces the one of its name where it stands, so names stay
distinct, and states may be gathered before they are put into others.
-/

namespace ScreenCompiler

namespace State

theorem put_put_of_name_eq {first second : State} (same : first.name = second.name)
    (states : List State) : second.put (first.put states) = second.put states := by
  induction states with
  | nil => simp [put_cons, same]
  | cons other states inductionHypothesis =>
      by_cases found : other.name = second.name
      · simp [put_cons, same, found]
      · simp [put_cons, same, found, inductionHypothesis]

theorem mem_names_put {state : State} {name : String} {states : List State} :
    name ∈ (state.put states).map State.name ↔
      name = state.name ∨ name ∈ states.map State.name := by
  induction states with
  | nil => simp
  | cons other states inductionHypothesis =>
      by_cases same : other.name = state.name
      · simp [put_cons, same]
      · simp only [put_cons, same, ↓reduceIte, List.map_cons, List.mem_cons, inductionHypothesis]
        exact or_left_comm

theorem nodup_names_put (state : State) {states : List State}
    (distinct : (states.map State.name).Nodup) : ((state.put states).map State.name).Nodup := by
  induction states with
  | nil => simp
  | cons other states inductionHypothesis =>
      simp only [List.map_cons, List.nodup_cons] at distinct
      by_cases same : other.name = state.name
      · rw [put_cons, if_pos same, List.map_cons, List.nodup_cons, ← same]
        exact distinct
      · rw [put_cons, if_neg same, List.map_cons, List.nodup_cons, mem_names_put, not_or]
        exact ⟨⟨same, distinct.1⟩, inductionHypothesis distinct.2⟩

/-- A state that is already there is replaced where it stands, whatever else is put. -/
theorem put_comm {first second : State} (other : first.name ≠ second.name) {states : List State}
    (present : second.name ∈ states.map State.name) :
    second.put (first.put states) = first.put (second.put states) := by
  induction states with
  | nil => simp at present
  | cons head states inductionHypothesis =>
      by_cases isFirst : head.name = first.name
      · simp [put_cons, isFirst, other]
      · by_cases isSecond : head.name = second.name
        · simp [put_cons, isSecond, Ne.symm other]
        · have later : second.name ∈ states.map State.name :=
            (List.mem_cons.mp present).resolve_left (Ne.symm isSecond)
          simp [put_cons, isFirst, isSecond, inductionHypothesis later]

/-- The states with more of them put one after the other. -/
def putAll (states more : List State) : List State :=
  more.foldl (fun states state => state.put states) states

theorem putAll_put_of_not_mem {state : State} {more : List State}
    (absent : state.name ∉ more.map State.name) {states : List State}
    (present : state.name ∈ states.map State.name) :
    putAll (state.put states) more = state.put (putAll states more) := by
  induction more generalizing states with
  | nil => rfl
  | cons first more inductionHypothesis =>
      simp only [List.map_cons, List.mem_cons, not_or] at absent
      have kept : state.name ∈ (first.put states).map State.name :=
        mem_names_put.mpr (.inr present)
      rw [putAll, List.foldl_cons, ← put_comm (Ne.symm absent.1) present]
      exact inductionHypothesis absent.2 kept

theorem putAll_put {state : State} {more : List State} (distinct : (more.map State.name).Nodup)
    (states : List State) : putAll states (state.put more) = state.put (putAll states more) := by
  induction more generalizing states with
  | nil => rfl
  | cons first more inductionHypothesis =>
      simp only [List.map_cons, List.nodup_cons] at distinct
      by_cases same : first.name = state.name
      · have present : state.name ∈ (first.put states).map State.name :=
          mem_names_put.mpr (.inl same.symm)
        rw [put_cons, if_pos same, putAll, List.foldl_cons]
        change putAll (state.put states) more = state.put (putAll (first.put states) more)
        rw [← putAll_put_of_not_mem (same ▸ distinct.1) present, put_put_of_name_eq same]
      · rw [put_cons, if_neg same]
        exact inductionHypothesis distinct.2 (first.put states)

theorem names_put (state : State) (states : List State) :
    (state.put states).map State.name =
      if state.name ∈ states.map State.name then states.map State.name
      else states.map State.name ++ [state.name] := by
  induction states with
  | nil => rfl
  | cons other states inductionHypothesis =>
      by_cases same : other.name = state.name
      · simp [put_cons, same]
      · rw [put_cons, if_neg same, List.map_cons, inductionHypothesis]
        split <;> simp_all [Ne.symm same]

/-- Names stand in the order in which they came first. -/
theorem names_putAll (states : List State) :
    (putAll [] states).map State.name = (states.map State.name).eraseDups := by
  induction states using List.reverseRecOn with
  | nil => rfl
  | append_singleton states last inductionHypothesis =>
      rw [putAll, List.foldl_append, List.map_append, List.map_singleton, eraseDups_concat]
      change (last.put (putAll [] states)).map State.name = _
      rw [names_put, inductionHypothesis]
      simp only [List.mem_eraseDups]

theorem mem_put {state other : State} {states : List State}
    (distinct : (states.map State.name).Nodup) (membership : other ∈ state.put states) :
    other = state ∨ (other ∈ states ∧ other.name ≠ state.name) := by
  induction states with
  | nil => exact .inl (List.mem_singleton.mp membership)
  | cons first states inductionHypothesis =>
      obtain ⟨absent, distinct⟩ := List.nodup_cons.mp distinct
      by_cases same : first.name = state.name
      · rw [put_cons, if_pos same] at membership
        rcases List.mem_cons.mp membership with here | later
        · exact .inl here
        · refine .inr ⟨List.mem_cons_of_mem _ later, fun again => absent ?_⟩
          rw [same, ← again]
          exact List.mem_map_of_mem later
      · rw [put_cons, if_neg same] at membership
        rcases List.mem_cons.mp membership with rfl | later
        · exact .inr ⟨List.mem_cons_self, same⟩
        · exact (inductionHypothesis distinct later).imp_right
            fun ⟨inside, differs⟩ => ⟨List.mem_cons_of_mem _ inside, differs⟩

theorem nodup_names_putAll (states : List State) : ((putAll [] states).map State.name).Nodup := by
  induction states using List.reverseRecOn with
  | nil => exact List.nodup_nil
  | append_singleton states last inductionHypothesis =>
      rw [putAll, List.foldl_append]
      exact nodup_names_put last inductionHypothesis

/-- A state that is kept is the last one of its name. -/
theorem find?_reverse_of_mem_putAll {state : State} {states : List State}
    (membership : state ∈ putAll [] states) :
    states.reverse.find? (fun other => other.name = state.name) = some state := by
  induction states using List.reverseRecOn with
  | nil => exact absurd membership List.not_mem_nil
  | append_singleton states last inductionHypothesis =>
      rw [putAll, List.foldl_append] at membership
      rw [List.reverse_append, List.reverse_singleton, List.singleton_append, List.find?_cons]
      rcases mem_put (nodup_names_putAll states) membership with rfl | ⟨earlier, differs⟩
      · simp
      · simp [Ne.symm differs, inductionHypothesis earlier]

end State

end ScreenCompiler
