import Mathlib.Data.List.Induction
import ScreenCompiler.Markup.Props

/-!
# Props put in one after the other

Props that are made by putting values in hold every name once: a repeated name stays where
it came first and takes the value that came last.
-/

namespace ScreenCompiler

theorem eraseDups_concat {Name : Type} [BEq Name] [LawfulBEq Name] [DecidableEq Name]
    (names : List Name) (name : Name) :
    (names ++ [name]).eraseDups =
      if name ∈ names then names.eraseDups else names.eraseDups ++ [name] := by
  rw [List.eraseDups_append]
  split
  · rename_i present
    have seen : [name].removeAll names = [] := by
      simpa [List.removeAll] using present
    rw [seen, List.eraseDups_nil, List.append_nil]
  · rename_i absent
    have fresh : [name].removeAll names = [name] := by
      simpa [List.removeAll] using absent
    rw [fresh, List.eraseDups_cons]
    rfl

namespace Props

/-- Props with the given values put in, in order. -/
def ofEntries (entries : List (String × PropValue)) : Props :=
  entries.foldl (fun props entry => props.insert entry.1 entry.2) .empty

theorem ofEntries_concat (entries : List (String × PropValue)) (entry : String × PropValue) :
    ofEntries (entries ++ [entry]) = (ofEntries entries).insert entry.1 entry.2 := by
  simp [ofEntries]

theorem map_fst_put (name : String) (value : PropValue) (entries : List (String × PropValue)) :
    (put name value entries).map Prod.fst =
      if name ∈ entries.map Prod.fst then entries.map Prod.fst
      else entries.map Prod.fst ++ [name] := by
  induction entries with
  | nil => rfl
  | cons entry entries inductionHypothesis =>
      obtain ⟨other, previous⟩ := entry
      by_cases same : other = name
      · simp [put, same]
      · by_cases present : name ∈ entries.map Prod.fst
        · rw [if_pos present] at inductionHypothesis
          rw [put, if_neg same, List.map_cons, inductionHypothesis, List.map_cons,
            if_pos (List.mem_cons_of_mem other present)]
        · have absent : name ∉ other :: entries.map Prod.fst := by
            simpa [Ne.symm same] using present
          rw [if_neg present] at inductionHypothesis
          rw [put, if_neg same, List.map_cons, inductionHypothesis, List.map_cons, if_neg absent,
            List.cons_append]

theorem names_insert (props : Props) (name : String) (value : PropValue) :
    (props.insert name value).names =
      if name ∈ props.names then props.names else props.names ++ [name] :=
  map_fst_put name value props.entries

theorem get?_insert (props : Props) (name key : String) (value : PropValue) :
    (props.insert name value).get? key = if key = name then some value else props.get? key := by
  obtain ⟨entries⟩ := props
  simp only [insert, get?]
  induction entries with
  | nil =>
      by_cases asked : key = name
      · simp [put, asked]
      · simp [put, asked, List.lookup_cons, beq_false_of_ne asked]
  | cons entry entries inductionHypothesis =>
      obtain ⟨other, previous⟩ := entry
      by_cases same : other = name
      · subst same
        by_cases asked : key = other
        · simp [put, asked]
        · simp [put, asked, List.lookup_cons, beq_false_of_ne asked]
      · by_cases asked : key = other
        · subst asked
          simp [put, same]
        · simp [put, same, List.lookup_cons, beq_false_of_ne asked, inductionHypothesis]

/-- A repeated name keeps its first position. -/
theorem names_ofEntries (entries : List (String × PropValue)) :
    (ofEntries entries).names = (entries.map Prod.fst).eraseDups := by
  induction entries using List.reverseRecOn with
  | nil => rfl
  | append_singleton entries last inductionHypothesis =>
      rw [ofEntries_concat, names_insert, inductionHypothesis, List.map_append, List.map_singleton,
        eraseDups_concat]
      simp only [List.mem_eraseDups]

/-- A repeated name takes its last value. -/
theorem get?_ofEntries (entries : List (String × PropValue)) (name : String) :
    (ofEntries entries).get? name = entries.reverse.lookup name := by
  induction entries using List.reverseRecOn with
  | nil => rfl
  | append_singleton entries last inductionHypothesis =>
      rw [ofEntries_concat, get?_insert, inductionHypothesis, List.reverse_concat,
        List.lookup_cons]
      by_cases asked : name = last.1
      · simp [asked]
      · simp [asked, beq_false_of_ne asked]

end Props

end ScreenCompiler
