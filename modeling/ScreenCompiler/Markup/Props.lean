import ScreenCompiler.Markup.Value

/-!
# Props

Named values in the order of their names' first appearance.  A repeated name keeps
its place and takes the later value.
-/

namespace ScreenCompiler

structure Props where
  entries : List (String × PropValue)
  deriving DecidableEq

namespace Props

def empty : Props := ⟨[]⟩

def put (name : String) (value : PropValue) :
    List (String × PropValue) → List (String × PropValue)
  | [] => [(name, value)]
  | (other, previous) :: entries =>
      if other = name then (other, value) :: entries
      else (other, previous) :: put name value entries

def insert (props : Props) (name : String) (value : PropValue) : Props :=
  ⟨put name value props.entries⟩

def get? (props : Props) (name : String) : Option PropValue :=
  props.entries.lookup name

def names (props : Props) : List String :=
  props.entries.map Prod.fst

theorem mem_map_fst_put {name member : String} {value : PropValue}
    {entries : List (String × PropValue)} :
    member ∈ (put name value entries).map Prod.fst ↔
      member = name ∨ member ∈ entries.map Prod.fst := by
  induction entries with
  | nil => simp [put]
  | cons entry entries inductionHypothesis =>
      obtain ⟨other, previous⟩ := entry
      by_cases same : other = name
      · simp [put, same]
      · simp only [put, same, ↓reduceIte, List.map_cons, List.mem_cons, inductionHypothesis]
        exact or_left_comm

theorem nodup_names_put {name : String} {value : PropValue}
    {entries : List (String × PropValue)} (distinct : (entries.map Prod.fst).Nodup) :
    ((put name value entries).map Prod.fst).Nodup := by
  induction entries with
  | nil => simp [put]
  | cons entry entries inductionHypothesis =>
      obtain ⟨other, previous⟩ := entry
      simp only [List.map_cons, List.nodup_cons] at distinct
      by_cases same : other = name
      · subst same
        simpa [put] using distinct
      · rw [put, if_neg same, List.map_cons, List.nodup_cons, mem_map_fst_put, not_or]
        exact ⟨⟨same, distinct.1⟩, inductionHypothesis distinct.2⟩

end Props

end ScreenCompiler
