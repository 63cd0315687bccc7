/-!
# Sorted names

Lists of names in ascending order of code points, each name once.
-/

namespace ScreenCompiler.Text

/-- A name put into its place in a list, unless it is there. -/
def insertName (name : String) : List String → List String
  | [] => [name]
  | other :: names =>
      if name < other then name :: other :: names
      else if name = other then other :: names
      else other :: insertName name names

theorem mem_insertName {name member : String} {names : List String} :
    member ∈ insertName name names ↔ member = name ∨ member ∈ names := by
  induction names with
  | nil => simp [insertName]
  | cons other names inductionHypothesis =>
      simp only [insertName]
      split
      · simp
      · split
        · rename_i same
          simp [same]
        · simp [inductionHypothesis, or_left_comm]

end ScreenCompiler.Text
