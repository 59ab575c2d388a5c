/-!
# Lists of names in order

Where several names are listed for a reader they stand in the order of code points, each once.
-/

namespace Reckoner.Text

/-- The texts of a list in the order of code points, each once. -/
def sortedDistinct (names : List String) : List String :=
  names.eraseDups.mergeSort fun a b => decide (a ≤ b)

@[simp] theorem mem_sortedDistinct {name : String} {names : List String} :
    name ∈ sortedDistinct names ↔ name ∈ names := by
  rw [sortedDistinct, List.mem_mergeSort, List.mem_eraseDups]

end Reckoner.Text
