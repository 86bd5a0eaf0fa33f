set_option autoImplicit false

namespace BulkSync

variable {α : Type}

def partLength (count parts : Nat) : Nat :=
  max 1 ((count + max 1 parts - 1) / max 1 parts)

theorem partLength_pos (count parts : Nat) : 0 < partLength count parts :=
  Nat.le_max_left 1 _

/-- Consecutive parts of one more than `more`, the last of which may be shorter. -/
def splitBy (more : Nat) : List α → List (List α)
  | [] => []
  | a :: rest => (a :: rest.take more) :: splitBy more (rest.drop more)
  termination_by as => as.length
  decreasing_by
    rw [List.length_drop, List.length_cons]
    omega

theorem flatten_splitBy (more : Nat) (as : List α) : (splitBy more as).flatten = as := by
  fun_induction splitBy more as with
  | case1 => rfl
  | case2 a rest ih => simp [ih]

theorem ne_nil_of_mem_splitBy {more : Nat} {as part : List α} (h : part ∈ splitBy more as) :
    part ≠ [] := by
  fun_induction splitBy more as with
  | case1 => cases h
  | case2 a rest ih =>
    rcases List.mem_cons.1 h with rfl | h
    · exact List.cons_ne_nil _ _
    · exact ih h

def splitInto (parts : Nat) (as : List α) : List (List α) :=
  splitBy (partLength as.length parts - 1) as

theorem flatten_splitInto (parts : Nat) (as : List α) : (splitInto parts as).flatten = as :=
  flatten_splitBy _ as

end BulkSync
