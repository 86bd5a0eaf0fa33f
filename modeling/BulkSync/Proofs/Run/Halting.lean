import BulkSync.Run.Basic

set_option autoImplicit false

namespace BulkSync.Run

variable {M : Type}

def after (r : Run M) : Nat → Run M
  | 0 => r
  | n + 1 => (r.after n).step.2

theorem after_succ (r : Run M) (n : Nat) : r.after (n + 1) = r.step.2.after n := by
  induction n with
  | zero => rfl
  | succ n ih => exact congrArg (fun r => r.step.2) ih

theorem runToHalt_of_halts {r : Run M} {n : Nat}
    (before : ∀ s < n, (r.after s).step.1 = .ok .continues)
    (last : (r.after n).step.1 = .ok .halted) (fuel : Nat) :
    r.runToHalt fuel =
      if n < fuel then (some (.ok ()), r.after (n + 1)) else (none, r.after fuel) := by
  -- The induction goes forward, so that the run after the first step is the one it is about.
  induction fuel generalizing r n with
  | zero => rfl
  | succ fuel ih =>
    cases n with
    | zero =>
      have outcome : r.step = (.ok .halted, r.step.2) := Prod.ext last rfl
      rw [runToHalt, outcome]
      rfl
    | succ n =>
      have outcome : r.step = (.ok .continues, r.step.2) :=
        Prod.ext (before 0 n.succ_pos) rfl
      have later := ih (r := r.step.2) (n := n)
        (fun s below => by
          rw [← after_succ]
          exact before (s + 1) (Nat.succ_lt_succ below))
        (by rwa [← after_succ])
      rw [runToHalt, outcome]
      simp only [later, ← after_succ, Nat.add_lt_add_iff_right]

end BulkSync.Run
