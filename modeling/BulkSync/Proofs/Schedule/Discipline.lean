import BulkSync.Proofs.Run.Step

set_option autoImplicit false

namespace BulkSync

open Memory (Write Value)

variable {M : Type}

-- The folds whose steps commute with each other.
inductive Fold
  | sum
  | all
  | any
  deriving DecidableEq

def Memory.Write.fold? : Write → Option Fold
  | .set _ _ => none
  | .incr _ _ | .decr _ _ => some .sum
  | .and _ _ => some .all
  | .or _ _ => some .any

theorem Memory.Write.apply_comm {f : Fold} {w u : Write} (left : w.fold? = some f)
    (right : u.fold? = some f) (old : Option Value) :
    u.apply (some (w.apply old)) = w.apply (some (u.apply old)) := by
  cases w <;> cases left <;> cases u <;> cases right
  all_goals
    simp only [apply, sumOf, flagOf, Value.integer.injEq, Value.boolean.injEq,
      Int64.sub_eq_add_neg]
    ac_rfl

theorem fold_perm {f : Fold} {writes others : List Write} (perm : writes.Perm others)
    (commute : ∀ w ∈ writes, w.fold? = some f) (old : Option Value) :
    fold old writes = fold old others := by
  refine perm.foldl_eq' (fun w left u right old => ?_) old
  rw [Memory.Write.apply_comm (commute w left) (commute u right)]

/-- Each key is written at one position only, or by the steps of one fold only. -/
def Disciplined (calls : List (Nat × Call M)) : Prop :=
  ∀ key,
    (∃ i, ∀ j call w, (j, call) ∈ calls → call.writeTo key = some w → j = i) ∨
      ∃ f, ∀ j call w, (j, call) ∈ calls → call.writeTo key = some w → w.fold? = some f

section Interleavings

variable {calls others : List (Nat × Call M)}

theorem callsBy_cons (i j : Nat) (call : Call M) (rest : List (Nat × Call M)) :
    callsBy i ((j, call) :: rest) = if j = i then call :: callsBy i rest else callsBy i rest := by
  by_cases same : j = i <;> simp [callsBy, same]

open Classical in
theorem count_callsBy (i : Nat) (call : Call M) :
    calls.count (i, call) = (callsBy i calls).count call := by
  induction calls with
  | nil => rfl
  | cons other rest ih =>
    obtain ⟨j, made⟩ := other
    rw [callsBy_cons, List.count_cons, ih]
    by_cases same : j = i <;> simp [List.count_cons, same]

variable (same : ∀ i, callsBy i calls = callsBy i others)

include same in
theorem perm_of_callsBy : calls.Perm others := by
  classical
  rw [List.perm_iff_count]
  intro ⟨i, call⟩
  rw [count_callsBy, count_callsBy, same]

include same in
theorem Disciplined.interleaved (disciplined : Disciplined calls) : Disciplined others := by
  have mem {i : Nat} {call : Call M} (member : (i, call) ∈ others) : (i, call) ∈ calls :=
    (perm_of_callsBy same).mem_iff.2 member
  intro key
  refine (disciplined key).imp ?_ ?_
  · exact fun ⟨i, single⟩ => ⟨i, fun j call w member => single j call w (mem member)⟩
  · exact fun ⟨f, folds⟩ => ⟨f, fun j call w member => folds j call w (mem member)⟩

theorem filterMap_writeTo_of_single {i : Nat} {key : String}
    (single : ∀ j call w, (j, call) ∈ calls → call.writeTo key = some w → j = i) :
    (calls.map Prod.snd).filterMap (·.writeTo key) =
      (callsBy i calls).filterMap (·.writeTo key) := by
  induction calls with
  | nil => rfl
  | cons other rest ih =>
    obtain ⟨j, call⟩ := other
    have later := ih fun j call w member => single j call w (List.mem_cons_of_mem _ member)
    rw [callsBy_cons]
    cases written : call.writeTo key with
    | none => split <;> simp [written, later]
    | some w =>
      have here := single j call w List.mem_cons_self written
      simp [written, later, here]

include same in
theorem fold_interleaved (disciplined : Disciplined calls) (key : String) (old : Option Value) :
    fold old ((calls.map Prod.snd).filterMap (·.writeTo key)) =
      fold old ((others.map Prod.snd).filterMap (·.writeTo key)) := by
  have perm := perm_of_callsBy same
  rcases disciplined key with ⟨i, single⟩ | ⟨f, folds⟩
  -- One vertex writes the key, and its writes come in the same order in both interleavings.
  · rw [filterMap_writeTo_of_single single, same, filterMap_writeTo_of_single]
    exact fun j call w member => single j call w (perm.mem_iff.2 member)
  -- Several vertices do; the orders differ, but every two of the steps commute.
  · refine fold_perm (f := f) ((perm.map _).filterMap _) (fun w member => ?_) old
    obtain ⟨call, made, written⟩ := List.mem_filterMap.1 member
    obtain ⟨⟨j, _⟩, among, rfl⟩ := List.mem_map.1 made
    exact folds j _ w among written

end Interleavings

namespace Run

variable {r : Run M} (typed : r.memory.Typed)
include typed

theorem callsBy_of_passes {σ : Schedule} (passes : (r.superstepUnder σ).failure = none) (i : Nat) :
    callsBy i (r.pool σ).calls = (r.graph.vertices[i]?.map r.callsOf).getD [] := by
  cases found : r.graph.vertices[i]? with
  | some v => exact callsBy_pool typed passes found
  | none =>
    rw [Option.map_none, Option.getD_none, List.eq_nil_iff_forall_not_mem]
    intro call member
    have within := (reached_pool typed σ).within (mem_callsBy.1 member)
    have outside := List.getElem?_eq_none_iff.1 found
    omega

structure Agree (r : Run M) (σ τ : Schedule) : Prop where
  passes : (r.superstepUnder τ).failure = none
  disciplined : Disciplined (r.pool τ).calls
  calls : ∀ i, callsBy i (r.pool σ).calls = callsBy i (r.pool τ).calls
  vertices : (r.superstepUnder σ).vertices = (r.superstepUnder τ).vertices
  memory : (r.crossed (r.superstepUnder σ)).memory = (r.crossed (r.superstepUnder τ)).memory
  messages : ∀ id, ((r.crossed (r.superstepUnder σ)).inbox.messages id).Perm
    ((r.crossed (r.superstepUnder τ)).inbox.messages id)

theorem agree {σ : Schedule} (passes : (r.superstepUnder σ).failure = none)
    (disciplined : Disciplined (r.pool σ).calls) (τ : Schedule) : r.Agree σ τ := by
  have later : (r.superstepUnder τ).failure = none :=
    (passes_iff typed).2 ((passes_iff typed).1 passes)
  have calls (i : Nat) : callsBy i (r.pool σ).calls = callsBy i (r.pool τ).calls := by
    rw [callsBy_of_passes typed passes, callsBy_of_passes typed later]
  have memory : (r.superstepUnder σ).shared.memory = (r.superstepUnder τ).shared.memory := by
    apply Memory.eq_of_frame_of_cell
    · exact (reached_pool typed σ).frame.trans (reached_pool typed τ).frame.symm
    · intro key
      rw [cell_superstepUnder typed, cell_superstepUnder typed]
      exact fold_interleaved calls disciplined key _
  constructor
  case passes => exact later
  case disciplined => exact disciplined.interleaved calls
  case calls => exact calls
  case vertices =>
    rw [vertices_superstepUnder typed passes, vertices_superstepUnder typed later]
  case memory => exact congrArg Memory.commit memory
  case messages =>
    intro id
    rw [messages_crossed, messages_crossed]
    split
    next =>
      rw [waiting_superstepUnder typed, waiting_superstepUnder typed]
      exact ((perm_of_callsBy calls).map Prod.snd).filterMap _
    next => exact .nil

end Run

end BulkSync
