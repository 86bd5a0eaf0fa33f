import BulkSync.Proofs.Schedule.Transcripts

set_option autoImplicit false

namespace BulkSync

variable {M : Type}

-- The items of some lists, each taken from the list that `order` names, then what is left of all.
def interleave {α : Type} : List Nat → List (List α) → List α
  | [], lists => lists.flatten
  | i :: order, lists =>
    match lists[i]? with
    | some (a :: rest) => a :: interleave order (lists.set i rest)
    | _ => interleave order lists

theorem interleave_nil {α β : Type} (items : List α) (f : α → List β) :
    (interleave [] (items.map fun a => none :: (f a).map some)).filterMap id = items.flatMap f := by
  rw [interleave, List.filterMap_flatten, List.map_map, List.flatMap_def]
  refine congrArg List.flatten (List.map_congr_left fun a _ => ?_)
  show ((f a).map some).filterMap id = f a
  rw [List.filterMap_map]
  exact List.filterMap_some

section Remaining

variable (program : VertexProgram M) (inbox : Inbox M) (m : Memory)

-- The turns that a task has left; the one in which its vertex is taken up makes no call.
def Task.remaining : Task M → List (Option (Call M))
  | .waiting v => none :: ((Task.waiting v).ahead program inbox m).map some
  | t => (t.ahead program inbox m).map some

def Pool.remaining (p : Pool M) : List (List (Option (Call M))) :=
  p.tasks.map (Task.remaining program inbox m)

end Remaining

variable {program : VertexProgram M} {inbox : Inbox M} {vertices : List Vertex} {m : Memory}

namespace Task

theorem remaining_of_begun {t : Task M} (begun : t.isWaiting = false) :
    t.remaining program inbox m = (t.ahead program inbox m).map some := by
  cases t with
  | waiting => cases begun
  | passed | executing => rfl

theorem remaining_start (v : Vertex) :
    (start program inbox v).remaining program inbox m =
      ((waiting v).ahead program inbox m).map some := by
  rw [remaining_of_begun (isWaiting_start program inbox v), ahead_start]

theorem remaining_of_isOver {t : Task M} (finished : t.isOver) :
    t.remaining program inbox m = [] := by
  obtain ⟨v, rfl⟩ | ⟨v, result, rfl⟩ := isOver_cases finished <;> rfl

end Task

namespace Pool

variable {p q : Pool M} {i : Nat}

theorem Reached.calls_eq (reached : p.Reached program inbox vertices m)
    (a : Action M (Except Cause Unit × Vertex)) : a.calls p.shared.memory = a.calls m :=
  Action.calls_congr reached.frame a

theorem remaining_turned (typed : m.Typed) (reached : p.Reached program inbox vertices m)
    (turned : Turned program inbox p i q) :
    (∃ item rest, (p.remaining program inbox m)[i]? = some (item :: rest) ∧
        q.remaining program inbox m = (p.remaining program inbox m).set i rest ∧
        q.calls.map Prod.snd = p.calls.map Prod.snd ++ item.toList) ∨
      (p.remaining program inbox m)[i]?.getD [] = [] ∧ q = p := by
  cases turned with
  | @took v found =>
    refine .inl ⟨none, ((Task.waiting v).ahead program inbox m).map some, ?_, ?_,
      (List.append_nil _).symm⟩
    · rw [remaining, List.getElem?_map, found]
      rfl
    · rw [remaining, List.map_set, Task.remaining_start]
      rfl
  | @called v a rest call found next =>
    have made : a.calls m = call :: rest.calls m := by
      rw [← reached.calls_eq, ← reached.calls_eq]
      exact (Action.next?_calls (reached.typed typed) next).1
    refine .inl ⟨some call, (rest.calls m).map some, ?_, ?_, ?_⟩
    · rw [remaining, List.getElem?_map, found, ← List.map_cons, ← made]
      rfl
    · rw [remaining, List.map_set]
      rfl
    · rw [List.map_append]
      rfl
  | idle nothing =>
    refine .inr ⟨?_, rfl⟩
    rw [remaining, List.getElem?_map]
    cases held : p.tasks[i]? with
    | none => rfl
    | some t => exact Task.remaining_of_isOver (nothing t held)

theorem interleave_turned (typed : m.Typed) (reached : p.Reached program inbox vertices m)
    (turned : Turned program inbox p i q) (order : List Nat) :
    p.calls.map Prod.snd ++
        (interleave (i :: order) (p.remaining program inbox m)).filterMap id =
      q.calls.map Prod.snd ++
        (interleave order (q.remaining program inbox m)).filterMap id := by
  obtain ⟨item, rest, found, later, made⟩ | ⟨nothing, rfl⟩ := remaining_turned typed reached turned
  · rw [interleave, found, later, made, List.filterMap_cons]
    cases item <;> simp
  · rw [interleave]
    split
    next found =>
      rw [found] at nothing
      cases nothing
    next => rfl

theorem Reached.turns (typed : m.Typed) (reached : p.Reached program inbox vertices m)
    (order : List Nat) : (p.turns program inbox order).Reached program inbox vertices m :=
  turns_induction program inbox (·.Reached program inbox vertices m) reached
    (fun turned held => held.turned typed turned) order

theorem interleave_turns (typed : m.Typed) (reached : p.Reached program inbox vertices m)
    (order : List Nat) :
    p.calls.map Prod.snd ++ (interleave order (p.remaining program inbox m)).filterMap id =
      (p.turns program inbox order).calls.map Prod.snd ++
        ((p.turns program inbox order).remaining program inbox m).flatten.filterMap id := by
  induction order generalizing p with
  | nil => rfl
  | cons i rest ih =>
    have turned := turned_turn program inbox p i
    rw [interleave_turned typed reached turned, ih (reached.turned typed turned)]
    rfl

section Joining

variable (typed : m.Typed) (reached : p.Reached program inbox vertices m)
include typed reached

theorem remaining_drain (begun : ∀ t, p.tasks[i]? = some t → t.isWaiting = false) :
    (p.drain i).remaining program inbox m = (p.remaining program inbox m).set i [] ∧
      (p.drain i).calls.map Prod.snd =
        p.calls.map Prod.snd ++ ((p.remaining program inbox m)[i]?.getD []).filterMap id := by
  cases found : p.tasks[i]? with
  | none =>
    have outside : (p.remaining program inbox m)[i]? = none := by
      rw [remaining, List.getElem?_map, found]
      rfl
    have same : p.drain i = p := by simp [drain, found]
    rw [same, outside, List.set_eq_of_length_le (List.getElem?_eq_none_iff.1 outside)]
    simp
  | some t =>
    cases t with
    | waiting v => cases begun _ found
    | passed v =>
      have held : (p.remaining program inbox m)[i]? = some [] := by
        rw [remaining, List.getElem?_map, found]
        rfl
      have same : p.drain i = p := by simp [drain, found]
      rw [same, held]
      obtain ⟨within, last⟩ := List.getElem?_eq_some_iff.1 held
      exact ⟨by rw [← last, List.set_getElem_self], by simp⟩
    | executing v a =>
      have held : (p.remaining program inbox m)[i]? = some ((a.calls m).map some) := by
        rw [remaining, List.getElem?_map, found]
        rfl
      rw [drain_executing found, held, a.transcript_eq_calls (reached.typed typed),
        reached.calls_eq]
      constructor
      · rw [remaining, List.map_set]
        rfl
      · simp [List.filterMap_map, Function.comp_def]

theorem remaining_resume (sound : p.failed = false) (i : Nat) :
    (p.resume program inbox i).remaining program inbox m =
        (p.remaining program inbox m).set i [] ∧
      (p.resume program inbox i).calls.map Prod.snd =
        p.calls.map Prod.snd ++ ((p.remaining program inbox m)[i]?.getD []).filterMap id := by
  have turned := turned_turn program inbox p i
  obtain ⟨left, made⟩ := remaining_drain (i := i) typed (reached.turned typed turned)
    fun t => begun_turn program inbox p i
  have resumed : p.resume program inbox i = (p.turn program inbox i).drain i := by
    simp [resume, sound]
  rw [resumed, left, made]
  obtain ⟨item, rest, found, later, first⟩ | ⟨nothing, same⟩ :=
    remaining_turned typed reached turned
  · obtain ⟨within, -⟩ := List.getElem?_eq_some_iff.1 found
    rw [later, first, List.set_set, List.getElem?_set_self within, found]
    cases item <;> simp
  · rw [same]
    exact ⟨rfl, rfl⟩

omit typed reached in
theorem failed_foldl_resume (failed : p.failed = true) (positions : List Nat) :
    (positions.foldl (resume program inbox) p).failed = true := by
  induction positions generalizing p with
  | nil => exact failed
  | cons i rest ih => exact ih (failed_of_isOver failed (isOver_resume program inbox i))

theorem calls_foldl_resume {positions : List Nat} (distinct : positions.Nodup)
    (sound : (positions.foldl (resume program inbox) p).failed = false) :
    (positions.foldl (resume program inbox) p).calls.map Prod.snd =
      p.calls.map Prod.snd ++
        (positions.flatMap fun i => (p.remaining program inbox m)[i]?.getD []).filterMap id := by
  induction positions generalizing p with
  | nil => simp
  | cons i rest ih =>
    obtain ⟨other, distinct⟩ := List.nodup_cons.1 distinct
    have before : p.failed = false := by
      cases failed : p.failed with
      | false => rfl
      | true => rw [failed_foldl_resume failed] at sound; cases sound
    obtain ⟨left, made⟩ := remaining_resume typed reached before i
    obtain ⟨order, resumed⟩ := resume_eq_turns program inbox p i
    have elsewhere : (rest.flatMap fun j =>
        ((p.remaining program inbox m).set i [])[j]?.getD []) =
          rest.flatMap fun j => (p.remaining program inbox m)[j]?.getD [] := by
      rw [List.flatMap_def, List.flatMap_def]
      refine congrArg List.flatten (List.map_congr_left fun j member => ?_)
      have apart : i ≠ j := fun same => other (same ▸ member)
      rw [List.getElem?_set_ne apart]
    rw [List.foldl_cons, ih (resumed ▸ reached.turns typed order) distinct sound, made, left,
      elsewhere, List.flatMap_cons, List.filterMap_append, List.append_assoc]

theorem calls_join (sound : (p.join program inbox).failed = false) :
    (p.join program inbox).calls.map Prod.snd =
      p.calls.map Prod.snd ++ (p.remaining program inbox m).flatten.filterMap id := by
  have whole : (p.remaining program inbox m).flatten =
      (List.range p.tasks.length).flatMap fun i => (p.remaining program inbox m)[i]?.getD [] := by
    rw [List.flatMap_def]
    congr 1
    refine List.ext_getElem (by simp [remaining]) fun i within _ => ?_
    simp [List.getElem?_eq_getElem within]
  rw [whole]
  exact calls_foldl_resume typed reached List.nodup_range sound

end Joining

end Pool

namespace Run

variable {r : Run M} {σ : Schedule} (typed : r.memory.Typed)
include typed

theorem answered_pool {call : Call M} (member : call ∈ (r.pool σ).calls.map Prod.snd) :
    call.Answered r.memory := by
  obtain ⟨⟨i, _⟩, made, rfl⟩ := List.mem_map.1 member
  exact (reached_pool typed σ).answered made

theorem cell_superstepUnder (key : String) :
    (r.superstepUnder σ).shared.memory.cell key =
      fold (r.memory.cell key) (((r.pool σ).calls.map Prod.snd).filterMap (·.writeTo key)) := by
  show (r.pool σ).shared.memory.cell key = _
  rw [(reached_pool typed σ).shared]
  exact Shared.cell_absorbAll typed (fun _ => answered_pool typed) key

theorem waiting_superstepUnder (target : VertexId) :
    (r.superstepUnder σ).shared.outbox.waiting target =
      ((r.pool σ).calls.map Prod.snd).filterMap (·.sentTo target) := by
  show (r.pool σ).shared.outbox.waiting target = _
  rw [(reached_pool typed σ).shared, Shared.waiting_absorbAll]
  simp [Outbox.waiting, Outbox.empty]

theorem calls_pool (passes : (r.superstepUnder σ).failure = none) :
    (r.pool σ).calls.map Prod.snd =
      (interleave σ.order (r.graph.vertices.map fun v => none :: (r.callsOf v).map some)).filterMap
        id := by
  have opened : (Pool.opened r.graph.vertices r.memory).remaining r.program r.inbox r.memory =
      r.graph.vertices.map fun v => none :: (r.callsOf v).map some :=
    List.map_map
  have fresh : (Pool.opened r.graph.vertices r.memory).Reached r.program r.inbox r.graph.vertices
      r.memory := Pool.reached_opened
  have turns := Pool.interleave_turns typed fresh σ.order
  rw [pool, Pool.calls_join typed (reached_turns typed σ.order) (failure_eq_none_iff.1 passes),
    ← turns, opened]
  rfl

theorem calls_pool_nil {report : Nat} (passes : (r.superstepUnder ⟨[], report⟩).failure = none) :
    (r.pool ⟨[], report⟩).calls.map Prod.snd = r.graph.vertices.flatMap r.callsOf := by
  rw [calls_pool typed passes, interleave_nil]

end Run

end BulkSync
