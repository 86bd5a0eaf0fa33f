import BulkSync.Proofs.Schedule.Order

set_option autoImplicit false

namespace BulkSync

variable {M : Type} (program : VertexProgram M) (inbox : Inbox M)

namespace Superstep

section Cases

variable (number : Nat) {v w : Vertex} (rest : List Vertex) {s after : Shared M}

theorem run_of_halted (halted : (inbox.wake v).halted = true) (s : Shared M) :
    run program inbox number (v :: rest) s =
      { run program inbox number rest s with
        vertices := inbox.wake v :: (run program inbox number rest s).vertices } := by
  simp [run, halted]

variable (active : (inbox.wake v).halted = false)
include active

theorem run_of_ok (ran : (program.work inbox v).run s = ((.ok (), w), after)) :
    run program inbox number (v :: rest) s =
      { run program inbox number rest after with
        vertices := w :: (run program inbox number rest after).vertices
        active := (run program inbox number rest after).active + 1 } := by
  rw [VertexProgram.work, ← inbox.id_wake v] at ran
  simp [run, active, ran]

theorem run_of_error {cause : Cause}
    (ran : (program.work inbox v).run s = ((.error cause, w), after)) :
    run program inbox number (v :: rest) s =
      ⟨after, w :: rest, 1, some (.vertex (inbox.wake v).id number cause)⟩ := by
  rw [VertexProgram.work, ← inbox.id_wake v] at ran
  simp [run, active, ran]

end Cases

end Superstep

namespace Pool

-- The vertices are done as far as `finished` and not yet taken up from there.
def partway (finished : List (Task M)) (rest : List Vertex) (s : Shared M)
    (calls : List (Nat × Call M)) : Pool M :=
  ⟨finished ++ rest.map .waiting, s, calls⟩

section Next

variable {finished : List (Task M)} {v : Vertex} {rest : List Vertex} {s : Shared M}
  {calls : List (Nat × Call M)}

theorem failed_partway :
    (partway finished rest s calls).failed = finished.any Task.hasFailed := by
  have fresh : rest.any (fun v => (Task.waiting v : Task M).hasFailed) = false :=
    List.any_eq_false.2 fun v _ => by simp [Task.hasFailed]
  simp [partway, failed, List.any_append, List.any_map, Function.comp_def, fresh]

theorem getElem?_partway : (partway finished (v :: rest) s calls).tasks[finished.length]? =
    some (.waiting v) := by
  simp [partway]

theorem set_partway (t : Task M) :
    (partway finished (v :: rest) s calls).tasks.set finished.length t =
      (finished ++ [t]) ++ rest.map .waiting := by
  simp [partway]

theorem turn_partway :
    (partway finished (v :: rest) s calls).turn program inbox finished.length =
      partway (finished ++ [.start program inbox v]) rest s calls := by
  unfold turn
  rw [getElem?_partway]
  simp only [set_partway]
  rfl

variable (sound : finished.any Task.hasFailed = false)
include sound

theorem resume_passed (halted : (inbox.wake v).halted = true) :
    (partway finished (v :: rest) s calls).resume program inbox finished.length =
      partway (finished ++ [.passed (inbox.wake v)]) rest s calls := by
  simp only [resume, failed_partway, sound, turn_partway, Task.start_of_halted program halted]
  simp [drain, partway]

variable (rest s calls)

theorem resume_executing (active : (inbox.wake v).halted = false) :
    ∃ more,
      (partway finished (v :: rest) s calls).resume program inbox finished.length =
        partway
          (finished ++ [.executing (inbox.wake v) (.done ((program.work inbox v).run s).1)])
          rest ((program.work inbox v).run s).2 more := by
  refine ⟨calls ++ ((program.work inbox v).transcript s).map (finished.length, ·), ?_⟩
  simp only [resume, failed_partway, sound, turn_partway, Task.start_of_active program active]
  simp [drain, partway]

end Next

theorem foldl_resume_failed {finished : List (Task M)} {rest : List Vertex} {s : Shared M}
    {calls : List (Nat × Call M)} (failed : finished.any Task.hasFailed = true)
    {positions : List Nat}
    (waiting : ∀ i ∈ positions, finished.length ≤ i ∧ i < finished.length + rest.length) :
    positions.foldl (resume program inbox) (partway finished rest s calls) =
      partway finished rest s calls := by
  induction positions with
  | nil => rfl
  | cons i later ih =>
    obtain ⟨low, high⟩ := waiting i (by simp)
    -- The position is behind the finished tasks, so its vertex has not been taken up.
    have untouched : (partway finished rest s calls).tasks[i]?.any Task.isWaiting = true := by
      have within : i - finished.length < rest.length := by omega
      simp [partway, List.getElem?_append_right low, within, Task.isWaiting]
    have same : (partway finished rest s calls).resume program inbox i =
        partway finished rest s calls := by
      simp [resume, failed_partway, failed, untouched]
    rw [List.foldl_cons, same]
    exact ih fun j member => waiting j (List.mem_cons_of_mem i member)

structure Finished (p : Pool M) (finished : List (Task M)) (number : Nat) (s : Superstep M) :
    Prop where
  shared : p.shared = s.shared
  vertices : p.tasks.map Task.vertex = finished.map Task.vertex ++ s.vertices
  active : p.tasks.countP Task.isActive = finished.countP Task.isActive + s.active
  failures : p.failures number = s.failure.toList

theorem failures_of_sound {finished : List (Task M)}
    (sound : finished.any Task.hasFailed = false) (number : Nat) :
    finished.filterMap (·.failure? number) = [] := by
  rw [List.filterMap_eq_nil_iff]
  intro t member
  rw [Task.failure?_eq_none_iff]
  simpa using List.any_eq_false.1 sound t member

theorem sound_append {finished : List (Task M)} {t : Task M}
    (sound : finished.any Task.hasFailed = false) (succeeded : t.hasFailed = false) :
    (finished ++ [t]).any Task.hasFailed = false := by
  simp [List.any_append, sound, succeeded]

theorem Finished.passed {p : Pool M} {finished : List (Task M)} {number : Nat} {s : Superstep M}
    {w : Vertex} (rest : p.Finished (finished ++ [.passed w]) number s) :
    p.Finished finished number { s with vertices := w :: s.vertices } where
  shared := rest.shared
  vertices := by simpa [Task.vertex] using rest.vertices
  active := by simpa [Task.isActive] using rest.active
  failures := rest.failures

theorem Finished.executed {p : Pool M} {finished : List (Task M)} {number : Nat} {s : Superstep M}
    {v w : Vertex} {outcome : Except Cause Unit}
    (rest : p.Finished (finished ++ [.executing v (.done (outcome, w))]) number s) :
    p.Finished finished number
      { s with vertices := w :: s.vertices, active := s.active + 1 } where
  shared := rest.shared
  vertices := by simpa [Task.vertex] using rest.vertices
  active := by
    have count := rest.active
    simp only [List.countP_append, List.countP_singleton, Task.isActive, ite_true] at count
    show _ = _ + (s.active + 1)
    omega
  failures := rest.failures

theorem finished_of_failed {finished : List (Task M)} (sound : finished.any Task.hasFailed = false)
    (v w : Vertex) (rest : List Vertex) (cause : Cause) (s : Shared M) (calls : List (Nat × Call M))
    (number : Nat) :
    (partway (finished ++ [.executing v (.done (.error cause, w))]) rest s calls).Finished finished
      number ⟨s, w :: rest, 1, some (.vertex v.id number cause)⟩ where
  shared := rfl
  vertices := by simp [partway, Task.vertex, Function.comp_def]
  active := by
    have idle : (rest.map (.waiting : Vertex → Task M)).countP Task.isActive = 0 := by
      rw [List.countP_eq_zero]
      simp [Task.isActive]
    simp [partway, List.countP_append, List.countP_cons, idle]
    simp [Task.isActive]
  failures := by
    have none : (rest.map (.waiting : Vertex → Task M)).filterMap (·.failure? number) = [] := by
      simp [Task.failure?]
    simp only [partway, failures, List.filterMap_append, failures_of_sound sound, none]
    rfl

theorem finished_foldl_resume (number : Nat) (vertices : List Vertex) {finished : List (Task M)}
    (sound : finished.any Task.hasFailed = false) (s : Shared M) (calls : List (Nat × Call M)) :
    ((List.range' finished.length vertices.length).foldl (resume program inbox)
      (partway finished vertices s calls)).Finished finished number
        (.run program inbox number vertices s) := by
  induction vertices generalizing finished s calls with
  | nil =>
    constructor
    case shared => rfl
    case vertices => simp [partway, Superstep.run]
    case active => simp [partway, Superstep.run]
    case failures => simp [partway, failures, Superstep.run, failures_of_sound sound]
  | cons v rest ih =>
    rw [List.length_cons, List.range'_succ, List.foldl_cons]
    -- The positions after the first are those of `rest` behind one more finished task.
    have later {t : Task M} (succeeded : t.hasFailed = false) (s : Shared M)
        (calls : List (Nat × Call M)) :=
      ih (sound_append sound succeeded) s calls
    simp only [List.length_append, List.length_singleton] at later
    cases active : (inbox.wake v).halted with
    | true =>
      rw [resume_passed program inbox sound active,
        Superstep.run_of_halted program inbox number rest active]
      exact (later rfl s calls).passed
    | false =>
      obtain ⟨more, resumed⟩ := resume_executing program inbox rest s calls sound active
      rcases ran : (program.work inbox v).run s with ⟨⟨outcome, w⟩, after⟩
      rw [resumed, ran]
      cases outcome with
      | ok =>
        rw [Superstep.run_of_ok program inbox number rest active ran]
        exact (later rfl after more).executed
      | error cause =>
        rw [Superstep.run_of_error program inbox number rest active ran,
          foldl_resume_failed program inbox (by simp [Task.hasFailed])]
        · exact finished_of_failed sound (inbox.wake v) w rest cause after more number
        · intro i member
          simp only [List.mem_range'_1] at member
          simp only [List.length_append, List.length_singleton]
          omega

end Pool

namespace Run

variable (r : Run M)

theorem superstepUnder_nil (report : Nat) : r.superstepUnder ⟨[], report⟩ = r.superstep := by
  have finished := Pool.finished_foldl_resume r.program r.inbox r.memory.iteration
    r.graph.vertices (List.any_nil : [].any Task.hasFailed = false) ⟨r.memory, .empty⟩ []
  have joined : r.pool ⟨[], report⟩ =
      (List.range' 0 r.graph.vertices.length).foldl (Pool.resume r.program r.inbox)
        (Pool.partway [] r.graph.vertices ⟨r.memory, .empty⟩ []) := by
    simp [pool, Pool.turns, Pool.join, Pool.opened, Pool.partway, List.range_eq_range']
  have reported : r.superstep.failure.toList[report % r.superstep.failure.toList.length]? =
      r.superstep.failure := by
    cases r.superstep.failure <;> simp [Nat.mod_one]
  rw [List.length_nil, ← joined] at finished
  have vertices := finished.vertices
  have active := finished.active
  simp only [List.map_nil, List.nil_append, List.countP_nil, Nat.zero_add] at vertices active
  simp only [superstepUnder, finished.shared, vertices, active, finished.failures]
  exact congrArg (Superstep.mk _ _ _) reported

theorem stepUnder_nil (report : Nat) : r.stepUnder ⟨[], report⟩ = r.step := by
  rw [stepUnder, step, funext (superstepUnder_nil · report)]

section Shared

variable {r : Run M} (typed : r.memory.Typed)
include typed

theorem frame_superstep : r.superstep.shared.memory.frame = r.memory.frame := by
  rw [← r.superstepUnder_nil 0]
  exact (reached_pool typed _).frame

variable (passes : r.superstep.failure = none)
include passes

theorem cell_superstep (key : String) :
    r.superstep.shared.memory.cell key =
      fold (r.memory.cell key)
        ((r.graph.vertices.flatMap r.callsOf).filterMap (·.writeTo key)) := by
  rw [← r.superstepUnder_nil 0] at passes ⊢
  rw [cell_superstepUnder typed, calls_pool_nil typed passes]

theorem waiting_superstep (target : VertexId) :
    r.superstep.shared.outbox.waiting target =
      (r.graph.vertices.flatMap r.callsOf).filterMap (·.sentTo target) := by
  rw [← r.superstepUnder_nil 0] at passes ⊢
  rw [waiting_superstepUnder typed, calls_pool_nil typed passes]

end Shared

end Run

end BulkSync
