import BulkSync.Proofs.Program.Effects
import BulkSync.Proofs.Schedule.Turns

set_option autoImplicit false

namespace BulkSync

variable {M : Type}

def callsBy (i : Nat) (calls : List (Nat × Call M)) : List (Call M) :=
  calls.filterMap fun (j, call) => if j = i then some call else none

theorem callsBy_append (i : Nat) (calls more : List (Nat × Call M)) :
    callsBy i (calls ++ more) = callsBy i calls ++ callsBy i more :=
  List.filterMap_append

theorem mem_callsBy {i : Nat} {call : Call M} {calls : List (Nat × Call M)} :
    call ∈ callsBy i calls ↔ (i, call) ∈ calls := by
  simp [callsBy]

theorem Action.next?_calls {α : Type} {a rest : Action M α} {s after : Shared M} {call : Call M}
    (typed : s.memory.Typed) (next : a.next? s = some (call, rest, after)) :
    a.calls s.memory = call :: rest.calls s.memory ∧ a.result s.memory = rest.result s.memory := by
  cases a with
  | done a => cases next
  | read r next' =>
    cases next
    exact ⟨rfl, rfl⟩
  | write w next' =>
    simp only [Action.next?, Option.some.injEq, Prod.mk.injEq] at next
    obtain ⟨rfl, rfl, -⟩ := next
    simp [Action.calls, Action.result, Memory.write_answer typed]
  | send target message next' =>
    cases next
    exact ⟨rfl, rfl⟩

namespace Inbox

theorem wake_eq (inbox : Inbox M) (v : Vertex) :
    inbox.wake v = if inbox.messages v.id = [] then v else v.activate := by
  unfold wake hasMessages
  cases inbox.messages v.id <;> rfl

theorem id_wake (inbox : Inbox M) (v : Vertex) : (inbox.wake v).id = v.id := by
  unfold wake
  split <;> rfl

end Inbox

def VertexProgram.work (program : VertexProgram M) (inbox : Inbox M) (v : Vertex) :
    Action M (Except Cause Unit × Vertex) :=
  program.execute (inbox.wake v) (inbox.messages v.id)

namespace Task

section Prospects

variable (program : VertexProgram M) (inbox : Inbox M) (m : Memory)

def begun : Task M → Task M
  | waiting v => start program inbox v
  | t => t

def ahead (t : Task M) : List (Call M) :=
  match t.begun program inbox with
  | executing _ a => a.calls m
  | _ => []

def fate (t : Task M) : Except Cause Unit × Vertex :=
  match t.begun program inbox with
  | executing _ a => a.result m
  | waiting v | passed v => (.ok (), v)

end Prospects

variable {program : VertexProgram M} {inbox : Inbox M} {m : Memory}

theorem start_of_halted (program : VertexProgram M) {inbox : Inbox M} {v : Vertex}
    (halted : (inbox.wake v).halted = true) :
    start program inbox v = passed (inbox.wake v) := by
  simp [start, halted]

theorem start_of_active (program : VertexProgram M) {inbox : Inbox M} {v : Vertex}
    (active : (inbox.wake v).halted = false) :
    start program inbox v = executing (inbox.wake v) (program.work inbox v) := by
  simp [start, active, VertexProgram.work, Inbox.id_wake]

theorem start_cases (program : VertexProgram M) (inbox : Inbox M) (v : Vertex) :
    start program inbox v = passed (inbox.wake v) ∧ (inbox.wake v).halted = true ∨
      start program inbox v = executing (inbox.wake v) (program.work inbox v) ∧
      (inbox.wake v).halted = false := by
  cases halted : (inbox.wake v).halted with
  | true => exact .inl ⟨start_of_halted program halted, rfl⟩
  | false => exact .inr ⟨start_of_active program halted, rfl⟩

theorem begun_start (v : Vertex) :
    (start program inbox v).begun program inbox = start program inbox v := by
  obtain ⟨started, -⟩ | ⟨started, -⟩ := start_cases program inbox v <;>
    rw [started] <;> rfl

theorem ahead_start (v : Vertex) :
    (start program inbox v).ahead program inbox m = (waiting v).ahead program inbox m := by
  simp only [ahead, begun_start]
  rfl

theorem fate_start (v : Vertex) :
    (start program inbox v).fate program inbox m = (waiting v).fate program inbox m := by
  simp only [fate, begun_start]
  rfl

section Waiting

variable (program m)

theorem ahead_of_halted {v : Vertex} (halted : (inbox.wake v).halted = true) :
    (waiting v).ahead program inbox m = [] := by
  simp only [ahead, begun, start_of_halted program halted]

theorem ahead_of_active {v : Vertex} (active : (inbox.wake v).halted = false) :
    (waiting v).ahead program inbox m = (program.work inbox v).calls m := by
  simp only [ahead, begun, start_of_active program active]

theorem fate_of_halted {v : Vertex} (halted : (inbox.wake v).halted = true) :
    (waiting v).fate program inbox m = (.ok (), inbox.wake v) := by
  simp only [fate, begun, start_of_halted program halted]

theorem fate_of_active {v : Vertex} (active : (inbox.wake v).halted = false) :
    (waiting v).fate program inbox m = (program.work inbox v).result m := by
  simp only [fate, begun, start_of_active program active]

end Waiting

theorem answered_ahead {t : Task M} {call : Call M} (member : call ∈ t.ahead program inbox m) :
    call.Answered m := by
  unfold ahead at member
  split at member
  next => exact Action.answered_calls _ m member
  next => cases member

theorem ahead_of_isOver {t : Task M} (finished : t.isOver) : t.ahead program inbox m = [] := by
  obtain ⟨v, rfl⟩ | ⟨v, result, rfl⟩ := isOver_cases finished <;> rfl

theorem vertex_of_isOver {t : Task M} (finished : t.isOver) :
    t.vertex = (t.fate program inbox m).2 := by
  obtain ⟨v, rfl⟩ | ⟨v, result, rfl⟩ := isOver_cases finished <;> rfl

theorem failure?_of_isOver (program : VertexProgram M) (inbox : Inbox M) (m : Memory) {t : Task M}
    (finished : t.isOver) (number : Nat) {failure : Failure} :
    t.failure? number = some failure ↔
      ∃ v a cause, t = executing v a ∧ (t.fate program inbox m).1 = .error cause ∧
        failure = .vertex v.id number cause := by
  obtain ⟨v, rfl⟩ | ⟨v, ⟨outcome, w⟩, rfl⟩ := isOver_cases finished
  · simp [failure?]
  · cases outcome <;> simp [failure?, fate, begun, Action.result, eq_comm]

theorem hasFailed_of_fate {t : Task M} (finished : t.isOver) {cause : Cause}
    (outcome : (t.fate program inbox m).1 = .error cause) : t.hasFailed := by
  obtain ⟨v, rfl⟩ | ⟨v, ⟨_, w⟩, rfl⟩ := isOver_cases finished
  · cases outcome
  · cases outcome
    rfl

structure Follows (program : VertexProgram M) (inbox : Inbox M) (m : Memory) (v : Vertex)
    (made : List (Call M)) (t : Task M) : Prop where
  calls : made ++ t.ahead program inbox m = (waiting v).ahead program inbox m
  fate : t.fate program inbox m = (waiting v).fate program inbox m
  waits : ∀ w, t = waiting w → w = v
  woken : ∀ w a, t = executing w a → w = inbox.wake v ∧ w.halted = false

theorem follows_waiting (v : Vertex) : (waiting v).Follows program inbox m v [] where
  calls := rfl
  fate := rfl
  waits w same := by cases same; rfl
  woken w a same := by cases same

theorem Follows.start {v w : Vertex} {made : List (Call M)}
    (follows : (waiting w).Follows program inbox m v made) :
    (start program inbox w).Follows program inbox m v made := by
  cases follows.waits w rfl
  constructor
  case calls => rw [ahead_start, follows.calls]
  case fate => rw [fate_start]
  case waits =>
    intro other same
    have begun := isWaiting_start program inbox v
    rw [same] at begun
    cases begun
  case woken =>
    intro other a same
    obtain ⟨passed, -⟩ | ⟨executing, active⟩ := start_cases program inbox v
    · rw [passed] at same
      cases same
    · rw [executing] at same
      cases same
      exact ⟨rfl, active⟩

theorem Follows.call {v w : Vertex} {made : List (Call M)}
    {a rest : Action M (Except Cause Unit × Vertex)} {call : Call M}
    (follows : (executing w a).Follows program inbox m v made)
    (calls : a.calls m = call :: rest.calls m) (result : a.result m = rest.result m) :
    (executing w rest).Follows program inbox m v (made ++ [call]) where
  calls := by
    rw [← follows.calls]
    simp [ahead, begun, calls]
  fate := by
    rw [← follows.fate]
    simp [Task.fate, begun, result]
  waits other same := by cases same
  woken other b same := by
    cases same
    exact follows.woken w a rfl

end Task

namespace Pool

variable {program : VertexProgram M} {inbox : Inbox M} {vertices : List Vertex} {m : Memory}

structure Reached (program : VertexProgram M) (inbox : Inbox M) (vertices : List Vertex)
    (m : Memory) (p : Pool M) : Prop where
  length : p.tasks.length = vertices.length
  shared : p.shared = (⟨m, .empty⟩ : Shared M).absorbAll (p.calls.map Prod.snd)
  within : ∀ {i : Nat} {call : Call M}, (i, call) ∈ p.calls → i < vertices.length
  -- Of the others a task shows nothing: it has made the first of its own calls.
  follows : ∀ {i : Nat} {v : Vertex} {t : Task M}, vertices[i]? = some v → p.tasks[i]? = some t →
    t.Follows program inbox m v (callsBy i p.calls)

theorem reached_opened : (opened vertices m).Reached program inbox vertices m where
  length := by simp [opened]
  shared := rfl
  within member := by simp [opened] at member
  follows {i v t} found held := by
    simp only [opened, List.getElem?_map, found, Option.map_some, Option.some.injEq] at held
    subst held
    exact Task.follows_waiting v

theorem Reached.frame {p : Pool M} (reached : p.Reached program inbox vertices m) :
    p.shared.memory.frame = m.frame := by
  rw [reached.shared]
  exact Shared.frame_absorbAll _ _

theorem Reached.typed {p : Pool M} (reached : p.Reached program inbox vertices m)
    (typed : m.Typed) : p.shared.memory.Typed := by
  rw [reached.shared]
  exact Shared.typed_absorbAll typed _

theorem Reached.answered {p : Pool M} {i : Nat} {call : Call M}
    (reached : p.Reached program inbox vertices m) (made : (i, call) ∈ p.calls) :
    call.Answered m := by
  have known := reached.within made
  have found := List.getElem?_eq_getElem known
  have within : i < p.tasks.length := by
    rw [reached.length]
    exact reached.within made
  have follows := reached.follows found (List.getElem?_eq_getElem within)
  -- What a task has made comes first among the calls that its vertex makes alone.
  have among : call ∈ (Task.waiting vertices[i]).ahead program inbox m := by
    rw [← follows.calls]
    exact List.mem_append_left _ (mem_callsBy.2 made)
  exact Task.answered_ahead among

theorem getElem?_set_cases {p : Pool M} {i j : Nat} {old new t : Task M}
    (found : p.tasks[i]? = some old) (held : (p.tasks.set i new)[j]? = some t) :
    j = i ∧ t = new ∨ i ≠ j ∧ p.tasks[j]? = some t := by
  by_cases same : i = j
  · subst same
    rw [List.getElem?_set_self (List.getElem?_eq_some_iff.1 found).1] at held
    exact .inl ⟨rfl, (Option.some.inj held).symm⟩
  · rw [List.getElem?_set_ne same] at held
    exact .inr ⟨same, held⟩

theorem Reached.took {p : Pool M} {i : Nat} {w : Vertex}
    (reached : p.Reached program inbox vertices m) (found : p.tasks[i]? = some (.waiting w)) :
    Reached program inbox vertices m
      { p with tasks := p.tasks.set i (.start program inbox w) } where
  length := by simpa using reached.length
  shared := reached.shared
  within := reached.within
  follows {j v t} known held := by
    obtain ⟨rfl, rfl⟩ | ⟨-, held⟩ := getElem?_set_cases found held
    · exact (reached.follows known found).start
    · exact reached.follows known held

theorem Reached.called {p : Pool M} {i : Nat} {w : Vertex} {call : Call M}
    {a rest : Action M (Except Cause Unit × Vertex)} (typed : m.Typed)
    (reached : p.Reached program inbox vertices m)
    (found : p.tasks[i]? = some (.executing w a))
    (next : a.next? p.shared = some (call, rest, p.shared.absorb call)) :
    Reached program inbox vertices m
      ⟨p.tasks.set i (.executing w rest), p.shared.absorb call, p.calls ++ [(i, call)]⟩ := by
  -- The call is answered on memory that others have written to since, with the frame of `m`.
  obtain ⟨calls, result⟩ := Action.next?_calls (reached.typed typed) next
  simp only [Action.calls_congr reached.frame, Action.result_congr reached.frame] at calls result
  constructor
  case length => simpa using reached.length
  case shared =>
    rw [List.map_append, Shared.absorbAll_append, ← reached.shared]
    rfl
  case within =>
    intro j other member
    rcases List.mem_append.1 member with old | new
    · exact reached.within old
    · cases List.mem_singleton.1 new
      rw [← reached.length]
      exact (List.getElem?_eq_some_iff.1 found).1
  case follows =>
    intro j v t known held
    rw [callsBy_append]
    obtain ⟨rfl, rfl⟩ | ⟨different, held⟩ := getElem?_set_cases found held
    · simpa [callsBy] using (reached.follows known found).call calls result
    · simpa [callsBy, different] using reached.follows known held

theorem Reached.turned {p q : Pool M} {i : Nat} (typed : m.Typed)
    (reached : p.Reached program inbox vertices m) (turned : Turned program inbox p i q) :
    q.Reached program inbox vertices m := by
  cases turned with
  | took found => exact reached.took found
  | called found next => exact reached.called typed found next
  | idle => exact reached

end Pool

namespace Run

variable {r : Run M} {σ : Schedule}

def callsOf (r : Run M) (v : Vertex) : List (Call M) :=
  (Task.waiting v).ahead r.program r.inbox r.memory

def fateOf (r : Run M) (v : Vertex) : Except Cause Unit × Vertex :=
  (Task.waiting v).fate r.program r.inbox r.memory

theorem pool_eq_turns (r : Run M) (σ : Schedule) :
    ∃ order, r.pool σ =
      (Pool.opened r.graph.vertices r.memory).turns r.program r.inbox order := by
  obtain ⟨more, joined⟩ := Pool.join_eq_turns r.program r.inbox
    ((Pool.opened r.graph.vertices r.memory).turns r.program r.inbox σ.order)
  exact ⟨σ.order ++ more, by rw [pool, joined, Pool.turns_append]⟩

theorem reached_turns (typed : r.memory.Typed) (order : List Nat) :
    ((Pool.opened r.graph.vertices r.memory).turns r.program r.inbox order).Reached r.program
      r.inbox r.graph.vertices r.memory :=
  Pool.turns_induction r.program r.inbox
    (fun p => p.Reached r.program r.inbox r.graph.vertices r.memory) Pool.reached_opened
    (fun turned reached => reached.turned typed turned) order

theorem reached_pool (typed : r.memory.Typed) (σ : Schedule) :
    (r.pool σ).Reached r.program r.inbox r.graph.vertices r.memory := by
  obtain ⟨order, same⟩ := r.pool_eq_turns σ
  rw [same]
  exact reached_turns typed order

theorem failure_eq_none_iff :
    (r.superstepUnder σ).failure = none ↔ (r.pool σ).failed = false := by
  rw [← Pool.failures_eq_nil_iff r.memory.iteration]
  simp only [superstepUnder]
  cases listed : (r.pool σ).failures r.memory.iteration with
  | nil => simp
  | cons failure rest =>
    have within : σ.report % (rest.length + 1) < rest.length + 1 := Nat.mod_lt _ (by omega)
    simpa using within

theorem isOver_of_passes (passes : (r.superstepUnder σ).failure = none) {t : Task M}
    (member : t ∈ (r.pool σ).tasks) : t.isOver := by
  rcases Pool.stopped_join r.program r.inbox _ member with finished | ⟨-, failed⟩
  · exact finished
  · have sound := failure_eq_none_iff.1 passes
    simp only [pool] at sound
    rw [failed] at sound
    cases sound

section Passes

variable (typed : r.memory.Typed) (passes : (r.superstepUnder σ).failure = none)
include typed passes

theorem task_of_passes {i : Nat} {v : Vertex} (found : r.graph.vertices[i]? = some v) :
    ∃ t, (r.pool σ).tasks[i]? = some t ∧ t.isOver ∧
      t.Follows r.program r.inbox r.memory v (callsBy i (r.pool σ).calls) := by
  have reached := reached_pool typed σ
  have within : i < (r.pool σ).tasks.length := by
    rw [reached.length]
    exact (List.getElem?_eq_some_iff.1 found).1
  have held := List.getElem?_eq_getElem within
  exact ⟨_, held, isOver_of_passes passes (List.getElem_mem within), reached.follows found held⟩

theorem callsBy_pool {i : Nat} {v : Vertex} (found : r.graph.vertices[i]? = some v) :
    callsBy i (r.pool σ).calls = r.callsOf v := by
  obtain ⟨t, -, finished, follows⟩ := task_of_passes typed passes found
  rw [callsOf, ← follows.calls, Task.ahead_of_isOver finished, List.append_nil]

theorem vertices_superstepUnder :
    (r.superstepUnder σ).vertices = r.graph.vertices.map fun v => (r.fateOf v).2 := by
  apply List.ext_getElem?
  intro i
  simp only [superstepUnder, List.getElem?_map]
  cases found : r.graph.vertices[i]? with
  | none =>
    have outside : (r.pool σ).tasks[i]? = none := by
      rw [List.getElem?_eq_none_iff, (reached_pool typed σ).length]
      exact List.getElem?_eq_none_iff.1 found
    simp [outside]
  | some v =>
    obtain ⟨t, held, finished, follows⟩ := task_of_passes typed passes found
    simp only [held, Option.map_some, fateOf, ← follows.fate]
    rw [Task.vertex_of_isOver finished]

theorem fateOf_of_passes {v : Vertex} (member : v ∈ r.graph.vertices) :
    (r.fateOf v).1 = .ok () := by
  obtain ⟨i, found⟩ := List.mem_iff_getElem?.1 member
  obtain ⟨t, held, finished, follows⟩ := task_of_passes typed passes found
  cases outcome : (r.fateOf v).1 with
  | ok => rfl
  | error cause =>
    rw [fateOf, ← follows.fate] at outcome
    have failed : (r.pool σ).failed = true :=
      List.any_eq_true.2 ⟨t, List.mem_of_getElem? held, Task.hasFailed_of_fate finished outcome⟩
    rw [failure_eq_none_iff.1 passes] at failed
    cases failed

end Passes

theorem failure_of_superstepUnder (typed : r.memory.Typed) {failure : Failure}
    (fails : (r.superstepUnder σ).failure = some failure) :
    ∃ v ∈ r.graph.vertices, ∃ cause, (r.inbox.wake v).halted = false ∧
      (r.fateOf v).1 = .error cause ∧ failure = .vertex v.id r.memory.iteration cause := by
  have reported := List.mem_of_getElem? fails
  obtain ⟨t, member, failed⟩ := List.mem_filterMap.1 reported
  have finished : t.isOver := by
    apply Task.isOver_of_hasFailed
    cases sound : t.hasFailed with
    | true => rfl
    | false =>
      rw [(Task.failure?_eq_none_iff r.memory.iteration).2 sound] at failed
      cases failed
  have reached := reached_pool typed σ
  obtain ⟨i, held⟩ := List.mem_iff_getElem?.1 member
  have within : i < r.graph.vertices.length := by
    rw [← reached.length]
    exact (List.getElem?_eq_some_iff.1 held).1
  have found := List.getElem?_eq_getElem within
  have follows := reached.follows found held
  obtain ⟨w, a, cause, rfl, outcome, rfl⟩ :=
    (Task.failure?_of_isOver r.program r.inbox r.memory finished _).1 failed
  obtain ⟨rfl, active⟩ := follows.woken w a rfl
  refine ⟨_, List.getElem_mem within, cause, active, ?_, by rw [Inbox.id_wake]⟩
  rw [fateOf, ← follows.fate, outcome]

theorem passes_iff (typed : r.memory.Typed) :
    (r.superstepUnder σ).failure = none ↔ ∀ v ∈ r.graph.vertices, (r.fateOf v).1 = .ok () := by
  constructor
  · intro passes v member
    exact fateOf_of_passes typed passes member
  · intro sound
    cases fails : (r.superstepUnder σ).failure with
    | none => rfl
    | some failure =>
      obtain ⟨v, member, cause, -, outcome, -⟩ := failure_of_superstepUnder typed fails
      rw [sound v member] at outcome
      cases outcome

end Run

end BulkSync
