import BulkSync.Proofs.Run.Step

set_option autoImplicit false

namespace BulkSync

variable {M : Type}

namespace Run

/-- The runs that steps lead to, each of which has said to go on, with their number and the
memory right after the last barrier. -/
inductive Continued (first : Run M) : Nat → Run M → Memory → Prop
  | start : Continued first 0 first first.memory
  | step {k : Nat} {r next : Run M} {barrier : Memory} {σ : Schedule}
      (earlier : Continued first k r barrier) (goes : r.stepUnder σ = (.ok .continues, next)) :
      Continued first (k + 1) next (r.crossed (r.superstepUnder σ)).memory

structure Underway (k : Nat) (r : Run M) (barrier : Memory) : Prop where
  sound : r.Sound
  executing : r.phase = .execute
  iteration : r.memory.iteration = k
  readable : r.memory.previous = barrier.previous

theorem Continued.underway {graph : Graph} {program : VertexProgram M} {first r : Run M} {k : Nat}
    {barrier : Memory} (fresh : first.Fresh graph program)
    (continued : Continued first k r barrier) : Underway k r barrier := by
  induction continued with
  | start => exact ⟨fresh.sound, fresh.phase, fresh.iteration, rfl⟩
  | step earlier goes ih =>
    obtain ⟨sound, executing, iteration⟩ := ih.sound.continues ih.executing goes
    refine ⟨sound, executing, by rw [iteration, ih.iteration], ?_⟩
    obtain ⟨-, memory, asked, rfl⟩ := stepUnder_continues ih.sound ih.executing goes
    have readable := Memory.previous_congr (frame_verdict asked)
    exact readable

def Fails (r : Run M) (v : Vertex) (cause : Cause) : Prop :=
  v ∈ r.graph.vertices ∧ (r.inbox.wake v).halted = false ∧
    ((r.program.execute (r.inbox.wake v) (r.inbox.messages v.id)).result r.memory).1 = .error cause

theorem fails_of_superstepUnder {r : Run M} {σ : Schedule} (typed : r.memory.Typed)
    {failure : Failure} (failed : (r.superstepUnder σ).failure = some failure) :
    ∃ v cause, r.Fails v cause ∧ failure = .vertex v.id r.memory.iteration cause := by
  obtain ⟨v, member, cause, active, outcome, same⟩ := failure_of_superstepUnder typed failed
  rw [fateOf, Task.fate_of_active _ _ active] at outcome
  exact ⟨v, cause, ⟨member, active, outcome⟩, same⟩

theorem superstepUnder_fails {r : Run M} (typed : r.memory.Typed) {v : Vertex} {cause : Cause}
    (fails : r.Fails v cause) (σ : Schedule) :
    ∃ w reason, r.Fails w reason ∧
      (r.superstepUnder σ).failure = some (.vertex w.id r.memory.iteration reason) := by
  obtain ⟨member, active, outcome⟩ := fails
  cases failed : (r.superstepUnder σ).failure with
  | none =>
    have sound := fateOf_of_passes typed failed member
    rw [fateOf, Task.fate_of_active _ _ active] at sound
    cases sound.symm.trans outcome
  | some failure =>
    obtain ⟨w, reason, fails, rfl⟩ := fails_of_superstepUnder typed failed
    exact ⟨w, reason, fails, rfl⟩

-- These vertices have done their work, and no others have begun it.
def Done (r : Run M) (σ : Schedule) (positions : List Nat) : Prop :=
  ∀ j t, (r.pool σ).tasks[j]? = some t →
    if j ∈ positions then t.isOver = true else t.isWaiting = true

theorem exists_schedule_done {r : Run M} (typed : r.memory.Typed) {positions : List Nat} {i : Nat}
    {v : Vertex} {cause : Cause} (found : r.graph.vertices[i]? = some v) (among : i ∈ positions)
    (fails : r.Fails v cause) :
    ∃ σ, r.Done σ positions := by
  obtain ⟨order, done⟩ :=
    Pool.exists_turns_done r.program r.inbox r.graph.vertices r.memory positions
  have reached := reached_turns typed order
  have pool : r.pool ⟨order, 0⟩ = ((Pool.opened r.graph.vertices r.memory).turns r.program r.inbox
    order).join r.program r.inbox := rfl
  refine ⟨⟨order, 0⟩, ?_⟩
  unfold Done
  generalize (Pool.opened r.graph.vertices r.memory).turns r.program r.inbox order = p
    at done reached pool
  -- Among those that are done is the one that fails, so that nobody is taken up when they join.
  have failed : p.failed := by
    obtain ⟨-, active, outcome⟩ := fails
    have within : i < p.tasks.length := by
      rw [reached.length]
      exact (List.getElem?_eq_some_iff.1 found).1
    have held := List.getElem?_eq_getElem within
    have finished := done i _ held
    rw [if_pos among] at finished
    have fate := (reached.follows found held).fate
    rw [Task.fate_of_active _ _ active] at fate
    have broken := (congrArg Prod.fst fate).trans outcome
    exact List.any_eq_true.2 ⟨_, List.getElem_mem within, Task.hasFailed_of_fate finished broken⟩
  have stopped (j : Nat) : p.Stopped j := by
    intro t held
    have left := done j t held
    split at left
    next => exact .inl left
    next => exact .inr ⟨left, failed⟩
  rw [pool, Pool.join_of_stopped _ _ stopped]
  exact done

structure Restored (r : Run M) (k : Nat) (barrier : Memory) (after : Run M) : Prop where
  readable : after.memory.previous = barrier.previous
  level : ∀ key, after.memory.cell key = after.memory.previous[key]?
  graph : after.graph = r.graph
  iteration : after.memory.iteration = k
  thawed : after.memory.frozen = false
  inbox : after.inbox = r.inbox
  phase : after.phase = .failed
  barred : ∀ schedules, after.stepsUnder schedules =
    (List.replicate schedules.length (.error (.wrongPhase "step" .failed)), after)

theorem abort_restores {graph : Graph} {program : VertexProgram M} {jobs : List Registered}
    {settings : Settings} {host : Host} {first r : Run M} {k : Nat}
    {barrier : Memory} {v : Vertex} {cause : Cause}
    (began : start graph program jobs settings host = .ok first)
    (continued : Continued first k r barrier) (fails : r.Fails v cause) :
    (∀ σ,
      (∃ w reason, r.Fails w reason ∧ (r.stepUnder σ).1 = .error (.vertex w.id k reason)) ∧
        Restored r k barrier (r.stepUnder σ).2) ∧
      ∀ positions i, r.graph.vertices[i]? = some v → i ∈ positions → ∃ σ, r.Done σ positions := by
  have underway := continued.underway (fresh_of_start began)
  refine ⟨fun σ => ?_,
    fun positions i found among => exists_schedule_done underway.sound.typed found among fails⟩
  obtain ⟨w, reason, culprit, failed⟩ := superstepUnder_fails underway.sound.typed fails σ
  rw [stepUnder_of_failed underway.sound underway.executing failed]
  refine ⟨⟨w, reason, culprit, by rw [underway.iteration]⟩, ?_⟩
  constructor
  case readable => exact underway.readable
  case level => exact Memory.level_iff.1 (Memory.level_rollback underway.sound.typed)
  case graph => rfl
  case iteration => exact underway.iteration
  case thawed => exact underway.sound.thawed
  case inbox => rfl
  case phase => rfl
  case barred => exact stepsUnder_of_left (by simp)

def faltering : Except Failure (Run Unit) :=
  start (.withVertices 2)
    { keys := [⟨"hits", .integer⟩]
      setup := .write (.set "hits" (.integer 5)) fun _ => .done (.ok ())
      execute := fun v _ =>
        .write (.incr "hits" 1) fun _ =>
          .send ⟨0⟩ () <| .send ⟨1⟩ () <| .read .iteration fun number =>
            .done
              (if number = 1 ∧ v.id = ⟨1⟩ then .error (.other "late") else .ok (), v.voteToHalt)
      terminate := .done (.ok false) }
    [] ⟨none, none, none⟩ .still

theorem abort_restores_faltering :
    ∃ first r barrier w, faltering = .ok first ∧ Continued first 1 r barrier ∧
      r.Fails w (.other "late") ∧
      (∃ v reason, r.Fails v reason ∧
        (r.stepUnder ⟨[0, 0, 0, 1], 0⟩).1 = .error (.vertex v.id 1 reason)) ∧
      Restored r 1 barrier (r.stepUnder ⟨[0, 0, 0, 1], 0⟩).2 ∧
      (∃ σ, r.Done σ [1, 0]) ∧ ∃ σ, r.Done σ [1] := by
  obtain ⟨first, next, began, goes, found, active, outcome⟩ :
      ∃ first next, faltering = .ok first ∧ first.stepUnder ⟨[], 0⟩ = (.ok .continues, next) ∧
        next.graph.vertices[1]? = some (Vertex.new ⟨1⟩).voteToHalt ∧
        (next.inbox.wake (Vertex.new ⟨1⟩).voteToHalt).halted = false ∧
        ((next.program.execute (next.inbox.wake (Vertex.new ⟨1⟩).voteToHalt)
          (next.inbox.messages ⟨1⟩)).result next.memory).1 = .error (.other "late") :=
    ⟨_, _, rfl, rfl, rfl, by decide +kernel, if_pos ⟨rfl, Inbox.id_wake _ _⟩⟩
  have continued : Continued first 1 next _ := .step .start goes
  have failing : next.Fails (Vertex.new ⟨1⟩).voteToHalt (.other "late") :=
    ⟨List.mem_of_getElem? found, active, outcome⟩
  obtain ⟨restores, realised⟩ := abort_restores began continued failing
  obtain ⟨culprit, restored⟩ := restores ⟨[0, 0, 0, 1], 0⟩
  exact ⟨first, next, _, _, began, continued, failing, culprit, restored,
    realised [1, 0] 1 found (by decide), realised [1] 1 found (by decide)⟩

end Run

end BulkSync
