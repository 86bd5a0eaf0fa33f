import BulkSync.Proofs.Machine.Basic

set_option autoImplicit false

namespace BulkSync

variable {M : Type}

namespace Machine

section Order

variable (machine : Machine M) (known : VertexId → Bool)

-- The calls of all vertices, made in the order of a schedule.
def callsUnder (σ : Schedule) (s : State M) : List (Call M) :=
  (interleave σ.order (s.vertices.map fun v => none :: (machine.turn s v).calls.map some)).filterMap
    id

/-- Executes all vertices on one snapshot and applies their calls in the order of a schedule, on
top of what has been written since the snapshot. Nothing if a vertex fails. -/
def superstep (pending : List (Call Empty)) (s : State M) (σ : Schedule) : Option (State M) :=
  if s.vertices.all fun v => (machine.turn s v).outcome.isOk then
    some
      { s with
        vertices := s.vertices.map fun v => (machine.turn s v).vertex
        readable := (machine.callsUnder σ s).foldl apply (pending.foldl apply s.readable)
        mail := fun id =>
          if known id then (machine.callsUnder σ s).filterMap (·.sentTo id) else []
        number := s.number + 1 }
  else none

def supersteps (s : State M) (schedules : List Schedule) : Option (State M) :=
  schedules.foldlM (machine.superstep known []) s

/-- Supersteps with what the tests after them answer, up to a failure. What a test writes comes
before the writes of the next superstep. -/
def answering : State M → List (Call Empty) → List Schedule → Option (List Bool × State M)
  | s, _, [] => some ([], s)
  | s, pending, σ :: rest => do
    let t ← machine.superstep known pending s σ
    let view := machine.view t.readable s.number
    let answer ← (machine.program.terminate.result view).toOption
    let (answers, u) ← answering t (machine.program.terminate.calls view) rest
    return (answer :: answers, u)

end Order

variable {machine : Machine M}

section Answering

variable {known : VertexId → Bool} {s u : State M} {pending : List (Call Empty)}
  {schedules : List Schedule}

theorem answering_nil : machine.answering known s pending schedules = some ([], u) ↔
    schedules = [] ∧ s = u := by
  cases schedules with
  | nil => simp [answering]
  | cons σ rest => simp [answering, Option.bind_eq_some_iff]

theorem answering_cons {answer : Bool} {answers : List Bool} :
    machine.answering known s pending schedules = some (answer :: answers, u) ↔
      ∃ σ rest t, schedules = σ :: rest ∧ machine.superstep known pending s σ = some t ∧
        machine.program.terminate.result (machine.view t.readable s.number) = .ok answer ∧
        machine.answering known t
          (machine.program.terminate.calls (machine.view t.readable s.number)) rest =
            some (answers, u) := by
  cases schedules with
  | nil => simp [answering]
  | cons σ rest =>
    simp only [answering, Option.bind_eq_bind, Option.bind_eq_some_iff, Option.pure_def,
      toOption_eq_some_iff, Option.some.injEq, Prod.mk.injEq, List.cons.injEq, Prod.exists]
    constructor
    · rintro ⟨t, passes, other, answered, others, w, later, ⟨rfl, rfl⟩, rfl⟩
      exact ⟨σ, rest, t, ⟨rfl, rfl⟩, passes, answered, later⟩
    · rintro ⟨_, _, t, ⟨rfl, rfl⟩, passes, answered, later⟩
      exact ⟨t, passes, answer, answered, answers, u, later, ⟨rfl, rfl⟩, rfl⟩

end Answering

theorem getElem?_apply (readable : Std.ExtTreeMap String Memory.Value) (call : Call M)
    (key : String) :
    (apply readable call)[key]? = fold readable[key]? (call.writeTo key).toList := by
  cases call with
  | read | send => rfl
  | write w answer =>
    cases answer with
    | error e => rfl
    | ok =>
      by_cases same : w.key = key
      · subst same
        simp [apply, Call.writeTo, fold]
      · simp [apply, Call.writeTo, fold, same, Std.ExtTreeMap.getElem?_insert]

theorem getElem?_foldl_apply (calls : List (Call M))
    (readable : Std.ExtTreeMap String Memory.Value) (key : String) :
    (calls.foldl apply readable)[key]? =
      fold readable[key]? (calls.filterMap (·.writeTo key)) := by
  induction calls generalizing readable with
  | nil => rfl
  | cons call rest ih =>
    rw [List.foldl_cons, ih, getElem?_apply]
    cases written : call.writeTo key <;> simp [written, fold]

structure Follows (machine : Machine M) (r : Run M) : Prop where
  sound : r.Sound
  executing : r.phase = .execute
  program : r.program = machine.program
  view : r.memory.frame = machine.view r.memory.previous r.memory.iteration

structure Shows (r : Run M) (s : State M) : Prop where
  vertices : s.vertices = r.graph.vertices
  readable : s.readable = r.memory.previous
  mail : ∀ id, s.mail id = r.inbox.messages id
  number : s.number = r.memory.iteration

-- The buffer holds the snapshot with some more writes applied to it.
def Pending (r : Run M) (pending : List (Call Empty)) : Prop :=
  ∀ key, r.memory.cell key = (pending.foldl apply r.memory.previous)[key]?

theorem pending_of_level {r : Run M} (level : r.memory.Level) : Pending r [] :=
  Memory.level_iff.1 level

section Superstep

variable {r : Run M} {s : State M} (follows : machine.Follows r) (shows : Shows r s)
include follows shows

theorem turn_eq (v : Vertex) :
    machine.turn s v = ⟨(r.fateOf v).1, (r.fateOf v).2, r.callsOf v⟩ := by
  have view : machine.view s.readable s.number = r.memory.frame := by
    rw [shows.readable, shows.number, follows.view]
  have frames : r.memory.frame.frame = r.memory.frame := r.memory.frame_frame
  simp only [turn, view, shows.mail, ← Inbox.wake_eq, ← follows.program]
  cases active : (r.inbox.wake v).halted with
  | true =>
    simp [Run.fateOf, Run.callsOf, Task.fate_of_halted _ _ active, Task.ahead_of_halted _ _ active]
  | false =>
    simp [Run.fateOf, Run.callsOf, Task.fate_of_active _ _ active, Task.ahead_of_active _ _ active,
      VertexProgram.work, Action.calls_congr frames, Action.result_congr frames]

theorem passes_iff (σ : Schedule) : (r.superstepUnder σ).failure = none ↔
    (s.vertices.all fun v => (machine.turn s v).outcome.isOk) = true := by
  have isOk (v : Vertex) : (machine.turn s v).outcome.isOk = true ↔ (r.fateOf v).1 = .ok () := by
    rw [turn_eq follows shows]
    cases (r.fateOf v).1 <;> simp [Except.isOk, Except.toBool]
  rw [Run.passes_iff follows.sound.typed, List.all_eq_true, shows.vertices]
  simp only [isOk]

variable {σ : Schedule} (passes : (r.superstepUnder σ).failure = none)
include passes

theorem calls_eq : (r.pool σ).calls.map Prod.snd = machine.callsUnder σ s := by
  rw [Run.calls_pool follows.sound.typed passes, callsUnder, shows.vertices]
  simp only [turn_eq follows shows]

theorem vertices_eq :
    (r.superstepUnder σ).vertices = s.vertices.map fun v => (machine.turn s v).vertex := by
  rw [Run.vertices_superstepUnder follows.sound.typed passes, shows.vertices]
  simp only [turn_eq follows shows]

theorem readable_eq {pending : List (Call Empty)} (waits : Pending r pending) :
    (r.crossed (r.superstepUnder σ)).memory.previous =
      (machine.callsUnder σ s).foldl apply (pending.foldl apply s.readable) := by
  apply Std.ExtTreeMap.ext_getElem?
  intro key
  show (r.superstepUnder σ).shared.memory.written[key]? = _
  rw [Memory.written_getElem?, Run.cell_superstepUnder follows.sound.typed,
    calls_eq follows shows passes, waits key, ← shows.readable]
  exact (getElem?_foldl_apply _ _ key).symm

theorem mail_eq (id : VertexId) :
    (r.crossed (r.superstepUnder σ)).inbox.messages id =
      if r.graph.contains id then (machine.callsUnder σ s).filterMap (·.sentTo id) else [] := by
  rw [Run.messages_crossed, Run.waiting_superstepUnder follows.sound.typed,
    calls_eq follows shows passes]

theorem superstep_eq {pending : List (Call Empty)} (waits : Pending r pending) :
    machine.superstep r.graph.contains pending s σ =
      some
        { s with
          vertices := (r.superstepUnder σ).vertices
          readable := (r.crossed (r.superstepUnder σ)).memory.previous
          mail := (r.crossed (r.superstepUnder σ)).inbox.messages
          number := s.number + 1 } := by
  have mail := funext (mail_eq follows shows passes)
  rw [superstep, if_pos ((passes_iff follows shows σ).1 passes), vertices_eq follows shows passes,
    readable_eq follows shows passes waits, mail]

end Superstep

theorem passes_of_superstep {r : Run M} {s t : State M} {σ : Schedule} {known : VertexId → Bool}
    {pending : List (Call Empty)} (follows : machine.Follows r) (shows : Shows r s)
    (passes : machine.superstep known pending s σ = some t) :
    (r.superstepUnder σ).failure = none := by
  rw [passes_iff follows shows]
  rw [superstep] at passes
  split at passes
  next sound => exact sound
  next => cases passes

section Verdict

variable {r : Run M} (follows : machine.Follows r) (σ : Schedule)
include follows

theorem frame_crossed :
    (r.crossed (r.superstepUnder σ)).memory.frame =
      machine.view (r.crossed (r.superstepUnder σ)).memory.previous r.memory.iteration := by
  have frames : (r.superstepUnder σ).shared.memory.frame =
      machine.view r.memory.previous r.memory.iteration := by
    rw [Run.frame_superstepUnder follows.sound, follows.view]
  show { (r.superstepUnder σ).shared.memory.frame with
    previous := (r.superstepUnder σ).shared.memory.written } = _
  rw [frames]
  rfl

theorem verdictOn_crossed :
    r.verdictOn (r.crossed (r.superstepUnder σ)).memory =
      ⟨machine.program.terminate.calls
          (machine.view (r.crossed (r.superstepUnder σ)).memory.previous r.memory.iteration),
        machine.program.terminate.result
          (machine.view (r.crossed (r.superstepUnder σ)).memory.previous r.memory.iteration)⟩ := by
  have typed := Run.typed_crossed follows.sound σ
  have frames : (r.crossed (r.superstepUnder σ)).memory.frame.frame =
      (r.crossed (r.superstepUnder σ)).memory.frame := Memory.frame_frame _
  have calls := Action.transcript_eq_calls r.program.terminate
    (s := ⟨(r.crossed (r.superstepUnder σ)).memory, .empty⟩) typed
  have result := Action.run_eq_result r.program.terminate
    (s := ⟨(r.crossed (r.superstepUnder σ)).memory, .empty⟩) typed
  rw [← frame_crossed follows, Action.calls_congr frames, Action.result_congr frames,
    ← follows.program]
  exact congr (congrArg Verdict.mk calls) result

theorem follows_advance {answer : Except Cause Bool} {memory : Memory}
    (asked : (r.crossed (r.superstepUnder σ)).verdict = (answer, memory)) :
    machine.Follows { r.crossed (r.superstepUnder σ) with memory := memory.advance } where
  sound := ⟨(Run.typed_verdict asked (Run.typed_crossed follows.sound σ)).advance,
    (Memory.frozen_congr (Run.frame_verdict asked)).trans (Run.frozen_crossed follows.sound σ)⟩
  executing := follows.executing
  program := follows.program
  view := by
    have frames := Run.frame_verdict asked
    have iteration := (Memory.iteration_congr frames).trans (Run.iteration_crossed follows.sound σ)
    show { memory.frame with iteration := memory.iteration + 1 } =
      machine.view memory.previous (memory.iteration + 1)
    rw [frames, frame_crossed follows, Memory.previous_congr frames, iteration]
    rfl

theorem pending_advance {answer : Except Cause Bool} {memory : Memory}
    (asked : (r.crossed (r.superstepUnder σ)).verdict = (answer, memory)) :
    Pending { r.crossed (r.superstepUnder σ) with memory := memory.advance }
      (machine.program.terminate.calls
        (machine.view (r.crossed (r.superstepUnder σ)).memory.previous r.memory.iteration)) := by
  intro key
  have typed := Run.typed_crossed follows.sound σ
  have previous := Memory.previous_congr (Run.frame_verdict asked)
  have calls : r.program.terminate.transcript
      ⟨(r.crossed (r.superstepUnder σ)).memory, .empty⟩ = machine.program.terminate.calls
        (machine.view (r.crossed (r.superstepUnder σ)).memory.previous r.memory.iteration) :=
    congrArg Verdict.asked (verdictOn_crossed follows σ)
  have ran := r.program.terminate.run_shared ⟨(r.crossed (r.superstepUnder σ)).memory, .empty⟩
  have same : memory = (r.program.terminate.runOn (r.crossed (r.superstepUnder σ)).memory).2 :=
    (congrArg Prod.snd asked).symm
  have answered : ∀ call ∈ r.program.terminate.transcript
      ⟨(r.crossed (r.superstepUnder σ)).memory, .empty⟩,
        call.Answered (r.crossed (r.superstepUnder σ)).memory := by
    rw [Action.transcript_eq_calls r.program.terminate typed]
    exact fun call => Action.answered_calls r.program.terminate _
  show memory.cell key = (List.foldl apply memory.previous _)[key]?
  rw [← calls, getElem?_foldl_apply, previous, same]
  show (r.program.terminate.run _).2.memory.cell key = _
  have level := Memory.level_iff.1 (Memory.level_commit (r.superstepUnder σ).shared.memory) key
  rw [ran, Shared.cell_absorbAll typed answered]
  exact congrArg (fold · _) level

end Verdict

-- A run beside the machine, with what its last test has written.
structure Mirrors (machine : Machine M) (r : Run M) (s : State M) (pending : List (Call Empty)) :
    Prop where
  follows : machine.Follows r
  shows : Shows r s
  waits : Pending r pending

section Mirrors

variable {r : Run M} {s : State M} {pending : List (Call Empty)} {σ : Schedule} {answer : Bool}
  (mirrors : machine.Mirrors r s pending)
include mirrors

theorem Mirrors.advance {memory : Memory} (passes : (r.superstepUnder σ).failure = none)
    (asked : (r.crossed (r.superstepUnder σ)).verdict = (.ok answer, memory)) :
    ∃ t, machine.superstep r.graph.contains pending s σ = some t ∧
      machine.program.terminate.result (machine.view t.readable s.number) = .ok answer ∧
      machine.Mirrors { r.crossed (r.superstepUnder σ) with memory := memory.advance } t
        (machine.program.terminate.calls (machine.view t.readable s.number)) := by
  have follows := mirrors.follows
  have verdict := congrArg Verdict.answer (verdictOn_crossed follows σ)
  have iteration := (Memory.iteration_congr (Run.frame_verdict asked)).trans
    (Run.iteration_crossed follows.sound σ)
  have readable := Memory.previous_congr (Run.frame_verdict asked)
  refine ⟨_, superstep_eq follows mirrors.shows passes mirrors.waits, ?_, ?_⟩
  · rw [mirrors.shows.number]
    exact verdict.symm.trans (congrArg Prod.fst asked)
  · refine ⟨follows_advance follows σ asked, ⟨rfl, readable.symm, fun _ => rfl, ?_⟩, ?_⟩
    · show s.number + 1 = memory.iteration + 1
      rw [mirrors.shows.number, iteration]
    · rw [mirrors.shows.number]
      exact pending_advance follows σ asked

theorem Mirrors.asked {t : State M}
    (passes : machine.superstep r.graph.contains pending s σ = some t)
    (answered : machine.program.terminate.result (machine.view t.readable s.number) = .ok answer) :
    (r.superstepUnder σ).failure = none ∧
      ∃ memory, (r.crossed (r.superstepUnder σ)).verdict = (.ok answer, memory) ∧
        machine.Mirrors { r.crossed (r.superstepUnder σ) with memory := memory.advance } t
          (machine.program.terminate.calls (machine.view t.readable s.number)) := by
  have goes := passes_of_superstep mirrors.follows mirrors.shows passes
  have same := superstep_eq mirrors.follows mirrors.shows goes mirrors.waits
  have verdict := congrArg Verdict.answer (verdictOn_crossed mirrors.follows σ)
  cases passes.symm.trans same
  rw [mirrors.shows.number] at answered
  have asked : (r.crossed (r.superstepUnder σ)).verdict =
      (.ok answer, (r.crossed (r.superstepUnder σ)).verdict.2) :=
    Prod.ext (verdict.trans answered) rfl
  obtain ⟨u, again, -, mirrored⟩ := mirrors.advance goes asked
  cases again.symm.trans same
  exact ⟨goes, _, asked, mirrored⟩

end Mirrors

end Machine

namespace Run

variable {graph : Graph} {program : VertexProgram M} {first : Run M}
  (fresh : first.Fresh graph program)
include fresh

theorem Fresh.follows : first.machine.Follows first where
  sound := fresh.sound
  executing := fresh.phase
  program := rfl
  view := by
    show first.memory.frame = ⟨_, _, _, _, _⟩
    rw [← fresh.runtime, ← fresh.thawed]
    rfl

theorem Fresh.shows : Machine.Shows first first.initial where
  vertices := rfl
  readable := rfl
  mail id := by
    show [] = first.inbox.messages id
    rw [fresh.inbox]
    simp [Inbox.messages, Inbox.empty]
  number := fresh.iteration.symm

theorem Fresh.mirrors : first.machine.Mirrors first first.initial [] :=
  ⟨fresh.follows, fresh.shows, Machine.pending_of_level fresh.level⟩

end Run

end BulkSync
