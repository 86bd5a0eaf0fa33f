import BulkSync.Proofs.Machine.Supersteps

set_option autoImplicit false

namespace BulkSync

variable {M : Type}

def VertexProgram.Observes (program : VertexProgram M) : Prop :=
  ∀ m, (program.terminate.runOn m).2 = m

namespace Run

-- A run that goes on after a superstep, if the test writes nothing.
def whole (r : Run M) (σ : Schedule) : Run M :=
  let crossed := r.crossed (r.superstepUnder σ)
  { crossed with memory := crossed.memory.advance }

def wholeCount : List Schedule → Run M → Nat
  | [], _ => 0
  | σ :: rest, r =>
    if r.phase = .execute ∧ (r.superstepUnder σ).failure = none then
      wholeCount rest (r.stepUnder σ).2 + 1
    else wholeCount rest (r.stepUnder σ).2

/-- Where steps can have led, if `w` is the run after as many whole supersteps. -/
inductive Standing (w : Run M) : List (Except Failure Outcome) → Run M → Prop
  | executing (count : Nat) : Standing w (List.replicate count (.ok .continues)) w
  | halted (count later : Nat) (runtime : Memory.Duration) (moved : 0 < w.memory.iteration) :
      Standing w
        (List.replicate count (.ok .continues) ++ .ok .halted ::
          List.replicate later (.error (.wrongPhase "step" .halted)))
        { w with memory := { w.memory with runtime }.complete, phase := .halted }
  | aborted (count later : Nat) {v : Vertex} {cause : Cause} (member : v ∈ w.graph.vertices)
      (fails : (w.fateOf v).1 = .error cause) :
      Standing w
        (List.replicate count (.ok .continues) ++ .error (.vertex v.id w.memory.iteration cause) ::
          List.replicate later (.error (.wrongPhase "step" .failed)))
        { w with phase := .failed }
  | limited (count later : Nat) {limit : UInt64} (bound : w.settings.maxSupersteps = some limit) :
      Standing w
        (List.replicate count (.ok .continues) ++ .error (.superstepLimit limit) ::
          List.replicate later (.error (.wrongPhase "step" .failed)))
        { w with phase := .failed }
  | broken (count later : Nat) {number : Nat} (cause : Cause)
      (advanced : number + 1 = w.memory.iteration) :
      Standing w
        (List.replicate count (.ok .continues) ++ .error (.terminate number cause) ::
          List.replicate later (.error (.wrongPhase "step" .failed)))
        { w with memory := { w.memory with iteration := number }, phase := .failed }

theorem Standing.continues {w last : Run M} {outcomes : List (Except Failure Outcome)}
    (standing : Standing w outcomes last) : Standing w (.ok .continues :: outcomes) last := by
  cases standing with
  | executing count => exact .executing (count + 1)
  | halted count later runtime moved => exact .halted (count + 1) later runtime moved
  | aborted count later member fails => exact .aborted (count + 1) later member fails
  | limited count later bound => exact .limited (count + 1) later bound
  | broken count later cause advanced => exact .broken (count + 1) later cause advanced

structure Running (r : Run M) : Prop where
  sound : r.Sound
  level : r.memory.Level
  executing : r.phase = .execute
  observes : r.program.Observes

theorem Running.whole {r : Run M} (running : r.Running) (σ : Schedule) :
    (r.whole σ).Running where
  sound := ⟨(typed_crossed running.sound σ).advance, frozen_crossed running.sound σ⟩
  level := Memory.level_commit _
  executing := running.executing
  observes := running.observes

theorem iteration_whole {r : Run M} (running : r.Running) (σ : Schedule) :
    (r.whole σ).memory.iteration = r.memory.iteration + 1 :=
  congrArg (· + 1) (iteration_crossed running.sound σ)

section Machine

variable {machine : Machine M} {r : Run M} {s : Machine.State M} (running : r.Running)
  (follows : machine.Follows r)
include running follows

theorem follows_whole (σ : Schedule) : machine.Follows (r.whole σ) := by
  have kept : (r.crossed (r.superstepUnder σ)).verdict.2 =
      (r.crossed (r.superstepUnder σ)).memory := running.observes _
  exact Machine.follows_advance follows σ (Prod.ext rfl kept)

theorem shows_whole (shows : Machine.Shows r s) {σ : Schedule}
    (passes : (r.superstepUnder σ).failure = none) :
    ∃ t, machine.superstep r.graph.contains [] s σ = some t ∧ Machine.Shows (r.whole σ) t := by
  have waits := Machine.pending_of_level running.level
  refine ⟨_, Machine.superstep_eq follows shows passes waits, rfl, rfl, fun _ => rfl, ?_⟩
  rw [shows.number, iteration_whole running]

end Machine

theorem wholeCount_of_left {r : Run M} (left : r.phase ≠ .execute) (schedules : List Schedule) :
    wholeCount schedules r = 0 := by
  induction schedules with
  | nil => rfl
  | cons σ rest ih => simp [wholeCount, left, stepUnder_of_left left, ih]

theorem stepsUnder_cons {r next : Run M} {σ : Schedule} {outcome : Except Failure Outcome}
    (stepped : r.stepUnder σ = (outcome, next)) (rest : List Schedule) :
    r.stepsUnder (σ :: rest) =
      (outcome :: (next.stepsUnder rest).1, (next.stepsUnder rest).2) := by
  simp only [stepsUnder, stepped]

theorem standing_stepUnder {r next : Run M} {σ : Schedule} {outcome : Except Failure Outcome}
    (running : r.Running) (stepped : r.stepUnder σ = (outcome, next)) (later : Nat) :
    ((r.superstepUnder σ).failure = none ∧ outcome = .ok .continues ∧ next = r.whole σ) ∨
      next.phase ≠ .execute ∧
        Standing (if (r.superstepUnder σ).failure = none then r.whole σ else r)
          (outcome :: List.replicate later (.error (.wrongPhase "step" next.phase))) next := by
  have ended := ended_stepUnder running.sound running.executing σ
  rw [stepped] at ended
  have observed {answer : Except Cause Bool} {memory : Memory}
      (asked : (r.crossed (r.superstepUnder σ)).verdict = (answer, memory)) :
      memory = (r.crossed (r.superstepUnder σ)).memory :=
    (congrArg Prod.snd asked).symm.trans (running.observes _)
  have counter := iteration_whole running σ
  cases ended with
  | aborted fails =>
    obtain ⟨v, member, cause, -, outcome, rfl⟩ :=
      failure_of_superstepUnder running.sound.typed fails
    rw [Memory.rollback_of_level running.level, if_neg (by simp [fails])]
    exact .inr ⟨by simp, .aborted 0 later member outcome⟩
  | broken passes asked =>
    obtain rfl := observed asked
    -- The counter has not moved, so memory is that of the whole superstep but for the counter.
    have memory : (r.crossed (r.superstepUnder σ)).memory =
        { (r.whole σ).memory with iteration := r.memory.iteration } :=
      congrArg (fun n => { (r.whole σ).memory with iteration := n })
        (iteration_crossed running.sound σ)
    rw [memory, if_pos passes]
    exact .inr ⟨by simp, .broken 0 later _ counter.symm⟩
  | halted passes asked =>
    obtain rfl := observed asked
    rw [if_pos passes]
    exact .inr ⟨by simp, .halted 0 later _ (by omega)⟩
  | limited passes asked bound exceeded =>
    obtain rfl := observed asked
    rw [if_pos passes]
    exact .inr ⟨by simp, .limited 0 later bound⟩
  | continued passes asked below =>
    obtain rfl := observed asked
    exact .inl ⟨passes, rfl, rfl⟩

theorem standing_stepsUnder {machine : Machine M} {r : Run M} {s : Machine.State M}
    (running : r.Running) (follows : machine.Follows r) (shows : Machine.Shows r s)
    (schedules : List Schedule) :
    ∃ w t, Standing w (r.stepsUnder schedules).1 (r.stepsUnder schedules).2 ∧
      machine.supersteps r.graph.contains s (schedules.take (wholeCount schedules r)) = some t ∧
      w.Running ∧ machine.Follows w ∧ Machine.Shows w t ∧ w.graph.index = r.graph.index ∧
      w.memory.iteration = r.memory.iteration + wholeCount schedules r := by
  -- From the first step on: the whole supersteps that follow start where the first one ends.
  induction schedules generalizing r s with
  | nil => exact ⟨r, s, .executing 0, rfl, running, follows, shows, rfl, rfl⟩
  | cons σ rest ih =>
    rcases stepped : r.stepUnder σ with ⟨outcome, next⟩
    rw [stepsUnder_cons stepped, wholeCount, stepped]
    have later := running.whole σ
    have counted := iteration_whole running σ
    obtain ⟨passes, rfl, rfl⟩ | ⟨left, standing⟩ :=
      standing_stepUnder running stepped rest.length
    · obtain ⟨t, superstep, shown⟩ := shows_whole running follows shows passes
      obtain ⟨w, u, standing, supersteps, last⟩ := ih later (follows_whole running follows σ) shown
      rw [if_pos ⟨running.executing, passes⟩]
      refine ⟨w, u, standing.continues, ?_, ?_⟩
      · rw [List.take_succ_cons, Machine.supersteps, List.foldlM_cons, superstep]
        exact supersteps
      · rw [counted, Nat.add_assoc, Nat.add_comm 1] at last
        exact last
    · rw [stepsUnder_of_left left, wholeCount_of_left left]
      by_cases passes : (r.superstepUnder σ).failure = none
      · obtain ⟨t, superstep, shown⟩ := shows_whole running follows shows passes
        rw [if_pos passes] at standing
        rw [if_pos ⟨running.executing, passes⟩]
        refine ⟨_, t, standing, ?_, later, follows_whole running follows σ, shown, rfl, counted⟩
        rw [List.take_succ_cons, Machine.supersteps, List.foldlM_cons, superstep]
        rfl
      · rw [if_neg passes] at standing
        rw [if_neg (by simp [passes])]
        exact ⟨r, s, standing, rfl, running, follows, shows, rfl, rfl⟩

def Accounts (failure : Failure) (m : Nat) (r : Run M) : Prop :=
  match failure with
  | .vertex _ number _ => r.phase = .failed ∧ number = m ∧ r.memory.iteration = m
  | .superstepLimit limit =>
    r.phase = .failed ∧ r.settings.maxSupersteps = some limit ∧ r.memory.iteration = m
  | .terminate number _ => r.phase = .failed ∧ number + 1 = m ∧ r.memory.iteration + 1 = m
  | .wrongPhase operation phase => operation = "step" ∧ r.phase = phase ∧ phase ≠ .execute
  | _ => False

theorem reported_cases {count later : Nat} {outcome : Except Failure Outcome} {failure : Failure}
    {phase : Phase}
    (reported : .error failure ∈ List.replicate count (.ok .continues) ++ outcome ::
      List.replicate later (.error (.wrongPhase "step" phase))) :
    outcome = .error failure ∨ failure = .wrongPhase "step" phase := by
  simp only [List.mem_append, List.mem_cons, List.mem_replicate, reduceCtorEq, and_false,
    false_or, Except.error.injEq] at reported
  exact reported.imp Eq.symm And.right

theorem Standing.accounts {w last : Run M} {outcomes : List (Except Failure Outcome)}
    (standing : Standing w outcomes last) {failure : Failure}
    (reported : .error failure ∈ outcomes) : Accounts failure w.memory.iteration last := by
  cases standing with
  | executing count => simp at reported
  | halted =>
    obtain same | rfl := reported_cases reported
    · cases same
    · simp [Accounts]
  | aborted =>
    obtain same | rfl := reported_cases reported
    · cases same
      simp [Accounts]
    · simp [Accounts]
  | limited count later bound =>
    obtain same | rfl := reported_cases reported
    · cases same
      simp [Accounts, bound]
    · simp [Accounts]
  | broken count later cause advanced =>
    obtain same | rfl := reported_cases reported
    · cases same
      simp [Accounts, advanced]
    · simp [Accounts]

theorem Standing.contents {w last : Run M} {outcomes : List (Except Failure Outcome)}
    (level : w.memory.Level) (standing : Standing w outcomes last) :
    last.memory.previous = w.memory.previous ∧ last.graph = w.graph ∧ last.inbox = w.inbox := by
  cases standing with
  | executing | aborted | limited | broken => exact ⟨rfl, rfl, rfl⟩
  -- Completing shows the written buffer instead, which the last barrier has levelled.
  | halted => exact ⟨level, rfl, rfl⟩

theorem Standing.culprit {w last : Run M} {outcomes : List (Except Failure Outcome)}
    (standing : Standing w outcomes last) {id : VertexId} {number : Nat} {cause : Cause}
    (reported : .error (.vertex id number cause) ∈ outcomes) :
    ∃ v ∈ w.graph.vertices, v.id = id ∧ (w.fateOf v).1 = .error cause := by
  cases standing with
  | executing => simp at reported
  | halted | limited | broken =>
    obtain same | same := reported_cases reported <;> cases same
  | aborted count later member fails =>
    obtain same | same := reported_cases reported
    · cases same
      exact ⟨_, member, rfl, fails⟩
    · cases same

theorem Standing.counter {w last : Run M} {outcomes : List (Except Failure Outcome)}
    (running : w.Running) (standing : Standing w outcomes last) :
    match last.phase with
    | .execute => last.memory.frozen = false ∧ last.memory.iteration = w.memory.iteration
    | .halted => last.memory.frozen = true ∧ last.memory.iteration + 1 = w.memory.iteration
    | .failed => last.memory.frozen = false ∧
        ∃ failure, .error failure ∈ outcomes ∧ ∀ phase, failure ≠ .wrongPhase "step" phase := by
  have thawed := running.sound.thawed
  cases standing with
  | executing count =>
    rw [running.executing]
    exact ⟨thawed, rfl⟩
  | halted count later runtime moved => exact ⟨rfl, Nat.sub_add_cancel moved⟩
  | aborted | limited | broken =>
    exact ⟨thawed, _, List.mem_append_right _ List.mem_cons_self, by simp⟩

-- The contents of a run are those of a state of the machine.
structure Holds (r : Run M) (graph : Graph) (s : Machine.State M) : Prop where
  index : r.graph.index = graph.index
  vertices : r.graph.vertices = s.vertices
  readable : r.memory.previous = s.readable
  mail : ∀ id, r.inbox.messages id = s.mail id

-- Completing shows what the last test has written, too.
theorem holds_completed {machine : Machine M} {r : Run M} {s : Machine.State M}
    {pending : List (Call Empty)} (mirrors : machine.Mirrors r s pending)
    (runtime : Memory.Duration) :
    Holds { r with memory := { r.memory with runtime }.complete, phase := .halted } r.graph
      { s with readable := pending.foldl Machine.apply s.readable } where
  index := rfl
  vertices := mirrors.shows.vertices.symm
  readable := by
    apply Std.ExtTreeMap.ext_getElem?
    intro key
    have waits := mirrors.waits key
    rw [← mirrors.shows.readable] at waits
    exact (Memory.written_getElem? r.memory key).trans waits
  mail id := (mirrors.shows.mail id).symm

theorem Standing.holds {w last : Run M} {outcomes : List (Except Failure Outcome)}
    {graph : Graph} {s : Machine.State M} (level : w.memory.Level)
    (standing : Standing w outcomes last) (shows : Machine.Shows w s)
    (index : w.graph.index = graph.index) : last.Holds graph s := by
  obtain ⟨readable, same, mail⟩ := standing.contents level
  constructor
  case index => rw [same, index]
  case vertices => rw [same, shows.vertices]
  case readable => rw [readable, shows.readable]
  case mail =>
    intro id
    rw [mail, shows.mail]

theorem stepsUnder_whole {graph : Graph} {program : VertexProgram M} {jobs : List Registered}
    {settings : Settings} {host : Host} {first last : Run M} {schedules : List Schedule}
    {outcomes : List (Except Failure Outcome)}
    (began : start graph program jobs settings host = .ok first) (observes : program.Observes)
    (stepped : first.stepsUnder schedules = (outcomes, last)) :
    let m := wholeCount schedules first
    (match last.phase with
      | .execute => last.memory.frozen = false ∧ last.memory.iteration = m
      | .halted => last.memory.frozen = true ∧ last.memory.iteration + 1 = m
      | .failed => last.memory.frozen = false ∧
          ∃ failure, .error failure ∈ outcomes ∧ ∀ phase, failure ≠ .wrongPhase "step" phase) ∧
      (∀ failure, .error failure ∈ outcomes → Accounts failure m last) ∧
      (∃ s, first.machine.supersteps graph.contains first.initial (schedules.take m) = some s ∧
        last.Holds graph s ∧
        ∀ id number cause, .error (.vertex id number cause) ∈ outcomes →
          ∃ v ∈ s.vertices, v.id = id ∧ (first.machine.turn s v).outcome = .error cause) ∧
      (last.phase ≠ .execute → ∀ more, last.stepsUnder more =
        (List.replicate more.length (.error (.wrongPhase "step" last.phase)), last)) ∧
      (last.phase ≠ .halted → last.finish = .error (.wrongPhase "finish" last.phase)) := by
  have fresh := fresh_of_start began
  have running : first.Running :=
    ⟨fresh.sound, fresh.level, fresh.phase, fresh.program ▸ observes⟩
  obtain ⟨w, s, standing, supersteps, later, follows, shows, index, count⟩ :=
    standing_stepsUnder running fresh.follows fresh.shows schedules
  rw [stepped] at standing
  rw [fresh.graph] at supersteps index
  rw [fresh.iteration, Nat.zero_add] at count
  have counter := standing.counter later
  have accounts (failure : Failure) (reported : .error failure ∈ outcomes) :=
    standing.accounts reported
  rw [count] at counter
  simp only [count] at accounts
  refine ⟨counter, accounts, ⟨s, supersteps, standing.holds later.level shows index, ?_⟩,
    fun left => stepsUnder_of_left left, fun unfinished => by simp [finish, unfinished]⟩
  intro id number cause reported
  obtain ⟨v, member, same, fails⟩ := standing.culprit reported
  rw [← shows.vertices] at member
  exact ⟨v, member, same, by rw [Machine.turn_eq follows shows, fails]⟩

-- Each vertex counts itself and keeps what it has read of the count before.
def counting : VertexProgram Unit where
  keys := [⟨"hits", .integer⟩]
  setup := .done (.ok ())
  execute v _ := .write (.incr "hits" 1) fun _ => .read (.integer "hits") fun seen =>
    .done (.ok (), match seen with
      | .ok n => v.setProperty "seen" (.integer n)
      | .error _ => v)
  terminate := .read .iteration fun number => .done (.ok (number = 1))

def seen (v : Vertex) : Option Int64 := (v.property "seen").bind Scalar.integer?

theorem stepsUnder_whole_counting :
    ∃ first outcomes last s,
      start (.withVertices 2) counting [] ⟨none, none, none⟩ .still = .ok first ∧
      first.stepsUnder [⟨[0, 1], 0⟩, ⟨[1, 0, 1, 0], 0⟩, ⟨[], 0⟩] = (outcomes, last) ∧
      counting.Observes ∧ last.phase = .halted ∧
      last.memory.frozen = true ∧ last.memory.iteration + 1 = 2 ∧
      first.machine.supersteps (Graph.withVertices 2).contains first.initial
        [⟨[0, 1], 0⟩, ⟨[1, 0, 1, 0], 0⟩] = some s ∧
      last.Holds (.withVertices 2) s ∧ last.memory.previous["hits"]? = some (.integer 4) ∧
      last.graph.vertices.map seen = [some 2, some 2] := by
  obtain ⟨first, outcomes, last, began, stepped, phase, count, hits, seen⟩ :
      ∃ first outcomes last,
        start (.withVertices 2) counting [] ⟨none, none, none⟩ .still = .ok first ∧
        first.stepsUnder [⟨[0, 1], 0⟩, ⟨[1, 0, 1, 0], 0⟩, ⟨[], 0⟩] = (outcomes, last) ∧
        last.phase = .halted ∧
        wholeCount [⟨[0, 1], 0⟩, ⟨[1, 0, 1, 0], 0⟩, ⟨[], 0⟩] first = 2 ∧
        last.memory.previous["hits"]? = some (.integer 4) ∧
        last.graph.vertices.map seen = [some 2, some 2] :=
    ⟨_, _, _, rfl, rfl, by decide +kernel, by decide +kernel, by decide +kernel,
      by decide +kernel⟩
  have observes : counting.Observes := fun _ => rfl
  obtain ⟨counter, -, ⟨s, supersteps, holds, -⟩, -⟩ := stepsUnder_whole began observes stepped
  rw [phase, count] at counter
  rw [count] at supersteps
  exact ⟨first, outcomes, last, s, began, stepped, observes, phase, counter.1, counter.2,
    supersteps, holds, hits, seen⟩

end Run

end BulkSync
