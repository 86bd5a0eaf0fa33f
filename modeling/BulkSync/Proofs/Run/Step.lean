import BulkSync.Proofs.Schedule.InOrder

set_option autoImplicit false

namespace BulkSync

variable {M : Type}

namespace Run

section Start

theorem registerAll_eq_declareAll (jobs : List Registered) (m : Memory) :
    registerAll m jobs = m.declareAll .result (jobs.map Registered.resultKey) := by
  induction jobs generalizing m with
  | nil => rfl
  | cons job rest ih =>
    simp only [registerAll, ih]
    rfl

theorem declareKeys_eq_ok {keys : List Memory.Key} {jobs : List Registered} {m : Memory}
    (declared : declareKeys keys jobs = .ok m) :
    m.Typed ∧ m = { Memory.empty with current := m.current } := by
  obtain ⟨n, first, later⟩ := bind_eq_ok declared
  rw [registerAll_eq_declareAll] at later
  have same : m = { n with current := m.current } := Memory.declareAll_eq later
  rw [Memory.declareAll_eq first] at same
  exact ⟨(Memory.typed_empty.declareAll first).declareAll later, same⟩

structure Fresh (r : Run M) (graph : Graph) (program : VertexProgram M) : Prop where
  typed : r.memory.Typed
  level : r.memory.Level
  iteration : r.memory.iteration = 0
  runtime : r.memory.runtime = ⟨0, 0⟩
  thawed : r.memory.frozen = false
  graph : r.graph = graph
  program : r.program = program
  inbox : r.inbox = .empty
  phase : r.phase = .execute

theorem start_eq_ok {graph : Graph} {program : VertexProgram M} {jobs : List Registered}
    {settings : Settings} {host : Host} {first : Run M}
    (began : start graph program jobs settings host = .ok first) :
    checkJobs (distinct jobs) = .ok () ∧ checkSettings settings = .ok () ∧
      ∃ declared written, declareKeys program.keys (distinct jobs) = .ok declared ∧
        program.setup.runOn declared = (.ok (), written) ∧
        first =
          { graph, program, jobs := distinct jobs, settings, host, memory := written.commit,
            inbox := .empty, phase := .execute } := by
  obtain ⟨⟨⟩, checked, began⟩ := bind_eq_ok began
  obtain ⟨⟨⟩, set, began⟩ := bind_eq_ok began
  obtain ⟨m, declared, began⟩ := bind_eq_ok began
  refine ⟨checked, set, ?_⟩
  cases keys : declareKeys program.keys (distinct jobs) with
  | error e =>
    rw [keys] at declared
    cases declared
  | ok n =>
    rw [keys] at declared
    cases declared
    rcases ran : program.setup.runOn m with ⟨outcome, after⟩
    cases outcome with
    | error cause =>
      simp only [ran] at began
      cases began
    | ok =>
      simp only [ran] at began
      cases began
      exact ⟨m, after, rfl, ran, rfl⟩

theorem fresh_of_start {graph : Graph} {program : VertexProgram M} {jobs : List Registered}
    {settings : Settings} {host : Host} {first : Run M}
    (began : start graph program jobs settings host = .ok first) : first.Fresh graph program := by
  -- Jobs and settings have been found in order; only what is declared and set up matters.
  obtain ⟨-, -, m, after, keys, ran, rfl⟩ := start_eq_ok began
  obtain ⟨typed, same⟩ := declareKeys_eq_ok keys
  have typed := Action.typed_runOn program.setup typed
  have frames := Action.frame_runOn program.setup m
  rw [ran] at typed frames
  constructor
  case typed => exact typed.commit
  case level => exact Memory.level_commit after
  case iteration =>
    exact (congrArg Memory.iteration frames).trans (congrArg Memory.iteration same)
  case runtime =>
    exact (congrArg Memory.runtime frames).trans (congrArg Memory.runtime same)
  case thawed =>
    exact (congrArg Memory.frozen frames).trans (congrArg Memory.frozen same)
  all_goals rfl

end Start

section Step

def crossed (r : Run M) (s : Superstep M) : Run M :=
  { r with
    graph := { r.graph with vertices := s.vertices }
    memory := s.shared.memory.commit
    inbox := s.shared.outbox.deliver r.graph.contains }

theorem messages_crossed (r : Run M) (s : Superstep M) (id : VertexId) :
    (r.crossed s).inbox.messages id =
      if r.graph.contains id then s.shared.outbox.waiting id else [] :=
  Outbox.messages_deliver _ _ id

def verdict (r : Run M) : Except Cause Bool × Memory := r.program.terminate.runOn r.memory

inductive Ended (r : Run M) (s : Superstep M) : Except Failure Outcome → Run M → Prop
  | aborted {failure : Failure} (fails : s.failure = some failure) :
      Ended r s (.error failure) { r with memory := r.memory.rollback, phase := .failed }
  | broken {cause : Cause} {memory : Memory} (passes : s.failure = none)
      (asked : (r.crossed s).verdict = (.error cause, memory)) :
      Ended r s (.error (.terminate r.memory.iteration cause))
        { r.crossed s with memory, phase := .failed }
  | halted {memory : Memory} (passes : s.failure = none)
      (asked : (r.crossed s).verdict = (.ok true, memory)) :
      Ended r s (.ok .halted)
        { r.crossed s with
          memory := { memory.advance with runtime := r.host.clock r.memory.iteration }.complete
          phase := .halted }
  | limited {memory : Memory} {limit : UInt64} (passes : s.failure = none)
      (asked : (r.crossed s).verdict = (.ok false, memory))
      (bound : r.settings.maxSupersteps = some limit)
      (exceeded : limit.toNat ≤ r.memory.iteration + 1) :
      Ended r s (.error (.superstepLimit limit))
        { r.crossed s with memory := memory.advance, phase := .failed }
  | continued {memory : Memory} (passes : s.failure = none)
      (asked : (r.crossed s).verdict = (.ok false, memory))
      (below : ∀ limit, r.settings.maxSupersteps = some limit →
        r.memory.iteration + 1 < limit.toNat) :
      Ended r s (.ok .continues) { r.crossed s with memory := memory.advance }

structure Sound (r : Run M) : Prop where
  typed : r.memory.Typed
  thawed : r.memory.frozen = false

theorem Fresh.sound {r : Run M} {graph : Graph} {program : VertexProgram M}
    (fresh : r.Fresh graph program) : r.Sound := ⟨fresh.typed, fresh.thawed⟩

section Verdict

variable {r : Run M} {answer : Except Cause Bool} {memory : Memory}
  (asked : r.verdict = (answer, memory))
include asked

theorem frame_verdict : memory.frame = r.memory.frame := by
  have frames := Action.frame_runOn r.program.terminate r.memory
  have same : r.program.terminate.runOn r.memory = (answer, memory) := asked
  rwa [same] at frames

theorem typed_verdict (typed : r.memory.Typed) : memory.Typed := by
  have typed := Action.typed_runOn r.program.terminate typed
  have same : r.program.terminate.runOn r.memory = (answer, memory) := asked
  rwa [same] at typed

end Verdict

theorem halt_of_thawed {r : Run M} (thawed : r.memory.frozen = false) (number : Nat) :
    r.halt number =
      (.ok .halted,
        { r with
          memory := { r.memory with runtime := r.host.clock number }.complete
          phase := .halted }) := by
  simp [halt, Memory.setRuntime_of_thawed thawed]

theorem checkLimit_cases (r : Run M) :
    (∃ limit, r.settings.maxSupersteps = some limit ∧ limit.toNat ≤ r.memory.iteration ∧
        r.checkLimit = (.error (.superstepLimit limit), { r with phase := .failed })) ∨
      (∀ limit, r.settings.maxSupersteps = some limit → r.memory.iteration < limit.toNat) ∧
        r.checkLimit = (.ok .continues, r) := by
  unfold checkLimit
  cases bound : r.settings.maxSupersteps with
  | none => exact .inr ⟨by simp, rfl⟩
  | some limit =>
    by_cases reached : limit.toNat ≤ r.memory.iteration
    · exact .inl ⟨limit, rfl, reached, by simp [reached]⟩
    · refine .inr ⟨fun other same => ?_, by simp [reached]⟩
      cases same
      omega

section Ending

variable {r : Run M} (sound : r.Sound) (σ : Schedule)
include sound

theorem frame_superstepUnder :
    (r.superstepUnder σ).shared.memory.frame = r.memory.frame :=
  (reached_pool sound.typed σ).frame

theorem typed_crossed : (r.crossed (r.superstepUnder σ)).memory.Typed :=
  ((reached_pool sound.typed σ).typed sound.typed).commit

theorem frozen_crossed : (r.crossed (r.superstepUnder σ)).memory.frozen = false := by
  have frozen := Memory.frozen_congr (frame_superstepUnder sound σ)
  exact frozen.trans sound.thawed

theorem iteration_crossed :
    (r.crossed (r.superstepUnder σ)).memory.iteration = r.memory.iteration := by
  have iteration := Memory.iteration_congr (frame_superstepUnder sound σ)
  exact iteration

theorem abort_overwrite :
    (r.overwrite (r.superstepUnder σ)).abort r.graph.vertices =
      { r with memory := r.memory.rollback, phase := .failed } := by
  have memory : (r.superstepUnder σ).shared.memory.rollback = r.memory.rollback :=
    Memory.rollback_congr (frame_superstepUnder sound σ)
  simp only [abort, overwrite, memory]

theorem ended_conclude (passes : (r.superstepUnder σ).failure = none) :
    Ended r (r.superstepUnder σ)
      ((r.crossed (r.superstepUnder σ)).conclude r.memory.iteration
        (r.crossed (r.superstepUnder σ)).verdict).1
      ((r.crossed (r.superstepUnder σ)).conclude r.memory.iteration
        (r.crossed (r.superstepUnder σ)).verdict).2 := by
  have thawed := frozen_crossed sound σ
  have iteration := iteration_crossed sound σ
  rcases asked : (r.crossed (r.superstepUnder σ)).verdict with ⟨answer, memory⟩
  have frames := frame_verdict asked
  cases answer with
  | error cause => exact .broken passes asked
  | ok done =>
    cases done with
    | true =>
      simp only [conclude]
      rw [halt_of_thawed ((Memory.frozen_congr frames).trans thawed)]
      exact .halted passes asked
    | false =>
      have counted : memory.iteration = r.memory.iteration :=
        (Memory.iteration_congr frames).trans iteration
      simp only [conclude]
      obtain ⟨limit, bound, exceeded, checked⟩ | ⟨below, checked⟩ :=
        checkLimit_cases { r.crossed (r.superstepUnder σ) with memory := memory.advance }
      · rw [checked]
        exact .limited passes asked bound (counted ▸ exceeded)
      · rw [checked]
        exact .continued passes asked (counted ▸ below)

end Ending

section Asking

variable {m : Type → Type} [Monad m] {ask : Memory → m (Except Cause Bool × Memory)}
  {r : Run M} {σ : Schedule}

theorem stepBy_of_left (left : r.phase ≠ .execute) (work : Run M → Superstep M) :
    r.stepBy ask work = pure (.error (.wrongPhase "step" r.phase), r) :=
  if_pos left

theorem stepBy_of_failed (sound : r.Sound) (executing : r.phase = .execute) {failure : Failure}
    (fails : (r.superstepUnder σ).failure = some failure) :
    r.stepBy ask (·.superstepUnder σ) =
      pure (.error failure, { r with memory := r.memory.rollback, phase := .failed }) := by
  simp only [stepBy, executing, settleBy, fails, abort_overwrite sound σ]
  rfl

theorem stepBy_of_passes (executing : r.phase = .execute)
    (passes : (r.superstepUnder σ).failure = none) :
    r.stepBy ask (·.superstepUnder σ) = do
      return (r.crossed (r.superstepUnder σ)).conclude r.memory.iteration
        (← ask (r.crossed (r.superstepUnder σ)).memory) := by
  simp only [stepBy, executing, settleBy, passes]
  rfl

end Asking

theorem stepUnder_of_left {r : Run M} (left : r.phase ≠ .execute) (σ : Schedule) :
    r.stepUnder σ = (.error (.wrongPhase "step" r.phase), r) := by
  rw [stepUnder, stepWith, stepBy_of_left left]
  rfl

theorem stepUnder_of_failed {r : Run M} {σ : Schedule} (sound : r.Sound)
    (executing : r.phase = .execute) {failure : Failure}
    (fails : (r.superstepUnder σ).failure = some failure) :
    r.stepUnder σ =
      (.error failure, { r with memory := r.memory.rollback, phase := .failed }) := by
  rw [stepUnder, stepWith, stepBy_of_failed sound executing fails]
  rfl

-- What is asked for the verdict is the program of the run, which the barrier keeps.
theorem stepUnder_of_passes {r : Run M} {σ : Schedule} (executing : r.phase = .execute)
    (passes : (r.superstepUnder σ).failure = none) :
    r.stepUnder σ = (r.crossed (r.superstepUnder σ)).conclude r.memory.iteration
      (r.crossed (r.superstepUnder σ)).verdict := by
  rw [stepUnder, stepWith, stepBy_of_passes executing passes]
  rfl

theorem stepsUnder_of_left {r : Run M} (left : r.phase ≠ .execute) (schedules : List Schedule) :
    r.stepsUnder schedules =
      (List.replicate schedules.length (.error (.wrongPhase "step" r.phase)), r) := by
  induction schedules with
  | nil => rfl
  | cons σ rest ih =>
    simp only [stepsUnder, stepUnder_of_left left, ih, List.length_cons, List.replicate_succ]

theorem ended_stepUnder {r : Run M} (sound : r.Sound) (executing : r.phase = .execute)
    (σ : Schedule) :
    Ended r (r.superstepUnder σ) (r.stepUnder σ).1 (r.stepUnder σ).2 := by
  cases fails : (r.superstepUnder σ).failure with
  | some failure =>
    rw [stepUnder_of_failed sound executing fails]
    exact .aborted fails
  | none =>
    rw [stepUnder_of_passes executing fails]
    exact ended_conclude sound σ fails

section Tests

-- The test notes down the memory that it is asked on, and is answered as always.
def noting (program : VertexProgram M) (memory : Memory) :
    StateM (List Memory) (Except Cause Bool × Memory) := do
  modify (· ++ [memory])
  return program.terminate.runOn memory

def stepNoting (work : Run M → Superstep M) (r : Run M) :
    (Except Failure Outcome × Run M) × List Memory :=
  (r.stepBy (noting r.program) work).run []

def tests (work : Run M → Superstep M) (r : Run M) : List Memory := (r.stepNoting work).2

theorem fst_stepNoting (work : Run M → Superstep M) (r : Run M) :
    (r.stepNoting work).1 = r.stepWith work := by
  unfold stepNoting stepWith stepBy
  split
  next => rfl
  next =>
    unfold settleBy
    split <;> rfl

def answeredOn (r : Run M) (m : Memory) : Except Cause Bool × Nat :=
  ((r.program.terminate.runOn m).1, m.iteration)

def inquiry (r : Run M) (σ : Schedule) : List (Except Cause Bool × Nat) :=
  (r.tests (·.superstepUnder σ)).map r.answeredOn

def inquiries : List Schedule → Run M → List (Except Cause Bool × Nat)
  | [], _ => []
  | σ :: rest, r =>
    let ((_, next), asked) := r.stepNoting (·.superstepUnder σ)
    asked.map r.answeredOn ++ inquiries rest next

theorem inquiries_cons (r : Run M) (σ : Schedule) (rest : List Schedule) :
    r.inquiries (σ :: rest) = r.inquiry σ ++ (r.stepUnder σ).2.inquiries rest := by
  rw [stepUnder, ← fst_stepNoting]
  rfl

variable {r : Run M} {σ : Schedule}

theorem tests_of_left (left : r.phase ≠ .execute) (work : Run M → Superstep M) :
    r.tests work = [] := by
  rw [tests, stepNoting, stepBy_of_left left]
  rfl

theorem tests_of_failed (sound : r.Sound) (executing : r.phase = .execute) {failure : Failure}
    (fails : (r.superstepUnder σ).failure = some failure) :
    r.tests (·.superstepUnder σ) = [] := by
  rw [tests, stepNoting, stepBy_of_failed sound executing fails]
  rfl

theorem tests_of_passes (executing : r.phase = .execute)
    (passes : (r.superstepUnder σ).failure = none) :
    r.tests (·.superstepUnder σ) = [(r.crossed (r.superstepUnder σ)).memory] := by
  rw [tests, stepNoting, stepBy_of_passes executing passes]
  rfl

theorem inquiry_of_passes (sound : r.Sound) (executing : r.phase = .execute)
    (passes : (r.superstepUnder σ).failure = none) :
    r.inquiry σ = [((r.crossed (r.superstepUnder σ)).verdict.1, r.memory.iteration)] := by
  rw [inquiry, tests_of_passes executing passes, ← iteration_crossed sound σ]
  rfl

theorem inquiry_of_asked {answer : Bool} {memory : Memory} (sound : r.Sound)
    (executing : r.phase = .execute) (passes : (r.superstepUnder σ).failure = none)
    (asked : (r.crossed (r.superstepUnder σ)).verdict = (.ok answer, memory)) :
    r.inquiry σ = [(.ok answer, r.memory.iteration)] := by
  rw [inquiry_of_passes sound executing passes, asked]

end Tests

theorem Ended.unique {r next last : Run M} {s : Superstep M}
    {outcome other : Except Failure Outcome} (ended : Ended r s outcome next)
    (also : Ended r s other last) : (outcome, next) = (other, last) := by
  cases ended with
  | aborted fails | broken passes asked | halted passes asked => cases also <;> simp_all
  | limited passes asked bound exceeded =>
    cases also with
    | continued _ _ below => exact absurd exceeded (Nat.not_le.2 (below _ bound))
    | aborted | broken | halted | limited => simp_all
  | continued passes asked below =>
    cases also with
    | limited _ _ bound exceeded => exact absurd exceeded (Nat.not_le.2 (below _ bound))
    | aborted | broken | halted | continued => simp_all

theorem stepUnder_of_ended {r next : Run M} {σ : Schedule} {outcome : Except Failure Outcome}
    (sound : r.Sound) (executing : r.phase = .execute)
    (ended : Ended r (r.superstepUnder σ) outcome next) : r.stepUnder σ = (outcome, next) :=
  (ended_stepUnder sound executing σ).unique ended

theorem stepUnder_continues {r next : Run M} {σ : Schedule} (sound : r.Sound)
    (executing : r.phase = .execute) (goes : r.stepUnder σ = (.ok .continues, next)) :
    (r.superstepUnder σ).failure = none ∧
      ∃ memory, (r.crossed (r.superstepUnder σ)).verdict = (.ok false, memory) ∧
        next = { r.crossed (r.superstepUnder σ) with memory := memory.advance } := by
  have ended := ended_stepUnder sound executing σ
  rw [goes] at ended
  cases ended with
  | continued passes asked => exact ⟨passes, _, asked, rfl⟩

theorem Sound.continues {r next : Run M} {σ : Schedule} (sound : r.Sound)
    (executing : r.phase = .execute) (goes : r.stepUnder σ = (.ok .continues, next)) :
    next.Sound ∧ next.phase = .execute ∧ next.memory.iteration = r.memory.iteration + 1 := by
  obtain ⟨-, memory, asked, rfl⟩ := stepUnder_continues sound executing goes
  have frames := frame_verdict asked
  refine ⟨⟨(typed_verdict asked (typed_crossed sound σ)).advance, ?_⟩, executing, ?_⟩
  · exact (Memory.frozen_congr frames).trans (frozen_crossed sound σ)
  · exact congrArg (· + 1) ((Memory.iteration_congr frames).trans (iteration_crossed sound σ))

def Steady (r : Run M) : Prop := r.phase = .execute → r.Sound

theorem Steady.stepUnder {r : Run M} (steady : r.Steady) (σ : Schedule) :
    (r.stepUnder σ).2.Steady := by
  intro executing
  by_cases before : r.phase = .execute
  · have ended := ended_stepUnder (steady before) before σ
    rcases stepped : r.stepUnder σ with ⟨outcome, next⟩
    rw [stepped] at ended executing
    cases ended with
    | aborted | broken | halted | limited => cases executing
    | continued => exact ((steady before).continues before stepped).1
  · rw [stepUnder_of_left before] at executing
    exact absurd executing before

theorem Steady.stepsUnder {r : Run M} (steady : r.Steady) (schedules : List Schedule) :
    (r.stepsUnder schedules).2.Steady := by
  induction schedules generalizing r with
  | nil => exact steady
  | cons σ rest ih => exact ih (steady.stepUnder σ)

end Step

end Run

end BulkSync
