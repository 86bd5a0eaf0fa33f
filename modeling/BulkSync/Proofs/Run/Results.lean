import BulkSync.Proofs.MapReduce.Mapping
import BulkSync.Proofs.MapReduce.Storing
import BulkSync.Proofs.Memory.Reserved
import BulkSync.Proofs.Run.Step

set_option autoImplicit false

namespace BulkSync

variable {M : Type}

-- A write to the key is answered that there is no such key.
def Call.Barred (key : String) (call : Call M) : Prop :=
  ∀ w answer, call = .write w answer → w.key = key → answer = .error (.undeclared key)

theorem Call.barred_of_answered {m : Memory} {key : Memory.Key} {call : Call M}
    (reserved : m.Reserved key) (thawed : m.frozen = false) (answered : call.Answered m) :
    call.Barred key.name := by
  rintro w answer rfl same
  have reply : answer = m.reply w := answered
  rw [reply, Memory.reply, reserved.refusal thawed same, same]

theorem Shared.worked_absorbAll (s : Shared M) (calls : List (Call M)) :
    s.memory.Worked (s.absorbAll calls).memory := by
  induction calls generalizing s with
  | nil => exact .refl
  | cons call rest ih =>
    have first : s.memory.Worked (s.absorb call).memory := by
      cases call with
      | read | send => exact .refl
      | write w => exact .call (.write w) (by simp) .refl
    exact first.trans (ih (s.absorb call))

namespace Action

variable {α : Type}

theorem worked_runOn (a : Action Empty α) (m : Memory) : m.Worked (a.runOn m).2 := by
  have shared := a.run_shared ⟨m, .empty⟩
  show m.Worked (a.run ⟨m, .empty⟩).2.memory
  rw [shared]
  exact Shared.worked_absorbAll ⟨m, .empty⟩ _

theorem barred_transcript (a : Action Empty α) {m : Memory} {key : Memory.Key} (typed : m.Typed)
    (thawed : m.frozen = false) (reserved : m.Reserved key) {call : Call Empty}
    (made : call ∈ a.transcript ⟨m, .empty⟩) : call.Barred key.name := by
  rw [a.transcript_eq_calls typed] at made
  exact Call.barred_of_answered reserved thawed (a.answered_calls m made)

end Action

namespace Run

section Steps

variable {r : Run M}

theorem worked_crossed (sound : r.Sound) (σ : Schedule) :
    r.memory.Worked (r.crossed (r.superstepUnder σ)).memory := by
  have shared : (r.superstepUnder σ).shared = _ := (reached_pool sound.typed σ).shared
  have written : r.memory.Worked (r.superstepUnder σ).shared.memory := by
    rw [shared]
    exact Shared.worked_absorbAll ⟨r.memory, .empty⟩ _
  exact .call .commit (by simp) written

theorem worked_verdict {answer : Except Cause Bool} {memory : Memory}
    (asked : r.verdict = (answer, memory)) : r.memory.Worked memory := by
  have worked := r.program.terminate.worked_runOn r.memory
  have same : r.program.terminate.runOn r.memory = (answer, memory) := asked
  rwa [same] at worked

theorem worked_stepUnder (steady : r.Steady) (σ : Schedule) :
    r.memory.Worked (r.stepUnder σ).2.memory := by
  by_cases executing : r.phase = .execute
  · have sound := steady executing
    have ended := ended_stepUnder sound executing σ
    have crossed := worked_crossed sound σ
    rcases stepped : r.stepUnder σ with ⟨outcome, next⟩
    rw [stepped] at ended
    show r.memory.Worked next.memory
    cases ended with
    | aborted => exact .call .rollback (by simp) .refl
    | broken passes asked => exact crossed.trans (worked_verdict asked)
    | @halted memory passes asked =>
      have thawed : memory.advance.frozen = false :=
        (Memory.frozen_congr (frame_verdict asked)).trans (frozen_crossed sound σ)
      have advanced : r.memory.Worked memory.advance :=
        .call .advance (by simp) (crossed.trans (worked_verdict asked))
      have timed :=
        Memory.Worked.call (.setRuntime (r.host.clock r.memory.iteration)) (by simp) advanced
      rw [Memory.perform, Memory.setRuntime_of_thawed thawed] at timed
      exact .call .complete (by simp) timed
    | limited passes asked | continued passes asked =>
      exact .call .advance (by simp) (crossed.trans (worked_verdict asked))
  · rw [stepUnder_of_left executing]
    exact .refl

theorem keeps_stepUnder (steady : r.Steady) (σ : Schedule) :
    (r.stepUnder σ).2.jobs = r.jobs ∧ (r.stepUnder σ).2.settings = r.settings ∧
      (r.stepUnder σ).2.host = r.host := by
  by_cases executing : r.phase = .execute
  · have ended := ended_stepUnder (steady executing) executing σ
    rcases stepped : r.stepUnder σ with ⟨outcome, next⟩
    rw [stepped] at ended
    cases ended <;> exact ⟨rfl, rfl, rfl⟩
  · rw [stepUnder_of_left executing]
    exact ⟨rfl, rfl, rfl⟩

theorem worked_stepsUnder (steady : r.Steady) (schedules : List Schedule) :
    r.memory.Worked (r.stepsUnder schedules).2.memory ∧
      (r.stepsUnder schedules).2.jobs = r.jobs ∧
      (r.stepsUnder schedules).2.settings = r.settings ∧
      (r.stepsUnder schedules).2.host = r.host := by
  induction schedules generalizing r with
  | nil => exact ⟨.refl, rfl, rfl, rfl⟩
  | cons σ rest ih =>
    obtain ⟨later, jobs, settings, host⟩ := ih (steady.stepUnder σ)
    obtain ⟨sameJobs, sameSettings, sameHost⟩ := keeps_stepUnder steady σ
    exact ⟨(worked_stepUnder steady σ).trans later, jobs.trans sameJobs,
      settings.trans sameSettings, host.trans sameHost⟩

structure Withheld (r : Run M) (key : String) : Prop where
  unreadable : r.memory.previous[key]? = none
  executes : r.phase = .execute → ∀ σ i call, (i, call) ∈ (r.pool σ).calls → call.Barred key
  concludes : r.phase = .execute → ∀ σ,
    (r.crossed (r.superstepUnder σ)).memory.previous[key]? = none ∧
      ∀ call ∈ r.program.terminate.transcript
        ⟨(r.crossed (r.superstepUnder σ)).memory, .empty⟩, call.Barred key

theorem withheld_of_reserved {key : Memory.Key} (steady : r.Steady)
    (reserved : r.memory.Reserved key) : r.Withheld key.name where
  unreadable := reserved.unreadable
  executes executing σ i call made :=
    Call.barred_of_answered reserved (steady executing).thawed
      ((reached_pool (steady executing).typed σ).answered made)
  concludes executing σ := by
    have sound := steady executing
    have later := (worked_crossed sound σ).reserved sound.typed reserved
    exact ⟨later.unreadable, fun call made => Action.barred_transcript _ (typed_crossed sound σ)
      (frozen_crossed sound σ) later made⟩

end Steps

section Jobs

variable {vertices : List Vertex} {parts : Nat} {jobs : List Registered} {m n : Memory}

structure Prepared (m : Memory) (jobs : List Registered) : Prop where
  reserved : ∀ job ∈ jobs, m.Reserved job.resultKey
  apart : (jobs.map Registered.memoryKey).Nodup
  storing : ∀ job ∈ jobs, job.Storing

theorem Prepared.stored {job : Registered} {rest : List Registered}
    (prepared : Prepared m (job :: rest)) {v : Memory.Value}
    (ran : job.run vertices parts = .ok v) :
    m.storeResult job.memoryKey v =
        .ok { m with previous := m.previous.insert job.memoryKey v } ∧
      Prepared { m with previous := m.previous.insert job.memoryKey v } rest := by
  obtain ⟨reserved, apart, storing⟩ := prepared
  rw [List.map_cons, List.nodup_cons] at apart
  simp only [List.forall_mem_cons] at reserved storing
  refine ⟨reserved.1.storeResult (storing.1.kind_run ran), ?_, apart.2, storing.2⟩
  intro other member
  refine (reserved.2 other member).insert (fun same => apart.1 ?_) v
  rw [same]
  exact List.mem_map_of_mem member

theorem storeAll_of_ok {job : Registered} {rest : List Registered}
    (prepared : Prepared m (job :: rest)) {v : Memory.Value}
    (ran : job.run vertices parts = .ok v) :
    storeAll vertices parts m (job :: rest) =
      storeAll vertices parts { m with previous := m.previous.insert job.memoryKey v } rest := by
  rw [storeAll, ran]
  show (m.storeResult job.memoryKey v).mapError Failure.memory >>= _ = _
  rw [(prepared.stored ran).1]
  rfl

theorem storeAll_of_error {job : Registered} {e : Failure}
    (ran : job.run vertices parts = .error e) (m : Memory) (rest : List Registered) :
    storeAll vertices parts m (job :: rest) = .error e := by
  rw [storeAll, ran]
  rfl

theorem storeAll_cons_eq_ok {job : Registered} {rest : List Registered}
    (prepared : Prepared m (job :: rest))
    (stored : storeAll vertices parts m (job :: rest) = .ok n) :
    ∃ v, job.run vertices parts = .ok v ∧
      storeAll vertices parts { m with previous := m.previous.insert job.memoryKey v } rest =
        .ok n := by
  cases ran : job.run vertices parts with
  | error e =>
    rw [storeAll_of_error ran] at stored
    cases stored
  | ok v => exact ⟨v, rfl, storeAll_of_ok prepared ran ▸ stored⟩

theorem storeAll_error_iff (prepared : Prepared m jobs) {e : Failure} :
    storeAll vertices parts m jobs = .error e ↔
      FailsFirst (·.run vertices parts) jobs e := by
  induction jobs generalizing m with
  | nil => simp [storeAll, not_failsFirst_nil]
  | cons job rest ih =>
    rw [failsFirst_cons]
    cases ran : job.run vertices parts with
    | error failure => simp [storeAll_of_error ran]
    | ok v => simp [storeAll_of_ok prepared ran, ih (prepared.stored ran).2]

structure Filled (vertices : List Vertex) (parts : Nat) (m : Memory) (jobs : List Registered)
    (n : Memory) : Prop where
  kept : n = { m with previous := n.previous }
  results : ∀ job ∈ jobs, ∃ v, job.run vertices parts = .ok v ∧
    n.previous[job.memoryKey]? = some v
  others : ∀ key, (∀ job ∈ jobs, job.memoryKey ≠ key) → n.previous[key]? = m.previous[key]?

theorem storeAll_ok_iff (prepared : Prepared m jobs) :
    (∃ n, storeAll vertices parts m jobs = .ok n) ↔
      ∀ job ∈ jobs, ∃ v, job.run vertices parts = .ok v := by
  induction jobs generalizing m with
  | nil => simp [storeAll]
  | cons job rest ih =>
    cases ran : job.run vertices parts with
    | error failure => simp [storeAll_of_error ran, ran]
    | ok v => simp [storeAll_of_ok prepared ran, ran, ih (prepared.stored ran).2]

theorem filled_of_storeAll (prepared : Prepared m jobs)
    (stored : storeAll vertices parts m jobs = .ok n) : Filled vertices parts m jobs n := by
  induction jobs generalizing m with
  | nil =>
    cases stored
    exact ⟨rfl, by simp, fun key _ => rfl⟩
  | cons job rest ih =>
    obtain ⟨v, ran, later⟩ := storeAll_cons_eq_ok prepared stored
    obtain ⟨kept, results, others⟩ := ih (prepared.stored ran).2 later
    have apart := (List.nodup_cons.1 (List.map_cons ▸ prepared.apart)).1
    refine ⟨kept, List.forall_mem_cons.2 ⟨⟨v, ran, ?_⟩, results⟩, fun key free => ?_⟩
    · -- The jobs that follow store under other keys.
      rw [others job.memoryKey fun other member same =>
        apart (List.mem_map.2 ⟨other, member, same⟩)]
      exact Std.ExtTreeMap.getElem?_insert_self
    · obtain ⟨first, free⟩ := List.forall_mem_cons.1 free
      rw [others key free]
      simp [Std.ExtTreeMap.getElem?_insert, first]

theorem Prepared.left {front rest : List Registered} (prepared : Prepared m (front ++ rest)) :
    Prepared m front where
  reserved job member := prepared.reserved job (List.mem_append_left rest member)
  apart := (List.nodup_append.1 (List.map_append ▸ prepared.apart)).1
  storing job member := prepared.storing job (List.mem_append_left rest member)

theorem Prepared.after {front rest : List Registered} (prepared : Prepared m (front ++ rest))
    (stored : storeAll vertices parts m front = .ok n) : Prepared n rest := by
  induction front generalizing m with
  | nil =>
    cases stored
    exact prepared
  | cons job front ih =>
    obtain ⟨v, ran, later⟩ := storeAll_cons_eq_ok prepared.left stored
    exact ih (Prepared.stored prepared ran).2 later

end Jobs

section Finish

variable {graph : Graph} {program : VertexProgram M} {jobs : List Registered}
  {settings : Settings} {host : Host} {first r : Run M}

theorem mem_of_mem_distinct : ∀ job ∈ distinct jobs, job ∈ jobs := by
  unfold distinct
  refine List.foldlRecOn (motive := fun kept => ∀ job ∈ kept, job ∈ jobs) jobs _ (by simp) ?_
  intro kept known other among
  split
  · exact known
  · simpa [or_imp, forall_and] using ⟨known, among⟩

theorem reserved_declareKeys {keys : List Memory.Key} {m : Memory}
    (declared : declareKeys keys jobs = .ok m) :
    (∀ job ∈ jobs, m.Reserved job.resultKey) ∧ (jobs.map Registered.memoryKey).Nodup := by
  obtain ⟨n, first, later⟩ := bind_eq_ok declared
  rw [registerAll_eq_declareAll] at later
  obtain ⟨reserved, apart, -⟩ :=
    Memory.reserved_declareAll (Memory.typed_empty.declareAll first) later
  rw [List.map_map] at apart
  exact ⟨fun job member => reserved _ (List.mem_map_of_mem member), apart⟩

theorem partCount_of_checkSettings (checked : checkSettings r.settings = .ok ()) :
    (∀ n, r.settings.partitions = some n → r.partCount = n.toNat) ∧ 0 < r.partCount := by
  refine ⟨fun n set => ?_, Nat.lt_of_lt_of_le Nat.one_pos (Nat.le_max_left 1 _)⟩
  have positive : n ≠ 0 := by
    rintro rfl
    simp [checkSettings, set] at checked
  have : n.toNat ≠ 0 := fun zero => positive (UInt64.toNat_inj.1 zero)
  rw [partCount, set]
  exact Nat.max_eq_right (Nat.pos_of_ne_zero this)

-- What stands in memory before the first superstep has come there without a job.
theorem worked_of_start (began : start graph program jobs settings host = .ok first) :
    ∃ declared, declareKeys program.keys (distinct jobs) = .ok declared ∧
      declared.Worked first.memory ∧ first.jobs = distinct jobs ∧ first.settings = settings ∧
        first.host = host := by
  obtain ⟨-, -, declared, written, keys, ran, rfl⟩ := start_eq_ok began
  have setup := program.setup.worked_runOn declared
  rw [ran] at setup
  exact ⟨declared, keys, .call .commit (by simp) setup, rfl, rfl, rfl⟩

structure Finishes (r : Run M) (parts : Nat) : Prop where
  ok_iff : (∃ result, r.finish = .ok result) ↔
    ∀ job ∈ r.jobs, ∃ v, job.run r.graph.vertices parts = .ok v
  error_iff : ∀ e, r.finish = .error e ↔ FailsFirst (·.run r.graph.vertices parts) r.jobs e
  stores : ∀ front job back m v, r.jobs = front ++ job :: back →
    storeAll r.graph.vertices parts r.memory front = .ok m →
    job.run r.graph.vertices parts = .ok v →
    m.storeResult job.memoryKey v = .ok { m with previous := m.previous.insert job.memoryKey v }
  result : ∀ result, r.finish = .ok result → result.graph = r.graph ∧
    Filled r.graph.vertices parts r.memory r.jobs result.memory

theorem finishes_of_prepared (halted : r.phase = .halted) (prepared : Prepared r.memory r.jobs) :
    r.Finishes r.partCount := by
  have finish : r.finish =
      (storeAll r.graph.vertices r.partCount r.memory r.jobs).map (⟨·, r.graph⟩) := by
    simp [Run.finish, halted]
    rfl
  constructor
  case ok_iff =>
    rw [finish, ← storeAll_ok_iff prepared]
    cases storeAll r.graph.vertices r.partCount r.memory r.jobs <;> simp [Except.map]
  case error_iff =>
    intro e
    rw [finish, ← storeAll_error_iff prepared]
    cases storeAll r.graph.vertices r.partCount r.memory r.jobs <;> simp [Except.map]
  case stores =>
    intro front job back m v cut stored ran
    exact (((cut ▸ prepared).after stored).stored ran).1
  case result =>
    intro result finished
    rw [finish] at finished
    cases stored : storeAll r.graph.vertices r.partCount r.memory r.jobs with
    | error e =>
      rw [stored] at finished
      cases finished
    | ok n =>
      rw [stored] at finished
      cases finished
      exact ⟨rfl, filled_of_storeAll prepared stored⟩

theorem finish_results (storing : ∀ job ∈ jobs, job.Storing)
    (began : start graph program jobs settings host = .ok first) (schedules : List Schedule)
    {outcomes : List (Except Failure Outcome)}
    (stepped : first.stepsUnder schedules = (outcomes, r)) :
    (r.jobs = distinct jobs ∧ (r.jobs.map Registered.memoryKey).Nodup) ∧
      (∀ declared, declareKeys program.keys r.jobs = .ok declared →
        ∀ job ∈ r.jobs, declared.previous[job.memoryKey]? = none ∧
          ∀ call ∈ program.setup.transcript ⟨declared, .empty⟩, call.Barred job.memoryKey) ∧
      (∀ job ∈ r.jobs, r.Withheld job.memoryKey) ∧
      (r.phase = .halted → ∃ parts, r.Finishes parts ∧ 0 < parts ∧
        (∀ n, settings.partitions = some n → parts = n.toNat) ∧
        (settings.partitions = none →
          parts = max 1 (host.threads (settings.workers.getD 0).toNat))) := by
  have steady : first.Steady := fun _ => (fresh_of_start began).sound
  obtain ⟨-, checked, -⟩ := start_eq_ok began
  obtain ⟨declared, keys, begun, jobs_eq, settings_eq, host_eq⟩ := worked_of_start began
  obtain ⟨typed, bare⟩ := declareKeys_eq_ok keys
  obtain ⟨reserved, apart⟩ := reserved_declareKeys keys
  obtain ⟨worked, keptJobs, keptSettings, keptHost⟩ := worked_stepsUnder steady schedules
  have steadyLast := steady.stepsUnder schedules
  simp only [stepped] at worked keptJobs keptSettings keptHost steadyLast
  rw [jobs_eq] at keptJobs
  rw [settings_eq] at keptSettings
  rw [host_eq] at keptHost
  -- From the declaration of the keys to the run as it stands no call stores a result.
  have later : ∀ job ∈ distinct jobs, r.memory.Reserved job.resultKey :=
    fun job member => (begun.trans worked).reserved typed (reserved job member)
  have thawed : declared.frozen = false := congrArg Memory.frozen bare
  refine ⟨⟨keptJobs, keptJobs ▸ apart⟩, ?_, ?_, fun halted => ⟨r.partCount, ?_, ?_⟩⟩
  · intro other same job member
    rw [keptJobs] at same member
    cases keys.symm.trans same
    exact ⟨(reserved job member).unreadable,
      fun call made => Action.barred_transcript _ typed thawed (reserved job member) made⟩
  · exact fun job member => withheld_of_reserved steadyLast (later job (keptJobs ▸ member))
  · refine finishes_of_prepared halted ⟨?_, ?_, ?_⟩
    · exact keptJobs ▸ later
    · exact keptJobs ▸ apart
    · exact keptJobs ▸ fun job member => storing job (mem_of_mem_distinct job member)
  · rw [← keptSettings] at checked ⊢
    obtain ⟨configured, positive⟩ := partCount_of_checkSettings checked
    refine ⟨positive, configured, fun unset => ?_⟩
    rw [partCount, unset, keptHost]

-- Setup, vertices and test all write to keys of the jobs, one of which is registered twice.
def census : Except Failure (Run Unit) :=
  start (.withVertices 2)
    { keys := [⟨"seen", .integer⟩]
      setup := .write (.set "count" (.integer 9)) fun _ => .done (.ok ())
      execute := fun v _ =>
        .write (.incr "seen" 1) fun _ => .write (.set "groupCount" (.integer 9)) fun _ =>
          .done (.ok (), v.setProperty "kind" (.boolean true))
      terminate := .write (.set "count" (.integer 9)) fun _ => .done (.ok true) }
    [Count.default.job.register, (GroupCount.ofProperty "kind").job.register,
      (Count.mk "count" (some "name")).job.register]
    ⟨some 3, none, none⟩ .still

theorem finish_results_census :
    ∃ first r, census = .ok first ∧
      first.stepsUnder [⟨[0, 1, 0], 0⟩] = ([.ok .halted], r) ∧ r.phase = .halted ∧
      r.jobs.map Registered.memoryKey = ["count", "groupCount"] ∧
      (∀ job ∈ r.jobs, r.Withheld job.memoryKey) ∧ r.Finishes 3 := by
  obtain ⟨first, r, began, stepped, halted, keys⟩ :
      ∃ first r, census = .ok first ∧ first.stepsUnder [⟨[0, 1, 0], 0⟩] = ([.ok .halted], r) ∧
        r.phase = .halted ∧ r.jobs.map Registered.memoryKey = ["count", "groupCount"] :=
    ⟨_, _, rfl, rfl, rfl, rfl⟩
  have storing : ∀ job ∈ [Count.default.job.register, (GroupCount.ofProperty "kind").job.register,
      (Count.mk "count" (some "name")).job.register], job.Storing := by
    simp only [List.forall_mem_cons]
    exact ⟨.register (Count.outputs _), .register (GroupCount.outputs _),
      .register (Count.outputs _), by simp⟩
  obtain ⟨-, -, withheld, finishes⟩ := finish_results storing began _ stepped
  obtain ⟨parts, finishes, -, -, threads⟩ := finishes halted
  cases threads rfl
  exact ⟨first, r, began, stepped, halted, keys, withheld, finishes⟩

end Finish

end Run

end BulkSync
