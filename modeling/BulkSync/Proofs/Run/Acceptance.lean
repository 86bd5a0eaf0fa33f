import BulkSync.Proofs.Memory.Declaring
import BulkSync.Proofs.Run.Results

set_option autoImplicit false

namespace BulkSync

open Memory (Acceptable FirstFault)

theorem Registered.same_iff {a b : Registered} :
    a.same b = true ↔ a.implementation = b.implementation ∧ a.memoryKey = b.memoryKey := by
  simp [Registered.same]

namespace Run

variable {M : Type}

section Distinct

-- The jobs that equal none before them.
def firsts (jobs : List Registered) : List Registered :=
  (jobs.zipIdx.filter fun (job, i) => !(jobs.take i).any (·.same job)).map Prod.fst

theorem distinct_concat (front : List Registered) (job : Registered) :
    distinct (front ++ [job]) =
      if (distinct front).any (·.same job) then distinct front else distinct front ++ [job] := by
  simp [distinct]

theorem firsts_concat (front : List Registered) (job : Registered) :
    firsts (front ++ [job]) =
      if front.any (·.same job) then firsts front else firsts front ++ [job] := by
  have earlier :
      (front.zipIdx.filter fun (other, i) => !((front ++ [job]).take i).any (·.same other)) =
        front.zipIdx.filter fun (other, i) => !(front.take i).any (·.same other) := by
    refine List.filter_congr fun (other, i) member => ?_
    have within := (List.mem_zipIdx' member).1
    simp only [List.take_append_of_le_length (Nat.le_of_lt within)]
  rw [firsts, List.zipIdx_append, List.filter_append, List.map_append, earlier, ← firsts]
  cases found : front.any (·.same job) <;> simp [found]

-- A job that is dropped equals one that is kept, so looking among the kept is enough.
theorem any_distinct (jobs : List Registered) (job : Registered) :
    (distinct jobs).any (·.same job) = jobs.any (·.same job) := by
  induction jobs using List.reverseRecOn with
  | nil => rfl
  | append_singleton front last ih =>
    rw [distinct_concat, List.any_append, ← ih]
    split
    next dropped =>
      obtain ⟨kept, member, same⟩ := List.any_eq_true.1 dropped
      by_cases equal : last.same job
      · simp only [Registered.same_iff] at same equal
        have reached : kept.same job :=
          Registered.same_iff.2 ⟨same.1.trans equal.1, same.2.trans equal.2⟩
        rw [List.any_eq_true.2 ⟨kept, member, reached⟩]
        simp
      · simp [equal]
    next => rw [List.any_append]

theorem distinct_eq_firsts (jobs : List Registered) : distinct jobs = firsts jobs := by
  induction jobs using List.reverseRecOn with
  | nil => rfl
  | append_singleton front job ih => rw [distinct_concat, firsts_concat, any_distinct, ih]

theorem sublist_distinct (jobs : List Registered) : (distinct jobs).Sublist jobs := by
  induction jobs using List.reverseRecOn with
  | nil => exact .slnil
  | append_singleton front job ih =>
    rw [distinct_concat]
    split
    next => exact ih.trans (List.sublist_append_left front [job])
    next => exact ih.append_right [job]

theorem pairwise_distinct (jobs : List Registered) :
    (distinct jobs).Pairwise fun a b => a.same b = false := by
  induction jobs using List.reverseRecOn with
  | nil => exact .nil
  | append_singleton front job ih =>
    rw [distinct_concat]
    split
    next => exact ih
    next other =>
      refine List.pairwise_append.2
        ⟨ih, List.pairwise_singleton _ _, fun kept member last only => ?_⟩
      rw [List.mem_singleton.1 only]
      exact Bool.eq_false_iff.2 fun same => other (List.any_eq_true.2 ⟨kept, member, same⟩)

theorem prefix_distinct (front back : List Registered) :
    distinct front <+: distinct (front ++ back) := by
  induction back using List.reverseRecOn with
  | nil => exact ⟨[], by simp⟩
  | append_singleton back job ih =>
    rw [← List.append_assoc, distinct_concat]
    split
    next => exact ih
    next => exact ih.trans (List.prefix_append _ _)

structure KeepsFirsts (jobs kept : List Registered) : Prop where
  firsts : kept = firsts jobs
  ordered : kept.Sublist jobs
  unequal : kept.Pairwise fun a b =>
    ¬(a.implementation = b.implementation ∧ a.memoryKey = b.memoryKey)
  dropped : ∀ front job back, jobs = front ++ job :: back → (∃ other ∈ front, other.same job) →
    ∃ before after, kept = before ++ after ∧ before.Sublist front ∧ ∃ other ∈ before, other.same job

theorem keepsFirsts_distinct (jobs : List Registered) : KeepsFirsts jobs (distinct jobs) where
  firsts := distinct_eq_firsts jobs
  ordered := sublist_distinct jobs
  unequal := (pairwise_distinct jobs).imp fun unequal same => by
    rw [Registered.same_iff.2 same] at unequal
    cases unequal
  dropped front job back split again := by
    obtain ⟨after, whole⟩ := prefix_distinct front (job :: back)
    rw [← List.any_eq_true, ← any_distinct, List.any_eq_true] at again
    exact ⟨distinct front, after, by rw [split, whole], sublist_distinct front, again⟩

end Distinct

section Start

variable (program : VertexProgram M) (jobs : List Registered)

-- In the order in which they are declared.
def keys : List Memory.Key := program.keys ++ jobs.map Registered.resultKey

def names : List String := (keys program jobs).map Memory.Key.name

def slots : List (Memory.Key × Memory.Role) :=
  program.keys.map (·, .compute) ++ jobs.map fun job => (job.resultKey, .result)

def opened : Memory := .vacant (slots program jobs)

theorem map_fst_slots : (slots program jobs).map Prod.fst = keys program jobs := by
  simp [slots, keys, Function.comp_def]

theorem slotNames_slots : Memory.slotNames (slots program jobs) = names program jobs := by
  rw [names, ← map_fst_slots, List.map_map]
  rfl

theorem declareKeys_eq_declareEach :
    declareKeys program.keys jobs = Memory.declareEach (slots program jobs) := by
  have program_slots := Memory.declareAll_eq_foldlM .compute program.keys .empty
  have job_slots := Memory.declareAll_eq_foldlM .result (jobs.map Registered.resultKey)
  rw [declareKeys, Memory.declareEach, slots, List.foldlM_append, ← program_slots]
  refine bind_congr fun m => ?_
  rw [registerAll_eq_declareAll, job_slots, List.map_map]
  rfl

variable {program jobs} {settings : Settings}

-- Nothing stands in the way of a run with these jobs, once each job is among them once.
structure Accepted (program : VertexProgram M) (jobs : List Registered) (settings : Settings) :
    Prop where
  mapping : ∀ job ∈ jobs, job.participates .map = true
  divided : settings.partitions ≠ some 0
  named : Acceptable (names program jobs)
  setup : (program.setup.runOn (opened program jobs)).1 = .ok ()

inductive Rejected (program : VertexProgram M) (jobs : List Registered) (settings : Settings) :
    Failure → Prop
  | unmapped {front back : List Registered} {job : Registered}
      (split : jobs = front ++ job :: back) (mapping : ∀ other ∈ front, other.participates .map)
      (idle : job.participates .map = false) :
      Rejected program jobs settings (Job.noMapStage job.name)
  | undivided (mapping : ∀ job ∈ jobs, job.participates .map)
      (none : settings.partitions = some 0) :
      Rejected program jobs settings (.config (Settings.noPartition "partitions"))
  | misnamed {e : Config.Error} (mapping : ∀ job ∈ jobs, job.participates .map)
      (divided : settings.partitions ≠ some 0) (fault : FirstFault (names program jobs) e) :
      Rejected program jobs settings (.config e)
  | unready {cause : Cause} (mapping : ∀ job ∈ jobs, job.participates .map)
      (divided : settings.partitions ≠ some 0) (named : Acceptable (names program jobs))
      (fails : (program.setup.runOn (opened program jobs)).1 = .error cause) :
      Rejected program jobs settings (.setup cause)

theorem accepted_or_rejected (program : VertexProgram M) (jobs : List Registered)
    (settings : Settings) :
    Accepted program jobs settings ∨ ∃ failure, Rejected program jobs settings failure := by
  cases idle : jobs.find? fun job => !job.participates .map with
  | some job =>
    obtain ⟨unmapped, front, back, rfl, mapping⟩ := List.find?_eq_some_iff_append.1 idle
    exact .inr ⟨_, .unmapped rfl (by simpa using mapping) (by simpa using unmapped)⟩
  | none =>
    have mapping : ∀ job ∈ jobs, job.participates .map := by simpa using idle
    by_cases none : settings.partitions = some 0
    · exact .inr ⟨_, .undivided mapping none⟩
    · obtain named | ⟨e, fault⟩ := Memory.acceptable_or_firstFault (names program jobs)
      · cases setup : (program.setup.runOn (opened program jobs)).1 with
        | error cause => exact .inr ⟨_, .unready mapping none named setup⟩
        | ok => exact .inl ⟨mapping, none, named, setup⟩
      · exact .inr ⟨_, .misnamed mapping none fault⟩

theorem checkJobs_of_mapping (mapping : ∀ job ∈ jobs, job.participates .map = true) :
    checkJobs jobs = .ok () := by
  have none : jobs.find? (!·.participates .map) = none := by simpa using mapping
  rw [checkJobs, none]

theorem checkSettings_of_divided (divided : settings.partitions ≠ some 0) :
    checkSettings settings = .ok () := if_neg divided

theorem declareKeys_of_acceptable (named : Acceptable (names program jobs)) :
    declareKeys program.keys jobs = .ok (opened program jobs) := by
  rw [← slotNames_slots] at named
  rw [declareKeys_eq_declareEach, Memory.declareEach_of_acceptable named, opened]

variable (graph : Graph) (host : Host) {all : List Registered}

def begin (graph : Graph) (program : VertexProgram M) (jobs : List Registered)
    (settings : Settings) (host : Host) : Run M where
  graph := graph
  program := program
  jobs := jobs
  settings := settings
  host := host
  memory := (program.setup.runOn (opened program jobs)).2.commit
  inbox := .empty
  phase := .execute

theorem start_of_accepted (accepted : Accepted program (distinct all) settings) :
    start graph program all settings host =
      .ok (begin graph program (distinct all) settings host) := by
  obtain ⟨mapping, divided, named, setup⟩ := accepted
  rw [start, checkJobs_of_mapping mapping, checkSettings_of_divided divided,
    declareKeys_of_acceptable named, begin]
  rcases ran : program.setup.runOn (opened program (distinct all)) with ⟨outcome, memory⟩
  obtain rfl : outcome = .ok () := by simpa [ran] using setup
  simp [ran, Except.mapError, bind, Except.bind, pure, Except.pure]

theorem start_of_rejected {failure : Failure}
    (rejected : Rejected program (distinct all) settings failure) :
    start graph program all settings host = .error failure := by
  cases rejected with
  | @unmapped front back job split mapping idle =>
    have found : (distinct all).find? (!·.participates .map) = some job :=
      List.find?_eq_some_iff_append.2 ⟨by simp [idle], front, back, split, by simpa using mapping⟩
    rw [start, checkJobs, found]
    rfl
  | undivided mapping none =>
    rw [start, checkJobs_of_mapping mapping, checkSettings, if_pos none]
    rfl
  | misnamed mapping divided fault =>
    rw [← slotNames_slots] at fault
    rw [start, checkJobs_of_mapping mapping, checkSettings_of_divided divided,
      declareKeys_eq_declareEach, Memory.declareEach_of_firstFault fault]
    rfl
  | unready mapping divided named fails =>
    rw [start, checkJobs_of_mapping mapping, checkSettings_of_divided divided,
      declareKeys_of_acceptable named]
    rcases ran : program.setup.runOn (opened program (distinct all)) with ⟨outcome, memory⟩
    obtain rfl : outcome = .error _ := by simpa [ran] using fails
    simp [ran, Except.mapError, bind, Except.bind, throw, throwThe, MonadExceptOf.throw]

end Start

section Begin

variable {program : VertexProgram M} {jobs : List Registered} {settings : Settings}
  (named : Acceptable (names program jobs))
include named

theorem typed_opened : (opened program jobs).Typed :=
  (declareKeys_eq_ok (declareKeys_of_acceptable named)).1

theorem slot_opened {key : Memory.Key} {role : Memory.Role}
    (member : (key, role) ∈ slots program jobs) :
    (opened program jobs).current[key.name]? = some ⟨key.kind, role, none⟩ :=
  Memory.slot_vacant (by rwa [slotNames_slots]) member

theorem reserved_opened {job : Registered} (member : job ∈ jobs) :
    (opened program jobs).Reserved job.resultKey where
  declared := by
    have slot : (job.resultKey, Memory.Role.result) ∈ slots program jobs :=
      List.mem_append_right _ (List.mem_map_of_mem member)
    rw [Memory.current_frame, slot_opened named slot]
    rfl
  vacant v holds := by
    rcases holds with readable | held
    · simp [opened, Memory.vacant, Memory.empty] at readable
    · simp [opened, Memory.cell_vacant] at held

theorem readable_begin (key : String) :
    (program.setup.runOn (opened program jobs)).2.commit.previous[key]? =
      fold none ((program.setup.transcript ⟨opened program jobs, .empty⟩).filterMap
        (·.writeTo key)) := by
  have typed := typed_opened named
  have shared := program.setup.run_shared ⟨opened program jobs, .empty⟩
  have vacant : (opened program jobs).cell key = none := Memory.cell_vacant _ key
  rw [Memory.commit, Memory.written_getElem?, ← vacant]
  show (program.setup.run ⟨opened program jobs, .empty⟩).2.memory.cell key = _
  rw [shared]
  refine Shared.cell_absorbAll typed (fun call made => ?_) key
  rw [program.setup.transcript_eq_calls typed] at made
  exact program.setup.answered_calls _ made

structure Begun (r : Run M) (graph : Graph) (program : VertexProgram M) (jobs : List Registered)
    (settings : Settings) : Prop where
  made : r.graph = graph ∧ r.program = program ∧ r.jobs = jobs ∧ r.settings = settings
  declared : r.memory.declared.Perm (keys program jobs)
  roles : ∀ key role, (key, role) ∈ slots program jobs → r.memory.roleAt key.name = some role
  readable : ∀ key, r.memory.previous[key]? =
    fold none ((program.setup.transcript ⟨opened program jobs, .empty⟩).filterMap (·.writeTo key))
  vacant : ∀ job ∈ jobs, r.memory.get job.memoryKey = .error (.absent job.memoryKey)
  iteration : r.memory.iteration = 0
  phase : r.phase = .execute

theorem begun_begin (graph : Graph) (host : Host) :
    Begun (begin graph program jobs settings host) graph program jobs settings := by
  have frames := program.setup.frame_runOn (opened program jobs)
  constructor
  case made => exact ⟨rfl, rfl, rfl, rfl⟩
  case declared =>
    have fine := named
    rw [← slotNames_slots] at fine
    have same : (program.setup.runOn (opened program jobs)).2.declared =
        (opened program jobs).declared := by
      rw [← Memory.declared_frame, frames, Memory.declared_frame]
    have declared := Memory.declared_vacant fine
    rw [map_fst_slots] at declared
    exact same ▸ declared
  case roles =>
    intro key role member
    have same : (program.setup.runOn (opened program jobs)).2.roleAt key.name =
        (opened program jobs).roleAt key.name := Memory.roleAt_congr frames _
    exact same.trans (by rw [Memory.roleAt, slot_opened named member]; rfl)
  case readable => exact readable_begin named
  case vacant =>
    intro job member
    have worked : (opened program jobs).Worked (begin graph program jobs settings host).memory :=
      .call .commit (by simp) (program.setup.worked_runOn (opened program jobs))
    have reserved := worked.reserved (typed_opened named) (reserved_opened named member)
    have unreadable := reserved.unreadable
    simp only [Registered.resultKey] at unreadable
    rw [Memory.get, unreadable]
  case iteration => exact Memory.iteration_congr frames
  case phase => rfl

end Begin

theorem start_acceptance (graph : Graph) (program : VertexProgram M) (jobs : List Registered)
    (settings : Settings) (host : Host) :
    KeepsFirsts jobs (distinct jobs) ∧
      ((∃ first, start graph program jobs settings host = .ok first) ↔
        Accepted program (distinct jobs) settings) ∧
      (∀ failure, start graph program jobs settings host = .error failure ↔
        Rejected program (distinct jobs) settings failure) ∧
      ∀ first, start graph program jobs settings host = .ok first →
        Begun first graph program (distinct jobs) settings := by
  obtain accepted | ⟨failure, rejected⟩ :=
    accepted_or_rejected program (distinct jobs) settings
  · have started := start_of_accepted graph host accepted
    refine ⟨keepsFirsts_distinct jobs, ?_, fun failure => ?_, fun first began => ?_⟩
    · exact iff_of_true ⟨_, started⟩ accepted
    · refine iff_of_false (by simp [started]) fun rejected => ?_
      rw [start_of_rejected graph host rejected] at started
      cases started
    · rw [started] at began
      cases began
      exact begun_begin accepted.named graph host
  · have failed := start_of_rejected graph host rejected
    refine ⟨keepsFirsts_distinct jobs, ?_, fun other => ?_, fun first began => ?_⟩
    · refine iff_of_false (by simp [failed]) fun accepted => ?_
      rw [start_of_accepted graph host accepted] at failed
      cases failed
    · constructor
      · intro told
        cases failed.symm.trans told
        exact rejected
      · exact start_of_rejected graph host
    · cases failed.symm.trans began

-- The second job is the first once more; the third only wants the same key.
theorem start_acceptance_clash :
    let jobs := [Count.default.job.register, (Count.mk "count" (some "name")).job.register,
      (GroupCount.mk "count" "kind").job.register]
    let program : VertexProgram Unit :=
      { keys := [⟨"seen", .integer⟩]
        setup := .done (.ok ())
        execute := fun v _ => .done (.ok (), v)
        terminate := .done (.ok true) }
    (distinct jobs).map Registered.implementation = ["CountMapReduce", "GroupCountMapReduce"] ∧
      start (.withVertices 2) program jobs .default .still =
        .error (.config (.duplicateKey "count")) := by
  intro jobs program
  obtain ⟨kept, -, rejects, -⟩ :=
    start_acceptance (.withVertices 2) program jobs .default .still
  refine ⟨by rw [kept.firsts]; rfl, (rejects _).2 (.misnamed (by decide) (by decide) ?_)⟩
  refine ⟨["seen", "count"], "count", [], rfl, ⟨?_, by decide⟩, .taken ?_ (by decide)⟩
  · intro name member
    rw [← Memory.flaw?_eq_none_iff]
    revert name
    decide
  · exact Memory.flaw?_eq_none_iff.1 (by decide)

end Run

end BulkSync
