import BulkSync.Proofs.Program.Delivery
import BulkSync.Proofs.Run.Limit
import BulkSync.Proofs.Run.Vertices

set_option autoImplicit false

namespace BulkSync

variable {M : Type}

theorem Task.isActive_of_hasFailed {t : Task M} (failed : t.hasFailed) : t.isActive := by
  unfold hasFailed at failed
  split at failed
  next => rfl
  next => cases failed

namespace Pool

section Rested

variable {program : VertexProgram M} {inbox : Inbox M} {vertices : List Vertex} {m : Memory}

-- A vertex is passed over only if it has halted and nothing wakes it.
def Rested (inbox : Inbox M) (vertices : List Vertex) (p : Pool M) : Prop :=
  ∀ (i : Nat) (v w : Vertex), vertices[i]? = some v → p.tasks[i]? = some (.passed w) →
    (inbox.wake v).halted = true

theorem rested_opened : Rested inbox vertices (opened vertices m) := by
  intro i v w found held
  simp [opened] at held

theorem Rested.turned {p q : Pool M} {i : Nat} (rested : p.Rested inbox vertices)
    (reached : p.Reached program inbox vertices m) (turned : Turned program inbox p i q) :
    q.Rested inbox vertices := by
  intro j v w found held
  cases turned with
  | took waits =>
    obtain ⟨rfl, started⟩ | ⟨-, held⟩ := getElem?_set_cases waits held
    · cases (reached.follows found waits).waits _ rfl
      obtain ⟨-, halted⟩ | ⟨executing, -⟩ := Task.start_cases program inbox v
      · exact halted
      · cases started.trans executing
    · exact rested j v w found held
  | called executes =>
    obtain ⟨-, other⟩ | ⟨-, held⟩ := getElem?_set_cases executes held
    · cases other
    · exact rested j v w found held
  | idle => exact rested j v w found held

end Rested

end Pool

namespace Run

variable {r : Run M}

section Activity

variable (typed : r.memory.Typed) (σ : Schedule)
include typed

theorem rested_pool : (r.pool σ).Rested r.inbox r.graph.vertices := by
  obtain ⟨order, same⟩ := r.pool_eq_turns σ
  rw [same]
  exact (Pool.turns_induction r.program r.inbox
    (fun p => p.Reached r.program r.inbox r.graph.vertices r.memory ∧
      p.Rested r.inbox r.graph.vertices)
    ⟨Pool.reached_opened, Pool.rested_opened⟩
    (fun turned both => ⟨both.1.turned typed turned, both.2.turned both.1 turned⟩) order).2

theorem active_pos {v : Vertex} (member : v ∈ r.graph.vertices)
    (active : (r.inbox.wake v).halted = false) : 0 < (r.superstepUnder σ).active := by
  show 0 < (r.pool σ).tasks.countP Task.isActive
  rw [List.countP_pos_iff]
  cases fails : (r.superstepUnder σ).failure with
  | some failure =>
    have failed : (r.pool σ).failed = true := by
      rw [← Bool.not_eq_false, ← failure_eq_none_iff, fails]
      simp
    obtain ⟨t, among, broken⟩ := List.any_eq_true.1 failed
    exact ⟨t, among, Task.isActive_of_hasFailed broken⟩
  | none =>
    obtain ⟨i, found⟩ := List.mem_iff_getElem?.1 member
    obtain ⟨t, held, finished, -⟩ := task_of_passes typed fails found
    refine ⟨t, List.mem_of_getElem? held, ?_⟩
    obtain ⟨w, rfl⟩ | ⟨w, result, rfl⟩ := Task.isOver_cases finished
    · cases active.symm.trans (rested_pool typed σ i v w found held)
    · rfl

end Activity

structure Quiet (r : Run M) : Prop where
  halted : ∀ v ∈ r.graph.vertices, v.halted = true
  empty : r.inbox.isEmpty = true

section Quiet

variable (quiet : r.Quiet)
include quiet

theorem Quiet.wake (v : Vertex) : r.inbox.wake v = v := by
  rw [Inbox.wake_eq, if_pos ((Inbox.isEmpty_iff _).1 quiet.empty v.id)]

section Vertex

variable {v : Vertex} (member : v ∈ r.graph.vertices)
include member

theorem Quiet.callsOf : r.callsOf v = [] := by
  rw [Run.callsOf, Task.ahead_of_halted]
  rw [quiet.wake, quiet.halted v member]

theorem Quiet.fateOf : r.fateOf v = (.ok (), v) := by
  rw [Run.fateOf, Task.fate_of_halted, quiet.wake]
  rw [quiet.wake, quiet.halted v member]

end Vertex

variable (typed : r.memory.Typed) (σ : Schedule)
include typed

theorem Quiet.passes : (r.superstepUnder σ).failure = none :=
  (passes_iff typed).2 fun v member => by rw [quiet.fateOf member]

theorem Quiet.calls : (r.pool σ).calls = [] := by
  refine List.eq_nil_iff_forall_not_mem.2 fun (i, call) made => ?_
  have within := (reached_pool typed σ).within made
  have member : r.graph.vertices[i] ∈ r.graph.vertices := List.getElem_mem within
  have own := callsBy_pool typed (quiet.passes typed σ) (List.getElem?_eq_getElem within)
  rw [quiet.callsOf member] at own
  simpa [own] using mem_callsBy.2 made

theorem Quiet.active : (r.superstepUnder σ).active = 0 := by
  show (r.pool σ).tasks.countP Task.isActive = 0
  refine List.countP_eq_zero.2 fun t among active => ?_
  have reached := reached_pool typed σ
  obtain ⟨i, held⟩ := List.mem_iff_getElem?.1 among
  have within : i < r.graph.vertices.length := by
    rw [← reached.length]
    exact (List.getElem?_eq_some_iff.1 held).1
  cases t with
  | waiting | passed => cases active
  | executing w a =>
    obtain ⟨rfl, woken⟩ :=
      (reached.follows (List.getElem?_eq_getElem within) held).woken w a rfl
    rw [quiet.wake, quiet.halted _ (List.getElem_mem within)] at woken
    cases woken

theorem Quiet.crossed (level : r.memory.Level) :
    r.crossed (r.superstepUnder σ) =
      { r with inbox := Outbox.deliver .empty r.graph.contains } := by
  have shared : (r.superstepUnder σ).shared = ⟨r.memory, .empty⟩ := by
    show (r.pool σ).shared = _
    rw [(reached_pool typed σ).shared, quiet.calls typed σ]
    rfl
  have vertices : (r.superstepUnder σ).vertices = r.graph.vertices := by
    rw [vertices_superstepUnder typed (quiet.passes typed σ)]
    refine (List.map_congr_left fun v member => ?_).trans (List.map_id' _)
    rw [quiet.fateOf member]
  have memory : r.memory.commit = r.memory := by
    rw [Memory.commit, level]
  rw [Run.crossed, shared, vertices]
  simp only [memory]

end Quiet

inductive Decided (r : Run M) : Except Cause Bool → Except Failure Outcome → Phase → Prop
  | broken (cause : Cause) :
      Decided r (.error cause) (.error (.terminate r.memory.iteration cause)) .failed
  | halted : Decided r (.ok true) (.ok .halted) .halted
  | limited {limit : UInt64} (bound : r.settings.maxSupersteps = some limit)
      (exceeded : limit.toNat ≤ r.memory.iteration + 1) :
      Decided r (.ok false) (.error (.superstepLimit limit)) .failed
  | continued (below : ∀ limit, r.settings.maxSupersteps = some limit →
        r.memory.iteration + 1 < limit.toNat) :
      Decided r (.ok false) (.ok .continues) .execute

theorem Ended.decided {next : Run M} {s : Superstep M} {outcome : Except Failure Outcome}
    (ended : Ended r s outcome next) (passes : s.failure = none) (executing : r.phase = .execute) :
    r.Decided (r.crossed s).verdict.1 outcome next.phase := by
  cases ended with
  | aborted fails => cases fails.symm.trans passes
  | broken _ asked =>
    rw [asked]
    exact .broken _
  | halted _ asked =>
    rw [asked]
    exact .halted
  | limited _ asked bound exceeded =>
    rw [asked]
    exact .limited bound exceeded
  | continued _ asked below =>
    rw [asked]
    exact executing ▸ .continued below

-- What a step of a quiet run does.
structure Idles (r : Run M) (σ : Schedule) : Prop where
  active : (r.superstepUnder σ).active = 0
  calls : (r.pool σ).calls = []
  graph : (r.stepUnder σ).2.graph = r.graph
  readable : (r.stepUnder σ).2.memory.previous = r.memory.previous
  empty : (r.stepUnder σ).2.inbox.isEmpty = true
  asks : ∃ answer, r.inquiry σ = [(answer, r.memory.iteration)] ∧
    r.Decided answer (r.stepUnder σ).1 (r.stepUnder σ).2.phase

section Resting

variable (running : r.Running)
include running

theorem Running.stepUnder {σ : Schedule} (still : (r.stepUnder σ).2.phase = .execute) :
    (r.superstepUnder σ).failure = none ∧ (r.stepUnder σ).2 = r.whole σ := by
  have stepped : r.stepUnder σ = ((r.stepUnder σ).1, (r.stepUnder σ).2) := rfl
  obtain ⟨passes, -, whole⟩ | ⟨left, -⟩ := standing_stepUnder running stepped 0
  · exact ⟨passes, whole⟩
  · exact absurd still left

theorem Quiet.whole (quiet : r.Quiet) (σ : Schedule) :
    (r.whole σ).graph = r.graph ∧ (r.whole σ).memory.previous = r.memory.previous ∧
      (r.whole σ).inbox.isEmpty = true := by
  have crossed := quiet.crossed running.sound.typed σ running.level
  have whole : r.whole σ = _ := congrArg
    (fun c : Run M => { c with memory := c.memory.advance }) crossed
  rw [whole]
  refine ⟨rfl, rfl, (Inbox.isEmpty_iff _).2 fun id => ?_⟩
  rw [Outbox.messages_deliver]
  simp [Outbox.waiting, Outbox.empty]

theorem Quiet.idles (quiet : r.Quiet) (σ : Schedule) : r.Idles σ := by
  have typed := running.sound.typed
  have passes := quiet.passes typed σ
  obtain ⟨graph, readable, empty⟩ := quiet.whole running σ
  have kept : (r.stepUnder σ).2.memory.previous = (r.whole σ).memory.previous ∧
      (r.stepUnder σ).2.graph = (r.whole σ).graph ∧
        (r.stepUnder σ).2.inbox = (r.whole σ).inbox := by
    have stepped : r.stepUnder σ = ((r.stepUnder σ).1, (r.stepUnder σ).2) := rfl
    obtain ⟨-, -, same⟩ | ⟨-, standing⟩ := standing_stepUnder running stepped 0
    · rw [same]
      exact ⟨rfl, rfl, rfl⟩
    · rw [if_pos passes] at standing
      exact standing.contents (running.whole σ).level
  constructor
  case active => exact quiet.active typed σ
  case calls => exact quiet.calls typed σ
  case graph => exact kept.2.1.trans graph
  case readable => exact kept.1.trans readable
  case empty => rw [kept.2.2, empty]
  case asks =>
    exact ⟨_, inquiry_of_passes running.sound running.executing passes,
      (ended_stepUnder running.sound running.executing σ).decided passes running.executing⟩

end Resting

theorem Idles.quiet {σ : Schedule} (idles : r.Idles σ) (quiet : r.Quiet) :
    (r.stepUnder σ).2.Quiet where
  halted := by
    rw [idles.graph]
    exact quiet.halted
  empty := idles.empty

theorem last_cons (r : Run M) (σ : Schedule) (rest : List Schedule) :
    (r.stepsUnder (σ :: rest)).2 = ((r.stepUnder σ).2.stepsUnder rest).2 := rfl

theorem Running.stepsUnder (running : r.Running) (schedules : List Schedule)
    (still : (r.stepsUnder schedules).2.phase = .execute) :
    (r.stepsUnder schedules).2.Running ∧
      (r.stepsUnder schedules).2.memory.iteration = r.memory.iteration + schedules.length ∧
      (r.inquiries schedules).map Prod.snd = List.range' r.memory.iteration schedules.length := by
  induction schedules generalizing r with
  | nil => exact ⟨running, rfl, rfl⟩
  | cons σ rest ih =>
    have goes : (r.stepUnder σ).2.phase = .execute := by
      by_contra left
      -- A run that has left the phase does not come back to it.
      rw [last_cons, stepsUnder_of_left left] at still
      exact left still
    obtain ⟨passes, whole⟩ := running.stepUnder goes
    have counted := iteration_whole running σ
    have inquired := congrArg (List.map Prod.snd)
      (inquiry_of_passes running.sound running.executing passes)
    obtain ⟨later, iteration, numbers⟩ :=
      ih (r := (r.stepUnder σ).2) (whole ▸ running.whole σ) still
    rw [whole, counted] at numbers
    refine ⟨later, ?_, ?_⟩
    · refine iteration.trans ?_
      rw [whole, counted, List.length_cons]
      omega
    · rw [inquiries_cons, List.map_append, inquired, whole, numbers, List.length_cons,
        List.range'_succ]
      rfl

theorem stepsUnder_append (r : Run M) (front back : List Schedule) :
    (r.stepsUnder (front ++ back)).2 = ((r.stepsUnder front).2.stepsUnder back).2 := by
  induction front generalizing r with
  | nil => rfl
  | cons σ rest ih => exact ih (r.stepUnder σ).2

theorem inquiries_append (r : Run M) (front back : List Schedule) :
    r.inquiries (front ++ back) = r.inquiries front ++ (r.stepsUnder front).2.inquiries back := by
  induction front generalizing r with
  | nil => rfl
  | cons σ rest ih =>
    have later := ih (r.stepUnder σ).2
    rw [List.cons_append, inquiries_cons, inquiries_cons, later, List.append_assoc]
    rfl

theorem Quiet.stepsUnder (running : r.Running) (quiet : r.Quiet) (schedules : List Schedule) :
    (r.stepsUnder schedules).2.graph = r.graph ∧
      (r.stepsUnder schedules).2.memory.previous = r.memory.previous ∧
      (r.stepsUnder schedules).2.Quiet := by
  induction schedules generalizing r with
  | nil => exact ⟨rfl, rfl, quiet⟩
  | cons σ rest ih =>
    have idles := quiet.idles running σ
    have next := idles.quiet quiet
    rw [last_cons]
    by_cases still : (r.stepUnder σ).2.phase = .execute
    · have whole := (running.stepUnder still).2
      obtain ⟨graph, readable, later⟩ := ih (r := (r.stepUnder σ).2)
        (whole ▸ running.whole σ) next
      exact ⟨graph.trans idles.graph, readable.trans idles.readable, later⟩
    · rw [stepsUnder_of_left still]
      exact ⟨idles.graph, idles.readable, next⟩

section Addressed

-- Every message has a vertex that it is for.
def Addressed (r : Run M) : Prop :=
  ∀ id, r.inbox.messages id ≠ [] → r.graph.contains id = true

theorem Addressed.stepUnder (steady : r.Steady) (addressed : r.Addressed) (σ : Schedule) :
    (r.stepUnder σ).2.Addressed := by
  by_cases executing : r.phase = .execute
  · have crossed (id : VertexId)
        (some : (r.crossed (r.superstepUnder σ)).inbox.messages id ≠ []) :
        r.graph.contains id = true := by
      rw [messages_crossed] at some
      by_contra unknown
      exact some (if_neg unknown)
    have ended := ended_stepUnder (steady executing) executing σ
    rcases stepped : r.stepUnder σ with ⟨outcome, next⟩
    rw [stepped] at ended
    cases ended with
    | aborted => exact addressed
    | broken | halted | limited | continued => exact crossed
  · rw [stepUnder_of_left executing]
    exact addressed

theorem Addressed.stepsUnder (steady : r.Steady) (addressed : r.Addressed)
    (schedules : List Schedule) : (r.stepsUnder schedules).2.Addressed := by
  induction schedules generalizing r with
  | nil => exact addressed
  | cons σ rest ih => exact ih (steady.stepUnder σ) (addressed.stepUnder steady σ)

theorem active_pos_of_unquiet (typed : r.memory.Typed) (indexed : r.graph.Indexed)
    (addressed : r.Addressed)
    (unquiet : (∃ v ∈ r.graph.vertices, v.halted = false) ∨ r.inbox.isEmpty = false)
    (σ : Schedule) : 0 < (r.superstepUnder σ).active := by
  rcases unquiet with ⟨v, member, active⟩ | full
  · refine active_pos typed σ member ?_
    rw [Inbox.wake_eq]
    split
    · exact active
    · rfl
  · have some : ∃ id, r.inbox.messages id ≠ [] := by
      rw [← not_forall, ← Inbox.isEmpty_iff, full]
      simp
    obtain ⟨id, mail⟩ := some
    obtain ⟨v, member, rfl⟩ := List.mem_map.1 ((indexed.contains_iff id).1 (addressed id mail))
    refine active_pos typed σ member ?_
    rw [Inbox.wake_eq, if_neg mail]
    rfl

end Addressed

theorem quiet_stays {graph : Graph} {program : VertexProgram M} {jobs : List Registered}
    {settings : Settings} {host : Host} {first : Run M}
    (began : start graph program jobs settings host = .ok first) :
    (program.Observes → ∀ earlier more σ,
      let r := (first.stepsUnder earlier).2
      let q := (r.stepsUnder more).2
      r.phase = .execute → r.Quiet →
        q.graph = r.graph ∧ q.memory.previous = r.memory.previous ∧ q.Quiet ∧
          (q.phase = .execute → q.Idles σ ∧
            (first.inquiries (earlier ++ more ++ [σ])).map Prod.snd =
              List.range (earlier.length + more.length + 1))) ∧
      (graph.Indexed → program.Alters → ∀ earlier σ,
        let r := (first.stepsUnder earlier).2
        r.phase = .execute →
          ((∃ v ∈ r.graph.vertices, v.halted = false) ∨ r.inbox.isEmpty = false) →
            0 < (r.superstepUnder σ).active) := by
  have fresh := fresh_of_start began
  have steady : first.Steady := fun _ => fresh.sound
  constructor
  · intro observes earlier more σ r q executing quiet
    have running : first.Running :=
      ⟨fresh.sound, fresh.level, fresh.phase, fresh.program ▸ observes⟩
    obtain ⟨graph, readable, still⟩ :=
      quiet.stepsUnder (running.stepsUnder earlier executing).1 more
    refine ⟨graph, readable, still, fun going => ?_⟩
    have whole : q = (first.stepsUnder (earlier ++ more)).2 :=
      (first.stepsUnder_append earlier more).symm
    obtain ⟨later, iteration, numbers⟩ :=
      running.stepsUnder (earlier ++ more) (whole ▸ going)
    rw [← whole] at later iteration
    have idles := still.idles later σ
    obtain ⟨answer, inquired, -⟩ := idles.asks
    refine ⟨idles, ?_⟩
    have last : q.inquiries [σ] = q.inquiry σ := List.append_nil _
    rw [inquiries_append, ← whole, List.map_append, numbers, last, inquired, iteration,
      fresh.iteration, List.length_append, List.range_succ, List.range_eq_range']
    simp
  · intro indexed alters earlier σ r executing unquiet
    have reworked := reworked_stepsUnder steady (fresh.program ▸ alters) earlier
    rw [fresh.graph] at reworked
    have none : first.Addressed := fun id some => absurd (by rw [fresh.inbox]; rfl) some
    exact active_pos_of_unquiet (steady.stepsUnder earlier executing).typed
      (reworked.indexed indexed) (none.stepsUnder steady earlier) unquiet σ

-- Whoever has heard nothing tells vertex 1; all halt at once.
def telling : VertexProgram Unit where
  keys := []
  setup := .done (.ok ())
  execute v messages :=
    if messages.isEmpty then .send ⟨1⟩ () (.done (.ok (), v.voteToHalt))
    else .done (.ok (), v.voteToHalt)
  terminate := .read .iteration fun number => .done (.ok (number = 4))

theorem alters_telling : telling.Alters := by
  intro v messages m
  simp only [telling]
  split <;> exact .voteToHalt .refl

-- The second superstep is made for the messages of the first; after it nothing is left.
theorem quiet_stays_telling :
    ∃ first : Run Unit,
      start (.ofEdges [(⟨0⟩, ⟨1⟩)]) telling [] ⟨none, none, none⟩ .still = .ok first ∧
      telling.Observes ∧ (Graph.ofEdges [(⟨0⟩, ⟨1⟩)]).Indexed ∧ telling.Alters ∧
      let next := (first.stepsUnder [⟨[1, 0], 0⟩]).2
      let r := (first.stepsUnder [⟨[1, 0], 0⟩, ⟨[], 0⟩]).2
      next.phase = .execute ∧ next.inbox.isEmpty = false ∧
        0 < (next.superstepUnder ⟨[], 0⟩).active ∧
      r.phase = .execute ∧ r.Quiet ∧ (r.stepsUnder [⟨[0], 0⟩]).2.phase = .execute ∧
        (r.stepsUnder [⟨[0], 0⟩]).2.Idles ⟨[1, 1], 0⟩ ∧
        (first.inquiries [⟨[1, 0], 0⟩, ⟨[], 0⟩, ⟨[0], 0⟩, ⟨[1, 1], 0⟩]).map Prod.snd =
          [0, 1, 2, 3] := by
  obtain ⟨first, began, executing, full, still, halted, empty, going⟩ :
      ∃ first : Run Unit,
        start (.ofEdges [(⟨0⟩, ⟨1⟩)]) telling [] ⟨none, none, none⟩ .still =
          .ok first ∧
        (first.stepsUnder [⟨[1, 0], 0⟩]).2.phase = .execute ∧
        (first.stepsUnder [⟨[1, 0], 0⟩]).2.inbox.isEmpty = false ∧
        (first.stepsUnder [⟨[1, 0], 0⟩, ⟨[], 0⟩]).2.phase = .execute ∧
        (∀ v ∈ (first.stepsUnder [⟨[1, 0], 0⟩, ⟨[], 0⟩]).2.graph.vertices, v.halted = true) ∧
        (first.stepsUnder [⟨[1, 0], 0⟩, ⟨[], 0⟩]).2.inbox.isEmpty = true ∧
        ((first.stepsUnder [⟨[1, 0], 0⟩, ⟨[], 0⟩]).2.stepsUnder [⟨[0], 0⟩]).2.phase = .execute :=
    ⟨_, rfl, rfl, by decide +kernel, by decide +kernel, by decide +kernel, by decide +kernel,
      by decide +kernel⟩
  have observes : telling.Observes := fun _ => rfl
  have indexed := Graph.indexed_ofEdges [(⟨0⟩, ⟨1⟩)]
  obtain ⟨rests, works⟩ := quiet_stays began
  obtain ⟨-, -, -, idles⟩ := rests observes [⟨[1, 0], 0⟩, ⟨[], 0⟩] [⟨[0], 0⟩] ⟨[1, 1], 0⟩ still
    ⟨halted, empty⟩
  obtain ⟨idle, numbers⟩ := idles going
  exact ⟨first, began, observes, indexed, alters_telling, executing, full,
    works indexed alters_telling [⟨[1, 0], 0⟩] ⟨[], 0⟩ executing (.inr full), still,
    ⟨halted, empty⟩, going, idle, numbers⟩

end Run

end BulkSync
