import BulkSync.Proofs.Schedule.Basic

set_option autoImplicit false

namespace BulkSync

variable {M : Type}

namespace Action

variable {α : Type}

theorem next?_eq_some {a rest : Action M α} {s after : Shared M} {call : Call M}
    (next : a.next? s = some (call, rest, after)) :
    after = s.absorb call ∧ a.transcript s = call :: rest.transcript after ∧
      a.run s = rest.run after := by
  cases a with
  | done a => cases next
  | read r next' | write w next' | send target message next' =>
    cases next
    exact ⟨rfl, rfl, rfl⟩

theorem next?_eq_none {a : Action M α} {s : Shared M} (stopped : a.next? s = none) :
    ∃ result, a = done result := by
  cases a with
  | done result => exact ⟨result, rfl⟩
  | read | write | send => cases stopped

end Action

namespace Task

def isOver : Task M → Bool
  | passed _ | executing _ (.done _) => true
  | _ => false

theorem isOver_cases {t : Task M} (finished : t.isOver) :
    (∃ v, t = passed v) ∨ ∃ v result, t = executing v (.done result) := by
  unfold isOver at finished
  split at finished
  next v => exact .inl ⟨v, rfl⟩
  next v result => exact .inr ⟨v, result, rfl⟩
  next => cases finished

theorem isOver_of_hasFailed {t : Task M} (failed : t.hasFailed) : t.isOver := by
  unfold hasFailed at failed
  split at failed
  next => rfl
  next => cases failed

theorem failure?_eq_none_iff {t : Task M} (number : Nat) :
    t.failure? number = none ↔ t.hasFailed = false := by
  unfold failure? hasFailed
  split <;> simp

theorem isWaiting_start (program : VertexProgram M) (inbox : Inbox M) (v : Vertex) :
    (start program inbox v).isWaiting = false := by
  simp only [start]
  split <;> rfl

end Task

namespace Pool

variable (program : VertexProgram M) (inbox : Inbox M)

inductive Turned (p : Pool M) (i : Nat) : Pool M → Prop
  | took {v : Vertex} (found : p.tasks[i]? = some (.waiting v)) :
      Turned p i { p with tasks := p.tasks.set i (.start program inbox v) }
  | called {v : Vertex} {a rest : Action M (Except Cause Unit × Vertex)} {call : Call M}
      (found : p.tasks[i]? = some (.executing v a))
      (next : a.next? p.shared = some (call, rest, p.shared.absorb call)) :
      Turned p i
        ⟨p.tasks.set i (.executing v rest), p.shared.absorb call, p.calls ++ [(i, call)]⟩
  | idle (nothing : ∀ t, p.tasks[i]? = some t → t.isOver) : Turned p i p

theorem turned_turn (p : Pool M) (i : Nat) :
    Turned program inbox p i (p.turn program inbox i) := by
  unfold turn
  split
  next v found => exact .took found
  next v a found =>
    split
    next call rest shared next =>
      obtain ⟨rfl, -, -⟩ := Action.next?_eq_some next
      exact .called found next
    next stopped =>
      obtain ⟨result, rfl⟩ := Action.next?_eq_none stopped
      exact .idle fun t held => by
        rw [found] at held
        cases held
        rfl
  next notWaiting notExecuting =>
    refine .idle fun t held => ?_
    cases t with
    | waiting v => exact absurd held (notWaiting v)
    | passed v => rfl
    | executing v a => exact absurd held (notExecuting v a)

variable {program inbox}

theorem Turned.length {p q : Pool M} {i : Nat} (turned : Turned program inbox p i q) :
    q.tasks.length = p.tasks.length := by
  cases turned <;> simp

theorem Turned.other {p q : Pool M} {i j : Nat} (turned : Turned program inbox p i q)
    (different : i ≠ j) : q.tasks[j]? = p.tasks[j]? := by
  cases turned <;> simp [different]

theorem Turned.isOver {p q : Pool M} {i j : Nat} (turned : Turned program inbox p i q) {t : Task M}
    (held : p.tasks[j]? = some t) (finished : t.isOver) : q.tasks[j]? = some t := by
  by_cases same : i = j
  · subst same
    cases turned with
    | took found =>
      rw [found] at held
      cases held
      cases finished
    | called found next =>
      rw [found] at held
      cases held
      -- What is over has no next call.
      obtain ⟨w, taken⟩ | ⟨w, result, done⟩ := Task.isOver_cases finished
      · cases taken
      · cases done
        cases next
    | idle => exact held
  · rw [turned.other same, held]

theorem failures_eq_nil_iff {p : Pool M} (number : Nat) :
    p.failures number = [] ↔ p.failed = false := by
  simp [failed, failures, List.filterMap_eq_nil_iff, Task.failure?_eq_none_iff]

theorem failed_of_isOver {p q : Pool M} (failed : p.failed = true)
    (kept : ∀ {i : Nat} {t : Task M}, p.tasks[i]? = some t → t.isOver → q.tasks[i]? = some t) :
    q.failed = true := by
  obtain ⟨t, member, failure⟩ := List.any_eq_true.1 failed
  obtain ⟨i, held⟩ := List.mem_iff_getElem?.1 member
  exact List.any_eq_true.2
    ⟨t, List.mem_of_getElem? (kept held (Task.isOver_of_hasFailed failure)), failure⟩

section Joining

variable (program inbox)

theorem turns_cons (p : Pool M) (i : Nat) (order : List Nat) :
    p.turns program inbox (i :: order) = (p.turn program inbox i).turns program inbox order := rfl

theorem turns_append (p : Pool M) (order more : List Nat) :
    p.turns program inbox (order ++ more) =
      (p.turns program inbox order).turns program inbox more :=
  List.foldl_append

theorem drain_executing {p : Pool M} {i : Nat} {v : Vertex}
    {a : Action M (Except Cause Unit × Vertex)} (found : p.tasks[i]? = some (.executing v a)) :
    p.drain i =
      ⟨p.tasks.set i (.executing v (.done (a.run p.shared).1)), (a.run p.shared).2,
        p.calls ++ (a.transcript p.shared).map (i, ·)⟩ := by
  simp [drain, found]

theorem drain_done {p : Pool M} {i : Nat} {v : Vertex} {result : Except Cause Unit × Vertex}
    (found : p.tasks[i]? = some (.executing v (.done result))) : p.drain i = p := by
  have within : i < p.tasks.length := (List.getElem?_eq_some_iff.1 found).1
  have tasks : p.tasks.set i (.executing v (.done result)) = p.tasks := by
    apply List.ext_getElem?
    intro j
    by_cases same : i = j
    · subst same
      rw [List.getElem?_set_self within, found]
    · rw [List.getElem?_set_ne same]
  rw [drain_executing found]
  simp [Action.run, Action.transcript, tasks]

theorem turn_called {p : Pool M} {i : Nat} {v : Vertex} {call : Call M} {after : Shared M}
    {a rest : Action M (Except Cause Unit × Vertex)}
    (found : p.tasks[i]? = some (.executing v a))
    (next : a.next? p.shared = some (call, rest, after)) :
    p.turn program inbox i =
      ⟨p.tasks.set i (.executing v rest), after, p.calls ++ [(i, call)]⟩ := by
  simp [turn, found, next]

theorem drain_called {p : Pool M} {i : Nat} {v : Vertex} {call : Call M} {after : Shared M}
    {a rest : Action M (Except Cause Unit × Vertex)}
    (found : p.tasks[i]? = some (.executing v a))
    (next : a.next? p.shared = some (call, rest, after)) :
    (p.turn program inbox i).tasks[i]? = some (.executing v rest) ∧
      (p.turn program inbox i).drain i = p.drain i := by
  obtain ⟨-, transcript, run⟩ := Action.next?_eq_some next
  have within : i < p.tasks.length := (List.getElem?_eq_some_iff.1 found).1
  have held : (p.turn program inbox i).tasks[i]? = some (.executing v rest) := by
    rw [turn_called program inbox found next]
    exact List.getElem?_set_self within
  refine ⟨held, ?_⟩
  rw [drain_executing held, drain_executing found, turn_called program inbox found next]
  simp [transcript, run]

theorem drain_eq_turns_of_executing (a : Action M (Except Cause Unit × Vertex)) {p : Pool M}
    {i : Nat} {v : Vertex} (found : p.tasks[i]? = some (.executing v a)) :
    ∃ count, p.drain i = p.turns program inbox (List.replicate count i) := by
  induction a generalizing p with
  | done result => exact ⟨0, drain_done found⟩
  | read r next ih =>
    obtain ⟨held, same⟩ := drain_called program inbox found rfl
    obtain ⟨count, later⟩ := ih _ held
    exact ⟨count + 1, by rw [List.replicate_succ, turns_cons, ← later, same]⟩
  | write w next ih =>
    obtain ⟨held, same⟩ := drain_called program inbox found rfl
    obtain ⟨count, later⟩ := ih _ held
    exact ⟨count + 1, by rw [List.replicate_succ, turns_cons, ← later, same]⟩
  | send target message next ih =>
    obtain ⟨held, same⟩ := drain_called program inbox found rfl
    obtain ⟨count, later⟩ := ih held
    exact ⟨count + 1, by rw [List.replicate_succ, turns_cons, ← later, same]⟩

theorem drain_eq_turns (p : Pool M) (i : Nat) :
    ∃ order, p.drain i = p.turns program inbox order := by
  cases found : p.tasks[i]? with
  | none => exact ⟨[], by simp [drain, found, turns]⟩
  | some t =>
    cases t with
    | waiting | passed => exact ⟨[], by simp [drain, found, turns]⟩
    | executing v a =>
      obtain ⟨count, same⟩ := drain_eq_turns_of_executing program inbox a found
      exact ⟨_, same⟩

theorem resume_eq_turns (p : Pool M) (i : Nat) :
    ∃ order, p.resume program inbox i = p.turns program inbox order := by
  unfold resume
  split
  next => exact ⟨[], rfl⟩
  next =>
    obtain ⟨order, same⟩ := drain_eq_turns program inbox (p.turn program inbox i) i
    exact ⟨i :: order, by rw [same, turns_cons]⟩

theorem join_eq_turns (p : Pool M) :
    ∃ order, p.join program inbox = p.turns program inbox order := by
  unfold join
  induction List.range p.tasks.length generalizing p with
  | nil => exact ⟨[], rfl⟩
  | cons i rest ih =>
    obtain ⟨order, first⟩ := resume_eq_turns program inbox p i
    obtain ⟨more, later⟩ := ih (p.resume program inbox i)
    refine ⟨order ++ more, ?_⟩
    rw [List.foldl_cons, later, turns_append, first]

theorem turns_induction (holds : Pool M → Prop) {p : Pool M} (start : holds p)
    (step : ∀ {p q : Pool M} {i : Nat}, Turned program inbox p i q → holds p → holds q)
    (order : List Nat) : holds (p.turns program inbox order) := by
  induction order generalizing p with
  | nil => exact start
  | cons i rest ih => exact ih (step (turned_turn program inbox p i) start)

theorem length_turns (p : Pool M) (order : List Nat) :
    (p.turns program inbox order).tasks.length = p.tasks.length :=
  turns_induction program inbox (fun q => q.tasks.length = p.tasks.length) rfl
    (fun turned held => turned.length.trans held) order

theorem isOver_resume {p : Pool M} (i : Nat) {j : Nat} {t : Task M} (held : p.tasks[j]? = some t)
    (finished : t.isOver) : (p.resume program inbox i).tasks[j]? = some t := by
  obtain ⟨order, same⟩ := resume_eq_turns program inbox p i
  rw [same]
  exact turns_induction program inbox (fun q => q.tasks[j]? = some t) held
    (fun turned held => turned.isOver held finished) order

theorem drain_other (p : Pool M) {i j : Nat} (different : i ≠ j) :
    (p.drain i).tasks[j]? = p.tasks[j]? := by
  unfold drain
  split
  next => simp [different]
  next => rfl

theorem resume_other (p : Pool M) {i j : Nat} (different : i ≠ j) :
    (p.resume program inbox i).tasks[j]? = p.tasks[j]? := by
  unfold resume
  split
  next => rfl
  next => rw [drain_other _ different, (turned_turn program inbox p i).other different]

def Stopped (p : Pool M) (i : Nat) : Prop :=
  ∀ t, p.tasks[i]? = some t → t.isOver ∨ t.isWaiting ∧ p.failed

theorem isOver_drain {p : Pool M} {i : Nat}
    (begun : ∀ t, p.tasks[i]? = some t → t.isWaiting = false) {t : Task M}
    (held : (p.drain i).tasks[i]? = some t) : t.isOver := by
  unfold drain at held
  split at held
  next v a found =>
    have within : i < p.tasks.length := (List.getElem?_eq_some_iff.1 found).1
    rw [List.getElem?_set_self within] at held
    cases held
    rfl
  next notExecuting =>
    cases t with
    | waiting v => cases begun _ held
    | passed v => rfl
    | executing v a => exact absurd held (notExecuting v a)

theorem begun_turn (p : Pool M) (i : Nat) {t : Task M}
    (held : (p.turn program inbox i).tasks[i]? = some t) : t.isWaiting = false := by
  have turned := turned_turn program inbox p i
  generalize p.turn program inbox i = q at turned held
  cases turned with
  | @took v found =>
    have within : i < p.tasks.length := (List.getElem?_eq_some_iff.1 found).1
    rw [List.getElem?_set_self within] at held
    cases held
    exact Task.isWaiting_start program inbox v
  | called found =>
    have within : i < p.tasks.length := (List.getElem?_eq_some_iff.1 found).1
    rw [List.getElem?_set_self within] at held
    cases held
    rfl
  | idle nothing =>
    have finished := nothing t held
    cases t <;> simp_all [Task.isOver, Task.isWaiting]

theorem stopped_resume (p : Pool M) (i : Nat) : (p.resume program inbox i).Stopped i := by
  unfold resume
  split
  next left =>
    intro t held
    simp only [held, Option.any_some, Bool.and_eq_true] at left
    exact .inr ⟨left.2, left.1⟩
  next =>
    intro t held
    exact .inl (isOver_drain (fun t => begun_turn program inbox p i) held)

theorem Stopped.resume {p : Pool M} {i j : Nat} (stopped : p.Stopped j) (different : i ≠ j) :
    (p.resume program inbox i).Stopped j := by
  intro t held
  rw [resume_other program inbox p different] at held
  refine (stopped t held).imp_right fun left => ⟨left.1, ?_⟩
  exact failed_of_isOver left.2 (isOver_resume program inbox i)

theorem stopped_foldl (p : Pool M) (count : Nat) {i : Nat} (reached : i < count) :
    ((List.range count).foldl (resume program inbox) p).Stopped i := by
  induction count with
  | zero => omega
  | succ count ih =>
    rw [List.range_succ, List.foldl_append, List.foldl_cons, List.foldl_nil]
    by_cases last : count = i
    -- The worker at `count` comes last. Those before it have stopped, and stay so.
    · subst last
      exact stopped_resume program inbox _ count
    · exact (ih (by omega)).resume program inbox last

theorem stopped_join (p : Pool M) {t : Task M} (member : t ∈ (p.join program inbox).tasks) :
    t.isOver ∨ t.isWaiting ∧ (p.join program inbox).failed := by
  obtain ⟨order, joined⟩ := join_eq_turns program inbox p
  obtain ⟨i, held⟩ := List.mem_iff_getElem?.1 member
  have within : i < p.tasks.length := by
    rw [← length_turns program inbox p order, ← joined]
    exact (List.getElem?_eq_some_iff.1 held).1
  exact stopped_foldl program inbox p p.tasks.length within t held

theorem resume_of_stopped {p : Pool M} {i : Nat} (stopped : p.Stopped i) :
    p.resume program inbox i = p := by
  cases found : p.tasks[i]? with
  | none => simp [resume, turn, drain, found]
  | some t =>
    rcases stopped t found with finished | ⟨waits, failed⟩
    · obtain ⟨v, rfl⟩ | ⟨v, result, rfl⟩ := Task.isOver_cases finished
      · simp [resume, turn, drain, found, Task.isWaiting]
      · have idle : p.turn program inbox i = p := by simp [turn, found, Action.next?]
        have drained := drain_done found
        simp [resume, found, Task.isWaiting, idle, drained]
    · simp [resume, failed, found, waits]

theorem join_of_stopped {p : Pool M} (stopped : ∀ i, p.Stopped i) : p.join program inbox = p := by
  unfold join
  induction List.range p.tasks.length with
  | nil => rfl
  | cons i rest ih => rw [List.foldl_cons, resume_of_stopped program inbox (stopped i), ih]

theorem exists_turns_done (vertices : List Vertex) (m : Memory) (positions : List Nat) :
    ∃ order, ∀ i t, ((opened vertices m).turns program inbox order).tasks[i]? = some t →
      if i ∈ positions then t.isOver else t.isWaiting := by
  induction positions with
  | nil =>
    refine ⟨[], fun i t held => ?_⟩
    simp only [turns, opened, List.foldl_nil, List.getElem?_map, Option.map_eq_some_iff] at held
    obtain ⟨v, -, rfl⟩ := held
    rfl
  | cons position rest ih =>
    obtain ⟨order, reached⟩ := ih
    generalize same : (opened vertices m).turns program inbox order = p at reached
    obtain ⟨more, drained⟩ := drain_eq_turns program inbox (p.turn program inbox position) position
    -- One more position: one turn takes its vertex up, the rest of its calls follow at once.
    refine ⟨order ++ position :: more, fun i t held => ?_⟩
    rw [turns_append, same, turns_cons, ← drained] at held
    by_cases here : position = i
    · subst here
      simpa using isOver_drain (fun t => begun_turn program inbox p position) held
    · rw [drain_other _ here, (turned_turn program inbox p position).other here] at held
      have elsewhere := reached i t held
      simpa [Ne.symm here] using elsewhere

end Joining

end Pool

end BulkSync
