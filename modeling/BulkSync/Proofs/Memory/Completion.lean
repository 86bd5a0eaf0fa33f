import BulkSync.Proofs.Memory.Consistency
import BulkSync.Proofs.Memory.Rollback

set_option autoImplicit false

namespace BulkSync.Memory

def Event.storedAt (key : String) : Event → Option Value
  | ⟨.storeResult name v, .ok ()⟩ => if name = key then some v else none
  | _ => none

def lastStored (key : String) (events : List Event) : Option Value :=
  (events.filterMap (·.storedAt key)).getLast?

@[simp] theorem op_events (m : Memory) (ops : List Operation) :
    (m.events ops).map Event.op = ops := by
  induction ops generalizing m with
  | nil => rfl
  | cons op rest ih => exact congrArg (op :: ·) (ih (m.perform op).2)

theorem lastStored_concat (key : String) (past : List Event) (e : Event) :
    lastStored key (past ++ [e]) = (e.storedAt key).or (lastStored key past) := by
  cases stored : e.storedAt key <;> simp [lastStored, stored]

theorem lastStored_of_other {key : String} {e : Event} (other : e.storedAt key = none)
    (past : List Event) : lastStored key (past ++ [e]) = lastStored key past := by
  rw [lastStored_concat, other, Option.none_or]

theorem storedAt_of_refused {e : Event} (refused : e.refused = true) (key : String) :
    e.storedAt key = none := by
  obtain ⟨op, answer⟩ := e
  cases op with
  | storeResult name v =>
    cases answer with
    | error => rfl
    | ok => cases refused
  | read | write | registerResult | commit | rollback | advance | setRuntime | complete => rfl

-- What may be called once memory is complete: anything that does not end a superstep or a run.
def Operation.Late (op : Operation) : Prop := op ≠ .commit ∧ op ≠ .complete

structure Sealed (m : Memory) (past : List Event) (n : Memory) : Prop where
  typed : n.Typed
  frozen : n.frozen = true
  compute : ∀ key, n.roleAt key = some .compute ↔ m.roleAt key = some .compute
  readable : ∀ key, n.previous[key]? =
    if m.roleAt key = some .compute then m.cell key else lastStored key past

section Step

variable {m n : Memory} {past : List Event}

theorem Sealed.refusal (closed : m.Sealed past n) (w : Write) :
    n.refusal w = some (.frozen w.key) :=
  refusal_of_refused (.frozen closed.frozen)

-- A call that leaves roles and readable values alone, and does not store.
theorem Sealed.keep {e : Event} {next : Memory} (closed : m.Sealed past n) (typed : next.Typed)
    (frozen : next.frozen = n.frozen) (roles : ∀ key, next.roleAt key = n.roleAt key)
    (readable : next.previous = n.previous) (idle : ∀ key, e.storedAt key = none) :
    m.Sealed (past ++ [e]) next where
  typed := typed
  frozen := frozen.trans closed.frozen
  compute key := by rw [roles, closed.compute]
  readable key := by rw [readable, closed.readable, lastStored_of_other (idle key)]

theorem Sealed.registerResult {key : Key} {next : Memory} (closed : m.Sealed past n)
    (made : n.registerResult key = .ok next) :
    m.Sealed (past ++ [⟨.registerResult key, .ok ()⟩]) next := by
  have typed : next.Typed := closed.typed.declare made
  obtain ⟨absent, rfl⟩ := declare_eq_ok made
  constructor
  case typed => exact typed
  case frozen => exact closed.frozen
  case compute =>
    intro name
    by_cases same : key.name = name
    case neg => simpa [roleAt, Std.ExtTreeMap.getElem?_insert, same] using closed.compute name
    case pos =>
      -- The name was free, so that it is no compute key of `m` either.
      subst same
      have free : m.roleAt key.name ≠ some .compute := by
        rw [ne_eq, ← closed.compute]
        simp [roleAt, Std.ExtTreeMap.getElem?_eq_none absent]
      simpa [roleAt] using free
  case readable =>
    intro name
    rw [lastStored_of_other rfl]
    exact closed.readable name

theorem Sealed.storeResult {key : String} {v : Value} {next : Memory} (closed : m.Sealed past n)
    (made : n.storeResult key v = .ok next) :
    m.Sealed (past ++ [⟨.storeResult key v, .ok ()⟩]) next := by
  have typed : next.Typed := closed.typed.storeResult made
  obtain ⟨role, -, rfl⟩ := storeResult_eq_ok made
  constructor
  case typed => exact typed
  case frozen => exact closed.frozen
  case compute => exact closed.compute
  case readable =>
    intro name
    rw [lastStored_concat]
    by_cases same : key = name
    case neg =>
      simpa [Event.storedAt, Std.ExtTreeMap.getElem?_insert, same] using closed.readable name
    case pos =>
      subst same
      have result : m.roleAt key ≠ some .compute := by
        rw [ne_eq, ← closed.compute, role]
        simp
      simp [Event.storedAt, result]

theorem Sealed.step {e : Event} {next : Memory} (closed : m.Sealed past n) (late : e.op.Late)
    (step : n.Step e next) : m.Sealed (past ++ [e]) next := by
  cases step with
  | read => exact closed.keep closed.typed rfl (fun _ => rfl) rfl fun _ => rfl
  | refused refused =>
    exact closed.keep closed.typed rfl (fun _ => rfl) rfl (storedAt_of_refused refused)
  | write accepted =>
    rw [closed.refusal] at accepted
    cases accepted
  | registerResult made => exact closed.registerResult made
  | commit => exact absurd rfl late.1
  | rollback =>
    exact closed.keep closed.typed.rollback rfl (roleAt_rollback n) rfl fun _ => rfl
  | advance => exact closed.keep closed.typed.advance rfl (fun _ => rfl) rfl fun _ => rfl
  | setRuntime made =>
    have thawed := (setRuntime_eq_ok made).1
    rw [closed.frozen] at thawed
    cases thawed
  | complete => exact absurd rfl late.2
  | storeResult made => exact closed.storeResult made

theorem Sealed.after {later : List Operation} (closed : m.Sealed past n)
    (late : ∀ op ∈ later, op.Late) : m.Sealed (past ++ n.events later) (n.after later) := by
  induction later generalizing n past with
  | nil => simpa [Memory.after, events] using closed
  | cons op rest ih =>
    have next := closed.step (late op List.mem_cons_self) (step_perform closed.typed op)
    simpa [Memory.after, events] using
      ih next fun other member => late other (List.mem_cons_of_mem op member)

end Step

theorem Kept.cell_of_not_compute {m : Memory} {past : List Event} (kept : m.Kept past)
    (inner : ∀ key v, .storeResult key v ∉ past.map Event.op) {key : String}
    (other : m.roleAt key ≠ some .compute) : m.cell key = none := by
  rw [Option.eq_none_iff_forall_ne_some]
  intro v held
  cases role : m.roleAt key with
  | none =>
    have known := kept.typed.cell held
    simp_all [roleAt, kindAt]
  | some found =>
    cases found with
    | compute => contradiction
    | result => exact inner key v (List.mem_map_of_mem (kept.stored role (.inr held)))

theorem sealed_complete {m : Memory} {past : List Event} (kept : m.Kept past)
    (inner : ∀ key v, .storeResult key v ∉ past.map Event.op) : m.Sealed [] m.complete where
  typed := kept.typed.complete
  frozen := rfl
  compute key := by rw [roleAt_complete]
  readable key := by
    have shown : m.complete.previous[key]? = m.cell key := m.written_getElem? key
    rw [shown]
    split
    next => rfl
    next other => exact kept.cell_of_not_compute inner other

theorem frame_complete {m : Memory} (level : m.Level) :
    { m.complete with iteration := m.iteration, frozen := m.frozen }.frame = m.frame := by
  have readable : m.complete.previous = m.previous := level
  simp [frame, complete, Slot.bare, ← readable]

-- Under the key stands this value, or nothing can be read.
def Shows (m : Memory) (key : String) (v : Option Value) : Prop :=
  m.get key = v.elim (.error (.absent key)) .ok ∧ m.contains key = v.isSome

theorem shows_of_readable {m : Memory} {key : String} {v : Option Value}
    (readable : m.previous[key]? = v) : m.Shows key v := by
  subst readable
  constructor
  · cases found : m.previous[key]? <;> simp [get, found]
  · exact Std.ExtTreeMap.contains_eq_isSome_getElem?

-- What holds of `n` if memory was completed as `m` and has seen the calls `since`.
structure Closed (m : Memory) (since : List Event) (n : Memory) : Prop where
  frozen : n.frozen = true
  write : ∀ w, n.write w = (.error (.frozen w.key), n)
  setRuntime : ∀ runtime, n.setRuntime runtime = .error (.frozen "runtime")
  roles : ∀ key, n.roleAt key = some .compute ↔ m.roleAt key = some .compute
  compute : ∀ key, n.roleAt key = some .compute → n.Shows key (m.cell key)
  result : ∀ key, n.roleAt key = some .result → n.Shows key (lastStored key since)
  undeclared : ∀ key, n.roleAt key = none → n.Shows key none

theorem Sealed.closed {m n : Memory} {since : List Event} (closed : m.Sealed since n) :
    m.Closed since n := by
  have readable (key : String) := closed.readable key
  simp only [← closed.compute] at readable
  constructor
  case frozen => exact closed.frozen
  case write => exact fun w => write_refused (closed.refusal w)
  case setRuntime => exact fun runtime => by simp [Memory.setRuntime, closed.frozen]
  case roles => exact closed.compute
  case compute =>
    intro key role
    exact shows_of_readable (by simp [readable, role])
  case result =>
    intro key role
    exact shows_of_readable (by simp [readable, role])
  case undeclared =>
    intro key role
    refine shows_of_readable (Option.eq_none_iff_forall_ne_some.2 fun v shown => ?_)
    have known := closed.typed.readable shown
    simp_all [roleAt, kindAt]

theorem complete_closes {m : Memory} {past : List Event} (reached : m.Reached past)
    (inner : ∀ key v, .storeResult key v ∉ past.map Event.op) :
    (∀ later, (∀ op ∈ later, op.Late) →
      m.Closed (m.complete.events later) (m.complete.after later)) ∧
      (Settled past →
        SameReads { m.complete with iteration := m.iteration, frozen := m.frozen } m) := by
  constructor
  · intro later late
    have closed := (sealed_complete reached.kept inner).after late
    exact closed.closed
  · intro settled
    exact sameReads_of_frame (frame_complete (reached.kept.level settled))

-- A run that is completed with writes since its last barrier.
def working : List Operation :=
  [.write (.incr "hits" 3), .registerResult ⟨"total", .integer⟩, .commit,
    .write (.incr "hits" 4), .write (.set "over" (.boolean false))]

-- Calls of every kind on it, four of them refused.
def afterwards : List Operation :=
  [.write (.incr "hits" 1), .rollback, .storeResult "total" (.integer 7), .setRuntime ⟨1, 0⟩,
    .registerResult ⟨"late", .boolean⟩, .storeResult "hits" (.integer 1), .rollback, .advance,
    .write (.set "total" (.integer 1)), .storeResult "total" (.integer 9), .read .keys]

theorem complete_closes_working :
    ∃ start, ofKeys [⟨"hits", .integer⟩, ⟨"over", .boolean⟩, ⟨"last", .blob⟩] = .ok start ∧
      (∀ key v, .storeResult key v ∉ (start.events working).map Event.op) ∧
      (∀ op ∈ afterwards, op.Late) ∧
      ((start.after working).complete.events afterwards).countP Event.refused = 4 ∧
      (start.after working).cell "hits" = some (.integer 7) ∧
      lastStored "total" ((start.after working).complete.events afterwards) =
        some (.integer 9) ∧
      (start.after working).Closed ((start.after working).complete.events afterwards)
        ((start.after working).complete.after afterwards) ∧
      Settled (start.events opening) ∧
      SameReads
        { (start.after opening).complete with
          iteration := (start.after opening).iteration
          frozen := (start.after opening).frozen }
        (start.after opening) := by
  obtain ⟨start, new, refused, hits, total, settled⟩ :
      ∃ start, ofKeys [⟨"hits", .integer⟩, ⟨"over", .boolean⟩, ⟨"last", .blob⟩] = .ok start ∧
        ((start.after working).complete.events afterwards).countP Event.refused = 4 ∧
        (start.after working).cell "hits" = some (.integer 7) ∧
        lastStored "total" ((start.after working).complete.events afterwards) =
          some (.integer 9) ∧
        Settled (start.events opening) := by
    refine ⟨_, rfl, ?_, ?_, ?_, ?_⟩ <;> decide +kernel
  have working_inner : ∀ key v, .storeResult key v ∉ (start.events working).map Event.op := by
    simp [op_events, working]
  have opening_inner : ∀ key v, .storeResult key v ∉ (start.events opening).map Event.op := by
    simp [op_events, opening]
  have late : ∀ op ∈ afterwards, op.Late := by simp [afterwards, Operation.Late]
  exact ⟨start, new, working_inner, late, refused, hits, total,
    (complete_closes (.after new working) working_inner).1 afterwards late, settled,
    (complete_closes (.after new opening) opening_inner).2 settled⟩

end BulkSync.Memory
