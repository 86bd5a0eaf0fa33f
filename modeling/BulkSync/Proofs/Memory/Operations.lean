import BulkSync.Proofs.Memory.Barrier

set_option autoImplicit false

namespace BulkSync.Memory

section Calls

inductive Operation
  | read (r : Read)
  | write (w : Write)
  | registerResult (key : Key)
  | commit
  | rollback
  | advance
  | setRuntime (runtime : Duration)
  | complete
  | storeResult (key : String) (v : Value)
  deriving DecidableEq

@[reducible] def Operation.Answer : Operation → Type
  | .read r => r.Answer
  | .write w => Except Error w.Answer
  | .registerResult _ => Except Config.Error Unit
  | .setRuntime _ | .storeResult _ _ => Except Error Unit
  | .commit | .rollback | .advance | .complete => Unit

-- The memory that a call made, or the one before it.
def orKeep {ε : Type} (m : Memory) : Except ε Memory → Except ε Unit × Memory
  | .ok n => (.ok (), n)
  | .error e => (.error e, m)

def perform (m : Memory) : (op : Operation) → op.Answer × Memory
  | .read r => (m.answer r, m)
  | .write w => m.write w
  | .registerResult key => m.orKeep (m.registerResult key)
  | .commit => ((), m.commit)
  | .rollback => ((), m.rollback)
  | .advance => ((), m.advance)
  | .setRuntime runtime => m.orKeep (m.setRuntime runtime)
  | .complete => ((), m.complete)
  | .storeResult key v => m.orKeep (m.storeResult key v)

structure Event where
  op : Operation
  answer : op.Answer

def event (m : Memory) (op : Operation) : Event := ⟨op, (m.perform op).1⟩

def after (m : Memory) : List Operation → Memory
  | [] => m
  | op :: rest => (m.perform op).2.after rest

def events (m : Memory) : List Operation → List Event
  | [] => []
  | op :: rest => m.event op :: (m.perform op).2.events rest

def Event.refused : Event → Bool
  | ⟨.write _, .error _⟩ => true
  | ⟨.registerResult _, .error _⟩ => true
  | ⟨.setRuntime _, .error _⟩ => true
  | ⟨.storeResult _ _, .error _⟩ => true
  | _ => false

def Event.onBuffers (e : Event) : Bool :=
  match e.op with
  | .write _ | .storeResult _ _ => !e.refused
  | .commit | .rollback | .complete => true
  | .read _ | .registerResult _ | .advance | .setRuntime _ => false

/-- The last call on the buffers, if there was one, was a commit or a rollback. -/
def Settled (past : List Event) : Prop :=
  ∀ e ∈ (past.filter Event.onBuffers).getLast?, e.op = .commit ∨ e.op = .rollback

instance (past : List Event) : Decidable (Settled past) :=
  inferInstanceAs (Decidable (∀ e ∈ (past.filter Event.onBuffers).getLast?, _))

end Calls

section Roles

def roleAt (m : Memory) (key : String) : Option Role := m.current[key]?.map Slot.role

@[simp] theorem roleAt_frame (m : Memory) (key : String) : m.frame.roleAt key = m.roleAt key := by
  cases found : m.current[key]? <;> simp [roleAt, found, Slot.bare]

theorem roleAt_congr {m n : Memory} (frames : m.frame = n.frame) (key : String) :
    m.roleAt key = n.roleAt key := by
  rw [← roleAt_frame m, frames, roleAt_frame n]

theorem roleAt_rollback (m : Memory) (key : String) : m.rollback.roleAt key = m.roleAt key := by
  cases found : m.current[key]? <;> simp [roleAt, rollback, found]

theorem roleAt_complete (m : Memory) (key : String) : m.complete.roleAt key = m.roleAt key := by
  cases found : m.current[key]? <;> simp [roleAt, complete, found]

theorem role_of_accepted {m : Memory} {w : Write} (accepted : m.refusal w = none) :
    m.roleAt w.key = some .compute := by
  cases frozen : m.frozen with
  | true => simp [refusal, writable, frozen] at accepted
  | false =>
    cases found : m.current[w.key]? with
    | none => simp [refusal, writable, frozen, found] at accepted
    | some slot =>
      by_cases role : slot.role = .compute
      · simp [roleAt, found, role]
      · simp [refusal, writable, frozen, found, role] at accepted

end Roles

section OneCall

variable {m n : Memory}

theorem storeResult_eq_ok {key : String} {v : Value} (stored : m.storeResult key v = .ok n) :
    m.roleAt key = some .result ∧ m.kindAt key = some v.kind ∧
      n = { m with previous := m.previous.insert key v } := by
  cases found : m.current[key]? with
  | none => simp [storeResult, found] at stored
  | some slot =>
    by_cases role : slot.role = .result <;> by_cases kinds : slot.kind = v.kind <;>
      simp_all [storeResult, roleAt, kindAt]

theorem Typed.storeResult (typed : m.Typed) {key : String} {v : Value}
    (stored : m.storeResult key v = .ok n) : n.Typed := by
  obtain ⟨-, known, rfl⟩ := storeResult_eq_ok stored
  constructor
  case cell => exact typed.cell
  case readable =>
    intro other u holds
    by_cases same : key = other
    · subst same
      obtain rfl : v = u := by simpa using holds
      exact known
    · exact typed.readable (by simpa [Std.ExtTreeMap.getElem?_insert, same] using holds)

theorem level_declare (typed : m.Typed) {key : Key} {role : Role}
    (declared : m.declare key role = .ok n) (level : m.Level) : n.Level := by
  obtain ⟨absent, rfl⟩ := declare_eq_ok declared
  rw [level_iff] at level ⊢
  intro name
  by_cases same : key.name = name
  case neg => simpa [cell, Std.ExtTreeMap.getElem?_insert, same] using level name
  case pos =>
    subst same
    cases readable : m.previous[key.name]? with
    | none => simp [cell]
    | some v =>
      -- A readable name has a slot, so it cannot be declared again.
      have known := typed.readable readable
      simp [kindAt, Std.ExtTreeMap.getElem?_eq_none absent] at known

inductive Step (m : Memory) : Event → Memory → Prop
  | read (r : Read) : Step m ⟨.read r, m.answer r⟩ m
  | refused {e : Event} : e.refused = true → Step m e m
  | write {w : Write} {a : w.Answer} : m.refusal w = none →
      Step m ⟨.write w, .ok a⟩ (m.write w).2
  | registerResult {key : Key} {n : Memory} : m.registerResult key = .ok n →
      Step m ⟨.registerResult key, .ok ()⟩ n
  | commit : Step m ⟨.commit, ()⟩ m.commit
  | rollback : Step m ⟨.rollback, ()⟩ m.rollback
  | advance : Step m ⟨.advance, ()⟩ m.advance
  | setRuntime {runtime : Duration} {n : Memory} : m.setRuntime runtime = .ok n →
      Step m ⟨.setRuntime runtime, .ok ()⟩ n
  | complete : Step m ⟨.complete, ()⟩ m.complete
  | storeResult {key : String} {v : Value} {n : Memory} : m.storeResult key v = .ok n →
      Step m ⟨.storeResult key v, .ok ()⟩ n

theorem step_orKeep {ε : Type} {made : Except ε Memory} (told : Except ε Unit → Event)
    (refused : ∀ e, (told (.error e)).refused = true)
    (changed : ∀ n, made = .ok n → m.Step (told (.ok ())) n) :
    m.Step (told (m.orKeep made).1) (m.orKeep made).2 := by
  cases made with
  | error e => exact .refused (refused e)
  | ok n => exact changed n rfl

theorem step_perform (typed : m.Typed) (op : Operation) :
    m.Step (m.event op) (m.perform op).2 := by
  cases op with
  | read r => exact .read r
  | write w =>
    cases accepted : m.refusal w with
    | some e =>
      rw [event, perform, write_refused accepted]
      exact .refused rfl
    | none =>
      obtain ⟨slot, -, -, written⟩ := write_accepted typed accepted
      have answer : (m.write w).1 = .ok (w.echo m.previous[w.key]?) := by rw [written]
      rw [event, perform, answer]
      exact .write accepted
  | registerResult key =>
    exact step_orKeep (fun answer => ⟨.registerResult key, answer⟩) (fun _ => rfl)
      fun _ => .registerResult
  | commit => exact .commit
  | rollback => exact .rollback
  | advance => exact .advance
  | setRuntime runtime =>
    exact step_orKeep (fun answer => ⟨.setRuntime runtime, answer⟩) (fun _ => rfl)
      fun _ => .setRuntime
  | complete => exact .complete
  | storeResult key v =>
    exact step_orKeep (fun answer => ⟨.storeResult key v, answer⟩) (fun _ => rfl)
      fun _ => .storeResult

variable {e : Event}

theorem Step.eq_of_refused (step : m.Step e n) (refused : e.refused = true) : n = m := by
  cases step with
  | refused | read => rfl
  | write | registerResult | commit | rollback | advance | setRuntime | complete | storeResult =>
    cases refused

theorem Step.typed (step : m.Step e n) (typed : m.Typed) : n.Typed := by
  cases step with
  | read | refused => exact typed
  | write => exact typed.write _
  | registerResult made => exact typed.declare made
  | commit => exact typed.commit
  | rollback => exact typed.rollback
  | advance => exact typed.advance
  | setRuntime made => exact typed.setRuntime made
  | complete => exact typed.complete
  | storeResult made => exact typed.storeResult made

theorem Step.level (step : m.Step e n) (typed : m.Typed) (idle : e.onBuffers = false)
    (level : m.Level) : n.Level := by
  cases step with
  | read | refused | advance => exact level
  | registerResult made => exact level_declare typed made level
  | setRuntime made =>
    obtain ⟨-, rfl⟩ := setRuntime_eq_ok made
    exact level
  | write | commit | rollback | complete | storeResult => cases idle

def Holds (m : Memory) (key : String) (v : Value) : Prop :=
  m.previous[key]? = some v ∨ m.cell key = some v

theorem holds_declare (typed : m.Typed) {key : Key} {role : Role}
    (declared : m.declare key role = .ok n) {name : String} {v : Value} (holds : n.Holds name v) :
    m.Holds name v ∧ n.roleAt name = m.roleAt name := by
  obtain ⟨absent, rfl⟩ := declare_eq_ok declared
  by_cases same : key.name = name
  case neg => simpa [Holds, cell, roleAt, Std.ExtTreeMap.getElem?_insert, same] using holds
  case pos =>
    -- The new key holds nothing: it has no cell yet, and what is readable has a slot.
    subst same
    have readable : m.previous[key.name]? = some v := by simpa [Holds, cell] using holds
    have known := typed.readable readable
    simp [kindAt, Std.ExtTreeMap.getElem?_eq_none absent] at known

theorem Step.holds (step : m.Step e n) (typed : m.Typed) {key : String} {v : Value}
    (role : n.roleAt key = some .result) (holds : n.Holds key v) :
    (m.roleAt key = some .result ∧ m.Holds key v) ∨ e = ⟨.storeResult key v, .ok ()⟩ := by
  cases step with
  | read | refused | advance => exact .inl ⟨role, holds⟩
  | @write w =>
    rw [roleAt_congr (m.frame_write w)] at role
    refine .inl ⟨role, holds.imp ?_ ?_⟩
    · intro readable
      rwa [← previous_write m w]
    · intro cells
      have untouched : ¬(m.refusal w = none ∧ w.key = key) := by
        rintro ⟨accepted, rfl⟩
        simp [role_of_accepted accepted] at role
      have unchanged := cell_write typed w key
      rw [if_neg untouched] at unchanged
      exact unchanged.symm.trans cells
  | registerResult made =>
    obtain ⟨held, roles⟩ := holds_declare typed made holds
    exact .inl ⟨roles.symm.trans role, held⟩
  | commit =>
    refine .inl ⟨role, .inr ?_⟩
    cases holds with
    | inl readable => exact (written_getElem? m key).symm.trans readable
    | inr cells => exact cells
  | rollback =>
    rw [roleAt_rollback] at role
    refine .inl ⟨role, holds.elim .inl fun cells => .inl ?_⟩
    obtain ⟨slot, -, readable⟩ :=
      Option.bind_eq_some_iff.1 ((cell_rollback m key).symm.trans cells)
    exact readable
  | setRuntime made =>
    obtain ⟨-, rfl⟩ := setRuntime_eq_ok made
    exact .inl ⟨role, holds⟩
  | complete =>
    rw [roleAt_complete] at role
    refine .inl ⟨role, .inr ?_⟩
    cases holds with
    | inl readable => exact (written_getElem? m key).symm.trans readable
    | inr cells => cases (cell_complete m key).symm.trans cells
  | @storeResult other u _ made =>
    obtain ⟨-, -, rfl⟩ := storeResult_eq_ok made
    by_cases same : other = key
    case neg =>
      have before : m.Holds key v := by
        simpa [Holds, cell, Std.ExtTreeMap.getElem?_insert, same] using holds
      exact .inl ⟨role, before⟩
    case pos =>
      subst same
      cases holds with
      | inr cells => exact .inl ⟨role, .inr cells⟩
      | inl readable =>
        obtain rfl : u = v := by simpa using readable
        exact .inr rfl

end OneCall

section AllCalls

structure Kept (m : Memory) (past : List Event) : Prop where
  typed : m.Typed
  stored : ∀ {key v}, m.roleAt key = some .result → m.Holds key v →
    ⟨.storeResult key v, .ok ()⟩ ∈ past
  level : Settled past → m.Level

theorem settled_concat {past : List Event} {e : Event} :
    Settled (past ++ [e]) ↔
      if e.onBuffers then e.op = .commit ∨ e.op = .rollback else Settled past := by
  cases touches : e.onBuffers <;> simp [Settled, touches]

theorem kept_new {keys : List Key} {m : Memory} (new : ofKeys keys = .ok m) : m.Kept [] := by
  obtain ⟨typed, nothing⟩ : m.Typed ∧ ∀ key v, ¬m.Holds key v := by
    refine declareAll_induction (P := fun m => m.Typed ∧ ∀ key v, ¬m.Holds key v) ?_ ?_ new
    · rintro before after key ⟨typed, nothing⟩ made
      exact ⟨typed.declare made, fun name v holds =>
        nothing name v (holds_declare typed made holds).1⟩
    · exact ⟨typed_empty, by simp [Holds, cell, empty]⟩
  constructor
  case typed => exact typed
  case stored => exact fun {key v} role holds => (nothing key v holds).elim
  case level =>
    intro settled
    rw [level_iff]
    intro key
    have cells : m.cell key = none :=
      Option.eq_none_iff_forall_ne_some.2 fun v held => nothing key v (.inr held)
    have readable : m.previous[key]? = none :=
      Option.eq_none_iff_forall_ne_some.2 fun v held => nothing key v (.inl held)
    rw [cells, readable]

theorem Kept.perform {m : Memory} {past : List Event} (kept : m.Kept past) (op : Operation) :
    (m.perform op).2.Kept (past ++ [m.event op]) where
  typed := (step_perform kept.typed op).typed kept.typed
  stored {key v} role holds := by
    obtain ⟨before, held⟩ | stored := (step_perform kept.typed op).holds kept.typed role holds
    · exact List.mem_append_left _ (kept.stored before held)
    · exact List.mem_append_right _ (List.mem_singleton.2 stored.symm)
  level settled := by
    rw [settled_concat] at settled
    cases touches : (m.event op).onBuffers with
    | false =>
      rw [if_neg (by simp [touches])] at settled
      exact (step_perform kept.typed op).level kept.typed touches (kept.level settled)
    | true =>
      rw [if_pos touches] at settled
      obtain rfl | rfl : op = .commit ∨ op = .rollback := settled
      · exact level_commit m
      · exact level_rollback kept.typed

theorem Kept.after {m : Memory} {past : List Event} (kept : m.Kept past) (ops : List Operation) :
    (m.after ops).Kept (past ++ m.events ops) := by
  induction ops generalizing m past with
  | nil => simpa [Memory.after, events] using kept
  | cons op rest ih => simpa [Memory.after, events] using ih (kept.perform op)

inductive Reached : Memory → List Event → Prop
  | after {keys : List Key} {start : Memory} :
      ofKeys keys = .ok start → (ops : List Operation) →
        Reached (start.after ops) (start.events ops)

theorem Reached.kept {m : Memory} {past : List Event} (reached : m.Reached past) :
    m.Kept past := by
  cases reached with
  | after new ops => simpa using (kept_new new).after ops

end AllCalls

end BulkSync.Memory
