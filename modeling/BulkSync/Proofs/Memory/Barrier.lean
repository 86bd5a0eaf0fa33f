import BulkSync.Proofs.Except
import BulkSync.Proofs.Memory.Typed

set_option autoImplicit false

namespace BulkSync

namespace Memory

section Declarations

theorem typed_empty : empty.Typed where
  cell {key v} holds := by simp [cell, empty] at holds
  readable {key v} holds := by simp [empty] at holds

theorem declare_eq_ok {m n : Memory} {key : Key} {role : Role}
    (declared : m.declare key role = .ok n) :
    key.name ∉ m.current ∧
      n = { m with current := m.current.insert key.name ⟨key.kind, role, none⟩ } := by
  unfold declare at declared
  split at declared
  next => cases declared
  next =>
    split at declared
    next => cases declared
    next absent =>
      cases declared
      exact ⟨absent, rfl⟩

theorem Typed.declare {m n : Memory} {key : Key} {role : Role} (typed : m.Typed)
    (declared : m.declare key role = .ok n) : n.Typed := by
  obtain ⟨absent, rfl⟩ := declare_eq_ok declared
  have fresh : m.current[key.name]? = none := Std.ExtTreeMap.getElem?_eq_none absent
  -- A name that is taken has a kind, so the new one stands apart from every value.
  have other {name : String} {v : Value} (known : m.kindAt name = some v.kind) :
      key.name ≠ name := by
    rintro rfl
    simp [kindAt, fresh] at known
  constructor
  case cell =>
    intro name v holds
    by_cases same : key.name = name
    · subst same
      simp [Memory.cell] at holds
    · have known : m.kindAt name = some v.kind := typed.cell (by
        simpa [Memory.cell, Std.ExtTreeMap.getElem?_insert, same] using holds)
      simpa [kindAt, Std.ExtTreeMap.getElem?_insert, same] using known
  case readable =>
    intro name v holds
    have known := typed.readable holds
    simpa [kindAt, Std.ExtTreeMap.getElem?_insert, other known] using known

theorem declareAll_induction {P : Memory → Prop} {role : Role} {keys : List Key}
    (kept : ∀ {m n : Memory} {key : Key}, P m → m.declare key role = .ok n → P n) {m n : Memory}
    (first : P m) (declared : m.declareAll role keys = .ok n) : P n := by
  induction keys generalizing m with
  | nil =>
    cases declared
    exact first
  | cons key rest ih =>
    obtain ⟨next, made, later⟩ := bind_eq_ok declared
    exact ih (kept first made) later

theorem Typed.declareAll {m n : Memory} {role : Role} {keys : List Key} (typed : m.Typed)
    (declared : m.declareAll role keys = .ok n) : n.Typed :=
  declareAll_induction Typed.declare typed declared

theorem declareAll_eq {m n : Memory} {role : Role} {keys : List Key}
    (declared : m.declareAll role keys = .ok n) : n = { m with current := n.current } := by
  refine declareAll_induction (P := fun n => n = { m with current := n.current }) ?_ rfl declared
  intro before after key same made
  obtain ⟨-, rfl⟩ := declare_eq_ok made
  rw [same]

end Declarations

section Barriers

variable {m : Memory}

theorem Typed.commit (typed : m.Typed) : m.commit.Typed where
  cell := typed.cell
  readable {key v} holds := typed.cell (by rwa [← written_getElem?])

theorem kindAt_rollback (m : Memory) (key : String) : m.rollback.kindAt key = m.kindAt key := by
  cases found : m.current[key]? <;> simp [kindAt, rollback, found]

theorem Typed.rollback (typed : m.Typed) : m.rollback.Typed where
  cell {key v} holds := by
    rw [kindAt_rollback]
    rw [cell_rollback] at holds
    cases found : m.current[key]? with
    | none => simp [found] at holds
    | some slot => exact typed.readable (by simpa [found] using holds)
  readable {key v} holds := by
    rw [kindAt_rollback]
    exact typed.readable holds

theorem Typed.advance (typed : m.Typed) : m.advance.Typed := ⟨typed.cell, typed.readable⟩

theorem setRuntime_eq_ok {runtime : Duration} {n : Memory} (set : m.setRuntime runtime = .ok n) :
    m.frozen = false ∧ n = { m with runtime } := by
  cases frozen : m.frozen with
  | true => simp [setRuntime, frozen] at set
  | false => simpa [setRuntime, frozen, eq_comm] using set

theorem Typed.setRuntime (typed : m.Typed) {runtime : Duration} {n : Memory}
    (set : m.setRuntime runtime = .ok n) : n.Typed := by
  obtain ⟨-, rfl⟩ := setRuntime_eq_ok set
  exact ⟨typed.cell, typed.readable⟩

theorem setRuntime_of_thawed (thawed : m.frozen = false) (runtime : Duration) :
    m.setRuntime runtime = .ok { m with runtime } := by
  simp [setRuntime, thawed]

theorem cell_complete (m : Memory) (key : String) : m.complete.cell key = none := by
  cases found : m.current[key]? <;> simp [cell, complete, found]

theorem kindAt_complete (m : Memory) (key : String) : m.complete.kindAt key = m.kindAt key := by
  cases found : m.current[key]? <;> simp [kindAt, complete, found]

theorem Typed.complete (typed : m.Typed) : m.complete.Typed where
  cell {key v} holds := by simp [cell_complete] at holds
  readable {key v} holds := by
    rw [kindAt_complete]
    exact typed.cell ((m.written_getElem? key).symm.trans holds)

end Barriers

def Level (m : Memory) : Prop := m.written = m.previous

theorem level_iff {m : Memory} : m.Level ↔ ∀ key, m.cell key = m.previous[key]? := by
  constructor
  · intro level key
    rw [← written_getElem?, level]
  · intro cells
    apply Std.ExtTreeMap.ext_getElem?
    intro key
    rw [written_getElem?, cells]

theorem level_commit (m : Memory) : m.commit.Level := rfl

theorem level_rollback {m : Memory} (typed : m.Typed) : m.rollback.Level := by
  rw [level_iff]
  intro key
  rw [cell_rollback]
  cases found : m.current[key]? with
  | some slot => rfl
  | none =>
    cases readable : m.previous[key]? with
    | none => simp [rollback, readable]
    | some v =>
      -- Readable without a slot: typed memory has no such key.
      have known := typed.readable readable
      simp [kindAt, found] at known

theorem rollback_of_level {m : Memory} (level : m.Level) : m.rollback = m := by
  have current : m.rollback.current = m.current := by
    apply Std.ExtTreeMap.ext_getElem?
    intro key
    have cells := level_iff.1 level key
    cases found : m.current[key]? with
    | none => simp [rollback, found]
    | some slot =>
      simp only [cell, found, Option.bind_some] at cells
      simp [rollback, found, ← cells]
  cases m
  simp_all [rollback]

end Memory

end BulkSync
