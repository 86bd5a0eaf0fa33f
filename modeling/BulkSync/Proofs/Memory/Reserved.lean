import BulkSync.Proofs.Memory.Consistency

set_option autoImplicit false

namespace BulkSync.Memory

variable {m n : Memory}

theorem Step.declaration {e : Event} (step : m.Step e n) {key : String} {slot : Slot}
    (declared : m.frame.current[key]? = some slot) : n.frame.current[key]? = some slot := by
  rw [current_frame] at declared ⊢
  obtain ⟨old, found, rfl⟩ := Option.map_eq_some_iff.1 declared
  cases step with
  | read | refused | commit | advance => exact declared
  | @write w =>
    have frames := congrArg (·.current[key]?) (m.frame_write w)
    simpa [found] using frames
  | registerResult made =>
    obtain ⟨absent, rfl⟩ := declare_eq_ok made
    have other : ∀ name, name ∉ m.current → name ≠ key := by
      rintro name absent rfl
      simp [Std.ExtTreeMap.getElem?_eq_none absent] at found
    simp [Std.ExtTreeMap.getElem?_insert, other _ absent, found]
  | rollback => simp [Memory.rollback, found, Slot.bare]
  | setRuntime made =>
    obtain ⟨-, rfl⟩ := setRuntime_eq_ok made
    exact declared
  | complete => simp [Memory.complete, found, Slot.bare]
  | storeResult made =>
    obtain ⟨-, -, rfl⟩ := storeResult_eq_ok made
    exact declared

structure Reserved (m : Memory) (key : Key) : Prop where
  declared : m.frame.current[key.name]? = some ⟨key.kind, .result, none⟩
  vacant : ∀ v, ¬m.Holds key.name v

section Reserved

variable {key : Key}

theorem Reserved.role (reserved : m.Reserved key) : m.roleAt key.name = some .result := by
  rw [← roleAt_frame, roleAt, reserved.declared]
  rfl

theorem Reserved.kind (reserved : m.Reserved key) : m.kindAt key.name = some key.kind := by
  rw [← kindAt_frame, kindAt, reserved.declared]
  rfl

theorem Reserved.unreadable (reserved : m.Reserved key) : m.previous[key.name]? = none :=
  Option.eq_none_iff_forall_ne_some.2 fun v readable => reserved.vacant v (.inl readable)

theorem Step.reserved {e : Event} (step : m.Step e n) (typed : m.Typed)
    (reserved : m.Reserved key) (other : ∀ v, e.op ≠ .storeResult key.name v) :
    n.Reserved key := by
  have declared := step.declaration reserved.declared
  have role : n.roleAt key.name = some .result := by
    rw [← roleAt_frame, roleAt, declared]
    rfl
  refine ⟨declared, fun v holds => ?_⟩
  obtain ⟨-, held⟩ | rfl := step.holds typed role holds
  · exact reserved.vacant v held
  · exact other v rfl

-- What a run makes of memory before its jobs are run: by any calls but the storing of a result.
inductive Worked (m : Memory) : Memory → Prop
  | refl : Worked m m
  | call {n : Memory} (op : Operation) (inner : ∀ key v, op ≠ .storeResult key v) :
      Worked m n → Worked m (n.perform op).2

theorem Worked.trans {o : Memory} (first : m.Worked n) (later : n.Worked o) : m.Worked o := by
  induction later with
  | refl => exact first
  | call op inner _ ih => exact .call op inner ih

theorem Worked.typed (worked : m.Worked n) (typed : m.Typed) : n.Typed := by
  induction worked with
  | refl => exact typed
  | call op _ _ ih => exact (step_perform ih op).typed ih

theorem Worked.reserved (worked : m.Worked n) (typed : m.Typed) (reserved : m.Reserved key) :
    n.Reserved key := by
  induction worked with
  | refl => exact reserved
  | call op inner earlier ih =>
    exact (step_perform (earlier.typed typed) op).reserved (earlier.typed typed) ih
      fun v => inner key.name v

theorem Reserved.refusal (reserved : m.Reserved key) (thawed : m.frozen = false) {w : Write}
    (same : w.key = key.name) : m.refusal w = some (.undeclared w.key) := by
  refine refusal_of_refused (.undeclared thawed ?_)
  rw [same, reserved.role]
  simp

theorem Reserved.storeResult (reserved : m.Reserved key) {v : Value} (kind : v.kind = key.kind) :
    m.storeResult key.name v = .ok { m with previous := m.previous.insert key.name v } := by
  obtain ⟨slot, found, role⟩ := Option.map_eq_some_iff.1 reserved.role
  have kinds : slot.kind = key.kind := by simpa [kindAt, found] using reserved.kind
  simp [Memory.storeResult, found, role, kinds, kind]

theorem Reserved.insert (reserved : m.Reserved key) {name : String} (other : name ≠ key.name)
    (v : Value) : Reserved { m with previous := m.previous.insert name v } key where
  declared := reserved.declared
  vacant u holds := by
    refine reserved.vacant u (holds.imp_left fun readable => ?_)
    simpa [Std.ExtTreeMap.getElem?_insert, other] using readable

end Reserved

section Declarations

theorem reserved_declare (typed : m.Typed) {key : Key} (declared : m.declare key .result = .ok n) :
    n.Reserved key := by
  have before {v : Value} (held : n.Holds key.name v) := (holds_declare typed declared held).1
  obtain ⟨absent, rfl⟩ := declare_eq_ok declared
  refine ⟨by simp [Slot.bare], fun v held => ?_⟩
  -- What has no slot holds nothing, so the new slot finds nothing under its key.
  have known := (before held).elim typed.readable typed.cell
  simp [kindAt, Std.ExtTreeMap.getElem?_eq_none absent] at known

theorem Reserved.declareAll {key : Key} {keys : List Key} (typed : m.Typed)
    (reserved : m.Reserved key) (declared : m.declareAll .result keys = .ok n) :
    n.Reserved key := by
  refine (declareAll_induction (P := fun n => n.Typed ∧ n.Reserved key) ?_ ⟨typed, reserved⟩
    declared).2
  rintro before after other ⟨typed, reserved⟩ made
  exact ⟨typed.declare made, (Step.registerResult made).reserved typed reserved (by simp)⟩

theorem reserved_declareAll {keys : List Key} (typed : m.Typed)
    (declared : m.declareAll .result keys = .ok n) :
    (∀ key ∈ keys, n.Reserved key) ∧ (keys.map Key.name).Nodup ∧
      ∀ key ∈ keys, key.name ∉ m.current := by
  induction keys generalizing m with
  | nil => simp
  | cons key rest ih =>
    obtain ⟨next, made, later⟩ := bind_eq_ok declared
    have first := (reserved_declare typed made).declareAll (typed.declare made) later
    obtain ⟨reserved, nodup, apart⟩ := ih (typed.declare made) later
    obtain ⟨absent, rfl⟩ := declare_eq_ok made
    -- The rest found this key taken and every key before it.
    simp only [Std.ExtTreeMap.mem_insert, not_or] at apart
    refine ⟨by simpa using ⟨first, reserved⟩, ?_, ?_⟩
    · rw [List.map_cons, List.nodup_cons]
      refine ⟨fun member => ?_, nodup⟩
      obtain ⟨other, among, same⟩ := List.mem_map.1 member
      exact (apart other among).1 (by simp [same])
    · simpa using ⟨absent, fun other among => (apart other among).2⟩

end Declarations

end BulkSync.Memory
