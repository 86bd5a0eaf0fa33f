import BulkSync.Proofs.Memory.Operations

set_option autoImplicit false

namespace BulkSync.Memory

section Refusals

variable {m : Memory} {w : Write} {e : Error}

inductive Refused (m : Memory) (w : Write) : Error → Prop
  | frozen : m.frozen = true → Refused m w (.frozen w.key)
  | undeclared : m.frozen = false → m.roleAt w.key ≠ some .compute →
      Refused m w (.undeclared w.key)
  | wrongKind {kind : Kind} : m.frozen = false → m.roleAt w.key = some .compute →
      m.kindAt w.key = some kind → kind ≠ w.kind → Refused m w (.wrongKind w.key kind w.kind)

theorem refusal_of_refused (refused : m.Refused w e) : m.refusal w = some e := by
  cases refused with
  | frozen frozen => simp [refusal, writable, frozen]
  | undeclared thawed role =>
    cases found : m.current[w.key]? with
    | none => simp [refusal, writable, thawed, found]
    | some slot =>
      have other : slot.role ≠ .compute := by simpa [roleAt, found] using role
      simp [refusal, writable, thawed, found, other]
  | wrongKind thawed role kind differs =>
    obtain ⟨slot, found, rfl⟩ := Option.map_eq_some_iff.1 kind
    have compute : slot.role = .compute := by simpa [roleAt, found] using role
    simp [refusal, writable, thawed, found, compute, differs]

theorem accepted_of_not_refused (free : ∀ e, ¬m.Refused w e) : m.refusal w = none := by
  have thawed : m.frozen = false := by simpa using fun frozen => free _ (.frozen frozen)
  have role : m.roleAt w.key = some .compute :=
    Decidable.byContradiction fun other => free _ (.undeclared thawed other)
  obtain ⟨slot, found, compute⟩ := Option.map_eq_some_iff.1 role
  have kind : slot.kind = w.kind := Decidable.byContradiction fun differs =>
    free _ (.wrongKind thawed role (by simp [kindAt, found]) differs)
  simp [refusal, writable, thawed, found, compute, kind]

theorem refusal_eq_some_iff : m.refusal w = some e ↔ m.Refused w e := by
  constructor
  case mpr => exact refusal_of_refused
  case mp =>
    intro refused
    obtain ⟨cause, why⟩ | free := Classical.em (∃ e, m.Refused w e)
    · obtain rfl : cause = e := by simpa [refusal_of_refused why] using refused
      exact why
    · simp [accepted_of_not_refused (not_exists.1 free)] at refused

theorem write_error_iff (typed : m.Typed) : (m.write w).1 = .error e ↔ m.Refused w e := by
  rw [write_answer typed, ← refusal_eq_some_iff]
  unfold reply
  cases m.refusal w <;> simp

end Refusals

section Views

def View.Total {α : Type} (view : View α) : Prop :=
  ∀ v : Value, v.kind = view.kind → ∃ a, view.read v = some a

theorem View.total_integer : View.integer.Total := by
  intro v kind
  obtain ⟨i, rfl⟩ := Value.kind_eq_integer_iff.1 kind
  exact ⟨i, rfl⟩

theorem View.total_boolean : View.boolean.Total := by
  intro v kind
  obtain ⟨b, rfl⟩ := Value.kind_eq_boolean_iff.1 kind
  exact ⟨b, rfl⟩

theorem View.total_blob : View.blob.Total := by
  intro v kind
  obtain ⟨bytes, rfl⟩ := Value.kind_eq_blob_iff.1 kind
  exact ⟨bytes, rfl⟩

theorem getAs_error {α : Type} {view : View α} (total : view.Total) {m : Memory} (typed : m.Typed)
    {key : String} {e : Error} (declared : m.kindAt key = some view.kind)
    (failed : m.getAs view key = .error e) : e = .absent key := by
  cases readable : m.previous[key]? with
  | none => simpa [getAs, get, readable, bind, Except.bind, eq_comm] using failed
  | some v =>
    have kind : view.kind = v.kind := by simpa [declared] using typed.readable readable
    obtain ⟨a, read⟩ := total v kind.symm
    simp [getAs, get, readable, bind, Except.bind, View.readAs, read] at failed

end Views

structure Consistent (m : Memory) (past : List Event) : Prop where
  declared : ∀ {key v}, m.Holds key v →
    ∃ slot, m.current[key]? = some slot ∧ slot.kind = v.kind ∧
      (slot.role = .result → ⟨.storeResult key v, .ok ()⟩ ∈ past)
  refuses : ∀ {w e}, (m.write w).1 = .error e ↔ m.Refused w e
  atomic : ∀ {op}, (m.event op).refused = true → (m.perform op).2 = m
  integer : ∀ {key e}, m.kindAt key = some .integer → m.getInteger key = .error e →
    e = .absent key
  boolean : ∀ {key e}, m.kindAt key = some .boolean → m.getBoolean key = .error e →
    e = .absent key
  blob : ∀ {key e}, m.kindAt key = some .blob → m.getBlob key = .error e → e = .absent key

theorem consistent_of_reached {m : Memory} {past : List Event} (reached : m.Reached past) :
    m.Consistent past := by
  have kept := reached.kept
  constructor
  case declared =>
    intro key v holds
    have known := holds.elim kept.typed.readable kept.typed.cell
    obtain ⟨slot, found, kind⟩ := Option.map_eq_some_iff.1 known
    exact ⟨slot, found, kind, fun role => kept.stored (by simp [roleAt, found, role]) holds⟩
  case refuses => exact write_error_iff kept.typed
  case atomic => exact fun refused => (step_perform kept.typed _).eq_of_refused refused
  case integer => exact getAs_error View.total_integer kept.typed
  case boolean => exact getAs_error View.total_boolean kept.typed
  case blob => exact getAs_error View.total_blob kept.typed

def counting : List Operation :=
  [.write (.incr "hits" 3), .registerResult ⟨"total", .integer⟩,
    .write (.set "total" (.integer 1)), .commit, .write (.set "hits" (.boolean true)),
    .write (.incr "hits" 4), .complete, .storeResult "total" (.integer 7),
    .write (.incr "hits" 1)]

theorem consistent_of_reached_counting :
    ∃ start, ofKeys [⟨"hits", .integer⟩, ⟨"over", .boolean⟩] = .ok start ∧
      (start.events counting).map Event.refused =
        [false, false, true, false, true, false, false, false, true] ∧
      (start.after counting).Holds "hits" (.integer 7) ∧
      (start.after counting).Holds "total" (.integer 7) ∧
      (start.after counting).Consistent (start.events counting) := by
  obtain ⟨start, new, refused, hits, total⟩ :
      ∃ start, ofKeys [⟨"hits", .integer⟩, ⟨"over", .boolean⟩] = .ok start ∧
        (start.events counting).map Event.refused =
          [false, false, true, false, true, false, false, false, true] ∧
        (start.after counting).previous["hits"]? = some (.integer 7) ∧
        (start.after counting).previous["total"]? = some (.integer 7) := by
    refine ⟨_, rfl, ?_, ?_, ?_⟩ <;> decide +kernel
  exact ⟨start, new, refused, .inl hits, .inl total,
    consistent_of_reached (.after new counting)⟩

end BulkSync.Memory
