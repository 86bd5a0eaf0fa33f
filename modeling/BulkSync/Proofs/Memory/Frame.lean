import BulkSync.Memory.Barrier
import BulkSync.Memory.Read

set_option autoImplicit false

namespace BulkSync.Memory

def Slot.bare (slot : Slot) : Slot := { slot with cell := none }

def frame (m : Memory) : Memory := { m with current := m.current.map fun _ slot => slot.bare }

def cell (m : Memory) (key : String) : Option Value := m.current[key]?.bind Slot.cell

@[simp] theorem Slot.bare_bare (slot : Slot) : slot.bare.bare = slot.bare := rfl

@[simp] theorem current_frame (m : Memory) (key : String) :
    m.frame.current[key]? = m.current[key]?.map Slot.bare :=
  Std.ExtTreeMap.getElem?_map

@[simp] theorem previous_frame (m : Memory) : m.frame.previous = m.previous := rfl

@[simp] theorem iteration_frame (m : Memory) : m.frame.iteration = m.iteration := rfl

@[simp] theorem frozen_frame (m : Memory) : m.frame.frozen = m.frozen := rfl

theorem previous_congr {m n : Memory} (frames : m.frame = n.frame) : m.previous = n.previous := by
  rw [← previous_frame m, frames, previous_frame n]

theorem iteration_congr {m n : Memory} (frames : m.frame = n.frame) :
    m.iteration = n.iteration := by
  rw [← iteration_frame m, frames, iteration_frame n]

theorem frozen_congr {m n : Memory} (frames : m.frame = n.frame) : m.frozen = n.frozen := by
  rw [← frozen_frame m, frames, frozen_frame n]

@[simp] theorem frame_frame (m : Memory) : m.frame.frame = m.frame := by
  simp [frame]

theorem eq_of_frame_of_cell {m n : Memory} (frames : m.frame = n.frame)
    (cells : ∀ key, m.cell key = n.cell key) : m = n := by
  have current : m.current = n.current := by
    apply Std.ExtTreeMap.ext_getElem?
    intro key
    have bare : m.frame.current[key]? = n.frame.current[key]? := by rw [frames]
    have same := cells key
    simp only [current_frame] at bare
    unfold cell at same
    cases left : m.current[key]? with
    | none => cases right : n.current[key]? <;> simp_all
    | some slot =>
      cases right : n.current[key]? with
      | none => simp_all
      | some other =>
        -- A frame tells the slots apart but for their cells, and `same` settles those.
        simp only [left, right, Option.map_some, Option.some.injEq, Slot.bare,
          Slot.mk.injEq] at bare
        simp only [left, right, Option.bind_some] at same
        obtain ⟨kinds, roles, -⟩ := bare
        cases slot
        cases other
        simp_all
  cases m
  cases n
  simp_all [frame]

theorem declared_frame (m : Memory) : m.frame.declared = m.declared := by
  simp [declared, frame, Slot.bare]

theorem answer_frame (m : Memory) (r : Read) : m.frame.answer r = m.answer r := by
  cases r with
  | declared => exact m.declared_frame
  | value | integer | boolean | blob | contains | keys | iteration | runtime | frozen => rfl

theorem answer_congr {m n : Memory} (frames : m.frame = n.frame) (r : Read) :
    m.answer r = n.answer r := by
  rw [← answer_frame m, frames, answer_frame n]

section Refusal

def refusal (m : Memory) (w : Write) : Option Error :=
  match m.writable w.key w.kind with
  | .error e => some e
  | .ok _ => none

theorem writable_eq_ok {m : Memory} {key : String} {kind : Kind} {slot : Slot}
    (usable : m.writable key kind = .ok slot) :
    m.current[key]? = some slot ∧ slot.kind = kind := by
  cases frozen : m.frozen with
  | true => simp [writable, frozen] at usable
  | false =>
    cases found : m.current[key]? with
    | none => simp [writable, frozen, found] at usable
    | some other =>
      by_cases role : other.role = .compute <;> by_cases kinds : other.kind = kind <;>
        simp_all [writable]

theorem writable_frame (m : Memory) (key : String) (kind : Kind) :
    m.frame.writable key kind = (m.writable key kind).map Slot.bare := by
  unfold writable
  cases frozen : m.frozen with
  | true => simp [frozen, Except.map]
  | false =>
    cases found : m.current[key]? with
    | none => simp [frozen, found, Except.map]
    | some slot =>
      by_cases role : slot.role = .compute <;> by_cases kinds : slot.kind = kind <;>
        simp [frozen, found, role, kinds, Slot.bare, Except.map]

theorem refusal_frame (m : Memory) (w : Write) : m.frame.refusal w = m.refusal w := by
  unfold refusal
  rw [writable_frame]
  cases m.writable w.key w.kind <;> rfl

theorem refusal_congr {m n : Memory} (frames : m.frame = n.frame) (w : Write) :
    m.refusal w = n.refusal w := by
  rw [← refusal_frame m, frames, refusal_frame n]

end Refusal

theorem frame_put {m : Memory} {key : String} {slot : Slot} (found : m.current[key]? = some slot)
    (v : Value) : (m.put key slot v).frame = m.frame := by
  have current : (m.put key slot v).frame.current = m.frame.current := by
    apply Std.ExtTreeMap.ext_getElem?
    intro other
    by_cases same : key = other
    · subst same
      simp [put, found, Slot.bare]
    · simp [put, Std.ExtTreeMap.getElem?_insert, same]
  simpa [frame, put] using current

theorem frame_set (m : Memory) (key : String) (v : Value) : (m.set key v).2.frame = m.frame := by
  unfold set
  split
  next slot usable => exact frame_put (writable_eq_ok usable).1 v
  next => rfl

theorem frame_combine {α : Type} (view : View α) (absent : α) (op : α → α) (m : Memory)
    (key : String) : (m.combine view absent op key).2.frame = m.frame := by
  unfold combine
  split
  next => rfl
  next slot usable =>
    split
    next => rfl
    next running _ => exact frame_put (writable_eq_ok usable).1 (view.write (op running))

theorem frame_write (m : Memory) (w : Write) : (m.write w).2.frame = m.frame := by
  cases w with
  | set key v => exact m.frame_set key v
  | incr key delta => exact frame_combine .integer 0 (· + delta) m key
  | decr key delta => exact frame_combine .integer 0 (· + -delta) m key
  | and key operand => exact frame_combine .boolean true (· && operand) m key
  | or key operand => exact frame_combine .boolean true (· || operand) m key

theorem rollback_frame (m : Memory) : m.frame.rollback = m.rollback := by
  simp [rollback, frame, Slot.bare]

theorem rollback_congr {m n : Memory} (frames : m.frame = n.frame) : m.rollback = n.rollback := by
  rw [← rollback_frame m, frames, rollback_frame n]

@[simp] theorem written_getElem? (m : Memory) (key : String) : m.written[key]? = m.cell key :=
  Std.ExtTreeMap.getElem?_filterMap'

theorem cell_rollback (m : Memory) (key : String) :
    m.rollback.cell key = m.current[key]?.bind fun _ => m.previous[key]? := by
  cases found : m.current[key]? <;> simp [cell, rollback, found]

end BulkSync.Memory
