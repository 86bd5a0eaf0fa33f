import BulkSync.Proofs.Memory.Frame

set_option autoImplicit false

namespace BulkSync.Memory

def kindAt (m : Memory) (key : String) : Option Kind := m.current[key]?.map Slot.kind

structure Typed (m : Memory) : Prop where
  cell : ∀ {key v}, m.cell key = some v → m.kindAt key = some v.kind
  readable : ∀ {key v}, m.previous[key]? = some v → m.kindAt key = some v.kind

@[simp] theorem kindAt_frame (m : Memory) (key : String) : m.frame.kindAt key = m.kindAt key := by
  cases found : m.current[key]? <;> simp [kindAt, found, Slot.bare]

theorem kindAt_congr {m n : Memory} (frames : m.frame = n.frame) (key : String) :
    m.kindAt key = n.kindAt key := by
  rw [← kindAt_frame m, frames, kindAt_frame n]

section Answers

def sumOf : Option Value → Int64
  | some (.integer i) => i
  | _ => 0

def flagOf : Option Value → Bool
  | some (.boolean b) => b
  | _ => true

def Write.apply : Write → Option Value → Value
  | .set _ v, _ => v
  | .incr _ delta, old => .integer (sumOf old + delta)
  | .decr _ delta, old => .integer (sumOf old - delta)
  | .and _ operand, old => .boolean (flagOf old && operand)
  | .or _ operand, old => .boolean (flagOf old || operand)

def Write.echo : (w : Write) → Option Value → w.Answer
  | .set _ _, _ => ()
  | .incr _ delta, old => sumOf old + delta
  | .decr _ delta, old => sumOf old - delta
  | .and _ operand, old => flagOf old && operand
  | .or _ operand, old => flagOf old || operand

theorem Write.kind_apply (w : Write) (old : Option Value) : (w.apply old).kind = w.kind := by
  cases w <;> rfl

def reply (m : Memory) (w : Write) : Except Error w.Answer :=
  match m.refusal w with
  | some e => .error e
  | none => .ok (w.echo m.previous[w.key]?)

theorem reply_congr {m n : Memory} (frames : m.frame = n.frame) (w : Write) :
    m.reply w = n.reply w := by
  unfold reply
  rw [refusal_congr frames, previous_congr frames]

end Answers

section OneWrite

theorem cell_put (m : Memory) (key : String) (slot : Slot) (v : Value) (other : String) :
    (m.put key slot v).cell other = if key = other then some v else m.cell other := by
  by_cases same : key = other
  · subst same
    simp [cell, put]
  · simp [cell, put, Std.ExtTreeMap.getElem?_insert, same]

theorem orDefault_integer (key : String) {old : Option Value}
    (kinds : ∀ v, old = some v → v.kind = .integer) :
    View.integer.orDefault key 0 old = .ok (sumOf old) := by
  cases old with
  | none => rfl
  | some v =>
    obtain ⟨i, rfl⟩ := Value.kind_eq_integer_iff.1 (kinds v rfl)
    rfl

theorem orDefault_boolean (key : String) {old : Option Value}
    (kinds : ∀ v, old = some v → v.kind = .boolean) :
    View.boolean.orDefault key true old = .ok (flagOf old) := by
  cases old with
  | none => rfl
  | some v =>
    obtain ⟨b, rfl⟩ := Value.kind_eq_boolean_iff.1 (kinds v rfl)
    rfl

theorem combine_accepted {α : Type} (view : View α) {absent : α} (content : Option Value → α)
    (op : α → α) {m : Memory} {key : String} {slot : Slot} (typed : m.Typed)
    (usable : m.writable key view.kind = .ok slot)
    (reads : ∀ old : Option Value, (∀ v, old = some v → v.kind = view.kind) →
      view.orDefault key absent old = .ok (content old)) :
    m.combine view absent op key =
      (.ok (op (content m.previous[key]?)),
        m.put key slot (view.write (op (content (m.cell key))))) := by
  obtain ⟨found, kinds⟩ := writable_eq_ok usable
  have declared : m.kindAt key = some view.kind := by simp [kindAt, found, kinds]
  have cells : m.cell key = slot.cell := by simp [cell, found]
  -- Twice the same fold: over the cell for what is stored, over the readable value for the answer.
  have running := reads slot.cell fun v holds => by
    have kind := typed.cell (cells.trans holds)
    simpa [declared, eq_comm] using kind
  have base := reads m.previous[key]? fun v holds => by
    have kind := typed.readable holds
    simpa [declared, eq_comm] using kind
  simp [combine, usable, running, base, cells, Except.map]

theorem write_refused {m : Memory} {w : Write} {e : Error} (refused : m.refusal w = some e) :
    m.write w = (.error e, m) := by
  unfold refusal at refused
  cases usable : m.writable w.key w.kind with
  | ok slot => simp [usable] at refused
  | error found =>
    simp only [usable, Option.some.injEq] at refused
    subst refused
    cases w <;>
      simp_all [write, set, combine, Write.key, Write.kind, View.integer, View.boolean]

theorem write_accepted {m : Memory} (typed : m.Typed) {w : Write} (accepted : m.refusal w = none) :
    ∃ slot, m.current[w.key]? = some slot ∧ slot.kind = w.kind ∧
      m.write w =
        (.ok (w.echo m.previous[w.key]?), m.put w.key slot (w.apply (m.cell w.key))) := by
  cases usable : m.writable w.key w.kind with
  | error e => simp [refusal, usable] at accepted
  | ok slot =>
    obtain ⟨found, kinds⟩ := writable_eq_ok usable
    refine ⟨slot, found, kinds, ?_⟩
    cases w with
    | set key v =>
      simp only [Write.key, Write.kind] at usable
      simp [write, set, usable, Write.echo, Write.apply, Write.key]
    | incr key delta =>
      exact combine_accepted .integer sumOf (· + delta) typed usable
        fun old => orDefault_integer key
    | decr key delta =>
      simp only [Write.echo, Write.apply, Int64.sub_eq_add_neg]
      exact combine_accepted .integer sumOf (· + -delta) typed usable
        fun old => orDefault_integer key
    | and key operand =>
      exact combine_accepted .boolean flagOf (· && operand) typed usable
        fun old => orDefault_boolean key
    | or key operand =>
      exact combine_accepted .boolean flagOf (· || operand) typed usable
        fun old => orDefault_boolean key

theorem write_answer {m : Memory} (typed : m.Typed) (w : Write) : (m.write w).1 = m.reply w := by
  cases accepted : m.refusal w with
  | some e => simp [write_refused accepted, reply, accepted]
  | none =>
    obtain ⟨slot, -, -, written⟩ := write_accepted typed accepted
    simp [written, reply, accepted]

theorem cell_write {m : Memory} (typed : m.Typed) (w : Write) (key : String) :
    (m.write w).2.cell key =
      if m.refusal w = none ∧ w.key = key then some (w.apply (m.cell key)) else m.cell key := by
  cases accepted : m.refusal w with
  | some e => simp [write_refused accepted]
  | none =>
    obtain ⟨slot, -, -, written⟩ := write_accepted typed accepted
    by_cases same : w.key = key
    · subst same
      simp [written, cell_put]
    · simp [written, cell_put, same]

theorem Typed.write {m : Memory} (typed : m.Typed) (w : Write) : (m.write w).2.Typed where
  cell {key v} holds := by
    rw [kindAt_congr (m.frame_write w)]
    rw [cell_write typed] at holds
    split at holds
    next accepted =>
      obtain ⟨slot, found, kinds, -⟩ := write_accepted typed accepted.1
      have value : w.apply (m.cell key) = v := by simpa using holds
      rw [← accepted.2, ← value, w.kind_apply, ← kinds]
      simp [kindAt, found]
    next => exact typed.cell holds
  readable {key v} holds := by
    rw [kindAt_congr (m.frame_write w)]
    exact typed.readable (by rwa [previous_write] at holds)

end OneWrite

end BulkSync.Memory

namespace BulkSync

open Memory (Write Value)

def fold (old : Option Value) (writes : List Write) : Option Value :=
  writes.foldl (fun old w => some (w.apply old)) old

end BulkSync
