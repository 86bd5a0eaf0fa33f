import BulkSync.Memory.Basic

set_option autoImplicit false

namespace BulkSync.Memory

def writable (m : Memory) (key : String) (kind : Kind) : Except Error Slot :=
  if m.frozen then .error (.frozen key)
  else
    match m.current[key]? with
    | some slot =>
      if slot.role ≠ .compute then .error (.undeclared key)
      else if slot.kind ≠ kind then .error (.wrongKind key slot.kind kind)
      else .ok slot
    | none => .error (.undeclared key)

def put (m : Memory) (key : String) (slot : Slot) (v : Value) : Memory :=
  { m with current := m.current.insert key { slot with cell := some v } }

def set (m : Memory) (key : String) (v : Value) : Except Error Unit × Memory :=
  match m.writable key v.kind with
  | .ok slot => (.ok (), m.put key slot v)
  | .error e => (.error e, m)

-- The content of a buffer as `α`, or the value that an absent one stands for.
def View.orDefault {α : Type} (view : View α) (key : String) (absent : α) :
    Option Value → Except Error α
  | some v => view.readAs key v
  | none => .ok absent

/-- Applies `op` to the written value and, for the answer, to the readable one. -/
def combine {α : Type} (view : View α) (absent : α) (op : α → α) (m : Memory) (key : String) :
    Except Error α × Memory :=
  match m.writable key view.kind with
  | .error e => (.error e, m)
  | .ok slot =>
    match view.orDefault key absent slot.cell with
    | .error e => (.error e, m)
    | .ok running =>
      ((view.orDefault key absent m.previous[key]?).map op,
        m.put key slot (view.write (op running)))

inductive Write
  | set (key : String) (v : Value)
  | incr (key : String) (delta : Int64)
  | decr (key : String) (delta : Int64)
  | and (key : String) (operand : Bool)
  | or (key : String) (operand : Bool)
  deriving DecidableEq

namespace Write

@[reducible] def Answer : Write → Type
  | .set _ _ => Unit
  | .incr _ _ | .decr _ _ => Int64
  | .and _ _ | .or _ _ => Bool

def key : Write → String
  | .set key _ | .incr key _ | .decr key _ | .and key _ | .or key _ => key

def kind : Write → Kind
  | .set _ v => v.kind
  | .incr _ _ | .decr _ _ => .integer
  | .and _ _ | .or _ _ => .boolean

end Write

/-- Sums start from 0 and wrap; both logical folds start from true. -/
def write (m : Memory) : (w : Write) → Except Error w.Answer × Memory
  | .set key v => m.set key v
  | .incr key delta => m.combine .integer 0 (· + delta) key
  | .decr key delta => m.combine .integer 0 (· + -delta) key
  | .and key operand => m.combine .boolean true (· && operand) key
  | .or key operand => m.combine .boolean true (· || operand) key

theorem previous_set (m : Memory) (key : String) (v : Value) :
    (m.set key v).2.previous = m.previous := by
  unfold set
  split <;> rfl

theorem previous_combine {α : Type} (view : View α) (absent : α) (op : α → α) (m : Memory)
    (key : String) : (m.combine view absent op key).2.previous = m.previous := by
  unfold combine
  split
  next => rfl
  next => split <;> rfl

theorem previous_write (m : Memory) (w : Write) : (m.write w).2.previous = m.previous := by
  cases w with
  | set key v => exact m.previous_set key v
  | incr key delta => exact m.previous_combine .integer 0 (· + delta) key
  | decr key delta => exact m.previous_combine .integer 0 (· + -delta) key
  | and key operand => exact m.previous_combine .boolean true (· && operand) key
  | or key operand => exact m.previous_combine .boolean true (· || operand) key

end BulkSync.Memory
