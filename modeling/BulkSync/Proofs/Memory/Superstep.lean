import BulkSync.Proofs.Memory.Operations

set_option autoImplicit false

namespace BulkSync.Memory

def writeAll (m : Memory) (ws : List Write) : Memory := m.after (ws.map .write)

def Event.writeTo (key : String) : Event → Option Write
  | ⟨.write w, .ok _⟩ => if w.key = key then some w else none
  | _ => none

def successes (m : Memory) (key : String) (ws : List Write) : List Write :=
  (m.events (ws.map .write)).filterMap (·.writeTo key)

variable {m : Memory}

theorem typed_writeAll (typed : m.Typed) (ws : List Write) : (m.writeAll ws).Typed := by
  induction ws generalizing m with
  | nil => exact typed
  | cons w rest ih => exact ih (typed.write w)

theorem frame_writeAll (m : Memory) (ws : List Write) : (m.writeAll ws).frame = m.frame := by
  induction ws generalizing m with
  | nil => rfl
  | cons w rest ih => exact (ih (m.write w).2).trans (m.frame_write w)

theorem writeTo_event (typed : m.Typed) (w : Write) (key : String) :
    (m.event (.write w)).writeTo key =
      if m.refusal w = none ∧ w.key = key then some w else none := by
  have answer := write_answer typed w
  unfold reply at answer
  cases accepted : m.refusal w <;>
    simp_all [event, perform, Event.writeTo]

theorem successes_cons (typed : m.Typed) (key : String) (w : Write) (rest : List Write) :
    m.successes key (w :: rest) =
      if m.refusal w = none ∧ w.key = key then w :: (m.write w).2.successes key rest
      else (m.write w).2.successes key rest := by
  have first := writeTo_event typed w key
  unfold successes
  rw [List.map_cons, events, List.filterMap_cons, first]
  by_cases accepted : m.refusal w = none ∧ w.key = key
  · simp only [if_pos accepted]
    rfl
  · simp only [if_neg accepted]
    rfl

theorem successes_eq_filter (typed : m.Typed) (key : String) (ws : List Write) :
    m.successes key ws = ws.filter fun w => m.refusal w = none ∧ w.key = key := by
  induction ws generalizing m with
  | nil => rfl
  | cons w rest ih =>
    have later := ih (typed.write w)
    -- A refusal depends on the frame, which no write changes.
    simp only [refusal_congr (m.frame_write w)] at later
    rw [successes_cons typed, later, List.filter_cons]
    simp only [decide_eq_true_eq]

theorem cell_writeAll (typed : m.Typed) (ws : List Write) (key : String) :
    (m.writeAll ws).cell key = fold (m.cell key) (m.successes key ws) := by
  induction ws generalizing m with
  | nil => rfl
  | cons w rest ih =>
    have first := cell_write typed w key
    show ((m.write w).2.writeAll rest).cell key = _
    rw [ih (typed.write w), first, successes_cons typed]
    split <;> rfl

theorem write_writeAll (typed : m.Typed) (ws : List Write) (w : Write) :
    ((m.writeAll ws).write w).1 = (m.write w).1 := by
  rw [write_answer (typed_writeAll typed ws), write_answer typed,
    reply_congr (m.frame_writeAll ws)]

theorem echo_of_ok (typed : m.Typed) {w : Write} {a : w.Answer} (answered : (m.write w).1 = .ok a) :
    a = w.echo m.previous[w.key]? := by
  rw [write_answer typed] at answered
  unfold reply at answered
  split at answered
  next => cases answered
  next => simpa [eq_comm] using answered

theorem writeAll_congr (typed : m.Typed) {us ws : List Write}
    (same : ∀ key, us.filter (·.key = key) = ws.filter (·.key = key)) :
    m.writeAll us = m.writeAll ws := by
  apply eq_of_frame_of_cell
  case frames => rw [frame_writeAll, frame_writeAll]
  case cells =>
    intro key
    have calls : m.successes key us = m.successes key ws := by
      simp only [successes_eq_filter typed, Bool.decide_and, ← List.filter_filter, same]
    rw [cell_writeAll typed, cell_writeAll typed, calls]

structure Staged (m : Memory) : Prop where
  reads : ∀ ws r, (m.writeAll ws).answer r = m.answer r
  display : ∀ ws, (m.writeAll ws).display = m.display
  decodes : ∀ ws (α : Type) [Wire α] key,
    (m.writeAll ws).getDecoded α key = m.getDecoded α key
  answers : ∀ ws w, ((m.writeAll ws).write w).1 = (m.write w).1
  echoes : ∀ ws w a, ((m.writeAll ws).write w).1 = .ok a → a = w.echo m.previous[w.key]?
  barrier : ∀ ws key, (m.writeAll ws).commit.previous[key]? =
    fold m.previous[key]? (m.successes key ws)
  order : ∀ us ws, (∀ key, us.filter (·.key = key) = ws.filter (·.key = key)) →
    m.writeAll us = m.writeAll ws

def opening : List Operation :=
  [.write (.incr "hits" 5), .write (.set "last" (.blob [1, 2])), .commit, .advance,
    .registerResult ⟨"total", .integer⟩, .write (.incr "total" 1), .read (.integer "hits")]

def mixed : List Write :=
  [.incr "hits" 1, .or "over" false, .decr "hits" Int64.minValue, .set "hits" (.boolean true),
    .and "over" false, .incr "total" 1, .or "over" true, .incr "hits" (-2)]

end BulkSync.Memory
