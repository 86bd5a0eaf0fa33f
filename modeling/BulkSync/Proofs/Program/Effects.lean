import BulkSync.Proofs.Program.Transcript

set_option autoImplicit false

namespace BulkSync

open Memory (Write Value)

variable {M : Type}

namespace Call

def Answered (m : Memory) : Call M → Prop
  | read r answer => answer = m.answer r
  | write w answer => answer = m.reply w
  | send _ _ => True

def writeTo (key : String) : Call M → Option Write
  | write w (.ok _) => if w.key = key then some w else none
  | _ => none

def sentTo (target : VertexId) : Call M → Option M
  | send id message => if id = target then some message else none
  | _ => none

theorem Answered.congr {m n : Memory} (frames : m.frame = n.frame) {call : Call M}
    (answered : call.Answered m) : call.Answered n := by
  cases call with
  | read r answer => exact answered.trans (Memory.answer_congr frames r)
  | write w answer => exact answered.trans (Memory.reply_congr frames w)
  | send target message => trivial

theorem writeTo_of_answered {m : Memory} {w : Write} {answer : Except Memory.Error w.Answer}
    (answered : (Call.write w answer : Call M).Answered m) (key : String) :
    (Call.write w answer : Call M).writeTo key =
      if m.refusal w = none ∧ w.key = key then some w else none := by
  simp only [Answered, Memory.reply] at answered
  subst answered
  cases refused : m.refusal w <;> simp [writeTo]

theorem eq_write_of_writeTo {key : String} {call : Call M} {w : Write}
    (written : call.writeTo key = some w) :
    ∃ answer, call = .write w (.ok answer) ∧ w.key = key := by
  cases call with
  | read | send => cases written
  | write u answer =>
    cases answer with
    | error e => cases written
    | ok answer =>
      by_cases same : u.key = key
      · simp only [writeTo, same, ite_true, Option.some.injEq] at written
        subst written
        exact ⟨answer, rfl, same⟩
      · simp [writeTo, same] at written

end Call

theorem Action.answered_calls {α : Type} (a : Action M α) (m : Memory) {call : Call M}
    (member : call ∈ a.calls m) : call.Answered m := by
  induction a with
  | done a => cases member
  | read r next ih | write w next ih =>
    rcases List.mem_cons.1 member with rfl | later
    · rfl
    · exact ih _ later
  | send target message next ih =>
    rcases List.mem_cons.1 member with rfl | later
    · trivial
    · exact ih later

namespace Shared

variable {s : Shared M}

theorem cell_absorb (typed : s.memory.Typed) {call : Call M} (answered : call.Answered s.memory)
    (key : String) :
    (s.absorb call).memory.cell key =
      fold (s.memory.cell key) (call.writeTo key).toList := by
  cases call with
  | read | send => rfl
  | write w answer =>
    rw [Call.writeTo_of_answered answered]
    show (s.memory.write w).2.cell key = _
    rw [Memory.cell_write typed]
    split <;> rfl

theorem cell_absorbAll (typed : s.memory.Typed) {calls : List (Call M)}
    (answered : ∀ call ∈ calls, call.Answered s.memory) (key : String) :
    (s.absorbAll calls).memory.cell key =
      fold (s.memory.cell key) (calls.filterMap (·.writeTo key)) := by
  induction calls generalizing s with
  | nil => rfl
  | cons call rest ih =>
    -- Answered once is answered for good: the answers see the frame only.
    have later : ∀ other ∈ rest, other.Answered (s.absorb call).memory := fun other member =>
      (answered other (List.mem_cons_of_mem call member)).congr (s.frame_absorb call).symm
    have first := cell_absorb typed (answered call List.mem_cons_self) key
    show ((s.absorb call).absorbAll rest).memory.cell key = _
    rw [ih (typed_absorb typed call) later, first]
    cases written : call.writeTo key <;> simp [written, fold]

theorem waiting_absorbAll (calls : List (Call M)) (target : VertexId) :
    (s.absorbAll calls).outbox.waiting target =
      s.outbox.waiting target ++ calls.filterMap (·.sentTo target) := by
  induction calls generalizing s with
  | nil => simp [absorbAll]
  | cons call rest ih =>
    show ((s.absorb call).absorbAll rest).outbox.waiting target = _
    rw [ih]
    cases call with
    | read | write => rfl
    | send id message =>
      by_cases same : id = target <;>
        simp [absorb, Outbox.waiting_send, Call.sentTo, same]

end Shared

end BulkSync
