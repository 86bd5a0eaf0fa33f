import BulkSync.Program.Action
import BulkSync.Proofs.Memory.Barrier

set_option autoImplicit false

namespace BulkSync

inductive Call (M : Type) where
  | read (r : Memory.Read) (answer : r.Answer)
  | write (w : Memory.Write) (answer : Except Memory.Error w.Answer)
  | send (target : VertexId) (message : M)

namespace Shared

variable {M : Type}

def absorb (s : Shared M) : Call M → Shared M
  | .read _ _ => s
  | .write w _ => { s with memory := (s.memory.write w).2 }
  | .send target message => { s with outbox := s.outbox.send target message }

def absorbAll (s : Shared M) (calls : List (Call M)) : Shared M := calls.foldl absorb s

theorem frame_absorb (s : Shared M) (call : Call M) :
    (s.absorb call).memory.frame = s.memory.frame := by
  cases call with
  | read | send => rfl
  | write w => exact s.memory.frame_write w

theorem typed_absorb {s : Shared M} (typed : s.memory.Typed) (call : Call M) :
    (s.absorb call).memory.Typed := by
  cases call with
  | read | send => exact typed
  | write w => exact typed.write w

theorem frame_absorbAll (s : Shared M) (calls : List (Call M)) :
    (s.absorbAll calls).memory.frame = s.memory.frame := by
  induction calls generalizing s with
  | nil => rfl
  | cons call rest ih => exact (ih (s.absorb call)).trans (s.frame_absorb call)

theorem typed_absorbAll {s : Shared M} (typed : s.memory.Typed) (calls : List (Call M)) :
    (s.absorbAll calls).memory.Typed := by
  induction calls generalizing s with
  | nil => exact typed
  | cons call rest ih => exact ih (typed_absorb typed call)

theorem absorbAll_append (s : Shared M) (calls more : List (Call M)) :
    s.absorbAll (calls ++ more) = (s.absorbAll calls).absorbAll more :=
  List.foldl_append

end Shared

namespace Action

variable {M α : Type}

def transcript : Action M α → Shared M → List (Call M)
  | done _, _ => []
  | read r next, s =>
    let answer := s.memory.answer r
    .read r answer :: (next answer).transcript s
  | write w next, s =>
    let (answer, memory) := s.memory.write w
    .write w answer :: (next answer).transcript { s with memory }
  | send target message next, s =>
    .send target message :: next.transcript { s with outbox := s.outbox.send target message }

def calls : Action M α → Memory → List (Call M)
  | done _, _ => []
  | read r next, m => .read r (m.answer r) :: (next (m.answer r)).calls m
  | write w next, m => .write w (m.reply w) :: (next (m.reply w)).calls m
  | send target message next, m => .send target message :: next.calls m

def result : Action M α → Memory → α
  | done a, _ => a
  | read r next, m => (next (m.answer r)).result m
  | write w next, m => (next (m.reply w)).result m
  | send _ _ next, m => next.result m

theorem run_shared (a : Action M α) (s : Shared M) :
    (a.run s).2 = s.absorbAll (a.transcript s) := by
  induction a generalizing s with
  | done a => rfl
  | read r next ih => exact ih _ s
  | write w next ih => exact ih _ _
  | send target message next ih => exact ih _

theorem calls_congr {m n : Memory} (frames : m.frame = n.frame) (a : Action M α) :
    a.calls m = a.calls n := by
  induction a with
  | done a => rfl
  | read r next ih => simp only [calls, Memory.answer_congr frames, ih]
  | write w next ih => simp only [calls, Memory.reply_congr frames, ih]
  | send target message next ih => simp only [calls, ih]

theorem result_congr {m n : Memory} (frames : m.frame = n.frame) (a : Action M α) :
    a.result m = a.result n := by
  induction a with
  | done a => rfl
  | read r next ih => simp only [result, Memory.answer_congr frames, ih]
  | write w next ih => simp only [result, Memory.reply_congr frames, ih]
  | send target message next ih => simp only [result, ih]

theorem transcript_eq_calls (a : Action M α) {s : Shared M} (typed : s.memory.Typed) :
    a.transcript s = a.calls s.memory := by
  induction a generalizing s with
  | done a => rfl
  | read r next ih => exact congrArg (Call.read r _ :: ·) (ih _ typed)
  | write w next ih =>
    -- The rest runs on memory that is written to; `calls` asks the old one, of the same frame.
    have later := ih (s.memory.reply w) (s := ⟨(s.memory.write w).2, s.outbox⟩) (typed.write w)
    simp only [transcript, calls, Memory.write_answer typed, later]
    rw [calls_congr (s.memory.frame_write w)]
  | send target message next ih =>
    exact congrArg (Call.send target message :: ·)
      (ih (s := ⟨s.memory, s.outbox.send target message⟩) typed)

theorem run_eq_result (a : Action M α) {s : Shared M} (typed : s.memory.Typed) :
    (a.run s).1 = a.result s.memory := by
  induction a generalizing s with
  | done a => rfl
  | read r next ih => exact ih _ typed
  | write w next ih =>
    have later := ih (s.memory.reply w) (s := ⟨(s.memory.write w).2, s.outbox⟩) (typed.write w)
    simp only [run, result, Memory.write_answer typed, later]
    exact result_congr (s.memory.frame_write w) _
  | send target message next ih =>
    exact ih (s := ⟨s.memory, s.outbox.send target message⟩) typed

theorem frame_run (a : Action M α) (s : Shared M) :
    (a.run s).2.memory.frame = s.memory.frame := by
  rw [run_shared]
  exact s.frame_absorbAll _

theorem typed_run (a : Action M α) {s : Shared M} (typed : s.memory.Typed) :
    (a.run s).2.memory.Typed := by
  rw [run_shared]
  exact Shared.typed_absorbAll typed _

theorem frame_runOn (a : Action Empty α) (m : Memory) : (a.runOn m).2.frame = m.frame :=
  a.frame_run ⟨m, .empty⟩

theorem typed_runOn (a : Action Empty α) {m : Memory} (typed : m.Typed) :
    (a.runOn m).2.Typed :=
  a.typed_run (s := ⟨m, .empty⟩) typed

end Action

end BulkSync
