import Mathlib.Data.List.Perm.Basic
import BulkSync.Proofs.Schedule.Discipline

set_option autoImplicit false

namespace BulkSync

variable {M : Type}

-- Whatever the order in which messages arrive, a vertex becomes the same, leaves the same under
-- each key and sends the same to everyone as often.
structure VertexProgram.Insensitive (program : VertexProgram M) : Prop where
  result : ∀ {v messages others}, messages.Perm others → ∀ m,
    (program.execute v messages).result m = (program.execute v others).result m
  writes : ∀ {v messages others}, messages.Perm others → ∀ m key old,
    fold old (((program.execute v messages).calls m).filterMap (·.writeTo key)) =
      fold old (((program.execute v others).calls m).filterMap (·.writeTo key))
  sends : ∀ {v messages others}, messages.Perm others → ∀ m target,
    (((program.execute v messages).calls m).filterMap (·.sentTo target)).Perm
      (((program.execute v others).calls m).filterMap (·.sentTo target))

theorem fold_append (old : Option Memory.Value) (writes more : List Memory.Write) :
    fold old (writes ++ more) = fold (fold old writes) more :=
  List.foldl_append

theorem fold_flatMap_congr {α : Type} {f g : α → List (Call M)} (key : String) {parts : List α}
    (same : ∀ a ∈ parts, ∀ old,
      fold old ((f a).filterMap (·.writeTo key)) = fold old ((g a).filterMap (·.writeTo key)))
    (old : Option Memory.Value) :
    fold old ((parts.flatMap f).filterMap (·.writeTo key)) =
      fold old ((parts.flatMap g).filterMap (·.writeTo key)) := by
  induction parts generalizing old with
  | nil => rfl
  | cons a rest ih =>
    simp only [List.flatMap_cons, List.filterMap_append, fold_append]
    rw [same a List.mem_cons_self, ih fun b member => same b (List.mem_cons_of_mem a member)]

namespace Run

structure Alike (r q : Run M) : Prop where
  rest : q = { r with inbox := q.inbox }
  mail : ∀ id, (r.inbox.messages id).Perm (q.inbox.messages id)

theorem Alike.refl (r : Run M) : r.Alike r := ⟨rfl, fun _ => .refl _⟩

theorem Alike.trans {r q p : Run M} (left : r.Alike q) (right : q.Alike p) : r.Alike p where
  rest := by
    obtain ⟨rest, -⟩ := left
    obtain ⟨later, -⟩ := right
    rw [rest] at later
    exact later
  mail id := (left.mail id).trans (right.mail id)

theorem alike_crossed {r q : Run M} {s t : Superstep M} (rest : q = { r with inbox := q.inbox })
    (vertices : s.vertices = t.vertices) (memory : (r.crossed s).memory = (q.crossed t).memory)
    (mail : ∀ id, ((r.crossed s).inbox.messages id).Perm ((q.crossed t).inbox.messages id)) :
    (r.crossed s).Alike (q.crossed t) where
  rest := by
    cases r
    cases q
    cases rest
    simp only [crossed] at memory ⊢
    rw [vertices, memory]
  mail := mail

section Alike

variable {r q : Run M} (alike : r.Alike q)
include alike

theorem Alike.graph : q.graph = r.graph := by rw [alike.rest]

theorem Alike.memory : q.memory = r.memory := by rw [alike.rest]

theorem Alike.program : q.program = r.program := by rw [alike.rest]

theorem Alike.phase : q.phase = r.phase := by rw [alike.rest]

theorem Alike.wake (v : Vertex) : r.inbox.wake v = q.inbox.wake v := by
  rw [Inbox.wake_eq, Inbox.wake_eq]
  simp only [← List.length_eq_zero_iff, (alike.mail v.id).length_eq]

theorem Alike.calls_cases (v : Vertex) :
    r.callsOf v = [] ∧ q.callsOf v = [] ∨
      r.callsOf v = (r.program.execute (r.inbox.wake v) (r.inbox.messages v.id)).calls r.memory ∧
        q.callsOf v =
          (r.program.execute (r.inbox.wake v) (q.inbox.messages v.id)).calls r.memory := by
  have woken := alike.wake v
  simp only [Run.callsOf]
  cases active : (r.inbox.wake v).halted with
  | true =>
    rw [Task.ahead_of_halted _ _ active, Task.ahead_of_halted _ _ (woken ▸ active)]
    exact .inl ⟨rfl, rfl⟩
  | false =>
    rw [Task.ahead_of_active _ _ active, Task.ahead_of_active _ _ (woken ▸ active),
      VertexProgram.work, VertexProgram.work, ← woken, alike.program, alike.memory]
    exact .inr ⟨rfl, rfl⟩

variable (insensitive : r.program.Insensitive)
include insensitive

theorem Alike.fateOf (v : Vertex) : r.fateOf v = q.fateOf v := by
  have woken := alike.wake v
  simp only [Run.fateOf]
  cases active : (r.inbox.wake v).halted with
  | true =>
    rw [Task.fate_of_halted _ _ active, Task.fate_of_halted _ _ (woken ▸ active), woken]
  | false =>
    rw [Task.fate_of_active _ _ active, Task.fate_of_active _ _ (woken ▸ active),
      VertexProgram.work, VertexProgram.work, ← woken, alike.program, alike.memory]
    exact insensitive.result (alike.mail _) _

theorem Alike.writes (v : Vertex) (key : String) (old : Option Memory.Value) :
    fold old ((r.callsOf v).filterMap (·.writeTo key)) =
      fold old ((q.callsOf v).filterMap (·.writeTo key)) := by
  obtain ⟨left, right⟩ | ⟨left, right⟩ := alike.calls_cases v
  · rw [left, right]
  · rw [left, right]
    exact insensitive.writes (alike.mail _) _ key old

theorem Alike.sends (v : Vertex) (target : VertexId) :
    ((r.callsOf v).filterMap (·.sentTo target)).Perm
      ((q.callsOf v).filterMap (·.sentTo target)) := by
  obtain ⟨left, right⟩ | ⟨left, right⟩ := alike.calls_cases v
  · rw [left, right]
  · rw [left, right]
    exact insensitive.sends (alike.mail _) _ target

theorem Alike.crossed_superstep (typed : r.memory.Typed) (passes : r.superstep.failure = none)
    (later : q.superstep.failure = none) :
    (r.crossed r.superstep).Alike (q.crossed q.superstep) := by
  have typedToo : q.memory.Typed := alike.memory ▸ typed
  have vertices : q.superstep.vertices = r.superstep.vertices := by
    rw [← r.superstepUnder_nil 0] at passes ⊢
    rw [← q.superstepUnder_nil 0] at later ⊢
    rw [vertices_superstepUnder typed passes, vertices_superstepUnder typedToo later, alike.graph]
    exact List.map_congr_left fun v _ => by rw [alike.fateOf insensitive v]
  have memory : r.superstep.shared.memory = q.superstep.shared.memory := by
    apply Memory.eq_of_frame_of_cell
    · rw [frame_superstep typed, frame_superstep typedToo, alike.memory]
    · intro key
      rw [cell_superstep typed passes, cell_superstep typedToo later, alike.memory, alike.graph]
      exact fold_flatMap_congr key (fun v _ => alike.writes insensitive v key) _
  refine alike_crossed alike.rest vertices.symm (congrArg Memory.commit memory) fun id => ?_
  rw [messages_crossed, messages_crossed, waiting_superstep typed passes,
    waiting_superstep typedToo later, alike.graph]
  split
  next =>
    rw [List.filterMap_flatMap, List.filterMap_flatMap]
    exact List.Perm.flatMap_left _ fun v _ => alike.sends insensitive v id
  next => exact .nil

theorem Alike.passes (typed : r.memory.Typed) (σ τ : Schedule) :
    (r.superstepUnder σ).failure = none ↔ (q.superstepUnder τ).failure = none := by
  rw [passes_iff typed, passes_iff (alike.memory ▸ typed), alike.graph]
  simp only [alike.fateOf insensitive]

theorem Alike.crossed (typed : r.memory.Typed) {σ : Schedule}
    (passes : (r.superstepUnder σ).failure = none) (disciplined : Disciplined (r.pool σ).calls)
    (disciplinedToo : Disciplined (q.pool ⟨[], 0⟩).calls) (τ : Schedule) :
    (r.crossed (r.superstepUnder σ)).Alike (q.crossed (q.superstepUnder τ)) := by
  have typedToo : q.memory.Typed := alike.memory ▸ typed
  -- From `σ` to the order of the graph, there from one inbox to the other, and on to `τ`.
  have inOrder := (alike.passes insensitive typed σ ⟨[], 0⟩).1 passes
  have left := agree typed passes disciplined ⟨[], 0⟩
  have right := agree typedToo inOrder disciplinedToo τ
  have first := alike_crossed rfl left.vertices left.memory left.messages
  have last := alike_crossed rfl right.vertices right.memory right.messages
  have middle := left.passes
  rw [superstepUnder_nil] at first last middle inOrder
  exact (first.trans (alike.crossed_superstep insensitive typed middle inOrder)).trans last

end Alike

theorem conclude_inbox (r : Run M) (inbox : Inbox M) (number : Nat)
    (verdict : Except Cause Bool × Memory) :
    ({ r with inbox } : Run M).conclude number verdict =
      ((r.conclude number verdict).1, { (r.conclude number verdict).2 with inbox }) := by
  obtain ⟨answer, memory⟩ := verdict
  cases answer with
  | error cause => rfl
  | ok done =>
    cases done with
    | true =>
      simp only [conclude, halt]
      split <;> rfl
    | false =>
      simp only [conclude, checkLimit]
      split
      next => split <;> rfl
      next => rfl

theorem inbox_conclude (r : Run M) (number : Nat) (verdict : Except Cause Bool × Memory) :
    (r.conclude number verdict).2.inbox = r.inbox :=
  congrArg (·.2.inbox) (r.conclude_inbox r.inbox number verdict)

theorem Alike.conclude {r q : Run M} (alike : r.Alike q) (number : Nat)
    (verdict : Except Cause Bool × Memory) :
    (r.conclude number verdict).2.Alike (q.conclude number verdict).2 := by
  have other := r.conclude_inbox q.inbox number verdict
  rw [← alike.rest] at other
  constructor
  case rest => rw [inbox_conclude, other]
  case mail =>
    intro id
    rw [inbox_conclude, inbox_conclude]
    exact alike.mail id

theorem Alike.failed {r q : Run M} (alike : r.Alike q) :
    ({ r with memory := r.memory.rollback, phase := .failed } : Run M).Alike
      { q with memory := q.memory.rollback, phase := .failed } where
  rest := by
    obtain ⟨rest, -⟩ := alike
    cases r
    cases q
    cases rest
    rfl
  mail := alike.mail

def KeepsDiscipline (first : Run M) : Prop :=
  ∀ earlier σ, (first.stepsUnder earlier).2.phase = .execute →
    ((first.stepsUnder earlier).2.superstepUnder σ).failure = none →
      Disciplined ((first.stepsUnder earlier).2.pool σ).calls

theorem KeepsDiscipline.stepUnder {r : Run M} (keeps : r.KeepsDiscipline) (σ : Schedule) :
    (r.stepUnder σ).2.KeepsDiscipline :=
  fun earlier => keeps (σ :: earlier)

theorem program_conclude (r : Run M) (number : Nat) (verdict : Except Cause Bool × Memory) :
    (r.conclude number verdict).2.program = r.program := by
  unfold conclude
  split
  next => rfl
  next =>
    unfold halt
    split <;> rfl
  next =>
    unfold checkLimit
    split
    next => split <;> rfl
    next => rfl

theorem program_stepUnder (r : Run M) (σ : Schedule) :
    (r.stepUnder σ).2.program = r.program := by
  rw [stepUnder, stepWith, stepBy]
  split
  next => rfl
  next =>
    unfold settleBy
    split
    next => rfl
    next => exact program_conclude _ _ _

theorem Alike.stepUnder {r q : Run M} (alike : r.Alike q) (insensitive : r.program.Insensitive)
    (steady : r.Steady) (keeps : r.KeepsDiscipline) (keepsToo : q.KeepsDiscipline)
    (σ τ : Schedule) :
    (r.stepUnder σ).2.Alike (q.stepUnder τ).2 ∧ r.inquiry σ = q.inquiry τ := by
  by_cases executing : r.phase = .execute
  · have sound := steady executing
    have soundToo : q.Sound := ⟨alike.memory ▸ sound.typed, alike.memory ▸ sound.thawed⟩
    have executingToo : q.phase = .execute := alike.phase.trans executing
    have together := alike.passes insensitive sound.typed σ τ
    -- Both fail or neither does, though perhaps by different vertices.
    cases failed : (r.superstepUnder σ).failure with
    | some failure =>
      cases failedToo : (q.superstepUnder τ).failure with
      | none =>
        rw [together.2 failedToo] at failed
        cases failed
      | some other =>
        rw [stepUnder_of_failed sound executing failed,
          stepUnder_of_failed soundToo executingToo failedToo]
        refine ⟨alike.failed, ?_⟩
        rw [inquiry, inquiry, tests_of_failed sound executing failed,
          tests_of_failed soundToo executingToo failedToo]
        rfl
    | none =>
      have passes := together.1 failed
      have crossed := alike.crossed insensitive sound.typed failed (keeps [] σ executing failed)
        (keepsToo [] ⟨[], 0⟩ executingToo
          ((alike.passes insensitive sound.typed σ ⟨[], 0⟩).1 failed)) τ
      have verdict : (q.crossed (q.superstepUnder τ)).verdict =
          (r.crossed (r.superstepUnder σ)).verdict := by
        rw [Run.verdict, Run.verdict, crossed.program, crossed.memory]
      rw [stepUnder_of_passes executing failed, stepUnder_of_passes executingToo passes,
        inquiry_of_passes sound executing failed, inquiry_of_passes soundToo executingToo passes,
        verdict, alike.memory]
      exact ⟨crossed.conclude r.memory.iteration _, rfl⟩
  · have left : q.phase ≠ .execute := alike.phase ▸ executing
    rw [stepUnder_of_left executing, stepUnder_of_left left]
    refine ⟨alike, ?_⟩
    rw [inquiry, inquiry, tests_of_left executing, tests_of_left left]
    rfl

theorem Alike.stepsUnder {r q : Run M} (alike : r.Alike q) (insensitive : r.program.Insensitive)
    (steady : r.Steady) (keeps : r.KeepsDiscipline) (keepsToo : q.KeepsDiscipline)
    {schedules others : List Schedule} (length : schedules.length = others.length) :
    (r.stepsUnder schedules).2.Alike (q.stepsUnder others).2 ∧
      r.inquiries schedules = q.inquiries others := by
  induction schedules generalizing r q others with
  | nil =>
    cases others with
    | nil => exact ⟨alike, rfl⟩
    | cons τ more => cases length
  | cons σ rest ih =>
    cases others with
    | nil => cases length
    | cons τ more =>
      obtain ⟨next, answer⟩ := alike.stepUnder insensitive steady keeps keepsToo σ τ
      obtain ⟨last, answers⟩ := ih next (program_stepUnder r σ ▸ insensitive) (steady.stepUnder σ)
        (keeps.stepUnder σ) (keepsToo.stepUnder τ) (by simpa using length)
      exact ⟨last, by simp only [inquiries_cons, answer, answers]⟩

theorem schedules_agree {graph : Graph} {program : VertexProgram M} {jobs : List Registered}
    {settings : Settings} {host : Host} {first : Run M}
    (began : start graph program jobs settings host = .ok first) :
    (∀ earlier σ τ, let r := (first.stepsUnder earlier).2
      r.phase = .execute → (r.superstepUnder σ).failure = none → Disciplined (r.pool σ).calls →
        r.Agree σ τ) ∧
      (program.Insensitive → first.KeepsDiscipline →
        ∀ schedules others, schedules.length = others.length →
          let r := (first.stepsUnder schedules).2
          let q := (first.stepsUnder others).2
          r.memory = q.memory ∧ r.graph = q.graph ∧ r.phase = q.phase ∧
            (∀ id, (r.inbox.messages id).Perm (q.inbox.messages id)) ∧
            first.inquiries schedules = first.inquiries others) := by
  have fresh := fresh_of_start began
  have steady : first.Steady := fun _ => fresh.sound
  constructor
  · intro earlier σ τ r executing passes disciplined
    exact agree (steady.stepsUnder earlier executing).typed passes disciplined τ
  · intro insensitive keeps schedules others length r q
    obtain ⟨alike, answers⟩ := (Alike.refl first).stepsUnder (fresh.program ▸ insensitive) steady
      keeps keeps length
    exact ⟨alike.memory.symm, alike.graph.symm, alike.phase.symm, alike.mail, answers⟩

theorem program_stepsUnder (r : Run M) (schedules : List Schedule) :
    (r.stepsUnder schedules).2.program = r.program := by
  induction schedules generalizing r with
  | nil => rfl
  | cons σ rest ih => exact (ih _).trans (program_stepUnder r σ)

theorem keepsDiscipline_of_folds {first : Run M} (steady : first.Steady) (folds : String → Fold)
    (writes : ∀ v messages m, ∀ call ∈ (first.program.execute v messages).calls m,
      ∀ key w, call.writeTo key = some w → w.fold? = some (folds key)) :
    first.KeepsDiscipline := by
  intro earlier σ executing passes key
  have typed := (steady.stepsUnder earlier executing).typed
  have program := program_stepsUnder first earlier
  generalize (first.stepsUnder earlier).2 = r at *
  refine .inr ⟨folds key, fun i call w made written => ?_⟩
  obtain ⟨v, found⟩ : ∃ v, r.graph.vertices[i]? = some v :=
    ⟨_, List.getElem?_eq_getElem ((reached_pool typed σ).within made)⟩
  -- What a schedule makes it do, the vertex does alone too, and there its code is known.
  rw [← mem_callsBy, callsBy_pool typed passes found] at made
  cases active : (r.inbox.wake v).halted with
  | true =>
    rw [callsOf, Task.ahead_of_halted _ _ active] at made
    cases made
  | false =>
    rw [callsOf, Task.ahead_of_active _ _ active, program] at made
    exact writes _ _ _ call made key w written

def tally : VertexProgram Int64 where
  keys := [⟨"sum", .integer⟩]
  setup := .done (.ok ())
  execute v messages :=
    .write (.incr "sum" (messages.foldl (· + ·) 1)) fun _ => .send ⟨0⟩ 2 (.done (.ok (), v))
  terminate := .read (.integer "sum") fun _ => .done (.ok false)

theorem insensitive_tally : tally.Insensitive := by
  have same {v : Vertex} {messages others : List Int64} (perm : messages.Perm others) :
      tally.execute v messages = tally.execute v others := by
    have sum : messages.foldl (· + ·) 1 = others.foldl (· + ·) 1 :=
      perm.foldl_eq' (fun _ _ _ _ _ => by ac_rfl) 1
    let counted (n : Int64) : Action Int64 (Except Cause Unit × Vertex) :=
      .write (.incr "sum" n) fun _ => .send ⟨0⟩ 2 (.done (.ok (), v))
    exact congrArg counted sum
  constructor
  case result => exact fun perm m => by rw [same perm]
  case writes => exact fun perm m key old => by rw [same perm]
  case sends => exact fun perm m target => by rw [same perm]

theorem folds_tally (v : Vertex) (messages : List Int64) (m : Memory) (call : Call Int64)
    (made : call ∈ (tally.execute v messages).calls m) (key : String) (w : Memory.Write)
    (written : call.writeTo key = some w) : w.fold? = some .sum := by
  obtain ⟨answer, rfl, -⟩ := Call.eq_write_of_writeTo written
  simp only [tally, Action.calls, List.mem_cons, List.not_mem_nil, or_false, reduceCtorEq,
    Call.write.injEq] at made
  obtain ⟨rfl, -⟩ := made
  rfl

theorem schedules_agree_tally :
    ∃ first,
      start (.withVertices 2) tally [] ⟨none, none, none⟩ .still = .ok first ∧
      first.phase = .execute ∧ (first.superstepUnder ⟨[0, 1, 0, 1], 0⟩).failure = none ∧
      tally.Insensitive ∧ first.KeepsDiscipline ∧ first.Agree ⟨[0, 1, 0, 1], 0⟩ ⟨[1, 1, 1], 0⟩ ∧
      (first.stepsUnder [⟨[0, 1, 0, 1], 0⟩, ⟨[], 0⟩]).2.memory =
        (first.stepsUnder [⟨[1, 1, 1], 0⟩, ⟨[1], 0⟩]).2.memory := by
  obtain ⟨first, began, executing, passes⟩ :
      ∃ first, start (.withVertices 2) tally [] ⟨none, none, none⟩ .still =
          .ok first ∧
        first.phase = .execute ∧ (first.superstepUnder ⟨[0, 1, 0, 1], 0⟩).failure = none :=
    ⟨_, rfl, rfl, rfl⟩
  have fresh := fresh_of_start began
  have keeps : first.KeepsDiscipline :=
    keepsDiscipline_of_folds (fun _ => fresh.sound) (fun _ => .sum)
      (fresh.program ▸ folds_tally)
  obtain ⟨supersteps, runs⟩ := schedules_agree began
  exact ⟨first, began, executing, passes, insensitive_tally, keeps,
    supersteps [] _ _ executing passes (keeps [] _ executing passes),
    (runs insensitive_tally keeps [⟨[0, 1, 0, 1], 0⟩, ⟨[], 0⟩] [⟨[1, 1, 1], 0⟩, ⟨[1], 0⟩] rfl).1⟩

end Run

end BulkSync
