import BulkSync.Proofs.Graph.Index
import BulkSync.Proofs.Run.Phases

set_option autoImplicit false

namespace BulkSync

variable {M : Type}

namespace Machine

variable {machine : Machine M} {s : State M}

theorem callsUnder_nil (report : Nat) : machine.callsUnder ⟨[], report⟩ s =
    (s.vertices.map (machine.turn s)).flatMap Turn.calls := by
  rw [callsUnder, interleave_nil, List.flatMap_map]

theorem round_of_superstep {known : VertexId → Bool} {t : State M} {report : Nat} {done : Bool}
    (live : s.halted = false) (ids : ∀ id, known id = true ↔ id ∈ machine.ids)
    (passes : machine.superstep known [] s ⟨[], report⟩ = some t)
    (answered : machine.program.terminate.result (machine.view t.readable s.number) = .ok done) :
    machine.round s =
      some
        { t with
          number := if done then s.number else s.number + 1
          halted := done
          verdicts := s.verdicts ++
            [⟨machine.program.terminate.calls (machine.view t.readable s.number), .ok done⟩] } := by
  rw [superstep] at passes
  split at passes
  next sound =>
    cases passes
    have outcomes : (s.vertices.map (machine.turn s)).all (·.outcome.isOk) = true := by
      rw [List.all_map]
      exact sound
    simp only [callsUnder_nil, List.foldl_nil] at answered ⊢
    simp [round, live, outcomes, answered, ids, Function.comp_def]
  next => cases passes

structure Obeys (machine : Machine M) (r : Run M) (s : State M) : Prop where
  mirrors : machine.Mirrors r s []
  observes : r.program.Observes
  known : ∀ id, r.graph.contains id = true ↔ id ∈ machine.ids
  live : s.halted = false

variable {r : Run M} (obeys : machine.Obeys r s)
include obeys

theorem tests_eq {t : State M} {answer : Except Cause Bool}
    (passes : (r.superstepUnder ⟨[], 0⟩).failure = none)
    (readable : t.readable = (r.crossed (r.superstepUnder ⟨[], 0⟩)).memory.previous)
    (answered : machine.program.terminate.result (machine.view t.readable s.number) = answer) :
    (r.tests Run.superstep).map r.verdictOn =
      [⟨machine.program.terminate.calls (machine.view t.readable s.number), answer⟩] := by
  have follows := obeys.mirrors.follows
  have inOrder : Run.superstep = fun q : Run M => q.superstepUnder ⟨[], 0⟩ :=
    funext fun q => (q.superstepUnder_nil 0).symm
  rw [inOrder, Run.tests_of_passes follows.executing passes, List.map_singleton,
    verdictOn_crossed follows, ← answered, readable, obeys.mirrors.shows.number]

theorem Obeys.step {outcome : Run.Outcome} {next : Run M} (stepped : r.step = (.ok outcome, next)) :
    ∃ t, machine.round s = some t ∧ Shows next t ∧
      t.verdicts = s.verdicts ++ (r.tests Run.superstep).map r.verdictOn ∧
      (machine.Obeys next t ∨ next.phase = .halted) := by
  have mirrors := obeys.mirrors
  have ended := Run.ended_stepUnder mirrors.follows.sound mirrors.follows.executing ⟨[], 0⟩
  rw [r.stepUnder_nil, stepped] at ended
  have counter := Run.iteration_crossed mirrors.follows.sound ⟨[], 0⟩
  have observed {answer : Except Cause Bool} {memory : Memory}
      (asked : (r.crossed (r.superstepUnder ⟨[], 0⟩)).verdict = (answer, memory)) :
      memory = (r.crossed (r.superstepUnder ⟨[], 0⟩)).memory :=
    (congrArg Prod.snd asked).symm.trans (obeys.observes _)
  cases ended with
  | halted passes asked =>
    obtain ⟨t, superstep, answered, mirrored⟩ := mirrors.advance passes asked
    obtain rfl := observed asked
    have shows := mirrored.shows
    have level := Memory.level_commit (r.superstepUnder ⟨[], 0⟩).shared.memory
    refine ⟨_, round_of_superstep obeys.live obeys.known superstep answered, ?_, ?_, .inr rfl⟩
    · exact ⟨shows.vertices, shows.readable.trans level.symm, shows.mail,
        mirrors.shows.number.trans counter.symm⟩
    · rw [tests_eq obeys passes shows.readable answered]
  | continued passes asked below =>
    obtain ⟨t, superstep, answered, mirrored⟩ := mirrors.advance passes asked
    obtain rfl := observed asked
    have shows := mirrored.shows
    have number : s.number = (r.crossed (r.superstepUnder ⟨[], 0⟩)).memory.iteration :=
      mirrors.shows.number.trans counter.symm
    have shown : Shows { r.crossed (r.superstepUnder ⟨[], 0⟩) with
        memory := (r.crossed (r.superstepUnder ⟨[], 0⟩)).memory.advance }
        { t with number := s.number + 1 } :=
      ⟨shows.vertices, shows.readable, shows.mail, congrArg (· + 1) number⟩
    refine ⟨_, round_of_superstep obeys.live obeys.known superstep answered,
      ⟨shown.vertices, shown.readable, shown.mail, shown.number⟩, ?_, .inl ?_⟩
    · rw [tests_eq obeys passes shows.readable answered]
    · exact ⟨⟨mirrored.follows, ⟨shown.vertices, shown.readable, shown.mail, shown.number⟩,
        pending_of_level (Memory.level_commit _)⟩, obeys.observes, obeys.known, rfl⟩

end Machine

namespace Run

theorem Advanced.obeys {machine : Machine M} {first r : Run M} {s : Machine.State M} {n : Nat}
    {verdicts : List Machine.Verdict} (obeys : machine.Obeys first s)
    (advanced : Advanced first n verdicts r) :
    ∃ t, machine.rounds n s = some t ∧ Machine.Shows r t ∧ t.verdicts = s.verdicts ++ verdicts ∧
      (machine.Obeys r t ∨ r.phase = .halted) := by
  induction advanced with
  | start => exact ⟨s, rfl, obeys.mirrors.shows, by simp, .inl obeys⟩
  | step earlier stepped ih =>
    obtain ⟨t, rounds, -, logged, obeys | halted⟩ := ih
    · obtain ⟨u, round, shows, verdict, ends⟩ := obeys.step stepped
      refine ⟨u, ?_, shows, by simp [verdict, logged], ends⟩
      rw [Machine.rounds, rounds]
      exact round
    -- A run that has halted has no successful step left.
    · rw [← stepUnder_nil _ 0, stepUnder_of_left (by simp [halted])] at stepped
      cases stepped

theorem advanced_refines {graph : Graph} {program : VertexProgram M} {jobs : List Registered}
    {settings : Settings} {host : Host} {first r : Run M} {n : Nat}
    {verdicts : List Machine.Verdict} (indexed : graph.Indexed)
    (began : start graph program jobs settings host = .ok first) (observes : program.Observes)
    (advanced : Advanced first n verdicts r) :
    ∃ s, first.machine.rounds n first.initial = some s ∧
      s.vertices = r.graph.vertices ∧ s.readable = r.memory.previous ∧
      (∀ id, s.mail id = r.inbox.messages id) ∧ s.number = r.memory.iteration ∧
      s.verdicts = verdicts := by
  have fresh := fresh_of_start began
  have obeys : first.machine.Obeys first first.initial :=
    ⟨fresh.mirrors, fresh.program ▸ observes, (fresh.graph ▸ indexed).contains_iff, rfl⟩
  obtain ⟨s, rounds, shows, logged, -⟩ := advanced.obeys obeys
  exact ⟨s, rounds, shows.vertices, shows.readable, shows.mail, shows.number, logged⟩

def relay : VertexProgram Int64 where
  keys := [⟨"sum", .integer⟩]
  setup := .done (.ok ())
  execute v messages :=
    .write (.incr "sum" (messages.foldl (· + ·) 1)) fun _ =>
      (Action.sendAll 2 v.outEdges).bind fun _ => .done (.ok (), v.voteToHalt)
  terminate := .read (.integer "sum") fun _ => .done (.ok false)

theorem advanced_refines_relay :
    ∃ first r verdicts,
      start (.ofEdges [(⟨0⟩, ⟨1⟩), (⟨1⟩, ⟨0⟩)]) relay [] ⟨none, none, none⟩ .still =
        .ok first ∧
      (Graph.ofEdges [(⟨0⟩, ⟨1⟩), (⟨1⟩, ⟨0⟩)]).Indexed ∧ relay.Observes ∧
      Advanced first 2 verdicts r ∧
      ∃ s, first.machine.rounds 2 first.initial = some s ∧
        s.vertices = r.graph.vertices ∧ s.readable = r.memory.previous ∧
        (∀ id, s.mail id = r.inbox.messages id) ∧ s.number = r.memory.iteration ∧
        s.verdicts = verdicts ∧ s.mail ⟨0⟩ = [2] ∧ s.number = 2 := by
  obtain ⟨first, next, began, stepped, succeeds, mail, number⟩ :
      ∃ first next,
        start (.ofEdges [(⟨0⟩, ⟨1⟩), (⟨1⟩, ⟨0⟩)]) relay [] ⟨none, none, none⟩ .still =
          .ok first ∧
        first.step = (.ok .continues, next) ∧ next.step.1.isOk = true ∧
        next.step.2.inbox.messages ⟨0⟩ = [2] ∧ next.step.2.memory.iteration = 2 :=
    ⟨_, _, rfl, rfl, by decide +kernel, by decide +kernel, by decide +kernel⟩
  rcases again : next.step with ⟨outcome, last⟩
  rw [again] at succeeds mail number
  cases outcome with
  | error failure => cases succeeds
  | ok outcome =>
    have indexed := Graph.indexed_ofEdges [(⟨0⟩, ⟨1⟩), (⟨1⟩, ⟨0⟩)]
    have observes : relay.Observes := fun _ => rfl
    have advanced : Advanced first 2 _ last := .step (.step .start stepped) again
    obtain ⟨s, rounds, vertices, readable, mails, numbers, verdicts⟩ :=
      advanced_refines indexed began observes advanced
    exact ⟨first, last, _, began, indexed, observes, advanced, s, rounds, vertices, readable,
      mails, numbers, verdicts, (mails ⟨0⟩).trans mail, numbers.trans number⟩

end Run

end BulkSync
