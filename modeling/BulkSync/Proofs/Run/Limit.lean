import BulkSync.Proofs.Run.Phases

set_option autoImplicit false

namespace BulkSync

variable {M : Type}

def Failure.OfCall : Failure → Prop
  | .vertex _ _ _ | .terminate _ _ => True
  | _ => False

namespace Run

def runToHaltUnder : List Schedule → Run M → Option (Except Failure Unit) × Run M
  | [], r => (none, r)
  | σ :: rest, r =>
    match r.stepUnder σ with
    | (.error failure, r) => (some (.error failure), r)
    | (.ok .halted, r) => (some (.ok ()), r)
    | (.ok .continues, r) => runToHaltUnder rest r

theorem runToHaltUnder_replicate (fuel : Nat) (r : Run M) :
    r.runToHaltUnder (List.replicate fuel ⟨[], 0⟩) = r.runToHalt fuel := by
  induction fuel generalizing r with
  | zero => rfl
  | succ fuel ih =>
    rw [List.replicate_succ, runToHaltUnder, runToHalt, stepUnder_nil]
    rcases r.step with ⟨failure | outcome, next⟩
    · rfl
    · cases outcome with
      | halted => rfl
      | continues => exact ih next

section Stepped

variable {r next : Run M} {σ : Schedule}

theorem runToHaltUnder_of_error {failure : Failure}
    (stepped : r.stepUnder σ = (.error failure, next)) (rest : List Schedule) :
    r.runToHaltUnder (σ :: rest) = (some (.error failure), next) := by
  rw [runToHaltUnder, stepped]

theorem runToHaltUnder_of_halted (stepped : r.stepUnder σ = (.ok .halted, next))
    (rest : List Schedule) : r.runToHaltUnder (σ :: rest) = (some (.ok ()), next) := by
  rw [runToHaltUnder, stepped]

theorem runToHaltUnder_of_continues (stepped : r.stepUnder σ = (.ok .continues, next))
    (rest : List Schedule) : r.runToHaltUnder (σ :: rest) = next.runToHaltUnder rest := by
  rw [runToHaltUnder, stepped]

end Stepped

theorem runToHaltUnder_of_limit {r : Run M} (sound : r.Sound) (executing : r.phase = .execute)
    {limit : UInt64} (bound : r.settings.maxSupersteps = some limit) {schedules : List Schedule}
    (enough : max limit.toNat (r.memory.iteration + 1) ≤
      r.memory.iteration + schedules.length) :
    ∃ outcome, (r.runToHaltUnder schedules).1 = some outcome := by
  induction schedules generalizing r with
  | nil =>
    rw [List.length_nil] at enough
    omega
  | cons σ rest ih =>
    have ended := ended_stepUnder sound executing σ
    rcases stepped : r.stepUnder σ with ⟨outcome, next⟩
    rw [stepped] at ended
    cases ended with
    | aborted | broken | limited =>
      exact ⟨_, congrArg Prod.fst (runToHaltUnder_of_error stepped rest)⟩
    | halted => exact ⟨_, congrArg Prod.fst (runToHaltUnder_of_halted stepped rest)⟩
    | continued passes asked below =>
      obtain ⟨later, still, counted⟩ := sound.continues executing stepped
      have left := below limit bound
      have fewer : max limit.toNat (r.memory.iteration + 1 + 1) ≤
          r.memory.iteration + 1 + rest.length := by
        rw [List.length_cons] at enough
        omega
      rw [← counted] at fewer
      rw [runToHaltUnder_of_continues stepped]
      exact ih later still bound fewer

theorem answering_cases {machine : Machine M} {r : Run M} {s : Machine.State M}
    {pending : List (Call Empty)} (mirrors : machine.Mirrors r s pending)
    {schedules : List Schedule}
    (few : ∀ limit, r.settings.maxSupersteps = some limit →
      r.memory.iteration + schedules.length ≤ max limit.toNat (r.memory.iteration + 1)) :
    (∃ failure, (r.runToHaltUnder schedules).1 = some (.error failure) ∧ failure.OfCall) ∨
      (∃ t u, t < schedules.length ∧
        machine.answering r.graph.contains s pending (schedules.take (t + 1)) =
          some (List.replicate t false ++ [true], u)) ∨
      ∃ u, machine.answering r.graph.contains s pending schedules =
        some (List.replicate schedules.length false, u) := by
  induction schedules generalizing r s pending with
  | nil => exact .inr (.inr ⟨s, rfl⟩)
  | cons σ rest ih =>
    have sound := mirrors.follows.sound
    have executing := mirrors.follows.executing
    have ended := ended_stepUnder sound executing σ
    rcases stepped : r.stepUnder σ with ⟨outcome, next⟩
    rw [stepped] at ended
    cases ended with
    | aborted fails =>
      obtain ⟨v, -, cause, -, -, rfl⟩ := failure_of_superstepUnder sound.typed fails
      exact .inl ⟨_, congrArg Prod.fst (runToHaltUnder_of_error stepped rest), trivial⟩
    | broken =>
      exact .inl ⟨_, congrArg Prod.fst (runToHaltUnder_of_error stepped rest), trivial⟩
    | halted passes asked =>
      obtain ⟨t, superstep, answered, -⟩ := mirrors.advance passes asked
      exact .inr (.inl ⟨0, t, Nat.succ_pos _,
        Machine.answering_cons.2 ⟨σ, [], t, rfl, superstep, answered, rfl⟩⟩)
    | limited passes asked bound exceeded =>
      obtain ⟨t, superstep, answered, -⟩ := mirrors.advance passes asked
      -- The limit leaves room for no further superstep.
      have room := few _ bound
      obtain rfl : rest = [] := by
        rw [← List.length_eq_zero_iff]
        rw [List.length_cons] at room
        omega
      exact .inr (.inr ⟨t, Machine.answering_cons.2 ⟨σ, [], t, rfl, superstep, answered, rfl⟩⟩)
    | continued passes asked below =>
      obtain ⟨t, superstep, answered, mirrored⟩ := mirrors.advance passes asked
      have counted := (sound.continues executing stepped).2.2
      have fewer (limit : UInt64) (bound : r.settings.maxSupersteps = some limit) :
          r.memory.iteration + 1 + rest.length ≤
            max limit.toNat (r.memory.iteration + 1 + 1) := by
        have room := few limit bound
        rw [List.length_cons] at room
        omega
      rw [← counted] at fewer
      rw [runToHaltUnder_of_continues stepped]
      obtain failed | ⟨n, u, within, later⟩ | ⟨u, later⟩ := ih mirrored fewer
      · exact .inl failed
      · exact .inr (.inl ⟨n + 1, u, Nat.succ_lt_succ within,
          Machine.answering_cons.2 ⟨σ, _, t, rfl, superstep, answered, later⟩⟩)
      · exact .inr (.inr ⟨u,
          Machine.answering_cons.2 ⟨σ, rest, t, rfl, superstep, answered, later⟩⟩)

structure Lasts (r : Run M) (schedules : List Schedule) (answers : List Bool)
    (outcome : Except Failure Unit) (last : Run M) : Prop where
  steps : schedules.length = answers.length
  ends (more : List Schedule) : r.runToHaltUnder (schedules ++ more) = (some outcome, last)
  under {n : Nat} (fewer : n < schedules.length) :
    (r.runToHaltUnder (schedules.take n)).1 = none
  -- One test a superstep, each with the number of its superstep.
  inquiries : r.inquiries schedules = (answers.map .ok).zipIdx r.memory.iteration

section Lasting

variable {r next last : Run M} {σ : Schedule} {outcome : Except Failure Unit}

theorem Lasts.run_eq {schedules : List Schedule} {answers : List Bool}
    (lasts : r.Lasts schedules answers outcome last) :
    r.runToHaltUnder schedules = (some outcome, last) := by
  simpa using lasts.ends []

theorem Lasts.final {answer : Bool}
    (inquired : r.inquiry σ = [(.ok answer, r.memory.iteration)])
    (ends : ∀ more, r.runToHaltUnder (σ :: more) = (some outcome, last)) :
    r.Lasts [σ] [answer] outcome last where
  steps := rfl
  ends := ends
  under fewer := by
    obtain rfl := Nat.lt_one_iff.1 fewer
    rfl
  inquiries := by
    rw [inquiries_cons, inquired]
    rfl

theorem Lasts.continued {rest : List Schedule} {answers : List Bool}
    (inquired : r.inquiry σ = [(.ok false, r.memory.iteration)])
    (goes : r.stepUnder σ = (.ok .continues, next))
    (counted : next.memory.iteration = r.memory.iteration + 1)
    (later : next.Lasts rest answers outcome last) :
    r.Lasts (σ :: rest) (false :: answers) outcome last where
  steps := congrArg (· + 1) later.steps
  ends more := by
    rw [List.cons_append, runToHaltUnder_of_continues goes]
    exact later.ends more
  under {n} fewer := by
    cases n with
    | zero => rfl
    | succ n =>
      rw [List.take_succ_cons, runToHaltUnder_of_continues goes]
      exact later.under (Nat.lt_of_succ_lt_succ fewer)
  inquiries := by
    rw [inquiries_cons, inquired, goes, later.inquiries, counted]
    rfl

end Lasting

section Answered

variable {machine : Machine M} {r : Run M} {s u : Machine.State M} {pending : List (Call Empty)}
  (mirrors : machine.Mirrors r s pending)
include mirrors

theorem continues_of_answered {t : Machine.State M} {σ : Schedule}
    (superstep : machine.superstep r.graph.contains pending s σ = some t)
    (answered : machine.program.terminate.result (machine.view t.readable s.number) = .ok false)
    (below : ∀ limit, r.settings.maxSupersteps = some limit →
      r.memory.iteration + 1 < limit.toNat) :
    ∃ memory,
      let next := { r.crossed (r.superstepUnder σ) with memory }
      r.stepUnder σ = (.ok .continues, next) ∧
      r.inquiry σ = [(.ok false, r.memory.iteration)] ∧
      next.memory.iteration = r.memory.iteration + 1 ∧
      machine.Mirrors next t
        (machine.program.terminate.calls (machine.view t.readable s.number)) := by
  have sound := mirrors.follows.sound
  have executing := mirrors.follows.executing
  obtain ⟨passes, memory, asked, mirrored⟩ := mirrors.asked superstep answered
  have goes := stepUnder_of_ended sound executing (.continued passes asked below)
  exact ⟨memory.advance, goes, inquiry_of_asked sound executing passes asked,
    (sound.continues executing goes).2.2, mirrored⟩

theorem halts_of_answering {t : Nat} {schedules : List Schedule}
    (answering : machine.answering r.graph.contains s pending schedules =
      some (List.replicate t false ++ [true], u))
    (within : ∀ limit, r.settings.maxSupersteps = some limit →
      r.memory.iteration + t + 1 ≤ max limit.toNat (r.memory.iteration + 1)) :
    ∃ last, r.Lasts schedules (List.replicate t false ++ [true]) (.ok ()) last ∧
      last.phase = .halted ∧ last.memory.iteration = r.memory.iteration + t ∧
      last.Holds r.graph
        { u with
          readable :=
            (machine.program.terminate.calls
              (machine.view u.readable (r.memory.iteration + t))).foldl Machine.apply
                u.readable } := by
  induction t generalizing r s pending schedules with
  | zero =>
    have sound := mirrors.follows.sound
    have executing := mirrors.follows.executing
    obtain ⟨σ, rest, t, rfl, superstep, answered, later⟩ := Machine.answering_cons.1 answering
    obtain ⟨rfl, rfl⟩ := Machine.answering_nil.1 later
    obtain ⟨passes, memory, asked, mirrored⟩ := mirrors.asked superstep answered
    have stepped := stepUnder_of_ended sound executing (.halted passes asked)
    have inquired := inquiry_of_asked sound executing passes asked
    have holds := holds_completed mirrored (r.host.clock r.memory.iteration)
    rw [mirrors.shows.number] at holds
    refine ⟨_, .final inquired (runToHaltUnder_of_halted stepped), rfl, ?_,
      ⟨holds.index, holds.vertices, holds.readable, holds.mail⟩⟩
    exact (Memory.iteration_congr (frame_verdict asked)).trans (iteration_crossed sound _)
  | succ t ih =>
    obtain ⟨σ, rest, u, rfl, superstep, answered, later⟩ := Machine.answering_cons.1 answering
    have below (limit : UInt64) (bound : r.settings.maxSupersteps = some limit) :
        r.memory.iteration + 1 < limit.toNat := by
      have room := within limit bound
      omega
    obtain ⟨memory, goes, inquired, counted, mirrored⟩ :=
      continues_of_answered mirrors superstep answered below
    obtain ⟨last, lasts, phase, number, holds⟩ := ih mirrored later fun limit bound => by
      have room := within limit bound
      omega
    rw [counted, Nat.add_assoc, Nat.add_comm 1] at number holds
    exact ⟨last, lasts.continued inquired goes counted, phase, number,
      ⟨holds.index, holds.vertices, holds.readable, holds.mail⟩⟩

theorem limited_of_answering {n : Nat} {schedules : List Schedule} {limit : UInt64}
    (answering : machine.answering r.graph.contains s pending schedules =
      some (List.replicate (n + 1) false, u))
    (bound : r.settings.maxSupersteps = some limit)
    (reaches : max limit.toNat (r.memory.iteration + 1) = r.memory.iteration + (n + 1)) :
    ∃ last, r.Lasts schedules (List.replicate (n + 1) false) (.error (.superstepLimit limit)) last ∧
      last.phase = .failed ∧ last.memory.iteration = r.memory.iteration + (n + 1) ∧
      last.Holds r.graph u := by
  induction n generalizing r s pending schedules with
  | zero =>
    have sound := mirrors.follows.sound
    have executing := mirrors.follows.executing
    obtain ⟨σ, rest, t, rfl, superstep, answered, later⟩ := Machine.answering_cons.1 answering
    obtain ⟨rfl, rfl⟩ := Machine.answering_nil.1 later
    obtain ⟨passes, memory, asked, mirrored⟩ := mirrors.asked superstep answered
    have stepped :=
      stepUnder_of_ended sound executing (.limited passes asked bound (by omega))
    have inquired := inquiry_of_asked sound executing passes asked
    have shows := mirrored.shows
    refine ⟨_, .final inquired (runToHaltUnder_of_error stepped), rfl, ?_,
      ⟨rfl, shows.vertices.symm, shows.readable.symm, fun id => (shows.mail id).symm⟩⟩
    exact congrArg (· + 1)
      ((Memory.iteration_congr (frame_verdict asked)).trans (iteration_crossed sound _))
  | succ n ih =>
    obtain ⟨σ, rest, u, rfl, superstep, answered, later⟩ := Machine.answering_cons.1 answering
    have below (other : UInt64) (same : r.settings.maxSupersteps = some other) :
        r.memory.iteration + 1 < other.toNat := by
      cases bound.symm.trans same
      omega
    obtain ⟨memory, goes, inquired, counted, mirrored⟩ :=
      continues_of_answered mirrors superstep answered below
    obtain ⟨last, lasts, phase, number, holds⟩ := ih mirrored later bound (by omega)
    refine ⟨last, lasts.continued inquired goes counted, phase, ?_,
      ⟨holds.index, holds.vertices, holds.readable, holds.mail⟩⟩
    omega

end Answered

-- The supersteps of the machine that a run starts from, with the answers of the tests after them.
def Answers (first : Run M) (schedules : List Schedule) (answers : List Bool)
    (s : Machine.State M) : Prop :=
  first.machine.answering first.graph.contains first.initial [] schedules = some (answers, s)

-- What is readable once the last test, with the number `t`, has written.
def readableAfter (first : Run M) (s : Machine.State M) (t : Nat) :
    Std.ExtTreeMap String Memory.Value :=
  (first.program.terminate.calls (first.machine.view s.readable t)).foldl Machine.apply s.readable

structure Measured (settings : Settings) (first : Run M) : Prop where
  -- One worker follows the empty schedule in every step.
  alone (fuel : Nat) :
    first.runToHalt fuel = first.runToHaltUnder (List.replicate fuel ⟨[], 0⟩)
  -- Whatever the tests answer, and whichever calls fail.
  bounded {limit : UInt64} (bound : settings.maxSupersteps = some limit)
    {schedules : List Schedule} (enough : max limit.toNat 1 ≤ schedules.length) :
    ∃ outcome, (first.runToHaltUnder schedules).1 = some outcome
  -- Up to the limit, unless a call fails, the tests answer in one of the two ways below.
  answering {schedules : List Schedule}
    (few : ∀ limit, settings.maxSupersteps = some limit → schedules.length ≤ max limit.toNat 1) :
    (∃ failure, (first.runToHaltUnder schedules).1 = some (.error failure) ∧ failure.OfCall) ∨
      (∃ t s, t < schedules.length ∧
        first.Answers (schedules.take (t + 1)) (List.replicate t false ++ [true]) s) ∨
      ∃ s, first.Answers schedules (List.replicate schedules.length false) s
  halted {t : Nat} {schedules : List Schedule} {s : Machine.State M}
    (answers : first.Answers schedules (List.replicate t false ++ [true]) s)
    (within : ∀ limit, settings.maxSupersteps = some limit → t + 1 ≤ max limit.toNat 1) :
    ∃ last, first.Lasts schedules (List.replicate t false ++ [true]) (.ok ()) last ∧
      last.phase = .halted ∧ last.memory.iteration = t ∧
      last.Holds first.graph { s with readable := first.readableAfter s t }
  -- What the supersteps have done to memory and to the graph stays.
  limited {limit : UInt64} (bound : settings.maxSupersteps = some limit)
    {schedules : List Schedule} {s : Machine.State M}
    (answers : first.Answers schedules (List.replicate (max limit.toNat 1) false) s) :
    ∃ last, first.Lasts schedules (List.replicate (max limit.toNat 1) false)
        (.error (.superstepLimit limit)) last ∧
      last.phase = .failed ∧ last.memory.iteration = max limit.toNat 1 ∧
      last.Holds first.graph s

theorem measured_of_start {graph : Graph} {program : VertexProgram M} {jobs : List Registered}
    {settings : Settings} {host : Host} {first : Run M}
    (began : start graph program jobs settings host = .ok first) :
    first.Measured settings := by
  have fresh := fresh_of_start began
  have zero := fresh.iteration
  obtain rfl : first.settings = settings := by
    obtain ⟨-, -, m, written, -, -, rfl⟩ := start_eq_ok began
    rfl
  constructor
  case alone => exact fun fuel => (runToHaltUnder_replicate fuel first).symm
  case bounded =>
    intro limit bound schedules enough
    refine runToHaltUnder_of_limit fresh.sound fresh.phase bound ?_
    omega
  case answering =>
    intro schedules few
    refine answering_cases fresh.mirrors fun limit bound => ?_
    have room := few limit bound
    omega
  case halted =>
    intro t schedules s answers within
    obtain ⟨last, lasts, phase, number, holds⟩ :=
      halts_of_answering fresh.mirrors answers fun limit bound => by
        have room := within limit bound
        omega
    rw [zero, Nat.zero_add] at number holds
    exact ⟨last, lasts, phase, number, holds⟩
  case limited =>
    intro limit bound schedules s answers
    obtain ⟨n, same⟩ : ∃ n, max limit.toNat 1 = n + 1 := Nat.exists_eq_add_one.2 (by omega)
    rw [same] at answers ⊢
    obtain ⟨last, lasts, phase, number, holds⟩ :=
      limited_of_answering fresh.mirrors answers bound (by omega)
    rw [zero, Nat.zero_add] at number
    exact ⟨last, lasts, phase, number, holds⟩

-- The same supersteps without an end.
def endless : VertexProgram Unit := { counting with terminate := .done (.ok false) }

-- Under the limit 2 a test that is passed after the second superstep is still in time.
theorem measured_of_start_counting :
    (∃ first s last,
      start (.withVertices 2) counting [] ⟨none, none, some 2⟩ .still = .ok first ∧
      first.Measured ⟨none, none, some 2⟩ ∧
      first.Answers [⟨[1, 1], 0⟩, ⟨[], 0⟩] [false, true] s ∧
      first.Lasts [⟨[1, 1], 0⟩, ⟨[], 0⟩] [false, true] (.ok ()) last ∧
      last.phase = .halted ∧ last.memory.iteration = 1 ∧
      last.memory.previous["hits"]? = some (.integer 4)) ∧
    (∃ first s last,
      start (.withVertices 2) endless [] ⟨none, none, some 2⟩ .still = .ok first ∧
      first.Measured ⟨none, none, some 2⟩ ∧
      first.Answers [⟨[1, 1], 0⟩, ⟨[], 0⟩] [false, false] s ∧
      first.Lasts [⟨[1, 1], 0⟩, ⟨[], 0⟩] [false, false] (.error (.superstepLimit 2)) last ∧
      last.phase = .failed ∧ last.memory.iteration = 2 ∧
      last.memory.previous["hits"]? = some (.integer 4) ∧
      last.graph.vertices.map seen = [some 2, some 2]) ∧
    -- One superstep is made even under the limit 0.
    ∃ first s last,
      start (.withVertices 2) endless [] ⟨none, none, some 0⟩ .still = .ok first ∧
      first.Measured ⟨none, none, some 0⟩ ∧ first.Answers [⟨[1, 1], 0⟩] [false] s ∧
      first.Lasts [⟨[1, 1], 0⟩] [false] (.error (.superstepLimit 0)) last ∧
      last.phase = .failed ∧ last.memory.iteration = 1 ∧
      last.memory.previous["hits"]? = some (.integer 2) := by
  refine ⟨?_, ?_, ?_⟩
  · obtain ⟨first, began, answered, hits⟩ :
        ∃ first, start (.withVertices 2) counting [] ⟨none, none, some 2⟩ .still = .ok first ∧
          (first.machine.answering first.graph.contains first.initial []
            [⟨[1, 1], 0⟩, ⟨[], 0⟩]).map Prod.fst = some [false, true] ∧
          (first.runToHaltUnder [⟨[1, 1], 0⟩, ⟨[], 0⟩]).2.memory.previous["hits"]? =
            some (.integer 4) :=
      ⟨_, rfl, by decide +kernel, by decide +kernel⟩
    obtain ⟨⟨-, s⟩, answers, rfl⟩ := Option.map_eq_some_iff.1 answered
    have measured := measured_of_start began
    obtain ⟨last, lasts, phase, number, -⟩ :=
      measured.halted (t := 1) answers fun limit bound => by
        cases bound
        decide
    rw [lasts.run_eq] at hits
    exact ⟨first, s, last, began, measured, answers, lasts, phase, number, hits⟩
  · obtain ⟨first, began, answered, hits, seen⟩ :
        ∃ first, start (.withVertices 2) endless [] ⟨none, none, some 2⟩ .still = .ok first ∧
          (first.machine.answering first.graph.contains first.initial []
            [⟨[1, 1], 0⟩, ⟨[], 0⟩]).map Prod.fst = some [false, false] ∧
          (first.runToHaltUnder [⟨[1, 1], 0⟩, ⟨[], 0⟩]).2.memory.previous["hits"]? =
            some (.integer 4) ∧
          (first.runToHaltUnder [⟨[1, 1], 0⟩, ⟨[], 0⟩]).2.graph.vertices.map seen =
            [some 2, some 2] :=
      ⟨_, rfl, by decide +kernel, by decide +kernel, by decide +kernel⟩
    obtain ⟨⟨-, s⟩, answers, rfl⟩ := Option.map_eq_some_iff.1 answered
    have measured := measured_of_start began
    obtain ⟨last, lasts, phase, number, -⟩ := measured.limited rfl answers
    rw [lasts.run_eq] at hits seen
    exact ⟨first, s, last, began, measured, answers, lasts, phase, number, hits, seen⟩
  · obtain ⟨first, began, answered, hits⟩ :
        ∃ first, start (.withVertices 2) endless [] ⟨none, none, some 0⟩ .still = .ok first ∧
          (first.machine.answering first.graph.contains first.initial [] [⟨[1, 1], 0⟩]).map
            Prod.fst = some [false] ∧
          (first.runToHaltUnder [⟨[1, 1], 0⟩]).2.memory.previous["hits"]? = some (.integer 2) :=
      ⟨_, rfl, by decide +kernel, by decide +kernel⟩
    obtain ⟨⟨-, s⟩, answers, rfl⟩ := Option.map_eq_some_iff.1 answered
    have measured := measured_of_start began
    obtain ⟨last, lasts, phase, number, -⟩ := measured.limited rfl answers
    rw [lasts.run_eq] at hits
    exact ⟨first, s, last, began, measured, answers, lasts, phase, number, hits⟩

end Run

end BulkSync
