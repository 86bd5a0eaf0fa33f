import BulkSync.Proofs.Except
import BulkSync.Proofs.MapReduce.Unpartitioned
import Mathlib.Algebra.GroupWithZero.Nat
import Mathlib.Algebra.Order.BigOperators.Group.List
import Mathlib.Algebra.Order.Group.Nat

set_option autoImplicit false

namespace BulkSync

section Traversal

variable {α β ε : Type} {f : α → Except ε β}

theorem ok_of_mapM {as : List α} {bs : List β} (ok : as.mapM f = .ok bs) :
    ∀ a ∈ as, ∃ b, f a = .ok b := by
  induction as generalizing bs with
  | nil => simp
  | cons a rest ih =>
    rw [List.mapM_cons] at ok
    obtain ⟨b, first, later⟩ := bind_eq_ok ok
    obtain ⟨more, others, -⟩ := bind_eq_ok later
    exact List.forall_mem_cons.2 ⟨⟨b, first⟩, ih others⟩

theorem mapM_eq_error_iff {as : List α} {e : ε} :
    as.mapM f = .error e ↔ FailsFirst f as e := by
  induction as with
  | nil => simp [not_failsFirst_nil, pure, Except.pure]
  | cons a rest ih =>
    rw [List.mapM_cons, failsFirst_cons, ← ih]
    cases first : f a with
    | error other => simp [bind, Except.bind]
    | ok b => cases later : rest.mapM f <;> simp [bind, Except.bind, pure, Except.pure]

-- In strict order the first that fails is the least.
theorem failsFirst_iff_of_ordered [Ord α] [Std.TransOrd α] {as : List α} {e : ε}
    (ordered : as.Pairwise fun a b => compare a b = .lt) :
    FailsFirst f as e ↔ ∃ a ∈ as, f a = .error e ∧
      ∀ b ∈ as, compare b a = .lt → ∃ r, f b = .ok r := by
  constructor
  · rintro ⟨front, a, back, rfl, before, fails⟩
    rw [List.pairwise_append, List.pairwise_cons] at ordered
    obtain ⟨-, ⟨behind, -⟩, -⟩ := ordered
    refine ⟨a, by simp, fails, fun b member less => ?_⟩
    rcases List.mem_append.1 member with inFront | inBack
    · exact before b inFront
    · rcases List.mem_cons.1 inBack with rfl | inBack
      · simp at less
      · exact absurd less (Std.OrientedCmp.not_lt_of_lt (behind b inBack))
  · rintro ⟨a, member, fails, smaller⟩
    obtain ⟨front, back, rfl⟩ := List.append_of_mem member
    rw [List.pairwise_append] at ordered
    refine ⟨front, a, back, rfl, fun b inFront => ?_, fails⟩
    exact smaller b (List.mem_append_left _ inFront) (ordered.2.2 b inFront a List.mem_cons_self)

end Traversal

namespace Job

variable {κ ν ρ ω : Type} (job : Job κ ν ρ ω)

section Calls

def Honours (key : κ) (values : List ν) : Prop :=
  (job.reduce key values).outcome = .ok () ∧
    job.multiplicity.Allows (job.reduce key values).entries.length

instance (key : κ) (values : List ν) : Decidable (job.Honours key values) :=
  inferInstanceAs (Decidable (_ ∧ _))

inductive Breaches (key : κ) (values : List ν) : Failure → Prop
  | failed {cause : Cause} (outcome : (job.reduce key values).outcome = .error cause) :
      Breaches key values (.jobStage job.name .reduce cause)
  | miscounted (outcome : (job.reduce key values).outcome = .ok ())
      (count : ¬job.multiplicity.Allows (job.reduce key values).entries.length) :
      Breaches key values (job.miscount key (job.reduce key values).entries.length)

variable {job} {key : κ} {values : List ν}

theorem reduceFailure_eq_none_iff :
    job.reduceFailure key values = none ↔ job.Honours key values := by
  rw [reduceFailure, Honours]
  cases (job.reduce key values).outcome <;> simp

theorem reduceFailure_eq_some_iff {e : Failure} :
    job.reduceFailure key values = some e ↔ job.Breaches key values e := by
  constructor
  · intro fails
    rw [reduceFailure] at fails
    split at fails
    next outcome =>
      split at fails
      next => cases fails
      next count =>
        cases fails
        exact .miscounted outcome count
    next cause outcome =>
      cases fails
      exact .failed outcome
  · intro breaches
    cases breaches with
    | failed outcome => simp [reduceFailure, outcome]
    | miscounted outcome count => simp [reduceFailure, outcome, count]

theorem reduceOne_of_honours (honours : job.Honours key values) :
    job.reduceOne key values = .ok (job.reduce key values).entries := by
  rw [reduceOne_eq, reduceFailure_eq_none_iff.2 honours]
  rfl

theorem reduceOne_ok_iff : (∃ entries, job.reduceOne key values = .ok entries) ↔
    job.Honours key values := by
  rw [reduceOne_eq, ← reduceFailure_eq_none_iff]
  cases job.reduceFailure key values <;> simp [unlessFailed]

theorem reduceOne_error_iff {e : Failure} :
    job.reduceOne key values = .error e ↔ job.Breaches key values e := by
  rw [reduceOne_eq, ← reduceFailure_eq_some_iff]
  cases job.reduceFailure key values <;> simp [unlessFailed]

end Calls

section Stage

def reduceEach : List (κ × List ν) → List (κ × List ν) × Except Failure (List (Entry ρ ω))
  | [] => ([], .ok [])
  | (key, values) :: rest =>
    match job.reduceOne key values with
    | .error e => ([(key, values)], .error e)
    | .ok entries =>
      let (calls, results) := reduceEach rest
      ((key, values) :: calls, (entries ++ ·) <$> results)

variable {job}

theorem results_reduceEach (groups : List (κ × List ν)) :
    (job.reduceEach groups).2 =
      List.flatten <$> groups.mapM fun (key, values) => job.reduceOne key values := by
  induction groups with
  | nil => rfl
  | cons group rest ih =>
    obtain ⟨key, values⟩ := group
    rw [List.mapM_cons, reduceEach]
    cases reduced : job.reduceOne key values with
    | error e => simp [reduced, bind, Except.bind, Functor.map, Except.map]
    | ok entries =>
      simp only [reduced, ih]
      cases rest.mapM fun (key, values) => job.reduceOne key values <;> rfl

theorem calls_reduceEach (groups : List (κ × List ν)) : (job.reduceEach groups).1 <+: groups := by
  induction groups with
  | nil => exact List.prefix_rfl
  | cons group rest ih =>
    obtain ⟨key, values⟩ := group
    rw [reduceEach]
    cases job.reduceOne key values with
    | error e => exact ⟨rest, rfl⟩
    | ok entries => exact List.cons_prefix_cons.2 ⟨rfl, ih⟩

theorem calls_of_ok {groups : List (κ × List ν)} {results : List (Entry ρ ω)}
    (ok : (job.reduceEach groups).2 = .ok results) : (job.reduceEach groups).1 = groups := by
  induction groups generalizing results with
  | nil => rfl
  | cons group rest ih =>
    obtain ⟨key, values⟩ := group
    rw [reduceEach] at ok ⊢
    cases reduced : job.reduceOne key values with
    | error e =>
      rw [reduced] at ok
      cases ok
    | ok entries =>
      simp only [reduced] at ok
      obtain ⟨more, others, -⟩ := map_eq_ok ok
      exact congrArg ((key, values) :: ·) (ih others)

end Stage

section Shuffle

variable [Ord κ] [Std.TransOrd κ]

-- The entries that a part hands to the shuffle.
def handedBy (part : List Vertex) : Except Failure (List (Entry κ ν)) := do
  let entries ← job.mapAll [] part
  if job.participates .combine then job.combineAll (Groups.ofEntries entries) else return entries

-- The entries that reach the shuffle, one part after the other, if mapping and combining succeed.
def handed (vertices : List Vertex) (parts : Nat) : Except Failure (List (Entry κ ν)) :=
  List.flatten <$> (splitInto parts vertices).mapM job.handedBy

variable {job}

theorem mapPart_eq_handedBy (part : List Vertex) :
    job.mapPart part = Groups.ofEntries <$> job.handedBy part := by
  rw [mapPart, handedBy]
  cases job.mapAll [] part with
  | error e => rfl
  | ok entries =>
    cases on : job.participates .combine with
    | false => rfl
    | true => cases job.combineAll (Groups.ofEntries entries) <;> simp

theorem shuffled_eq_handed [Std.LawfulEqOrd κ] (vertices : List Vertex) (parts : Nat) :
    job.shuffled vertices parts = Groups.ofEntries <$> job.handed vertices parts := by
  have each : job.mapPart = fun part => Groups.ofEntries <$> job.handedBy part :=
    funext mapPart_eq_handedBy
  rw [shuffled, each, mapM_comp, handed]
  simp [Groups.shuffle_ofEntries]

end Shuffle

section Contract

variable [Ord κ] [Std.TransOrd κ]

structure Settles (entries : List (Entry κ ν)) (calls : List (κ × List ν))
    (outcome : Except Failure (List (Entry ρ ω))) : Prop where
  -- The smallest keys come first, each with all that was emitted under it.
  whole : calls <+:
    (ascending (entries.map Entry.key)).map fun key => (key, valuesUnder entries key)
  once : (calls.map Prod.fst).Nodup
  ok_iff : (∃ results, outcome = .ok results) ↔
    ∀ key ∈ entries.map Entry.key, job.Honours key (valuesUnder entries key)
  error_iff (e : Failure) : outcome = .error e ↔
    ∃ key ∈ entries.map Entry.key, job.Breaches key (valuesUnder entries key) e ∧
      ∀ other ∈ entries.map Entry.key, compare other key = .lt →
        job.Honours other (valuesUnder entries other)
  -- Without an error no key is left out.
  complete {results : List (Entry ρ ω)} (ok : outcome = .ok results) :
    calls.map Prod.fst = ascending (entries.map Entry.key)
  results {results : List (Entry ρ ω)} (ok : outcome = .ok results) :
    results = (ascending (entries.map Entry.key)).flatMap fun key =>
      (job.reduce key (valuesUnder entries key)).entries
  exactlyOne {results : List (Entry ρ ω)} (ok : outcome = .ok results)
    (promised : job.multiplicity = .exactlyOne) :
    results.length = (ascending (entries.map Entry.key)).length
  atMostOne {results : List (Entry ρ ω)} (ok : outcome = .ok results)
    (promised : job.multiplicity = .atMostOne) :
    results.length ≤ (ascending (entries.map Entry.key)).length

variable [Std.LawfulEqOrd κ] {job} {entries : List (Entry κ ν)}

theorem reduceAll_eq (entries : List (Entry κ ν)) :
    job.reduceAll (Groups.ofEntries entries) =
      ((ascending (entries.map Entry.key)).mapM fun key =>
        job.reduceOne key (valuesUnder entries key)).map List.flatten :=
  reduceAll_ofEntries entries

theorem reduceAll_of_honours
    (honours : ∀ key ∈ entries.map Entry.key, job.Honours key (valuesUnder entries key)) :
    job.reduceAll (Groups.ofEntries entries) =
      .ok ((ascending (entries.map Entry.key)).flatMap fun key =>
        (job.reduce key (valuesUnder entries key)).entries) := by
  have each : ∀ key ∈ ascending (entries.map Entry.key),
      job.reduceOne key (valuesUnder entries key) =
        .ok (job.reduce key (valuesUnder entries key)).entries :=
    fun key member => reduceOne_of_honours (honours key (mem_ascending.1 member))
  rw [reduceAll_eq, List.flatMap_def, mapM_eq_ok each]
  rfl

theorem reduceAll_ok_iff :
    (∃ results, job.reduceAll (Groups.ofEntries entries) = .ok results) ↔
      ∀ key ∈ entries.map Entry.key, job.Honours key (valuesUnder entries key) := by
  constructor
  · rintro ⟨results, ok⟩ key member
    rw [reduceAll_eq] at ok
    obtain ⟨each, reduced, -⟩ := map_eq_ok ok
    exact reduceOne_ok_iff.1 (ok_of_mapM reduced key (mem_ascending.2 member))
  · exact fun honours => ⟨_, reduceAll_of_honours honours⟩

theorem reduceAll_error_iff {e : Failure} :
    job.reduceAll (Groups.ofEntries entries) = .error e ↔
      ∃ key ∈ entries.map Entry.key, job.Breaches key (valuesUnder entries key) e ∧
        ∀ other ∈ entries.map Entry.key, compare other key = .lt →
          job.Honours other (valuesUnder entries other) := by
  rw [reduceAll_eq, map_eq_error_iff, mapM_eq_error_iff,
    failsFirst_iff_of_ordered (ordered_ascending _)]
  simp only [mem_ascending, reduceOne_error_iff, reduceOne_ok_iff]

theorem length_results {results : List (Entry ρ ω)}
    (ok : job.reduceAll (Groups.ofEntries entries) = .ok results) :
    results.length = ((ascending (entries.map Entry.key)).map fun key =>
      (job.reduce key (valuesUnder entries key)).entries.length).sum := by
  cases ok.symm.trans (reduceAll_of_honours (reduceAll_ok_iff.1 ⟨_, ok⟩))
  exact List.length_flatMap

theorem settles_reduceEach (entries : List (Entry κ ν)) :
    job.Settles entries (job.reduceEach (Groups.ofEntries entries).toList).1
      (job.reduceAll (Groups.ofEntries entries)) := by
  have groups : (Groups.ofEntries entries).toList =
      (ascending (entries.map Entry.key)).map fun key => (key, valuesUnder entries key) :=
    Groups.toList_ofEntries entries
  have keys : (Groups.ofEntries entries).toList.map Prod.fst =
      ascending (entries.map Entry.key) := by
    simp [groups, Function.comp_def]
  have whole := job.calls_reduceEach (Groups.ofEntries entries).toList
  have counts {results : List (Entry ρ ω)}
      (ok : job.reduceAll (Groups.ofEntries entries) = .ok results) :
      ∀ n ∈ (ascending (entries.map Entry.key)).map fun key =>
        (job.reduce key (valuesUnder entries key)).entries.length, job.multiplicity.Allows n := by
    intro n member
    obtain ⟨key, among, rfl⟩ := List.mem_map.1 member
    exact (reduceAll_ok_iff.1 ⟨results, ok⟩ key (mem_ascending.1 among)).2
  constructor
  case whole => exact groups ▸ whole
  case once =>
    refine (nodup_of_ordered (ordered_ascending (entries.map Entry.key))).sublist ?_
    exact keys ▸ (whole.map Prod.fst).sublist
  case ok_iff => exact reduceAll_ok_iff
  case error_iff => exact fun e => reduceAll_error_iff
  case complete =>
    intro results ok
    rw [calls_of_ok ((results_reduceEach _).trans ok), keys]
  case results =>
    intro results ok
    exact Except.ok.inj (ok.symm.trans (reduceAll_of_honours (reduceAll_ok_iff.1 ⟨_, ok⟩)))
  case exactlyOne =>
    intro results ok promised
    have one := List.sum_eq_card_nsmul _ 1 fun n member => by
      simpa [promised, Multiplicity.Allows] using counts ok n member
    rw [length_results ok, one]
    simp
  case atMostOne =>
    intro results ok promised
    have one := List.sum_le_card_nsmul _ 1 fun n member => by
      simpa [promised, Multiplicity.Allows] using counts ok n member
    rw [length_results ok]
    simpa using one

-- Combining brings ids together that are the same modulo 4, and reduce drops those that are odd.
def thinning (multiplicity : Multiplicity) : Job Script.Key Int64 Script.Key Int64 :=
  Script.Job.compile
    { memoryKey := "even"
      kind := .integer
      variant := 0
      stages := [.map, .combine, .reduce]
      map := [.entry none (.integer .id) .id]
      combine := .rekey 4
      reduce := .evenKeys
      multiplicity
      lift := .never
      finalize := .sum }

def thinned : List (Entry Script.Key Int64) :=
  [⟨.integer 0, 0⟩, ⟨.integer 1, 1⟩, ⟨.integer 2, 2⟩, ⟨.integer 3, 3⟩, ⟨.integer 0, 4⟩,
    ⟨.integer 1, 5⟩]

end Contract

end Job

end BulkSync
