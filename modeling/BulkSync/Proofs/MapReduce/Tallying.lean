import BulkSync.Proofs.MapReduce.Combining
import BulkSync.Proofs.MapReduce.Unpartitioned
import Mathlib.Algebra.BigOperators.Ring.Finset
import Mathlib.Algebra.BigOperators.Group.List.Lemmas
import Mathlib.Algebra.Order.BigOperators.Group.List

set_option autoImplicit false

namespace BulkSync

section Sums

theorem toInt_sum (values : List Int64) :
    (Count.sum values).toInt = (values.map Int64.toInt).sum.bmod (2 ^ 64) := by
  induction values with
  | nil => rfl
  | cons v rest ih =>
    have first : Count.sum [v] = v := Int64.zero_add v
    have cut : Count.sum (v :: rest) = v + Count.sum rest := by
      rw [← List.singleton_append, Job.sum_append, first]
    rw [cut, Int64.toInt_add, ih, Int.add_bmod_bmod, List.map_cons, List.sum_cons]

-- Every sum on the way to the sum of all is that of the integers.
def Unwrapped (values : List Int64) : Prop :=
  ∀ front, front <+: values → (Count.sum front).toInt = (front.map Int64.toInt).sum

theorem Unwrapped.sum {values : List Int64} (unwrapped : Unwrapped values) :
    (Count.sum values).toInt = (values.map Int64.toInt).sum :=
  unwrapped values List.prefix_rfl

theorem unwrapped_of_small {values : List Int64} (whole : ∀ v ∈ values, 0 ≤ v.toInt)
    (small : (values.map Int64.toInt).sum < 2 ^ 63) : Unwrapped values := by
  have positive {some : List Int64} (among : ∀ v ∈ some, v ∈ values) :
      0 ≤ (some.map Int64.toInt).sum := by
    refine List.sum_nonneg fun i member => ?_
    obtain ⟨v, held, rfl⟩ := List.mem_map.1 member
    exact whole v (among v held)
  rintro front ⟨back, rfl⟩
  have below := positive fun v held => List.mem_append_left back held
  have above := positive fun v held => List.mem_append_right front held
  rw [List.map_append, List.sum_append] at small
  rw [toInt_sum, Int.bmod_eq_of_le] <;> omega

theorem unwrapped_ones {n : Nat} (small : n < 2 ^ 63) : Unwrapped (List.replicate n 1) := by
  refine unwrapped_of_small (fun v member => ?_) ?_
  · rw [List.eq_of_mem_replicate member]
    decide
  · simpa [show (1 : Int64).toInt = 1 from rfl] using (by omega : (n : Int) < 2 ^ 63)

theorem sum_ones {n : Nat} (small : n < 2 ^ 63) :
    (Count.sum (List.replicate n 1)).toInt = n := by
  rw [(unwrapped_ones small).sum]
  simp [show (1 : Int64).toInt = 1 from rfl]

theorem unwrapped_portions {portions : List (List Int64)} {n : Nat} (small : n < 2 ^ 63)
    (ones : portions.flatten = List.replicate n 1) :
    Unwrapped (portions.flatMap fun values => [Count.sum values]) := by
  have counted : ∀ values ∈ portions, (Count.sum values).toInt = values.length := by
    intro values member
    have within := List.sublist_flatten_of_mem member
    rw [ones] at within
    obtain ⟨k, few, rfl⟩ := List.sublist_replicate_iff.1 within
    rw [sum_ones (Nat.lt_of_le_of_lt few small), List.length_replicate]
  have total : (portions.map fun values => (values.length : Int)).sum = n := by
    have lengths := congrArg List.length ones
    rw [List.length_flatten, List.length_replicate] at lengths
    rw [← lengths, Nat.cast_list_sum, List.map_map]
    rfl
  have sums : (portions.map fun values => (Count.sum values).toInt) =
      portions.map fun values => (values.length : Int) := List.map_congr_left counted
  rw [← List.map_eq_flatMap]
  refine unwrapped_of_small (fun v member => ?_) ?_
  · obtain ⟨values, held, rfl⟩ := List.mem_map.1 member
    rw [counted values held]
    exact Int.natCast_nonneg _
  · rw [List.map_map, Function.comp_def, sums, total]
    exact_mod_cast small

end Sums

namespace Job

variable {κ : Type}

structure Tallies (job : Job κ Int64 κ Int64) (keyOf : Vertex → Option κ) : Prop where
  participates : ∀ stage, job.participates stage = true
  map : ∀ seen v, job.map seen v = .of ((keyOf v).toList.map fun key => ⟨key, 1⟩)
  combine : job.combine = Count.sumUnder
  reduce : job.reduce = Count.sumUnder
  multiplicity : job.multiplicity = .exactlyOne

-- What is added up on the way to the results: the values of a key in one part, and what the
-- shuffle has made of them.
inductive Adds [Ord κ] [Std.TransOrd κ] (job : Job κ Int64 κ Int64) (vertices : List Vertex)
    (parts : Nat) : κ → List Int64 → Prop
  | combine {part : List Vertex} {entries : List (Entry κ Int64)} {key : κ} {values : List Int64}
      (among : part ∈ splitInto parts vertices) (mapped : job.mapAll [] part = .ok entries)
      (grouped : (Groups.ofEntries entries)[key]? = some values) :
      Adds job vertices parts key values
  | reduce {groups : Groups κ Int64} {key : κ} {values : List Int64}
      (shuffled : job.shuffled vertices parts = .ok groups)
      (grouped : groups[key]? = some values) : Adds job vertices parts key values

section Keys

variable (keyOf : Vertex → Option κ) (vertices : List Vertex)

def ones : List (Entry κ Int64) := (vertices.filterMap keyOf).map fun key => ⟨key, 1⟩

def tally [DecidableEq κ] (key : κ) : Nat := vertices.countP fun v => keyOf v = some key

theorem tally_le [DecidableEq κ] (key : κ) : tally keyOf vertices key ≤ vertices.length :=
  List.countP_le_length

theorem tally_pos_iff [DecidableEq κ] (key : κ) :
    0 < tally keyOf vertices key ↔ key ∈ vertices.filterMap keyOf := by
  simp [tally, List.countP_pos_iff]

theorem tally_eq_count [DecidableEq κ] (key : κ) :
    tally keyOf vertices key = (vertices.filterMap keyOf).count key := by
  rw [tally, List.count, List.countP_filterMap]
  refine List.countP_congr fun v _ => ?_
  cases keyOf v <;> simp

theorem sum_tally [DecidableEq κ] [Ord κ] [Std.TransOrd κ] [Std.LawfulEqOrd κ] :
    ((ascending (vertices.filterMap keyOf)).map (tally keyOf vertices)).sum =
      vertices.countP fun v => (keyOf v).isSome := by
  have distinct : (ascending (vertices.filterMap keyOf)).Perm (vertices.filterMap keyOf).dedup := by
    refine (List.perm_ext_iff_of_nodup (nodup_of_ordered (ordered_ascending _))
      (List.nodup_dedup _)).2 fun key => ?_
    rw [mem_ascending, List.mem_dedup]
  have counts : (ascending (vertices.filterMap keyOf)).map (tally keyOf vertices) =
      (ascending (vertices.filterMap keyOf)).map fun key => (vertices.filterMap keyOf).count key :=
    List.map_congr_left fun key _ => tally_eq_count keyOf vertices key
  rw [counts, (distinct.map _).sum_eq, List.sum_map_count_dedup_eq_length,
    List.length_filterMap_eq_countP]

theorem values_ones [DecidableEq κ] [Ord κ] [Std.TransOrd κ] [Std.LawfulEqOrd κ] (key : κ) :
    ((ones keyOf vertices).filter fun e => compare e.key key = .eq).map Entry.value =
      List.replicate (tally keyOf vertices key) 1 := by
  induction vertices with
  | nil => rfl
  | cons v rest ih =>
    unfold ones tally at ih ⊢
    cases found : keyOf v with
    | none => simp_all
    | some other => by_cases same : other = key <;> simp_all [List.replicate_succ]

end Keys

variable {job : Job κ Int64 κ Int64} {keyOf : Vertex → Option κ}

section Stages

variable (tallies : job.Tallies keyOf)
include tallies

theorem Tallies.forgetful : job.Forgetful := fun seen v => by rw [tallies.map, tallies.map]

theorem Tallies.interchangeable : job.Interchangeable fun _ values => [Count.sum values] :=
  interchangeable_of_sums tallies.combine tallies.reduce

theorem Tallies.emitted (vertices : List Vertex) :
    job.emitted vertices = .ok (ones keyOf vertices) := by
  rw [emitted_of_maps fun v _ => tallies.map [] v]
  refine congrArg Except.ok ?_
  unfold ones
  induction vertices with
  | nil => rfl
  | cons v rest ih => cases found : keyOf v <;> simp_all

theorem Tallies.mapAll (vertices : List Vertex) :
    job.mapAll [] vertices = .ok (ones keyOf vertices) :=
  (mapAll_of_forgetful tallies.forgetful [] vertices).trans (tallies.emitted vertices)

theorem Tallies.mapped (vertices : List Vertex) (parts : Nat) :
    job.mapped vertices parts = .ok ((splitInto parts vertices).map (ones keyOf)) :=
  mapM_eq_ok fun part _ => tallies.mapAll part

theorem Tallies.flatten_ones (vertices : List Vertex) (parts : Nat) :
    ((splitInto parts vertices).map (ones keyOf)).flatten = ones keyOf vertices := by
  have whole := flatten_mapped tallies.forgetful vertices parts
  rw [tallies.mapped, tallies.emitted] at whole
  exact Except.ok.inj whole

theorem Tallies.reduceOne (key : κ) (values : List Int64) :
    job.reduceOne key values = .ok [⟨key, Count.sum values⟩] := by
  rw [Job.reduceOne, tallies.reduce, tallies.multiplicity]
  rfl

variable [Ord κ] [Std.TransOrd κ] [Std.LawfulEqOrd κ]

theorem Tallies.shuffled (vertices : List Vertex) (parts : Nat) :
    job.shuffled vertices parts =
      .ok (shuffleCombined (fun _ values => [Count.sum values])
        ((splitInto parts vertices).map (ones keyOf))) := by
  rw [shuffled_of_combining tallies.interchangeable (tallies.participates .combine),
    tallies.mapped]
  rfl

variable [DecidableEq κ]

theorem Tallies.execute (vertices : List Vertex) (parts : Nat) :
    job.execute vertices parts =
      .ok ((ascending (vertices.filterMap keyOf)).map fun key =>
        ⟨key, Count.sum (List.replicate (tally keyOf vertices key) 1)⟩) := by
  have keys : (ones keyOf vertices).map Entry.key = vertices.filterMap keyOf := by
    simp [ones, Function.comp_def]
  rw [execute_of_reduces (tallies.participates .map) (tallies.participates .reduce),
    tallies.shuffled]
  show job.reduceAll _ = _
  rw [reduceAll_shuffleCombined tallies.interchangeable, tallies.flatten_ones,
    reduceAll_ofEntries, keys, mapM_eq_ok fun key _ => tallies.reduceOne key _]
  simp only [values_ones]
  refine congrArg Except.ok ?_
  rw [← List.flatMap_def, ← List.map_eq_flatMap]

theorem Tallies.unwrapped {vertices : List Vertex} (small : vertices.length < 2 ^ 63)
    {parts : Nat} {key : κ} {values : List Int64} (adds : Adds job vertices parts key values) :
    Unwrapped values := by
  cases adds with
  | @combine part entries _ _ among mapped grouped =>
    obtain rfl := Except.ok.inj ((tallies.mapAll part).symm.trans mapped)
    have same := Groups.valuesOf_of_group grouped
    rw [Groups.valuesOf_ofEntries, values_ones] at same
    have within : part.length ≤ vertices.length := by
      have sub := List.sublist_flatten_of_mem among
      rw [flatten_splitInto] at sub
      exact sub.length_le
    rw [← same]
    exact unwrapped_ones (by have := tally_le keyOf part key; omega)
  | @reduce groups _ _ shuffled grouped =>
    obtain rfl := Except.ok.inj ((tallies.shuffled vertices parts).symm.trans shuffled)
    have same := Groups.valuesOf_of_group grouped
    rw [valuesOf_shuffleCombined] at same
    rw [← same]
    refine unwrapped_portions (Nat.lt_of_le_of_lt (tally_le keyOf vertices key) small) ?_
    rw [← valuesOf_flatten, tallies.flatten_ones, Groups.valuesOf_ofEntries, values_ones]

end Stages

end Job

end BulkSync
