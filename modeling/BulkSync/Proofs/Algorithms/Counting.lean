import BulkSync.Algorithms.GroupCount
import BulkSync.Proofs.Graph.Display
import BulkSync.Proofs.MapReduce.Tallying
import BulkSync.Proofs.Wire.Codec

set_option autoImplicit false

namespace BulkSync

open Job

namespace Count

def keyOf (c : Count) (v : Vertex) : Option Whole := if c.counts v then some .whole else none

theorem tallies (c : Count) : c.job.Tallies c.keyOf where
  participates _ := rfl
  map seen v := by
    by_cases counted : c.counts v <;> simp [job, keyOf, counted]
  combine := rfl
  reduce := rfl
  multiplicity := rfl

-- How many vertices carry the property, if one is asked for.
def carrying (c : Count) (vertices : List Vertex) : Nat :=
  vertices.countP fun v => c.property.all fun name => (v.property name).isSome

variable (c : Count) (vertices : List Vertex)

theorem carrying_le : c.carrying vertices ≤ vertices.length := List.countP_le_length

theorem tally_whole : tally c.keyOf vertices .whole = c.carrying vertices := by
  refine List.countP_congr fun v _ => ?_
  unfold keyOf counts
  cases c.property <;> simp [Option.isSome_iff_ne_none]

theorem ascending_whole (keys : List Whole) :
    ascending keys = if keys = [] then [] else [.whole] := by
  have ordered := ordered_ascending keys
  cases found : ascending keys with
  | nil =>
    have none : keys = [] := List.eq_nil_iff_forall_not_mem.2 fun key member => by
      simpa [found] using mem_ascending.2 member
    rw [if_pos none]
  | cons key rest =>
    have some : keys ≠ [] := List.ne_nil_of_mem (mem_ascending.1 (by rw [found]; exact .head _))
    rw [found, List.pairwise_cons] at ordered
    -- All keys are equal here, so nothing comes after the first.
    have last : rest = [] := List.eq_nil_iff_forall_not_mem.2 fun other member => by
      cases ordered.1 other member
    rw [if_neg some, last]

theorem execute_whole (parts : Nat) :
    c.job.execute vertices parts =
      .ok (if c.carrying vertices = 0 then []
        else [⟨.whole, sum (List.replicate (c.carrying vertices) 1)⟩]) := by
  have none_iff : vertices.filterMap c.keyOf = [] ↔ c.carrying vertices = 0 := by
    have some_iff := tally_pos_iff c.keyOf vertices .whole
    rw [tally_whole] at some_iff
    rw [← Nat.le_zero, ← Nat.not_lt, some_iff, List.eq_nil_iff_forall_not_mem]
    exact ⟨fun none => none .whole, fun absent _ => absent⟩
  rw [c.tallies.execute, ascending_whole]
  simp only [none_iff]
  split <;> simp [tally_whole]

theorem finalize_whole :
    c.job.finalize (if c.carrying vertices = 0 then []
        else [⟨.whole, sum (List.replicate (c.carrying vertices) 1)⟩]) =
      .ok (.ok (.integer (sum (List.replicate (c.carrying vertices) 1)))) := by
  split
  next none => rw [none]; rfl
  next => rfl

theorem run_whole (parts : Nat) :
    c.job.run vertices parts =
      .ok (.integer (sum (List.replicate (c.carrying vertices) 1))) := by
  rw [Job.run, execute_whole]
  show c.job.conclude _ = _
  rw [conclude, finalize_whole]
  rfl

variable {vertices}

theorem run_counts (small : vertices.length < 2 ^ 63) (parts : Nat) :
    ∃ n : Int64,
      n.toInt = vertices.countP (fun v => c.property.all fun name => (v.property name).isSome) ∧
      c.job.run vertices parts = .ok (.integer n) ∧
      (∃ results, c.job.execute vertices parts = .ok results ∧ results.length ≤ 1 ∧
        c.job.finalize results = .ok (.ok (.integer n))) ∧
      (∀ key values, c.job.reduceOne key values = .ok [⟨key, sum values⟩]) ∧
      ∀ key values, Adds c.job vertices parts key values → Unwrapped values := by
  refine ⟨_, sum_ones (Nat.lt_of_le_of_lt (c.carrying_le vertices) small),
    c.run_whole vertices parts, ⟨_, c.execute_whole vertices parts, ?_, c.finalize_whole vertices⟩,
    c.tallies.reduceOne, fun key values => c.tallies.unwrapped small⟩
  split <;> simp

theorem run_counts_languages :
    languages.length < 2 ^ 63 ∧
      (mk "count" (some "lang")).job.run languages 0 = .ok (.integer 3) := by
  have small : languages.length < 2 ^ 63 := by decide
  obtain ⟨n, counted, ran, -⟩ := (mk "count" (some "lang")).run_counts small 0
  have three : n = 3 := Int64.toInt_inj.1 counted
  exact ⟨small, three ▸ ran⟩

end Count

namespace GroupCount

def keyOf (c : GroupCount) (v : Vertex) : Option String :=
  (v.property c.property).map Scalar.display

variable (c : GroupCount) (vertices : List Vertex)

theorem tallies : c.job.Tallies c.keyOf where
  participates _ := rfl
  map seen v := by
    cases found : v.property c.property <;> simp [job, entryOf?, keyOf, found]
  combine := rfl
  reduce := rfl
  multiplicity := rfl

-- Each value that is there, as it is displayed, with the number of vertices that have it.
def groups : List (Entry String Int64) :=
  (ascending (vertices.filterMap c.keyOf)).map fun key =>
    ⟨key, Count.sum (List.replicate (tally c.keyOf vertices key) 1)⟩

theorem run_groups (parts : Nat) :
    c.job.run vertices parts = .ok (Memory.Value.encode (c.groups vertices)) := by
  rw [Job.run, c.tallies.execute]
  rfl

theorem ordered_groups : (c.groups vertices).Pairwise fun a b => a.key.toList < b.key.toList := by
  refine List.pairwise_map.2 ((ordered_ascending _).imp fun less => ?_)
  exact (compareOfLessAndEq_eq_lt (α := String)).1 less

theorem length_groups_le : (c.groups vertices).length ≤ vertices.length := by
  have distinct := nodup_of_ordered (ordered_ascending (vertices.filterMap c.keyOf))
  have fewer : (ascending (vertices.filterMap c.keyOf)).length ≤
      (vertices.filterMap c.keyOf).length :=
    (List.subperm_of_subset distinct fun key => mem_ascending.1).length_le
  rw [groups, List.length_map]
  exact fewer.trans (List.length_filterMap_le c.keyOf vertices)

variable {vertices}

section Small

variable (small : vertices.length < 2 ^ 63)
include small

theorem toInt_tally (key : String) :
    (Count.sum (List.replicate (tally c.keyOf vertices key) 1)).toInt =
      tally c.keyOf vertices key :=
  sum_ones (Nat.lt_of_le_of_lt (tally_le c.keyOf vertices key) small)

theorem mem_groups (s : String) (n : Int64) :
    ⟨s, n⟩ ∈ c.groups vertices ↔
      (∃ v ∈ vertices, (v.property c.property).map Scalar.display = some s) ∧
        n.toInt = vertices.countP fun v => (v.property c.property).map Scalar.display = some s := by
  have counted := c.toInt_tally small s
  simp only [groups, List.mem_map, mem_ascending, List.mem_filterMap, Entry.mk.injEq]
  constructor
  · rintro ⟨key, present, rfl, rfl⟩
    exact ⟨present, counted⟩
  · rintro ⟨present, total⟩
    exact ⟨s, present, rfl, Int64.toInt_inj.1 (counted.trans total.symm)⟩

theorem sum_groups :
    ((c.groups vertices).map (·.value.toInt)).sum =
      vertices.countP fun v => (v.property c.property).isSome := by
  have values : (c.groups vertices).map (·.value.toInt) =
      ((ascending (vertices.filterMap c.keyOf)).map (tally c.keyOf vertices)).map Nat.cast := by
    rw [groups, List.map_map, List.map_map]
    exact List.map_congr_left fun key _ => c.toInt_tally small key
  have counted := sum_tally c.keyOf vertices
  rw [values, ← Nat.cast_list_sum, counted]
  simp [keyOf]

theorem fits_groups (fits : ∀ v ∈ vertices, ∀ value, v.property c.property = some value →
    Wire.Fits value) : Wire.Fits (c.groups vertices) := by
  refine ⟨(c.length_groups_le vertices).trans_lt (by omega), fun e member => ⟨?_, trivial⟩⟩
  obtain ⟨⟨v, among, shown⟩, -⟩ := (c.mem_groups small e.key e.value).1 member
  obtain ⟨value, found, displayed⟩ := Option.map_eq_some_iff.1 shown
  exact displayed ▸ fits_display (fits v among value found)

end Small

theorem run_counts_values (small : vertices.length < 2 ^ 63) (parts : Nat) :
    ∃ (results : List (Entry String Int64)) (blob : Memory.Value),
      c.job.execute vertices parts = .ok results ∧ c.job.run vertices parts = .ok blob ∧
      results.Pairwise (fun a b => a.key.toList < b.key.toList) ∧
      (∀ (s : String) (n : Int64), ⟨s, n⟩ ∈ results ↔
        (∃ v ∈ vertices, (v.property c.property).map Scalar.display = some s) ∧
          n.toInt = vertices.countP fun v =>
            (v.property c.property).map Scalar.display = some s) ∧
      (∀ e ∈ results, 0 < e.value.toInt) ∧
      (results.map (·.value.toInt)).sum =
        vertices.countP (fun v => (v.property c.property).isSome) ∧
      (∀ key others, ∃ n : Int64, (Count.mk key (some c.property)).job.run vertices others =
        .ok (.integer n) ∧ n.toInt = (results.map (·.value.toInt)).sum) ∧
      ((∀ v ∈ vertices, ∀ value, v.property c.property = some value → Wire.Fits value) →
        blob.decode = .ok results) := by
  refine ⟨c.groups vertices, _, c.tallies.execute vertices parts, c.run_groups vertices parts,
    c.ordered_groups vertices, c.mem_groups small, fun e member => ?_, c.sum_groups small,
    fun key others => ?_, fun fits => ?_⟩
  · obtain ⟨⟨v, among, shown⟩, total⟩ := (c.mem_groups small e.key e.value).1 member
    have carried : 0 < vertices.countP fun v =>
        (v.property c.property).map Scalar.display = some e.key :=
      List.countP_pos_iff.2 ⟨v, among, decide_eq_true shown⟩
    omega
  · refine ⟨_, (Count.mk key (some c.property)).run_whole vertices others, ?_⟩
    have few := ((Count.mk key (some c.property)).carrying_le vertices).trans_lt small
    rw [sum_ones few, c.sum_groups small]
    rfl
  · exact codec_of_lawful.returns _ (c.fits_groups small fits)

-- An integer, a float and a text that look the same are in one group.
def versions : List Vertex :=
  [(Vertex.new ⟨1⟩).setProperty "version" (.integer 1),
    (Vertex.new ⟨2⟩).setProperty "version" (.float 1.0),
    (Vertex.new ⟨3⟩).setProperty "version" (.text "1"),
    (Vertex.new ⟨4⟩).setProperty "version" (.boolean true), Vertex.new ⟨5⟩]

theorem run_counts_values_versions :
    versions.length < 2 ^ 63 ∧
      ∃ (results : List (Entry String Int64)) (blob : Memory.Value),
        (ofProperty "version").job.run versions 2 = .ok blob ∧
        ⟨"1", 3⟩ ∈ results ∧ (results.map (·.value.toInt)).sum = 4 ∧ blob.decode = .ok results := by
  have small : versions.length < 2 ^ 63 := by decide
  obtain ⟨results, blob, -, ran, -, groups, -, total, -, decoded⟩ :=
    (ofProperty "version").run_counts_values small 2
  refine ⟨small, results, blob, ran, (groups "1" 3).2 ⟨?_, ?_⟩, total, decoded ?_⟩
  · exact ⟨_, .head _, rfl⟩
  · decide +kernel
  · simp only [versions, List.forall_mem_cons]
    refine ⟨?_, ?_, ?_, ?_, ?_, by simp⟩ <;> rintro value found
    · exact Option.some.inj found ▸ trivial
    · exact Option.some.inj found ▸ trivial
    · exact Option.some.inj found ▸ fits_of_length (s := "1") (by decide)
    · exact Option.some.inj found ▸ trivial
    · cases found

end GroupCount

end BulkSync
