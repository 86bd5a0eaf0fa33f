import BulkSync.Algorithms.PageRank
import BulkSync.Proofs.Graph.Index
import BulkSync.Proofs.MapReduce.Unpartitioned
import BulkSync.Proofs.Memory.Reserved
import BulkSync.Proofs.Wire.Codec

set_option autoImplicit false

namespace BulkSync

section Lifting

variable {κ ν : Type} [Ord κ] [Std.TransOrd κ]

-- What is left of entries that are grouped and lifted one by one.
def inKeyOrder (entries : List (Entry κ ν)) : List (Entry κ ν) :=
  (ascending (entries.map Entry.key)).flatMap fun key =>
    entries.filter fun e => compare e.key key = .eq

variable [Std.LawfulEqOrd κ] {entries : List (Entry κ ν)}

theorem mem_inKeyOrder {e : Entry κ ν} : e ∈ inKeyOrder entries ↔ e ∈ entries := by
  simp only [inKeyOrder, List.mem_flatMap, List.mem_filter, mem_ascending,
    Std.LawfulEqCmp.compare_eq_iff_eq, decide_eq_true_eq]
  constructor
  · rintro ⟨key, -, member, -⟩
    exact member
  · exact fun member => ⟨e.key, List.mem_map_of_mem member, member, rfl⟩

theorem ordered_inKeyOrder (distinct : (entries.map Entry.key).Nodup) :
    (inKeyOrder entries).Pairwise fun a b => compare a.key b.key = .lt := by
  refine List.pairwise_flatMap.2 ⟨fun key _ => ?_, (ordered_ascending _).imp ?_⟩
  · -- No two entries have the key.
    refine ((List.pairwise_map.1 distinct).filter _).imp_of_mem fun {a b} left right apart => ?_
    have first : a.key = key := by simpa using (List.mem_filter.1 left).2
    have second : b.key = key := by simpa using (List.mem_filter.1 right).2
    exact absurd (first.trans second.symm) apart
  · intro key other less a left b right
    have first : a.key = key := by simpa using (List.mem_filter.1 left).2
    have second : b.key = other := by simpa using (List.mem_filter.1 right).2
    rwa [first, second]

theorem perm_inKeyOrder (distinct : (entries.map Entry.key).Nodup) :
    (inKeyOrder entries).Perm entries := by
  have nodup : (inKeyOrder entries).Nodup :=
    (ordered_inKeyOrder distinct).imp fun less same => by simp [same] at less
  exact (List.perm_ext_iff_of_nodup nodup (List.Nodup.of_map _ distinct)).2
    fun e => mem_inKeyOrder

end Lifting

namespace Ranks

section Entries

variable (vertices : List Vertex)

-- What the vertices emit, in their order.
def ranked : List (Entry VertexId Float) := vertices.filterMap entryOf?

variable {vertices}

theorem mem_ranked {id : VertexId} {x : Float} :
    ⟨id, x⟩ ∈ ranked vertices ↔ ∃ v ∈ vertices, v.id = id ∧
      (v.property "pageRank" = some (.float x) ∨
        ∃ i, v.property "pageRank" = some (.integer i) ∧ x = Scalar.widen i) := by
  have carried (v : Vertex) : entryOf? v = some ⟨id, x⟩ ↔ v.id = id ∧
      (v.property "pageRank" = some (.float x) ∨
        ∃ i, v.property "pageRank" = some (.integer i) ∧ x = Scalar.widen i) := by
    unfold entryOf? PageRank.property
    cases v.property "pageRank" with
    | none => simp
    | some value => cases value <;> simp [Scalar.float?, eq_comm, and_comm]
  simp only [ranked, List.mem_filterMap, carried]

theorem distinct_ranked (distinct : (vertices.map Vertex.id).Nodup) :
    ((ranked vertices).map Entry.key).Nodup := by
  refine List.pairwise_map.2 (List.pairwise_filterMap.2 ?_)
  refine (List.pairwise_map.1 distinct).imp fun {v w} apart a left b right => ?_
  obtain ⟨-, -, rfl⟩ := Option.map_eq_some_iff.1 left
  obtain ⟨-, -, rfl⟩ := Option.map_eq_some_iff.1 right
  exact apart

theorem inKeyOrder_of_perm {others : List Vertex} (perm : others.Perm vertices)
    (distinct : (vertices.map Vertex.id).Nodup) :
    inKeyOrder (ranked others) = inKeyOrder (ranked vertices) := by
  refine eq_of_ordered_by Entry.key
    (ordered_inKeyOrder (distinct_ranked ((perm.map Vertex.id).nodup_iff.2 distinct)))
    (ordered_inKeyOrder (distinct_ranked distinct)) fun e => ?_
  rw [mem_inKeyOrder, mem_inKeyOrder]
  exact (perm.filterMap entryOf?).mem_iff

end Entries

section Job

variable (r : Ranks) (vertices : List Vertex) (parts : Nat)

theorem emitted_job : r.job.emitted vertices = .ok (ranked vertices) := by
  have maps : ∀ v ∈ vertices, r.job.map [] v = .of (entryOf? v).toList := fun _ _ => rfl
  rw [Job.emitted_of_maps maps, ranked, List.filterMap_eq_flatMap_toList]

theorem execute_job : r.job.execute vertices parts = .ok (inKeyOrder (ranked vertices)) := by
  have lifted : r.job.liftAll (Groups.ofEntries (ranked vertices)) =
      .ok (inKeyOrder (ranked vertices)) := by
    have each : ∀ e ∈ inKeyOrder (ranked vertices), r.job.liftOne e = .ok e := fun _ _ => rfl
    rw [Job.liftAll_ofEntries, ← inKeyOrder, mapM_eq_ok each, List.map_id']
  have shuffled : r.job.shuffled vertices parts = .ok (Groups.ofEntries (ranked vertices)) := by
    rw [Job.shuffled_of_forgetful rfl fun _ _ => rfl, emitted_job]
    rfl
  rw [Job.execute, shuffled]
  exact lifted

theorem run_job : r.job.run vertices parts =
    .ok (Memory.Value.encode (inKeyOrder (ranked vertices))) := by
  rw [Job.run, execute_job]
  rfl

end Job

section Collected

variable (r : Ranks) {graph : Graph} (distinct : (graph.vertices.map Vertex.id).Nodup)
include distinct

theorem ascending_inKeyOrder :
    (inKeyOrder (ranked graph.vertices)).Pairwise fun a b => a.key.val < b.key.val :=
  (ordered_inKeyOrder (distinct_ranked distinct)).imp fun less =>
    (compareOfLessAndEq_eq_lt (α := UInt64)).1 less

theorem fits_inKeyOrder (few : graph.vertices.length < 2 ^ 64) :
    Wire.Fits (inKeyOrder (ranked graph.vertices)) := by
  refine ⟨?_, fun e _ => ⟨trivial, trivial⟩⟩
  rw [(perm_inKeyOrder (distinct_ranked distinct)).length_eq]
  exact (List.length_filterMap_le entryOf? graph.vertices).trans_lt few

end Collected

-- Added out of order; a rank, an integer in its place, a text and nothing.
def scattered : Graph :=
  let g := Graph.ofEdges [(⟨7⟩, ⟨2⟩), (⟨5⟩, ⟨3⟩)]
  let g := g.update ⟨7⟩ (·.setProperty "pageRank" (.float 0.5))
  let g := g.update ⟨2⟩ (·.setProperty "pageRank" (.integer 3))
  g.update ⟨5⟩ (·.setProperty "pageRank" (.text "0.5"))

end Ranks

end BulkSync
