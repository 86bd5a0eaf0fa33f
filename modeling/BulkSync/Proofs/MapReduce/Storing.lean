import BulkSync.Algorithms.GroupCount
import BulkSync.Algorithms.PageRank
import BulkSync.Proofs.Memory.Barrier

set_option autoImplicit false

namespace BulkSync

class LawfulStorable (α : Type) [Storable α] : Prop where
  kind_store {a : α} {v : Memory.Value} : Storable.store a = .ok v → v.kind = Storable.kind α

instance : LawfulStorable Int64 where
  kind_store stored := by cases stored; rfl

instance : LawfulStorable Bool where
  kind_store stored := by cases stored; rfl

instance : LawfulStorable (List UInt8) where
  kind_store stored := by cases stored; rfl

instance {κ ν : Type} [Wire κ] [Wire ν] : LawfulStorable (List (Entry κ ν)) where
  kind_store stored := by cases stored; rfl

namespace Job

variable {κ ν ρ ω : Type} (job : Job κ ν ρ ω) (α : Type) [Storable α]

structure Outputs : Prop where
  kind : job.kind = Storable.kind α
  finalize : ∀ {results stored}, job.finalize results = .ok stored →
    ∃ a : α, stored = Storable.store a

variable {job α} [Ord κ] [Std.TransOrd κ]

theorem Outputs.store_of_run (outputs : job.Outputs α) {vertices : List Vertex} {parts : Nat}
    {v : Memory.Value} (ran : job.run vertices parts = .ok v) :
    ∃ a : α, Storable.store a = .ok v := by
  obtain ⟨results, -, concluded⟩ := bind_eq_ok ran
  unfold conclude at concluded
  split at concluded
  next => cases concluded
  next stored finalized =>
    obtain ⟨a, rfl⟩ := outputs.finalize finalized
    cases made : Storable.store a with
    | error e =>
      rw [made] at concluded
      cases concluded
    | ok u =>
      rw [made] at concluded
      cases concluded
      exact ⟨a, made⟩

theorem Outputs.kind_run [LawfulStorable α] (outputs : job.Outputs α) {vertices : List Vertex}
    {parts : Nat} {v : Memory.Value} (ran : job.run vertices parts = .ok v) :
    v.kind = job.kind := by
  obtain ⟨a, stored⟩ := outputs.store_of_run ran
  rw [outputs.kind, LawfulStorable.kind_store stored]

end Job

-- A job that outputs a type with a lawful place in memory, seen from outside.
inductive Registered.Storing : Registered → Prop
  | register {κ ν ρ ω α : Type} [Ord κ] [Std.TransOrd κ] [Storable α] [LawfulStorable α]
      {job : Job κ ν ρ ω} (outputs : job.Outputs α) : Storing job.register

theorem Registered.Storing.kind_run {job : Registered} (storing : job.Storing)
    {vertices : List Vertex} {parts : Nat} {v : Memory.Value}
    (ran : job.run vertices parts = .ok v) : v.kind = job.kind := by
  cases storing with
  | register outputs => exact outputs.kind_run ran

theorem Count.outputs (c : Count) : c.job.Outputs Int64 where
  kind := rfl
  finalize {results stored} finalized := by
    match results, finalized with
    | [], finalized => exact ⟨_, (Except.ok.inj finalized).symm⟩
    | [e], finalized => exact ⟨_, (Except.ok.inj finalized).symm⟩

theorem GroupCount.outputs (c : GroupCount) : c.job.Outputs (List (Entry String Int64)) where
  kind := rfl
  finalize finalized := ⟨_, (Except.ok.inj finalized).symm⟩

theorem Ranks.outputs (r : Ranks) : r.job.Outputs (List (Entry VertexId Float)) where
  kind := rfl
  finalize finalized := ⟨_, (Except.ok.inj finalized).symm⟩

end BulkSync
