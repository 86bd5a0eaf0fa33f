import BulkSync.Proofs.MapReduce.Unpartitioned
import Mathlib.Algebra.Order.Floor.Div

set_option autoImplicit false

namespace BulkSync

section Parts

variable {α : Type}

theorem length_splitBy (more : Nat) (as : List α) :
    (splitBy more as).length = as.length ⌈/⌉ (more + 1) := by
  fun_induction splitBy more as with
  | case1 => simp
  | case2 a rest ih =>
    refine eq_of_forall_ge_iff fun few => ?_
    rw [List.length_cons, ih, List.length_drop, List.length_cons,
      ceilDiv_le_iff_le_mul (Nat.succ_pos more)]
    cases few with
    | zero => simp
    | succ few =>
      rw [Nat.add_le_add_iff_right, ceilDiv_le_iff_le_mul (Nat.succ_pos more), Nat.mul_succ]
      omega

theorem getElem_splitBy (more : Nat) (as : List α) (i : Nat)
    (within : i < (splitBy more as).length) :
    (splitBy more as)[i] = (as.drop (i * (more + 1))).take (more + 1) := by
  fun_induction splitBy more as generalizing i with
  | case1 => cases within
  | case2 a rest ih =>
    cases i with
    | zero => simp
    | succ i =>
      have later := ih i (by simpa using within)
      rw [List.getElem_cons_succ, later, List.drop_drop, Nat.succ_mul, ← Nat.add_assoc,
        List.drop_succ_cons, Nat.add_comm more (i * (more + 1))]

variable (parts : Nat) (as : List α)

structure Cuts (pieces : List (List α)) : Prop where
  size : partLength as.length parts = max 1 (as.length ⌈/⌉ max parts 1)
  positive : 1 ≤ partLength as.length parts
  count : pieces.length = as.length ⌈/⌉ partLength as.length parts
  few : pieces.length ≤ max parts 1
  filled : ∀ piece ∈ pieces, piece ≠ []
  consecutive (i : Nat) (within : i < pieces.length) : pieces[i] =
    (as.drop (i * partLength as.length parts)).take (partLength as.length parts)
  whole : pieces.flatten = as

theorem cuts_splitInto : Cuts parts as (splitInto parts as) := by
  have positive := partLength_pos as.length parts
  have length : partLength as.length parts - 1 + 1 = partLength as.length parts :=
    Nat.sub_add_cancel positive
  have size : partLength as.length parts = max 1 (as.length ⌈/⌉ max parts 1) := by
    rw [partLength, Nat.ceilDiv_eq_add_pred_div, Nat.max_comm parts]
  have count : (splitInto parts as).length = as.length ⌈/⌉ partLength as.length parts := by
    rw [splitInto, length_splitBy, length]
  constructor
  case size => exact size
  case positive => exact positive
  case count => exact count
  case few =>
    -- Pieces of this length are enough for all, so no more of them are made.
    have enough : as.length ⌈/⌉ max parts 1 ≤ partLength as.length parts :=
      size ▸ Nat.le_max_right 1 _
    rw [count, ceilDiv_le_iff_le_mul positive, Nat.mul_comm]
    exact (ceilDiv_le_iff_le_mul (by omega)).1 enough
  case filled => exact fun piece member => ne_nil_of_mem_splitBy member
  case consecutive =>
    intro i within
    have piece := getElem_splitBy _ as i within
    rwa [length] at piece
  case whole => exact flatten_splitInto parts as

end Parts

namespace Groups

variable {κ ν : Type} [Ord κ] [Std.TransOrd κ] [Std.LawfulEqOrd κ]

-- Entry by entry, a value goes behind those that its key has got before.
theorem ofEntries_eq_foldl (entries : List (Entry κ ν)) :
    ofEntries entries = (entries.map fun e => (e.key, [e.value])).foldl receive ∅ := by
  apply ext_of_full
  case left => exact full_ofEntries entries
  case right => exact full_foldl_receive (by simp) full_empty
  case same =>
    intro key
    rw [valuesOf_ofEntries, valuesOf_foldl_receive, valuesOf_empty, List.nil_append,
      List.filter_map, List.flatMap_map]
    simp [Function.comp_def, List.map_eq_flatMap]

theorem ofEntries_append (front back : List (Entry κ ν)) :
    ofEntries (front ++ back) = (ofEntries front).append (ofEntries back) := by
  apply ext_of_full
  case left => exact full_ofEntries _
  case right => exact full_append (full_ofEntries front) (full_ofEntries back)
  case same =>
    intro key
    simp only [valuesOf_append, valuesOf_ofEntries, List.filter_append, List.map_append]

structure Gathers (groups : Groups κ ν) (entries : List (Entry κ ν)) : Prop where
  pushed : groups = (entries.map fun e => (e.key, [e.value])).foldl receive ∅
  ordered : (groups.toList.map Prod.fst).Pairwise fun a b => compare a b = .lt
  filled : ∀ p ∈ groups.toList, p.2 ≠ []
  keys (key : κ) : key ∈ groups ↔ ∃ e ∈ entries, e.key = key
  values (key : κ) :
    groups.valuesOf key = (entries.filter fun e => compare e.key key = .eq).map Entry.value

theorem gathers_ofEntries (entries : List (Entry κ ν)) : (ofEntries entries).Gathers entries where
  pushed := ofEntries_eq_foldl entries
  ordered := by
    rw [Std.ExtTreeMap.map_fst_toList_eq_keys]
    exact Std.ExtTreeMap.ordered_keys
  filled := filled_toList (full_ofEntries entries)
  keys key := by rw [mem_ofEntries, List.mem_map]
  values := valuesOf_ofEntries entries

end Groups

namespace Job

variable {κ ν ρ ω : Type} [Ord κ] [Std.TransOrd κ] [Std.LawfulEqOrd κ]

structure Regroups (job : Job κ ν ρ ω) (vertices : List Vertex) (parts : Nat) : Prop where
  grouped : job.shuffled vertices parts =
    Groups.ofEntries <$> List.flatten <$> job.mapped vertices parts
  -- In the order of the vertices, whatever the parts, if map does not look back.
  together (forgetful : job.Forgetful) :
    job.shuffled vertices parts = Groups.ofEntries <$> job.emitted vertices
  executes (maps : job.participates .map = true) : job.execute vertices parts = do
    let groups := Groups.ofEntries (← job.mapped vertices parts).flatten
    if job.participates .reduce then job.reduceAll groups else job.liftAll groups

theorem regroups_of_plain {job : Job κ ν ρ ω} (plain : job.participates .combine = false)
    (vertices : List Vertex) (parts : Nat) : job.Regroups vertices parts where
  grouped := by
    rw [shuffled_of_plain plain]
    simp
  together forgetful := shuffled_of_forgetful plain forgetful vertices parts
  executes maps := by
    simp [execute, maps, shuffled_of_plain plain]

theorem shuffled_keeps_grouping :
    (∀ entries : List (Entry κ ν), (Groups.ofEntries entries).Gathers entries) ∧
      (∀ front back : List (Entry κ ν), Groups.ofEntries (front ++ back) =
        (Groups.ofEntries front).append (Groups.ofEntries back)) ∧
      (∀ parts : List (List (Entry κ ν)),
        Groups.shuffle (parts.map Groups.ofEntries) = Groups.ofEntries parts.flatten) ∧
      ∀ (vertices : List Vertex) (parts : Nat), Cuts parts vertices (splitInto parts vertices) ∧
        ∀ job : Job κ ν ρ ω, job.participates .combine = false → job.Regroups vertices parts :=
  ⟨Groups.gathers_ofEntries, Groups.ofEntries_append, Groups.shuffle_ofEntries,
    fun vertices parts => ⟨cuts_splitInto parts vertices,
      fun _ plain => regroups_of_plain plain vertices parts⟩⟩

theorem shuffled_keeps_grouping_byParity :
    byParity.participates .combine = false ∧ byParity.Forgetful ∧
      (splitInto 2 (Graph.withVertices 5).vertices).map (fun piece => piece.map Vertex.id) =
        [[⟨0⟩, ⟨1⟩, ⟨2⟩], [⟨3⟩, ⟨4⟩]] ∧
      (fun groups => groups.toList) <$> byParity.shuffled (Graph.withVertices 5).vertices 2 =
        .ok [(.integer 0, [0, 2, 4]), (.integer 1, [1, 3])] := by
  obtain ⟨-, -, -, parted⟩ := shuffled_keeps_grouping (κ := Script.Key) (ν := Int64)
    (ρ := Script.Key) (ω := Int64)
  have regroups := (parted (Graph.withVertices 5).vertices 2).2 byParity rfl
  refine ⟨rfl, forgetful_byParity, by with_unfolding_all rfl, ?_⟩
  rw [regroups.together forgetful_byParity]
  with_unfolding_all rfl

end Job

end BulkSync
