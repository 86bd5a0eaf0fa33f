import BulkSync.Algorithms.GroupCount
import BulkSync.Graph.Basic
import BulkSync.Proofs.MapReduce.Mapping
import BulkSync.Script.Job

set_option autoImplicit false

namespace BulkSync.Job

variable {κ ν ρ ω : Type} (job : Job κ ν ρ ω)

def combining (on : Bool) : Job κ ν ρ ω :=
  { job with participates := fun stage => if stage = .combine then on else job.participates stage }

/-- Combine makes values `c key values` out of some values of a key, under the key and at least
one of them, and reduce gives the same for values that are combined in portions or not at all. -/
structure Interchangeable (c : κ → List ν → List ν) : Prop where
  combines : ∀ {key values}, values ≠ [] →
    job.entriesOf .combine (job.combine key values) = .ok ((c key values).map (Entry.mk key))
  keeps : ∀ {key values}, values ≠ [] → c key values ≠ []
  reduces : ∀ (key : κ) (portions : List (List ν)), (∀ values ∈ portions, values ≠ []) →
    job.entriesOf .reduce (job.reduce key (portions.flatMap (c key))) =
      job.entriesOf .reduce (job.reduce key portions.flatten)

def reemitting : Job κ ν ρ ω where
  implementation := job.implementation
  memoryKey := job.memoryKey
  participates := job.participates
  describeKey := job.describeKey
  map := job.map
  reduce := job.reduce
  multiplicity := job.multiplicity
  lift := job.lift
  kind := job.kind
  finalize := job.finalize

theorem interchangeable_reemitting : job.reemitting.Interchangeable fun _ values => values where
  combines _ := rfl
  keeps filled := filled
  reduces key portions _ := by rw [List.flatMap_id']

section Sums

theorem sum_append (xs ys : List Int64) :
    Count.sum (xs ++ ys) = Count.sum xs + Count.sum ys := by
  have from_zero (a : Int64) : ys.foldl (· + ·) a = a + Count.sum ys := by
    unfold Count.sum
    induction ys generalizing a with
    | nil => simp
    | cons y rest ih =>
      rw [List.foldl_cons, List.foldl_cons, ih, ih (0 + y), Int64.zero_add, Int64.add_assoc]
  rw [Count.sum, List.foldl_append]
  exact from_zero _

theorem sum_sums (portions : List (List Int64)) :
    Count.sum (portions.flatMap fun values => [Count.sum values]) = Count.sum portions.flatten := by
  induction portions with
  | nil => rfl
  | cons values rest ih =>
    rw [List.flatMap_cons, List.flatten_cons, sum_append, sum_append, ih]
    congr 1
    exact Int64.zero_add _

theorem interchangeable_of_sums {job : Job κ Int64 κ Int64}
    (combines : job.combine = Count.sumUnder) (reduces : job.reduce = Count.sumUnder) :
    job.Interchangeable fun _ values => [Count.sum values] where
  combines _ := by rw [combines]; rfl
  keeps _ := List.cons_ne_nil _ _
  reduces key portions _ := by
    simp only [reduces, Count.sumUnder, sum_sums]

end Sums

variable {job}

theorem Interchangeable.combining {c : κ → List ν → List ν}
    (interchangeable : job.Interchangeable c) (on : Bool) :
    (job.combining on).Interchangeable c :=
  ⟨interchangeable.combines, interchangeable.keeps, interchangeable.reduces⟩

theorem mapAll_combining (on : Bool) (seen vertices : List Vertex) :
    (job.combining on).mapAll seen vertices = job.mapAll seen vertices := by
  induction vertices generalizing seen with
  | nil => rfl
  | cons v rest ih =>
    simp only [mapAll, ih]
    rfl

theorem mapped_combining (on : Bool) (vertices : List Vertex) (parts : Nat) :
    (job.combining on).mapped vertices parts = job.mapped vertices parts :=
  mapM_congr fun part _ => mapAll_combining on [] part

section Combined

variable [Ord κ] (c : κ → List ν → List ν)

theorem filter_combined (pairs : List (κ × List ν)) (key : κ) :
    ((pairs.flatMap fun p => (c p.1 p.2).map (Entry.mk p.1)).filter fun e =>
        compare e.key key = .eq).map Entry.value =
      (pairs.filter fun p => compare p.1 key = .eq).flatMap fun p => c p.1 p.2 := by
  induction pairs with
  | nil => rfl
  | cons p rest ih =>
    by_cases same : compare p.1 key = .eq <;>
      simp [same, ih, List.filter_map, Function.comp_def]

variable [Std.TransOrd κ]

def combined (groups : Groups κ ν) : List (Entry κ ν) :=
  groups.toList.flatMap fun p => (c p.1 p.2).map (Entry.mk p.1)

variable [Std.LawfulEqOrd κ]

theorem valuesOf_combined (groups : Groups κ ν) (key : κ) :
    (Groups.ofEntries (combined c groups)).valuesOf key = (groups[key]?.map (c key)).getD [] := by
  rw [Groups.valuesOf_ofEntries, combined, filter_combined, Groups.filter_toList]
  cases groups[key]? <;> simp

end Combined

variable [Ord κ] [Std.TransOrd κ]

section Portions

-- The values that a key has in each of the parts in which it has some.
def portions (parts : List (List (Entry κ ν))) (key : κ) : List (List ν) :=
  parts.filterMap fun entries => (Groups.ofEntries entries)[key]?

theorem filled_portions (parts : List (List (Entry κ ν))) (key : κ) :
    ∀ values ∈ portions parts key, values ≠ [] := by
  intro values member
  obtain ⟨entries, -, found⟩ := List.mem_filterMap.1 member
  exact Groups.full_ofEntries entries key values found

theorem flatMap_portions (f : List ν → List ν) (parts : List (List (Entry κ ν))) (key : κ) :
    (portions parts key).flatMap f =
      parts.flatMap fun entries => ((Groups.ofEntries entries)[key]?.map f).getD [] := by
  induction parts with
  | nil => rfl
  | cons entries rest ih =>
    cases found : (Groups.ofEntries entries)[key]? <;> simp_all [portions]

variable [Std.LawfulEqOrd κ]

theorem valuesOf_flatten (parts : List (List (Entry κ ν))) (key : κ) :
    (Groups.ofEntries parts.flatten).valuesOf key = (portions parts key).flatten := by
  rw [← Groups.shuffle_ofEntries, Groups.valuesOf_shuffle, List.flatMap_map,
    ← List.flatMap_id, flatMap_portions]
  simp [Groups.valuesOf]

def shuffleCombined (c : κ → List ν → List ν) (parts : List (List (Entry κ ν))) : Groups κ ν :=
  Groups.shuffle (parts.map fun entries =>
    Groups.ofEntries (combined c (Groups.ofEntries entries)))

theorem full_shuffleCombined (c : κ → List ν → List ν) (parts : List (List (Entry κ ν))) :
    Groups.Full (shuffleCombined c parts) := by
  refine Groups.full_shuffle fun part member => ?_
  obtain ⟨entries, -, rfl⟩ := List.mem_map.1 member
  exact Groups.full_ofEntries _

theorem valuesOf_shuffleCombined (c : κ → List ν → List ν) (parts : List (List (Entry κ ν)))
    (key : κ) : (shuffleCombined c parts).valuesOf key = (portions parts key).flatMap (c key) := by
  rw [shuffleCombined, Groups.valuesOf_shuffle, List.flatMap_map, flatMap_portions]
  simp only [valuesOf_combined]

end Portions

section Interchangeable

variable [Std.LawfulEqOrd κ] {c : κ → List ν → List ν}
  (interchangeable : job.Interchangeable c)
include interchangeable

theorem combineAll_eq {groups : Groups κ ν} (full : Groups.Full groups) :
    job.combineAll groups = .ok (combined c groups) := by
  have each : ∀ p ∈ groups.toList, job.entriesOf .combine (job.combine p.1 p.2) =
      .ok ((c p.1 p.2).map (Entry.mk p.1)) :=
    fun p member => interchangeable.combines (Groups.filled_toList full p member)
  rw [combineAll, mapM_eq_ok each, combined, List.flatMap_def]
  rfl

theorem mapPart_of_combining (on : job.participates .combine = true) (part : List Vertex) :
    job.mapPart part =
      (fun entries => Groups.ofEntries (combined c (Groups.ofEntries entries))) <$>
        job.mapAll [] part := by
  simp only [mapPart, on, if_true, combineAll_eq interchangeable (Groups.full_ofEntries _)]
  cases job.mapAll [] part <;> rfl

theorem mem_shuffleCombined (parts : List (List (Entry κ ν))) (key : κ) :
    key ∈ shuffleCombined c parts ↔ key ∈ Groups.ofEntries parts.flatten := by
  rw [Groups.mem_iff_of_full (full_shuffleCombined c parts), valuesOf_shuffleCombined,
    Groups.mem_iff_of_full (Groups.full_ofEntries _), valuesOf_flatten]
  have filled := filled_portions parts key
  cases held : portions parts key with
  | nil => simp
  | cons values rest =>
    have some := filled values (by simp [held])
    simp [some, interchangeable.keeps some]

theorem reduceAll_shuffleCombined (parts : List (List (Entry κ ν))) :
    job.reduceAll (shuffleCombined c parts) = job.reduceAll (Groups.ofEntries parts.flatten) := by
  have keys : (shuffleCombined c parts).keys = (Groups.ofEntries parts.flatten).keys :=
    Groups.keys_eq_of_ordered Std.ExtTreeMap.ordered_keys fun key => by
      rw [mem_shuffleCombined interchangeable, Std.ExtTreeMap.mem_keys]
  have each (key : κ) : job.reduceOne key ((shuffleCombined c parts).valuesOf key) =
      job.reduceOne key ((Groups.ofEntries parts.flatten).valuesOf key) := by
    rw [valuesOf_shuffleCombined, valuesOf_flatten, reduceOne, reduceOne,
      interchangeable.reduces key _ (filled_portions parts key)]
  simp only [reduceAll, Groups.toList_eq_map_keys, keys, List.mapM_map, Function.comp_def, each]

theorem shuffled_of_combining (on : job.participates .combine = true) (vertices : List Vertex)
    (parts : Nat) :
    job.shuffled vertices parts = shuffleCombined c <$> job.mapped vertices parts :=
  shuffled_eq _ (mapPart_of_combining interchangeable on) vertices parts

end Interchangeable

section Execute

theorem execute_of_reduces (maps : job.participates .map = true)
    (reduces : job.participates .reduce = true) (vertices : List Vertex) (parts : Nat) :
    job.execute vertices parts = job.shuffled vertices parts >>= job.reduceAll := by
  simp [execute, maps, reduces]

variable [Std.LawfulEqOrd κ]

theorem execute_on_eq_off {c : κ → List ν → List ν} (interchangeable : job.Interchangeable c)
    (reduces : job.participates .reduce = true) {vertices : List Vertex} {p q : Nat}
    (alike : List.flatten <$> job.mapped vertices p = List.flatten <$> job.mapped vertices q) :
    (job.combining true).execute vertices p = (job.combining false).execute vertices q := by
  cases maps : job.participates .map with
  | false => simp [execute, combining, maps, name]
  | true =>
    have mapping (on : Bool) : (job.combining on).participates .map = true := maps
    have reducing (on : Bool) : (job.combining on).participates .reduce = true := reduces
    rw [execute_of_reduces (mapping true) (reducing true),
      execute_of_reduces (mapping false) (reducing false),
      shuffled_of_combining (interchangeable.combining true) rfl, shuffled_of_plain rfl,
      mapped_combining, mapped_combining]
    -- What is reduced depends on the entries in a row only, not on where the parts are cut.
    have reduced : (shuffleCombined c <$> job.mapped vertices p >>=
          (job.combining true).reduceAll) =
        List.flatten <$> job.mapped vertices p >>= fun entries =>
          job.reduceAll (Groups.ofEntries entries) := by
      rw [bind_map_left, bind_map_left]
      exact congrArg (job.mapped vertices p >>= ·)
        (funext (reduceAll_shuffleCombined (interchangeable.combining true)))
    rw [reduced, alike, bind_map_left, bind_map_left]
    rfl

theorem execute_combining (reduces : job.participates .reduce = true) :
    (∀ c, job.Interchangeable c → ∀ (vertices : List Vertex) (p q : Nat),
      splitInto p vertices = splitInto q vertices ∨ job.Forgetful →
        (job.combining true).execute vertices p = (job.combining false).execute vertices q) ∧
    ∀ (vertices : List Vertex) (p q : Nat),
      splitInto p vertices = splitInto q vertices ∨ job.Forgetful →
        (job.reemitting.combining true).execute vertices p =
          (job.reemitting.combining false).execute vertices q := by
  have law (other : Job κ ν ρ ω) (same : other.participates .reduce = true)
      (c : κ → List ν → List ν) (interchangeable : other.Interchangeable c)
      (vertices : List Vertex) (p q : Nat)
      (alike : splitInto p vertices = splitInto q vertices ∨ other.Forgetful) :
      (other.combining true).execute vertices p = (other.combining false).execute vertices q := by
    apply execute_on_eq_off interchangeable same
    obtain parts | forgetful := alike
    · rw [mapped, mapped, parts]
    · rw [flatten_mapped forgetful, flatten_mapped forgetful]
  exact ⟨law job reduces, law job.reemitting reduces _ job.interchangeable_reemitting⟩

end Execute

def languages : List Vertex :=
  [(Vertex.new ⟨4⟩).setProperty "lang" (.text "rust"), Vertex.new ⟨1⟩,
    (Vertex.new ⟨7⟩).setProperty "lang" (.text "java"),
    (Vertex.new ⟨2⟩).setProperty "lang" (.text "rust")]

theorem execute_combining_languages :
    let job := (GroupCount.ofProperty "lang").job
    job.participates .reduce = true ∧ job.Interchangeable (fun _ values => [Count.sum values]) ∧
      job.Forgetful ∧
      (job.combining true).execute languages 2 = .ok [⟨"java", 1⟩, ⟨"rust", 2⟩] := by
  intro job
  have sums : job.Interchangeable fun _ values => [Count.sum values] :=
    interchangeable_of_sums rfl rfl
  have forgetful : job.Forgetful := fun _ _ => rfl
  refine ⟨rfl, sums, forgetful, ?_⟩
  rw [(execute_combining rfl).1 _ sums languages 2 9 (.inr forgetful)]
  with_unfolding_all rfl

-- One entry for each vertex: how many the job has mapped before.
def numbering : Job Script.Key Int64 Script.Key Int64 :=
  Script.Job.compile
    { memoryKey := "k"
      kind := .integer
      variant := 0
      stages := [.map, .combine, .reduce]
      map := [.entry none (.text "a") .calls]
      combine := .each
      reduce := .sum
      multiplicity := .exactlyOne
      lift := .never
      finalize := .sum }

theorem numbering_shows_parts :
    numbering.participates .map = true ∧ numbering.participates .reduce = true ∧
      numbering.Interchangeable (fun _ values => values) ∧
      (numbering.combining true).execute (Graph.withVertices 2).vertices 2 ≠
        (numbering.combining false).execute (Graph.withVertices 2).vertices 1 := by
  refine ⟨rfl, rfl, ⟨fun _ => rfl, id, fun key portions _ => by rw [List.flatMap_id']⟩, ?_⟩
  have apart : (numbering.combining true).execute (Graph.withVertices 2).vertices 2 =
      .ok [⟨.text "a", 0⟩] := by with_unfolding_all rfl
  have together : (numbering.combining false).execute (Graph.withVertices 2).vertices 1 =
      .ok [⟨.text "a", 1⟩] := by with_unfolding_all rfl
  rw [apart, together]
  simp

end BulkSync.Job
