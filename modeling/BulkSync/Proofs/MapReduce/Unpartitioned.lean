import BulkSync.Proofs.MapReduce.Mapping
import BulkSync.Graph.Basic
import BulkSync.Script.Job
import Mathlib.Data.List.Basic

set_option autoImplicit false

namespace BulkSync

-- How many entries a multiplicity stands for.
def Multiplicity.Allows : Multiplicity → Nat → Prop
  | .exactlyOne, emitted => emitted = 1
  | .atMostOne, emitted => emitted ≤ 1
  | .any, _ => True

instance (m : Multiplicity) (emitted : Nat) : Decidable (m.Allows emitted) :=
  match m with
  | .exactlyOne => inferInstanceAs (Decidable (emitted = 1))
  | .atMostOne => inferInstanceAs (Decidable (emitted ≤ 1))
  | .any => .isTrue trivial

theorem Multiplicity.admits_iff (m : Multiplicity) (emitted : Nat) :
    m.admits emitted = true ↔ m.Allows emitted := by
  cases m <;> simp [admits, Allows]

namespace Job

variable {κ ν ρ ω : Type}

section Failures

variable (job : Job κ ν ρ ω)

-- Names the key and how many entries it came to.
def miscount (key : κ) (emitted : Nat) : Failure :=
  .brokenContract job.name <|
    s!"reduce for key {job.describeKey key} emitted {emitted} pairs, " ++
      s!"contract is {job.multiplicity.name}"

def reduceFailure (key : κ) (values : List ν) : Option Failure :=
  match (job.reduce key values).outcome with
  | .ok () =>
    if job.multiplicity.Allows (job.reduce key values).entries.length then none
    else some (job.miscount key (job.reduce key values).entries.length)
  | .error cause => some (.jobStage job.name .reduce cause)

def liftFailure (e : Entry κ ν) : Option Failure :=
  match job.lift e with
  | some _ => none
  | none =>
    some (.brokenContract job.name "job skips the reduce stage but cannot lift mapped pairs")

variable {job}

theorem reduceOne_eq (key : κ) (values : List ν) :
    job.reduceOne key values =
      unlessFailed (job.reduceFailure key values) (job.reduce key values).entries := by
  rw [reduceOne, entriesOf, reduceFailure]
  cases (job.reduce key values).outcome with
  | error cause => rfl
  | ok =>
    have same := job.multiplicity.admits_iff (job.reduce key values).entries.length
    show (if job.multiplicity.admits (job.reduce key values).entries.length then
        Except.ok (job.reduce key values).entries
      else Except.error (job.miscount key (job.reduce key values).entries.length)) = _
    by_cases allowed : job.multiplicity.Allows (job.reduce key values).entries.length
    · simp [same, allowed, unlessFailed]
    · simp [same, allowed, unlessFailed]

theorem mapM_liftOne (pairs : List (Entry κ ν)) :
    pairs.mapM job.liftOne =
      unlessFailed (pairs.findSome? job.liftFailure) (pairs.filterMap job.lift) := by
  have each (e : Entry κ ν) : (fun result => [result]) <$> job.liftOne e =
      unlessFailed (job.liftFailure e) (job.lift e).toList := by
    rw [liftOne, liftFailure]
    cases job.lift e <;> rfl
  have all := flatten_mapM each pairs
  rw [mapM_comp, ← List.filterMap_eq_flatMap_toList] at all
  rw [← all]
  simp [← List.flatMap_def]

end Failures

variable [Ord κ] [Std.TransOrd κ]

def valuesUnder (entries : List (Entry κ ν)) (key : κ) : List ν :=
  (entries.filter fun e => compare e.key key = .eq).map Entry.value

def unpartitioned (job : Job κ ν ρ ω) (vertices : List Vertex) :
    Except Failure (List (Entry ρ ω)) := do
  let entries ← job.emitted vertices
  let keys := ascending (entries.map Entry.key)
  if job.participates .reduce then
    unlessFailed (keys.findSome? fun key => job.reduceFailure key (valuesUnder entries key))
      (keys.flatMap fun key => (job.reduce key (valuesUnder entries key)).entries)
  else
    let pairs := keys.flatMap fun key => entries.filter fun e => compare e.key key = .eq
    unlessFailed (pairs.findSome? job.liftFailure) (pairs.filterMap job.lift)

variable [Std.LawfulEqOrd κ] {job : Job κ ν ρ ω}

theorem reduceAll_ofEntries (entries : List (Entry κ ν)) :
    job.reduceAll (Groups.ofEntries entries) =
      List.flatten <$> (ascending (entries.map Entry.key)).mapM fun key =>
        job.reduceOne key ((entries.filter fun e => compare e.key key = .eq).map Entry.value) := by
  simp [reduceAll, Groups.toList_ofEntries, Function.comp_def]

theorem liftAll_ofEntries (entries : List (Entry κ ν)) :
    job.liftAll (Groups.ofEntries entries) =
      ((ascending (entries.map Entry.key)).flatMap fun key =>
        entries.filter fun e => compare e.key key = .eq).mapM job.liftOne := by
  rw [liftAll, Groups.toList_ofEntries, List.flatMap_map]
  congr 2
  funext key
  -- Among the entries under a key, putting the key back changes nothing.
  simp only [List.map_map]
  refine (List.map_congr_left fun e member => ?_).trans (List.map_id _)
  obtain rfl : e.key = key := by simpa using (List.mem_filter.1 member).2
  rfl

theorem reduceAll_eq_unlessFailed (entries : List (Entry κ ν)) :
    let keys := ascending (entries.map Entry.key)
    job.reduceAll (Groups.ofEntries entries) =
      unlessFailed (keys.findSome? fun key => job.reduceFailure key (valuesUnder entries key))
        (keys.flatMap fun key => (job.reduce key (valuesUnder entries key)).entries) :=
  (reduceAll_ofEntries entries).trans (flatten_mapM (fun key => reduceOne_eq key _) _)

theorem liftAll_eq_unlessFailed (entries : List (Entry κ ν)) :
    let pairs := (ascending (entries.map Entry.key)).flatMap fun key =>
      entries.filter fun e => compare e.key key = .eq
    job.liftAll (Groups.ofEntries entries) =
      unlessFailed (pairs.findSome? job.liftFailure) (pairs.filterMap job.lift) :=
  (liftAll_ofEntries entries).trans (mapM_liftOne _)

section Plain

variable (maps : job.participates .map = true) (plain : job.participates .combine = false)
  (forgetful : job.Forgetful)
include plain forgetful

theorem shuffled_of_forgetful (vertices : List Vertex) (parts : Nat) :
    job.shuffled vertices parts = Groups.ofEntries <$> job.emitted vertices := by
  rw [shuffled_of_plain plain, ← flatten_mapped forgetful vertices parts]
  simp

include maps

theorem execute_eq_unpartitioned (vertices : List Vertex) (parts : Nat) :
    job.execute vertices parts = job.unpartitioned vertices ∧
      ∀ entries, job.emitted vertices = .ok entries →
        ∃ groups, job.shuffled vertices parts = .ok groups ∧
          groups.keys.Pairwise (fun a b => compare a b = .lt) ∧
          (∀ key, key ∈ groups ↔ ∃ e ∈ entries, e.key = key) ∧
          ∀ key, groups.valuesOf key =
            (entries.filter fun e => compare e.key key = .eq).map Entry.value := by
  constructor
  case left =>
    rw [execute, shuffled_of_forgetful plain forgetful, unpartitioned]
    simp only [maps, Bool.not_true, Bool.false_eq_true, if_false, bind_map_left,
      reduceAll_eq_unlessFailed, liftAll_eq_unlessFailed]
  case right =>
    intro entries ok
    refine ⟨Groups.ofEntries entries, ?_, Std.ExtTreeMap.ordered_keys, fun key => ?_,
      Groups.valuesOf_ofEntries entries⟩
    · rw [shuffled_of_forgetful plain forgetful, ok]
      rfl
    · rw [Groups.mem_ofEntries, List.mem_map]

end Plain

def byParity : Job Script.Key Int64 Script.Key Int64 :=
  Script.Job.compile
    { memoryKey := "digits"
      kind := .integer
      variant := 0
      stages := [.map, .reduce]
      map := [.entry none (.integer (.apply .mod .id (.number 2))) .id]
      combine := .each
      reduce := .digits
      multiplicity := .exactlyOne
      lift := .never
      finalize := .sum }

theorem forgetful_byParity : byParity.Forgetful := fun _ _ => rfl

-- Only small ids get through, and only smaller ones come out again.
def lifting : Job Script.Key Int64 Script.Key Int64 :=
  { byParity with
    participates := fun stage => stage = .map
    map := fun _ v => if v.id.val ≤ 4 then byParity.map [] v else .fail (.other "large")
    lift := fun e => if e.value ≤ 3 then some e else none }

theorem execute_eq_unpartitioned_byParity :
    (byParity.participates .map = true ∧ byParity.participates .combine = false ∧
      byParity.Forgetful ∧
      byParity.execute (Graph.withVertices 5).vertices 2 =
        .ok [⟨.integer 0, 24⟩, ⟨.integer 1, 13⟩]) ∧
    (lifting.participates .map = true ∧ lifting.participates .combine = false ∧
      lifting.Forgetful ∧
      lifting.execute (Graph.withVertices 4).vertices 3 =
        .ok [⟨.integer 0, 0⟩, ⟨.integer 0, 2⟩, ⟨.integer 1, 1⟩, ⟨.integer 1, 3⟩] ∧
      lifting.execute (Graph.withVertices 5).vertices 3 =
        .error (.brokenContract "ScriptJob"
          "job skips the reduce stage but cannot lift mapped pairs") ∧
      lifting.execute (Graph.withVertices 6).vertices 3 =
        .error (.jobStage "ScriptJob" .map (.other "large"))) := by
  have remembers : lifting.Forgetful := fun _ _ => rfl
  refine ⟨⟨rfl, rfl, forgetful_byParity, ?_⟩, rfl, rfl, remembers, ?_, ?_, ?_⟩
  · rw [(execute_eq_unpartitioned rfl rfl forgetful_byParity _ 2).1]
    rfl
  all_goals
    rw [(execute_eq_unpartitioned rfl rfl remembers _ 3).1]
    rfl

end Job

end BulkSync
