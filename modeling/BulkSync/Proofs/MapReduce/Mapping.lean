import BulkSync.MapReduce.Execute
import BulkSync.Proofs.MapReduce.Grouping

set_option autoImplicit false

namespace BulkSync

section Traversal

variable {α β γ ε : Type}

theorem mapM_flatten (f : α → Except ε β) (parts : List (List α)) :
    parts.flatten.mapM f = List.flatten <$> parts.mapM fun part => part.mapM f := by
  induction parts with
  | nil => rfl
  | cons part rest ih => simp [ih]

theorem mapM_comp (f : α → Except ε β) (g : β → γ) (as : List α) :
    (as.mapM fun a => g <$> f a) = List.map g <$> as.mapM f := by
  induction as with
  | nil => rfl
  | cons a rest ih => simp [ih]

theorem mapM_eq_ok {f : α → Except ε β} {g : α → β} {as : List α}
    (each : ∀ a ∈ as, f a = .ok (g a)) : as.mapM f = .ok (as.map g) := by
  induction as with
  | nil => rfl
  | cons a rest ih =>
    have first := each a List.mem_cons_self
    have later := ih fun b member => each b (List.mem_cons_of_mem a member)
    rw [List.mapM_cons, first, later]
    rfl

theorem mapM_congr {f g : α → Except ε β} {as : List α} (each : ∀ a ∈ as, f a = g a) :
    as.mapM f = as.mapM g := by
  induction as with
  | nil => rfl
  | cons a rest ih =>
    have first := each a List.mem_cons_self
    have later := ih fun b member => each b (List.mem_cons_of_mem a member)
    rw [List.mapM_cons, List.mapM_cons, first, later]

def FailsFirst (f : α → Except ε β) (as : List α) (e : ε) : Prop :=
  ∃ front a back, as = front ++ a :: back ∧ (∀ b ∈ front, ∃ r, f b = .ok r) ∧ f a = .error e

theorem not_failsFirst_nil (f : α → Except ε β) (e : ε) : ¬FailsFirst f [] e := by
  rintro ⟨front, a, back, cut, -⟩
  simp at cut

theorem failsFirst_cons {f : α → Except ε β} {a : α} {rest : List α} {e : ε} :
    FailsFirst f (a :: rest) e ↔ f a = .error e ∨ (∃ r, f a = .ok r) ∧ FailsFirst f rest e := by
  constructor
  · rintro ⟨_ | ⟨b, front⟩, c, back, cut, before, fails⟩
    · cases cut
      exact .inl fails
    · cases cut
      refine .inr ⟨before a List.mem_cons_self, front, c, back, rfl, fun d member => ?_, fails⟩
      exact before d (List.mem_cons_of_mem a member)
  · rintro (fails | ⟨first, front, c, back, rfl, before, fails⟩)
    · exact ⟨[], a, rest, rfl, by simp, fails⟩
    · refine ⟨a :: front, c, back, rfl, fun d member => ?_, fails⟩
      rcases List.mem_cons.1 member with rfl | member
      · exact first
      · exact before d member

-- A result, unless there is a failure instead.
def unlessFailed (failure : Option ε) (result : β) : Except ε β :=
  match failure with
  | some e => .error e
  | none => .ok result

theorem flatten_mapM {f : α → Except ε (List β)} {fails : α → Option ε} {made : α → List β}
    (each : ∀ a, f a = unlessFailed (fails a) (made a)) (as : List α) :
    List.flatten <$> as.mapM f = unlessFailed (as.findSome? fails) (as.flatMap made) := by
  induction as with
  | nil => rfl
  | cons a rest ih =>
    cases failed : fails a with
    | some e => simp [each, failed, unlessFailed, bind, Except.bind, Functor.map, Except.map]
    | none =>
      have later : List.flatten <$> (a :: rest).mapM f =
          (made a ++ ·) <$> List.flatten <$> rest.mapM f := by
        rw [List.mapM_cons, each, failed]
        cases rest.mapM f <;> rfl
      rw [later, ih, List.findSome?_cons_of_isNone (by simp [failed])]
      cases rest.findSome? fails <;> rfl

end Traversal

namespace Job

variable {κ ν ρ ω : Type} (job : Job κ ν ρ ω)

-- What a vertex emits does not depend on the vertices mapped before it.
def Forgetful : Prop := ∀ seen v, job.map seen v = job.map [] v

def mapFailure (v : Vertex) : Option Failure :=
  match (job.map [] v).outcome with
  | .ok () => none
  | .error cause => some (.jobStage job.name .map cause)

def emitted (vertices : List Vertex) : Except Failure (List (Entry κ ν)) :=
  unlessFailed (vertices.findSome? job.mapFailure)
    (vertices.flatMap fun v => (job.map [] v).entries)

def mapped (vertices : List Vertex) (parts : Nat) : Except Failure (List (List (Entry κ ν))) :=
  (splitInto parts vertices).mapM (job.mapAll [])

variable {job}

theorem emitted_eq_flatten (vertices : List Vertex) :
    job.emitted vertices =
      List.flatten <$> vertices.mapM fun v => job.entriesOf .map (job.map [] v) := by
  refine (flatten_mapM (fun v => ?_) vertices).symm
  rw [entriesOf, mapFailure]
  cases (job.map [] v).outcome <;> rfl

theorem emitted_of_maps {vertices : List Vertex} {entries : Vertex → List (Entry κ ν)}
    (maps : ∀ v ∈ vertices, job.map [] v = .of (entries v)) :
    job.emitted vertices = .ok (vertices.flatMap entries) := by
  have none : vertices.findSome? job.mapFailure = none := by
    rw [List.findSome?_eq_none_iff]
    intro v member
    rw [mapFailure, maps v member]
    rfl
  have all : (vertices.flatMap fun v => (job.map [] v).entries) = vertices.flatMap entries := by
    rw [List.flatMap_def, List.flatMap_def]
    refine congrArg List.flatten (List.map_congr_left fun v member => ?_)
    rw [maps v member]
    rfl
  rw [emitted, none, all]
  rfl

section Forgetful

variable (forgetful : job.Forgetful)
include forgetful

theorem mapAll_of_forgetful (seen vertices : List Vertex) :
    job.mapAll seen vertices = job.emitted vertices := by
  rw [emitted_eq_flatten]
  induction vertices generalizing seen with
  | nil => rfl
  | cons v rest ih => simp [mapAll, forgetful seen v, ih]

theorem flatten_mapped (vertices : List Vertex) (parts : Nat) :
    List.flatten <$> job.mapped vertices parts = job.emitted vertices := by
  have alone : job.mapAll [] = job.emitted := funext (mapAll_of_forgetful forgetful [])
  have whole : job.emitted vertices = job.emitted (splitInto parts vertices).flatten := by
    rw [flatten_splitInto]
  rw [whole, mapped, alone, emitted_eq_flatten, mapM_flatten, funext emitted_eq_flatten, mapM_comp]
  simp [List.flatten_flatten]

end Forgetful

section Shuffle

variable [Ord κ] [Std.TransOrd κ]

theorem shuffled_eq (grouped : List (Entry κ ν) → Groups κ ν)
    (made : ∀ part, job.mapPart part = grouped <$> job.mapAll [] part) (vertices : List Vertex)
    (parts : Nat) :
    job.shuffled vertices parts =
      (fun entries => Groups.shuffle (entries.map grouped)) <$> job.mapped vertices parts := by
  have each : job.mapPart = fun part => grouped <$> job.mapAll [] part := funext made
  rw [shuffled, each, mapM_comp, mapped]
  simp

theorem shuffled_of_plain [Std.LawfulEqOrd κ] (plain : job.participates .combine = false)
    (vertices : List Vertex) (parts : Nat) :
    job.shuffled vertices parts =
      (fun entries => Groups.ofEntries entries.flatten) <$> job.mapped vertices parts := by
  rw [shuffled_eq Groups.ofEntries fun part => by simp [mapPart, plain]]
  simp only [Groups.shuffle_ofEntries]

end Shuffle

end Job

end BulkSync
