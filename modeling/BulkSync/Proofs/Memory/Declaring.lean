import BulkSync.Proofs.Memory.Operations
import Mathlib.Data.List.DropRight

set_option autoImplicit false

namespace BulkSync.Memory

structure WellFormed (name : String) : Prop where
  named : name ≠ ""
  trimmed : (name.toList.dropWhile Text.isBlank).rdropWhile Text.isBlank = name.toList
  shown : ∀ c ∈ name.toList, Text.isControl c = false
  unreserved : name.toList.head? ≠ some '~'

theorem trimmed_iff (cs : List Char) :
    (cs.dropWhile Text.isBlank).rdropWhile Text.isBlank = cs ↔
      (cs.head?.any Text.isBlank || cs.getLast?.any Text.isBlank) = false := by
  cases cs with
  | nil => simp
  | cons first rest =>
    by_cases blank : Text.isBlank first
    · -- A character dropped in front is missing in the end.
      have shorter := (List.rdropWhile_prefix Text.isBlank (rest.dropWhile Text.isBlank)).length_le
      have fewer := shorter.trans (List.dropWhile_suffix Text.isBlank).length_le
      rw [List.dropWhile_cons_of_pos blank]
      simp only [blank, List.head?_cons, Option.any_some, Bool.true_or, Bool.true_eq_false,
        iff_false]
      intro same
      rw [same, List.length_cons] at fewer
      omega
    · rw [List.dropWhile_cons_of_neg blank, List.rdropWhile_eq_self_iff,
        List.getLast?_eq_some_getLast (List.cons_ne_nil first rest)]
      simp [blank]

theorem flaw?_eq_none_iff {name : String} : flaw? name = none ↔ WellFormed name := by
  have named : name.toList = [] ↔ name = "" := String.toList_eq_nil_iff
  constructor
  · intro flawless
    simp only [flaw?] at flawless
    split at flawless
    next => cases flawless
    next nonempty =>
      split at flawless
      next => cases flawless
      next blanks =>
        split at flawless
        next => cases flawless
        next controls =>
          split at flawless
          next => cases flawless
          next tilde =>
            exact ⟨fun empty => nonempty (named.2 empty), (trimmed_iff _).2 (by simpa using blanks),
              by simpa using controls, tilde⟩
  · rintro ⟨nonempty, trimmed, shown, tilde⟩
    have controls : name.toList.any Text.isControl = false := by simpa using shown
    rw [trimmed_iff] at trimmed
    simp [flaw?, named, nonempty, trimmed, controls, tilde]

structure Acceptable (names : List String) : Prop where
  wellFormed : ∀ name ∈ names, WellFormed name
  apart : names.Nodup

-- What is wrong with a name that comes after others.
inductive Fault (earlier : List String) (name : String) : Config.Error → Prop
  | malformed {flaw : Flaw} (found : flaw? name = some flaw) :
      Fault earlier name (.invalidKey name flaw.reason)
  | taken (wellFormed : WellFormed name) (before : name ∈ earlier) :
      Fault earlier name (.duplicateKey name)

inductive FirstFault (names : List String) (e : Config.Error) : Prop
  | intro (earlier : List String) (name : String) (later : List String)
      (split : names = earlier ++ name :: later) (fine : Acceptable earlier)
      (fault : Fault earlier name e)

theorem acceptable_concat {earlier : List String} {name : String} (fine : Acceptable earlier) :
    Acceptable (earlier ++ [name]) ∨ ∃ e, Fault earlier name e := by
  cases found : flaw? name with
  | some flaw => exact .inr ⟨_, .malformed found⟩
  | none =>
    have wellFormed := flaw?_eq_none_iff.1 found
    by_cases before : name ∈ earlier
    · exact .inr ⟨_, .taken wellFormed before⟩
    · refine .inl ⟨fun other member => ?_, ?_⟩
      · rcases List.mem_append.1 member with among | last
        · exact fine.wellFormed other among
        · rwa [List.mem_singleton.1 last]
      · refine List.nodup_append.2 ⟨fine.apart, by simp, ?_⟩
        rintro other among _ last rfl
        exact before (List.mem_singleton.1 last ▸ among)

-- From the front: a fault that is found stays the first, whatever comes later.
theorem acceptable_or_firstFault (names : List String) :
    Acceptable names ∨ ∃ e, FirstFault names e := by
  induction names using List.reverseRecOn with
  | nil => exact .inl ⟨by simp, .nil⟩
  | append_singleton earlier name ih =>
    obtain fine | ⟨e, front, fault, later, split, fine, why⟩ := ih
    · refine (acceptable_concat fine).imp_right ?_
      rintro ⟨e, fault⟩
      exact ⟨e, earlier, name, [], rfl, fine, fault⟩
    · exact .inr ⟨e, front, fault, later ++ [name], by simp [split], fine, why⟩

section Opening

-- Keys with the role that each is declared in.
variable (slots : List (Key × Role))

def slotNames : List String := slots.map (·.1.name)

def vacant : Memory :=
  { empty with
    current := slots.foldl
      (fun slots (key, role) => slots.insert key.name ⟨key.kind, role, none⟩) ∅ }

def declareEach : Except Config.Error Memory :=
  slots.foldlM (fun m slot => m.declare slot.1 slot.2) empty

theorem vacant_concat (key : Key) (role : Role) :
    vacant (slots ++ [(key, role)]) =
      { vacant slots with
        current := (vacant slots).current.insert key.name ⟨key.kind, role, none⟩ } := by
  simp [vacant]

theorem mem_vacant {name : String} :
    name ∈ (vacant slots).current ↔ name ∈ slotNames slots := by
  induction slots using List.reverseRecOn with
  | nil => simp [vacant, slotNames]
  | append_singleton front slot ih =>
    obtain ⟨key, role⟩ := slot
    rw [vacant_concat, Std.ExtTreeMap.mem_insert, ih, Std.compare_eq_iff_eq]
    simp [slotNames, or_comm, eq_comm]

theorem cell_vacant (name : String) : (vacant slots).cell name = none := by
  induction slots using List.reverseRecOn with
  | nil => simp [vacant, cell]
  | append_singleton front slot ih =>
    obtain ⟨key, role⟩ := slot
    rw [cell] at ih ⊢
    rw [vacant_concat, Std.ExtTreeMap.getElem?_insert]
    split
    next => rfl
    next => exact ih

variable {slots}

theorem declare_vacant {key : Key} {role : Role}
    (fine : Acceptable (slotNames (slots ++ [(key, role)]))) :
    (vacant slots).declare key role = .ok (vacant (slots ++ [(key, role)])) := by
  have named : slotNames (slots ++ [(key, role)]) = slotNames slots ++ [key.name] := by
    simp [slotNames]
  rw [named] at fine
  have flawless := flaw?_eq_none_iff.2 (fine.wellFormed key.name (by simp))
  have absent : key.name ∉ (vacant slots).current := by
    rw [mem_vacant]
    exact fun before => (List.nodup_append.1 fine.apart).2.2 _ before _ (by simp) rfl
  simp [declare, flawless, absent, vacant_concat]

theorem declare_vacant_fault {key : Key} {role : Role} {e : Config.Error}
    (fault : Fault (slotNames slots) key.name e) :
    (vacant slots).declare key role = .error e := by
  cases fault with
  | malformed found => simp [declare, found]
  | taken wellFormed before =>
    rw [← mem_vacant] at before
    simp [declare, flaw?_eq_none_iff.2 wellFormed, before]

theorem Acceptable.front {front rest : List String} (fine : Acceptable (front ++ rest)) :
    Acceptable front :=
  ⟨fun name member => fine.wellFormed name (List.mem_append_left _ member),
    (List.nodup_append.1 fine.apart).1⟩

theorem declareEach_of_acceptable (fine : Acceptable (slotNames slots)) :
    declareEach slots = .ok (vacant slots) := by
  induction slots using List.reverseRecOn with
  | nil => rfl
  | append_singleton front slot ih =>
    have earlier : Acceptable (slotNames front) := by
      rw [slotNames, List.map_append] at fine
      exact fine.front
    rw [declareEach, List.foldlM_append, ← declareEach, ih earlier]
    exact (bind_pure _).trans (declare_vacant fine)

theorem declareEach_of_firstFault {e : Config.Error} (first : FirstFault (slotNames slots) e) :
    declareEach slots = .error e := by
  obtain ⟨earlier, name, later, split, fine, fault⟩ := first
  obtain ⟨front, rest, rfl, rfl, named⟩ := List.map_eq_append_iff.1 split
  obtain ⟨slot, back, rfl, rfl, -⟩ := List.map_eq_cons_iff.1 named
  rw [declareEach, List.foldlM_append, ← declareEach, declareEach_of_acceptable fine]
  show (vacant front).declare slot.1 slot.2 >>= _ = _
  rw [declare_vacant_fault fault]
  rfl

theorem declareAll_eq_foldlM (role : Role) (keys : List Key) (m : Memory) :
    m.declareAll role keys =
      (keys.map (·, role)).foldlM (fun m slot => m.declare slot.1 slot.2) m := by
  induction keys generalizing m with
  | nil => rfl
  | cons key rest ih =>
    rw [declareAll, List.map_cons, List.foldlM_cons]
    exact bind_congr fun n => ih n

end Opening

section Opened

variable {slots : List (Key × Role)} (fine : Acceptable (slotNames slots))
include fine

theorem slot_vacant {key : Key} {role : Role} (member : (key, role) ∈ slots) :
    (vacant slots).current[key.name]? = some ⟨key.kind, role, none⟩ := by
  induction slots using List.reverseRecOn with
  | nil => cases member
  | append_singleton front slot ih =>
    obtain ⟨other, last⟩ := slot
    rw [slotNames, List.map_append] at fine
    rw [vacant_concat, Std.ExtTreeMap.getElem?_insert]
    rcases List.mem_append.1 member with among | same
    · have named : key.name ∈ slotNames front := List.mem_map_of_mem (f := (·.1.name)) among
      have apart : other.name ≠ key.name := fun same =>
        (List.nodup_append.1 fine.apart).2.2 _ named _ (by simp [same]) rfl
      simp [apart, ih fine.front among]
    · cases List.mem_singleton.1 same
      simp

theorem mem_declared_vacant (key : Key) :
    key ∈ (vacant slots).declared ↔ key ∈ slots.map Prod.fst := by
  simp only [declared, List.mem_map, Prod.exists, Std.ExtTreeMap.mem_toList_iff_getElem?_eq_some]
  constructor
  · rintro ⟨name, slot, found, rfl⟩
    have named : name ∈ slotNames slots :=
      (mem_vacant slots).1 (Std.ExtTreeMap.mem_iff_isSome_getElem?.2 (by simp [found]))
    obtain ⟨⟨other, role⟩, member, rfl⟩ := List.mem_map.1 named
    rw [slot_vacant fine member] at found
    exact ⟨other, role, member, by rw [← Option.some.inj found]⟩
  · rintro ⟨other, role, member, rfl⟩
    exact ⟨other.name, _, slot_vacant fine member, rfl⟩

omit fine in
theorem nodup_of_names {keys : List Key} (apart : (keys.map Key.name).Nodup) : keys.Nodup :=
  (List.pairwise_map.1 apart).imp fun names => mt (congrArg Key.name) names

theorem declared_vacant : (vacant slots).declared.Perm (slots.map Prod.fst) := by
  refine (List.perm_ext_iff_of_nodup ?_ ?_).2 (mem_declared_vacant fine)
  · have names : (vacant slots).declared.map Key.name = (vacant slots).current.keys := by
      rw [declared, List.map_map, ← Std.ExtTreeMap.map_fst_toList_eq_keys]
      rfl
    exact nodup_of_names (names ▸ Std.ExtTreeMap.nodup_keys)
  · exact nodup_of_names (by rw [List.map_map]; exact fine.apart)

end Opened

end BulkSync.Memory
