import BulkSync.MapReduce.Groups
import Std.Data.ExtTreeSet

set_option autoImplicit false

namespace BulkSync

section Ascending

variable {κ : Type} [Ord κ] [Std.TransOrd κ]

-- The distinct keys, in order.
def ascending (keys : List κ) : List κ := (Std.ExtTreeSet.ofList keys).toList

theorem ordered_ascending (keys : List κ) :
    (ascending keys).Pairwise fun a b => compare a b = .lt :=
  Std.ExtTreeSet.ordered_toList

theorem mem_ascending [Std.LawfulEqOrd κ] {keys : List κ} {key : κ} :
    key ∈ ascending keys ↔ key ∈ keys := by
  classical
  simp [ascending, Std.ExtTreeSet.mem_toList, Std.ExtTreeSet.mem_ofList]

theorem nodup_of_ordered {keys : List κ} (ordered : keys.Pairwise fun a b => compare a b = .lt) :
    keys.Nodup :=
  ordered.imp fun less same => by simp [same] at less

theorem eq_of_ordered_by {α : Type} (key : α → κ) {xs ys : List α}
    (left : xs.Pairwise fun a b => compare (key a) (key b) = .lt)
    (right : ys.Pairwise fun a b => compare (key a) (key b) = .lt)
    (same : ∀ a, a ∈ xs ↔ a ∈ ys) : xs = ys := by
  have distinct {zs : List α} (ordered : zs.Pairwise fun a b => compare (key a) (key b) = .lt) :
      zs.Nodup := ordered.imp fun less same => by simp [same] at less
  have perm : xs.Perm ys := (List.perm_ext_iff_of_nodup (distinct left) (distinct right)).2 same
  have apart (a b : α) (_ : a ∈ xs) (_ : b ∈ ys) (less : compare (key a) (key b) = .lt)
      (more : compare (key b) (key a) = .lt) : a = b :=
    absurd more (Std.OrientedCmp.not_lt_of_lt less)
  exact List.Perm.eq_of_pairwise apart left right perm

theorem eq_of_ordered {xs ys : List κ} (left : xs.Pairwise fun a b => compare a b = .lt)
    (right : ys.Pairwise fun a b => compare a b = .lt) (same : ∀ key, key ∈ xs ↔ key ∈ ys) :
    xs = ys :=
  eq_of_ordered_by id left right same

end Ascending

namespace Groups

variable {κ ν : Type} [Ord κ] [Std.TransOrd κ]

def Full (groups : Groups κ ν) : Prop :=
  ∀ (key : κ) (values : List ν), groups[key]? = some values → values ≠ []

theorem valuesOf_empty (key : κ) : valuesOf (∅ : Groups κ ν) key = [] := by
  simp [valuesOf]

theorem valuesOf_of_group {groups : Groups κ ν} {key : κ} {values : List ν}
    (group : groups[key]? = some values) : groups.valuesOf key = values := by
  simp [valuesOf, group]

theorem getElem?_of_full {groups : Groups κ ν} (full : Full groups) (key : κ) :
    groups[key]? = if groups.valuesOf key = [] then none else some (groups.valuesOf key) := by
  cases found : groups[key]? with
  | none => simp [valuesOf, found]
  | some values => simp [valuesOf, found, full key values found]

theorem mem_iff_of_full {groups : Groups κ ν} (full : Full groups) (key : κ) :
    key ∈ groups ↔ groups.valuesOf key ≠ [] := by
  rw [Std.ExtTreeMap.mem_iff_isSome_getElem?, getElem?_of_full full]
  split <;> simp_all

theorem ext_of_full [Std.LawfulEqOrd κ] {a b : Groups κ ν} (left : Full a) (right : Full b)
    (same : ∀ key, a.valuesOf key = b.valuesOf key) : a = b := by
  apply Std.ExtTreeMap.ext_getElem?
  intro key
  rw [getElem?_of_full left, getElem?_of_full right, same]

section Alter

variable (change : List ν → List ν) {groups : Groups κ ν} {key : κ}

theorem valuesOf_alter (other : κ) :
    valuesOf (groups.alter key fun values => some (change (values.getD []))) other =
      if compare key other = .eq then change (groups.valuesOf other)
      else groups.valuesOf other := by
  by_cases same : compare key other = .eq
  · simp [valuesOf, Std.ExtTreeMap.getElem?_alter, same, Std.ExtTreeMap.getElem?_congr same]
  · simp [valuesOf, Std.ExtTreeMap.getElem?_alter, same]

theorem full_alter (full : Full groups) (changed : change (groups.valuesOf key) ≠ []) :
    Full (groups.alter key fun values => some (change (values.getD []))) := by
  intro other values found
  rw [Std.ExtTreeMap.getElem?_alter] at found
  split at found
  next =>
    cases found
    exact changed
  next => exact full other values found

end Alter

theorem full_empty : Full (∅ : Groups κ ν) := by
  intro key values found
  simp at found

theorem full_ofEntries (entries : List (Entry κ ν)) : Full (ofEntries entries) := by
  induction entries with
  | nil => exact full_empty
  | cons e rest ih => exact full_alter (e.value :: ·) ih (List.cons_ne_nil _ _)

section Append

def receive (groups : Groups κ ν) (p : κ × List ν) : Groups κ ν :=
  groups.alter p.1 fun values => some (values.getD [] ++ p.2)

theorem append_eq_foldl (a b : Groups κ ν) : a.append b = b.toList.foldl receive a :=
  Std.ExtTreeMap.foldl_eq_foldl_toList

theorem valuesOf_foldl_receive (pairs : List (κ × List ν)) (groups : Groups κ ν) (key : κ) :
    (pairs.foldl receive groups).valuesOf key =
      groups.valuesOf key ++ (pairs.filter fun p => compare p.1 key = .eq).flatMap Prod.snd := by
  induction pairs generalizing groups with
  | nil => simp
  | cons p rest ih =>
    rw [List.foldl_cons, ih, receive, valuesOf_alter (· ++ p.2)]
    by_cases same : compare p.1 key = .eq <;> simp [same]

theorem full_foldl_receive {pairs : List (κ × List ν)} (filled : ∀ p ∈ pairs, p.2 ≠ [])
    {groups : Groups κ ν} (full : Full groups) : Full (pairs.foldl receive groups) := by
  induction pairs generalizing groups with
  | nil => exact full
  | cons p rest ih =>
    have first : Full (groups.receive p) := full_alter (· ++ p.2) full
      (List.append_ne_nil_of_right_ne_nil _ (filled p List.mem_cons_self))
    exact ih (fun other member => filled other (List.mem_cons_of_mem p member)) first

variable [Std.LawfulEqOrd κ]

theorem filter_toList (groups : Groups κ ν) (key : κ) :
    (groups.toList.filter fun p => compare p.1 key = .eq) =
      (groups[key]?.map fun values => (key, values)).toList := by
  cases found : groups[key]? with
  | none =>
    rw [Option.map_none, Option.toList_none, List.filter_eq_nil_iff]
    rintro ⟨other, values⟩ member same
    have held := Std.ExtTreeMap.mem_toList_iff_getElem?_eq_some.1 member
    obtain rfl : other = key := by simpa using same
    simp [found] at held
  | some values =>
    obtain ⟨front, back, cut⟩ :=
      List.append_of_mem (Std.ExtTreeMap.mem_toList_iff_getElem?_eq_some.2 found)
    -- No other pair goes by the key, on either side of the one that does.
    have distinct := groups.distinct_keys_toList
    rw [cut, List.pairwise_append, List.pairwise_cons] at distinct
    obtain ⟨-, ⟨behind, -⟩, before⟩ := distinct
    have first : (front.filter fun p => compare p.1 key = .eq) = [] := by
      rw [List.filter_eq_nil_iff]
      intro p member
      simpa using before p member (key, values) List.mem_cons_self
    have last : (back.filter fun p => compare p.1 key = .eq) = [] := by
      rw [List.filter_eq_nil_iff]
      intro p member same
      exact behind p member (Std.OrientedCmp.eq_symm (of_decide_eq_true same))
    simp [cut, first, last]

theorem filled_toList {groups : Groups κ ν} (full : Full groups) :
    ∀ p ∈ groups.toList, p.2 ≠ [] := by
  rintro ⟨key, values⟩ member
  exact full key values (Std.ExtTreeMap.mem_toList_iff_getElem?_eq_some.1 member)

theorem valuesOf_append (a b : Groups κ ν) (key : κ) :
    (a.append b).valuesOf key = a.valuesOf key ++ b.valuesOf key := by
  rw [append_eq_foldl, valuesOf_foldl_receive, filter_toList]
  cases found : b[key]? <;> simp [valuesOf, found]

theorem full_append {a b : Groups κ ν} (left : Full a) (right : Full b) : Full (a.append b) := by
  rw [append_eq_foldl]
  exact full_foldl_receive (filled_toList right) left

end Append

section Shuffle

variable [Std.LawfulEqOrd κ]

theorem valuesOf_foldl_append (parts : List (Groups κ ν)) (groups : Groups κ ν) (key : κ) :
    (parts.foldl append groups).valuesOf key =
      groups.valuesOf key ++ parts.flatMap fun part => part.valuesOf key := by
  induction parts generalizing groups with
  | nil => simp
  | cons part rest ih => simp [ih, valuesOf_append]

theorem valuesOf_shuffle (parts : List (Groups κ ν)) (key : κ) :
    (shuffle parts).valuesOf key = parts.flatMap fun part => part.valuesOf key := by
  rw [shuffle, valuesOf_foldl_append, valuesOf_empty, List.nil_append]

theorem full_foldl_append {parts : List (Groups κ ν)} (filled : ∀ part ∈ parts, Full part)
    {groups : Groups κ ν} (full : Full groups) : Full (parts.foldl append groups) := by
  induction parts generalizing groups with
  | nil => exact full
  | cons part rest ih =>
    exact ih (fun other member => filled other (List.mem_cons_of_mem part member))
      (full_append full (filled part List.mem_cons_self))

theorem full_shuffle {parts : List (Groups κ ν)} (filled : ∀ part ∈ parts, Full part) :
    Full (shuffle parts) :=
  full_foldl_append filled full_empty

theorem shuffle_ofEntries (parts : List (List (Entry κ ν))) :
    shuffle (parts.map ofEntries) = ofEntries parts.flatten := by
  apply ext_of_full
  case left =>
    refine full_shuffle fun part member => ?_
    obtain ⟨entries, -, rfl⟩ := List.mem_map.1 member
    exact full_ofEntries entries
  case right => exact full_ofEntries _
  case same =>
    intro key
    rw [valuesOf_shuffle, valuesOf_ofEntries, List.filter_flatten, List.map_flatten,
      List.map_map, List.flatMap_map, List.flatMap_def]
    congr 2
    funext entries
    exact valuesOf_ofEntries entries key

end Shuffle

section Keys

variable [Std.LawfulEqOrd κ]

theorem toList_eq_map_keys (groups : Groups κ ν) :
    groups.toList = groups.keys.map fun key => (key, groups.valuesOf key) := by
  rw [← Std.ExtTreeMap.map_fst_toList_eq_keys, List.map_map]
  refine (List.map_id _).symm.trans (List.map_congr_left ?_)
  rintro ⟨key, values⟩ member
  simp [valuesOf, Std.ExtTreeMap.mem_toList_iff_getElem?_eq_some.1 member]

omit [Std.LawfulEqOrd κ] in
theorem values_eq_map_toList (groups : Groups κ ν) :
    groups.values = groups.toList.map Prod.snd := by
  have folded : groups.values = groups.foldr (fun _ values rest => values :: rest) [] := rfl
  rw [folded, Std.ExtTreeMap.foldr_eq_foldr_toList, List.map_eq_foldr]

theorem keys_eq_of_ordered {groups : Groups κ ν} {keys : List κ}
    (ordered : keys.Pairwise fun a b => compare a b = .lt)
    (same : ∀ key, key ∈ groups ↔ key ∈ keys) : groups.keys = keys :=
  eq_of_ordered Std.ExtTreeMap.ordered_keys ordered fun key => by
    rw [Std.ExtTreeMap.mem_keys, same]

theorem mem_ofEntries {entries : List (Entry κ ν)} {key : κ} :
    key ∈ ofEntries entries ↔ key ∈ entries.map Entry.key := by
  rw [mem_iff_of_full (full_ofEntries entries), valuesOf_ofEntries]
  simp [and_comm]

theorem toList_ofEntries (entries : List (Entry κ ν)) :
    (ofEntries entries).toList = (ascending (entries.map Entry.key)).map fun key =>
      (key, (entries.filter fun e => compare e.key key = .eq).map Entry.value) := by
  have keys : (ofEntries entries).keys = ascending (entries.map Entry.key) :=
    keys_eq_of_ordered (ordered_ascending _) fun key => by rw [mem_ascending, mem_ofEntries]
  rw [toList_eq_map_keys, keys]
  simp only [valuesOf_ofEntries]

end Keys

end Groups

end BulkSync
