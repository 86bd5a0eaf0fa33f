import BulkSync.Algorithms.GroupCount
import BulkSync.Algorithms.PageRank
import Mathlib.Algebra.Group.Nat.Defs

set_option autoImplicit false

namespace BulkSync

namespace Config

variable {c d : Config} {name : String}

section Lookup

theorem get?_set_self (c : Config) (name : String) (value : Scalar) :
    (c.set name value).get? name = some value :=
  Std.ExtTreeMap.getElem?_insert_self

theorem get?_set_of_ne {other : String} (apart : name ≠ other) (c : Config) (value : Scalar) :
    (c.set name value).get? other = c.get? other := by
  simp [get?, set, Std.ExtTreeMap.getElem?_insert, apart]

theorem get?_setOption_self (c : Config) (name : String) (value : Option Scalar) :
    (c.setOption name value).get? name = value := by
  cases value with
  | some value => exact c.get?_set_self name value
  | none => exact Std.ExtTreeMap.getElem?_erase_self

theorem get?_setOption_of_ne {other : String} (apart : name ≠ other) (c : Config)
    (value : Option Scalar) : (c.setOption name value).get? other = c.get? other := by
  cases value with
  | some value => exact get?_set_of_ne apart c value
  | none => simp [get?, setOption, remove, Std.ExtTreeMap.getElem?_erase, apart]

theorem getAs_congr {α : Type} (same : c.get? name = d.get? name) (kind : String)
    (view : Scalar → Option α) : c.getAs name kind view = d.getAs name kind view := by
  simp only [getAs, same]

end Lookup

section Kept

theorem getText_kept (value : Option String) (kept : c.get? name = value.map .text) :
    c.getText name = .ok value := by
  cases value <;> simp [getText, getAs, kept, Scalar.text?]

theorem getFloat_kept {x : Float} (kept : c.get? name = some (.float x)) :
    c.getFloat name = .ok (some x) := by
  simp [getFloat, getAs, kept, Scalar.float?]

-- As an integer of the same bits the count is not negative.
def Fits (n : UInt64) : Prop := n.toNat < 2 ^ 63

theorem toInt64_neg_iff (n : UInt64) : n.toInt64 < 0 ↔ ¬Fits n := by
  rw [Int64.lt_iff_toBitVec_slt]
  show n.toBitVec.slt 0#64 = true ↔ _
  rw [BitVec.slt_zero_iff_msb_cond]
  simp [BitVec.msb_eq_decide, Fits]

def Refuses {α : Type} (found : Except Error α) : Prop :=
  ∃ name reason, found = .error (.invalidParameter name reason)

theorem Refuses.bind {α β : Type} {found : Except Error α} (refuses : Refuses found)
    (next : α → Except Error β) : Refuses (found >>= next) := by
  obtain ⟨name, reason, rfl⟩ := refuses
  exact ⟨name, reason, rfl⟩

theorem Refuses.orElse {α : Type} {found : Except Error (Option α)} (refuses : Refuses found)
    {default : α} : Refuses (Config.orElse default found) := by
  obtain ⟨name, reason, rfl⟩ := refuses
  exact ⟨name, reason, rfl⟩

theorem getCount_kept (value : Option UInt64)
    (kept : c.get? name = value.map fun n => .integer n.toInt64) :
    ((∀ n ∈ value, Fits n) ∧ c.getCount name = .ok value) ∨
      (¬∀ n ∈ value, Fits n) ∧ Refuses (c.getCount name) := by
  cases value with
  | none =>
    have found : c.getInteger name = .ok none := by simp [getInteger, getAs, kept]
    refine .inl ⟨by simp, ?_⟩
    simp only [getCount, found]
    rfl
  | some n =>
    have found : c.getInteger name = .ok (some n.toInt64) := by
      simp [getInteger, getAs, kept, Scalar.integer?]
    by_cases fits : Fits n
    · have whole : ¬n.toInt64 < 0 := fun negative => (toInt64_neg_iff n).1 negative fits
      refine .inl ⟨by simpa using fits, ?_⟩
      simp only [getCount, found]
      show (if n.toInt64 < 0 then _ else _) = _
      rw [if_neg whole, UInt64.toUInt64_toInt64]
      rfl
    · have negative : n.toInt64 < 0 := (toInt64_neg_iff n).2 fits
      refine .inr ⟨by simpa using fits, ?_⟩
      simp only [getCount, found]
      show Refuses (if n.toInt64 < 0 then _ else _)
      rw [if_pos negative]
      exact ⟨_, _, rfl⟩

end Kept

theorem checkImplementation_kept {found expected : String}
    (kept : c.get? implementationKey = some (.text found)) :
    (found = expected → c.checkImplementation expected = .ok ()) ∧
      (found ≠ expected → Refuses (c.checkImplementation expected)) := by
  have text : c.getText implementationKey = .ok (some found) := getText_kept (some found) kept
  have checked : c.checkImplementation expected = if found ≠ expected then
      .error (.invalidParameter implementationKey
        s!"record was stored by `{found}`, not `{expected}`") else .ok () := by
    simp only [checkImplementation, text]
    rfl
  refine ⟨fun same => by simp [checked, same], fun other => ?_⟩
  rw [checked, if_pos other]
  exact ⟨_, _, rfl⟩

end Config

theorem PageRank.validate_of_build {p : PageRank} {alpha vertexCount : Option Float}
    {totalIterations : Option UInt64}
    (built : build alpha totalIterations vertexCount = .ok p) : validate p = .ok p := by
  have same {q : PageRank} (valid : validate q = .ok p) : q = p := by
    unfold validate at valid
    repeat' split at valid
    all_goals cases valid
    rfl
  have unchanged := same built
  rw [← unchanged] at built ⊢
  exact built

inductive Keeper
  | settings
  | count
  | groupCount
  | pageRank
  | ranks
  deriving DecidableEq

namespace Keeper

@[reducible]
def Carrier : Keeper → Type
  | settings => Settings
  | count => Count
  | groupCount => GroupCount
  | pageRank => PageRank
  | ranks => Ranks

@[reducible]
def persist : (k : Keeper) → Persist k.Carrier
  | settings => inferInstance
  | count => inferInstance
  | groupCount => inferInstance
  | pageRank => inferInstance
  | ranks => inferInstance

def store (k : Keeper) : k.Carrier → Config → Config := k.persist.store
def load (k : Keeper) : Config → Except Config.Error k.Carrier := k.persist.load

-- The name under which a record says whose it is; settings do not ask.
def implementation : Keeper → Option String
  | settings => none
  | count => some Count.implementation
  | groupCount => some GroupCount.implementation
  | pageRank => some PageRank.implementation
  | ranks => some Ranks.implementation

def ownNames : Keeper → List String
  | settings => [Settings.workersKey, Settings.partitionsKey, Settings.maxSuperstepsKey]
  | count => [Count.memoryKeyName, Count.propertyName]
  | groupCount => [GroupCount.memoryKeyName, GroupCount.propertyName]
  | pageRank => [PageRank.alphaName, PageRank.totalIterationsName, PageRank.vertexCountName]
  | ranks => [Ranks.memoryKeyName]

def names (k : Keeper) : List String :=
  (k.implementation.map fun _ => Config.implementationKey).toList ++ k.ownNames

def image : (k : Keeper) → k.Carrier → List (String × Option Scalar)
  | settings, s =>
    let put (value : Option UInt64) : Option Scalar := value.map fun n => .integer n.toInt64
    [(Settings.workersKey, put s.workers), (Settings.partitionsKey, put s.partitions),
      (Settings.maxSuperstepsKey, put s.maxSupersteps)]
  | count, c =>
    [(Count.memoryKeyName, some (.text c.memoryKey)),
      (Count.propertyName, c.property.map .text)]
  | groupCount, c =>
    [(GroupCount.memoryKeyName, some (.text c.memoryKey)),
      (GroupCount.propertyName, some (.text c.property))]
  | pageRank, p =>
    [(PageRank.alphaName, some (.float p.alpha)),
      (PageRank.totalIterationsName, some (.integer p.totalIterations.toInt64)),
      (PageRank.vertexCountName, some (.float p.vertexCount))]
  | ranks, r => [(Ranks.memoryKeyName, some (.text r.memoryKey))]

def counts : (k : Keeper) → k.Carrier → List UInt64
  | settings, s => s.workers.toList ++ s.partitions.toList ++ s.maxSupersteps.toList
  | pageRank, p => [p.totalIterations]
  | count, _ | groupCount, _ | ranks, _ => []

-- Only the parameters of a program are checked when they are made.
def Accepted : (k : Keeper) → k.Carrier → Prop
  | pageRank, p => ∃ alpha totalIterations vertexCount,
      PageRank.build alpha totalIterations vertexCount = .ok p
  | settings, _ | count, _ | groupCount, _ | ranks, _ => True

def Divides : (k : Keeper) → k.Carrier → Prop
  | settings, s => s.partitions ≠ some 0
  | count, _ | groupCount, _ | pageRank, _ | ranks, _ => True

def Fits (k : Keeper) (x : k.Carrier) : Prop := (∀ n ∈ k.counts x, Config.Fits n) ∧ k.Divides x

section Laws

variable {c d : Config} {k : Keeper}

theorem get?_store (k : Keeper) (x : k.Carrier) (r : Config) {name : String}
    (other : name ∉ k.names) : (k.store x r).get? name = r.get? name := by
  have apart : ∀ own ∈ k.names, own ≠ name := fun own known same => other (same ▸ known)
  cases k <;>
    simp only [names, ownNames, implementation, Option.map_some, Option.map_none,
      Option.toList_some, Option.toList_none, List.cons_append, List.nil_append,
      List.forall_mem_cons] at apart <;>
    simp [store, Persist.store, Config.get?_set_of_ne, Config.get?_setOption_of_ne, apart]

theorem get?_image {x : k.Carrier} (r : Config) {name : String} {value : Option Scalar}
    (among : (name, value) ∈ k.image x) : (k.store x r).get? name = value := by
  have all : ∀ entry ∈ k.image x, (k.store x r).get? entry.1 = entry.2 := by
    cases k <;>
      simp (disch := decide) [image, store, Persist.store, Config.get?_set_self,
        Config.get?_set_of_ne, Config.get?_setOption_self, Config.get?_setOption_of_ne]
  exact all _ among

theorem load_congr (same : ∀ name ∈ k.names, c.get? name = d.get? name) : k.load c = k.load d := by
  have texts {name : String} (known : name ∈ k.names) : c.getText name = d.getText name :=
    Config.getAs_congr (same name known) _ _
  have floats {name : String} (known : name ∈ k.names) : c.getFloat name = d.getFloat name :=
    Config.getAs_congr (same name known) _ _
  have numbers {name : String} (known : name ∈ k.names) : c.getCount name = d.getCount name := by
    have integers : c.getInteger name = d.getInteger name :=
      Config.getAs_congr (same name known) _ _
    simp only [Config.getCount, integers]
  cases k <;>
    simp (disch := decide) only [load, Persist.load, Config.checkImplementation, texts, floats,
      numbers]

theorem implementation_store {x : k.Carrier} (r : Config) {i : String}
    (named : k.implementation = some i) :
    (k.store x r).get? Config.implementationKey = some (.text i) := by
  cases k <;> cases named <;>
    simp (disch := decide) only [store, Persist.store, Config.get?_set_self, Config.get?_set_of_ne,
      Config.get?_setOption_of_ne]

-- Whoever has a name asks for it before anything else.
theorem load_eq_bind {i : String} (named : k.implementation = some i) :
    ∃ next : Config → Unit → Except Config.Error k.Carrier,
      ∀ c, k.load c = c.checkImplementation i >>= next c := by
  cases k <;> cases named <;> exact ⟨fun c _ => _, fun c => rfl⟩

-- The record gives the parameters back, or it refuses them for a count that does not fit.
def Decided (k : Keeper) (x : k.Carrier) (found : Except Config.Error k.Carrier) : Prop :=
  (k.Fits x ∧ found = .ok x) ∨ (¬k.Fits x ∧ Config.Refuses found)

theorem fits_settings_iff (s : Settings) :
    settings.Fits s ↔ ((∀ n ∈ s.workers, Config.Fits n) ∧ (∀ n ∈ s.partitions, Config.Fits n) ∧
      ∀ n ∈ s.maxSupersteps, Config.Fits n) ∧ s.partitions ≠ some 0 := by
  simp [Fits, counts, Divides, or_imp, forall_and]

theorem decided_settings (s : Settings) (r : Config) :
    settings.Decided s (settings.load (settings.store s r)) := by
  have kept {name : String} {value : Option Scalar} := @get?_image settings s r name value
  rw [Decided, fits_settings_iff]
  -- The counts are read one after the other, and the first that does not fit is reported.
  obtain ⟨first, workers⟩ | ⟨large, refused⟩ := Config.getCount_kept s.workers (kept (.head _))
  case inr => exact .inr ⟨fun all => large all.1.1, refused.bind _⟩
  obtain ⟨second, partitions⟩ | ⟨large, refused⟩ :=
    Config.getCount_kept s.partitions (kept (.tail _ (.head _)))
  case inr =>
    refine .inr ⟨fun all => large all.1.2.1, ?_⟩
    simp only [load, Persist.load, workers]
    exact refused.bind _
  obtain ⟨third, limit⟩ | ⟨large, refused⟩ :=
    Config.getCount_kept s.maxSupersteps (kept (.tail _ (.tail _ (.head _))))
  case inr =>
    refine .inr ⟨fun all => large all.1.2.2, ?_⟩
    simp only [load, Persist.load, workers, partitions]
    exact refused.bind _
  have loaded : settings.load (settings.store s r) =
      if s.partitions = some 0 then .error (Settings.noPartition Settings.partitionsKey)
      else .ok s := by
    simp only [load, Persist.load, workers, partitions, limit]
    show (if s.partitions = some 0 then _ else _) = _
    split <;> rfl
  by_cases none : s.partitions = some 0
  · exact .inr ⟨fun all => all.2 none, _, _, by rw [loaded, if_pos none]; rfl⟩
  · exact .inl ⟨⟨⟨first, second, third⟩, none⟩, by rw [loaded, if_neg none]⟩

theorem checkImplementation_store {x : k.Carrier} (r : Config) {i : String}
    (named : k.implementation = some i) : (k.store x r).checkImplementation i = .ok () :=
  (Config.checkImplementation_kept (implementation_store r named)).1 rfl

theorem decided_pageRank {p : PageRank} (accepted : pageRank.Accepted p) (r : Config) :
    pageRank.Decided p (pageRank.load (pageRank.store p r)) := by
  have kept {name : String} {value : Option Scalar} := @get?_image pageRank p r name value
  have named := checkImplementation_store (k := pageRank) (x := p) r rfl
  obtain ⟨alpha, totalIterations, vertexCount, built⟩ := accepted
  have valid := PageRank.validate_of_build built
  have damping := Config.getFloat_kept (kept (.head _))
  have scale := Config.getFloat_kept (kept (.tail _ (.tail _ (.head _))))
  obtain ⟨fits, total⟩ | ⟨large, refused⟩ :=
    Config.getCount_kept (some p.totalIterations) (kept (.tail _ (.head _)))
  · refine .inl ⟨by simpa [Fits, counts, Divides] using fits, ?_⟩
    simp only [load, Persist.load, named, damping, total, scale]
    exact valid
  · refine .inr ⟨by simpa [Fits, counts, Divides] using large, ?_⟩
    simp only [load, Persist.load, named, damping]
    exact refused.orElse.bind _

theorem decided (k : Keeper) {x : k.Carrier} (accepted : k.Accepted x) (r : Config) :
    k.Decided x (k.load (k.store x r)) := by
  have kept {name : String} {value : Option Scalar} := @get?_image k x r name value
  have named {i : String} := @checkImplementation_store k x r i
  cases k with
  | settings => exact decided_settings x r
  | pageRank => exact decided_pageRank accepted r
  | count =>
    have key := Config.getText_kept (some x.memoryKey) (kept (.head _))
    have property := Config.getText_kept x.property (kept (.tail _ (.head _)))
    refine .inl ⟨by simp [Fits, counts, Divides], ?_⟩
    simp only [load, Persist.load, named rfl, key, property]
    rfl
  | groupCount =>
    have key := Config.getText_kept (some x.memoryKey) (kept (.head _))
    have property := Config.getText_kept (some x.property) (kept (.tail _ (.head _)))
    refine .inl ⟨by simp [Fits, counts, Divides], ?_⟩
    simp only [load, Persist.load, named rfl, key, property]
    rfl
  | ranks =>
    have key := Config.getText_kept (some x.memoryKey) (kept (.head _))
    refine .inl ⟨by simp [Fits, counts, Divides], ?_⟩
    simp only [load, Persist.load, named rfl, key]
    rfl

theorem implementation_injective {other : Keeper}
    (same : k.implementation = other.implementation) : k = other := by
  cases k <;> cases other <;> first | rfl | exact absurd same (by decide)

structure Recovers (k : Keeper) (x : k.Carrier) (c : Config) : Prop where
  load_iff : k.load c = .ok x ↔ k.Fits x
  refused : ¬k.Fits x → Config.Refuses (k.load c)
  foreign : k.implementation.isSome → ∀ other : Keeper, other ≠ k → other.implementation.isSome →
    Config.Refuses (other.load c)

theorem recovers_of_agree {x : k.Carrier} (accepted : k.Accepted x) {r : Config}
    (agree : ∀ name ∈ k.names, c.get? name = (k.store x r).get? name) : k.Recovers x c := by
  have same : k.load c = k.load (k.store x r) := load_congr agree
  constructor
  case load_iff =>
    rw [same]
    obtain ⟨fits, loaded⟩ | ⟨large, name, reason, refused⟩ := decided k accepted r
    · exact ⟨fun _ => fits, fun _ => loaded⟩
    · rw [refused]
      exact ⟨by simp, fun fits => absurd fits large⟩
  case refused =>
    intro large
    rw [same]
    exact (decided k accepted r).elim (fun kept => absurd kept.1 large) And.right
  case foreign =>
    intro named other apart asks
    obtain ⟨own, named⟩ := Option.isSome_iff_exists.1 named
    obtain ⟨expected, asks⟩ := Option.isSome_iff_exists.1 asks
    obtain ⟨next, split⟩ := load_eq_bind asks
    have known : Config.implementationKey ∈ k.names := by simp [names, named]
    have text := (agree _ known).trans (implementation_store r named)
    have different : own ≠ expected := by
      rintro rfl
      exact apart (implementation_injective (asks.trans named.symm))
    rw [split]
    exact ((Config.checkImplementation_kept text).2 different).bind _

theorem not_mem_names_settings {name : String} (other : k ≠ settings) (known : name ∈ k.names) :
    name ∉ settings.names := by
  revert name
  cases k with
  | settings => exact absurd rfl other
  | count | groupCount | pageRank | ranks => decide

theorem recovers_store (k : Keeper) {x : k.Carrier} (accepted : k.Accepted x) (r : Config) :
    k.Recovers x (k.store x r) ∧
      (∀ name, name ∉ k.names → (k.store x r).get? name = r.get? name) ∧
      Config.implementationKey ∉ settings.names ∧
      (k ≠ settings → ∀ s : Settings,
        ∀ c ∈ [settings.store s (k.store x r), k.store x (settings.store s r)],
          k.Recovers x c ∧ settings.Recovers s c) := by
  refine ⟨recovers_of_agree accepted fun _ _ => rfl, fun name => get?_store k x r, by decide, ?_⟩
  intro other s c member
  have apart {name : String} (known : name ∈ k.names) : name ∉ settings.names :=
    not_mem_names_settings other known
  have order : c = settings.store s (k.store x r) ∨ c = k.store x (settings.store s r) := by
    simpa using member
  rcases order with rfl | rfl
  · exact ⟨recovers_of_agree accepted fun name known => get?_store settings s _ (apart known),
      recovers_of_agree trivial fun _ _ => rfl⟩
  · exact ⟨recovers_of_agree accepted fun _ _ => rfl,
      recovers_of_agree trivial fun name known =>
        get?_store k x _ fun among => apart among known⟩

-- A program and settings beside each other, over entries that neither would take.
theorem recovers_store_pageRank :
    let stale : Config :=
      (Config.empty.set PageRank.alphaName (.text "high")).set Settings.workersKey (.integer (-1))
    let p : PageRank := ⟨0.85, 3, 2.0⟩
    let s : Settings := ⟨none, some 2, none⟩
    let both := settings.store s (pageRank.store p stale)
    pageRank.Accepted p ∧ pageRank.load both = .ok p ∧ settings.load both = .ok s ∧
      Config.Refuses (count.load both) := by
  intro stale p s both
  have accepted : pageRank.Accepted p := ⟨some 0.85, some 3, some 2.0, rfl⟩
  obtain ⟨-, -, -, beside⟩ := recovers_store pageRank accepted stale
  obtain ⟨program, kept⟩ := beside (by decide) s both (.head _)
  refine ⟨accepted, program.load_iff.2 ?_, kept.load_iff.2 ?_,
    program.foreign rfl count (by decide) rfl⟩
  · simp [Fits, counts, Divides, Config.Fits, p]
  · simp [Fits, counts, Divides, Config.Fits, s]

end Laws

end Keeper
end BulkSync
