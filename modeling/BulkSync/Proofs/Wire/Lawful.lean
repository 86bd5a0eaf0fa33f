import BulkSync.Graph.Codec
import BulkSync.MapReduce.Entry
import BulkSync.Memory.Codec
import BulkSync.Proofs.Wire.Readers

set_option autoImplicit false

namespace BulkSync

namespace Wire

-- The values whose texts, lists and byte strings have lengths that fit in eight bytes.
class Sized (α : Type) where
  Fits : α → Prop

export Sized (Fits)

class Lawful (α : Type) [Wire α] [Sized α] : Prop where
  takes : ∀ a : α, Fits a → Takes Wire.read (Wire.encode a) a
  confined : Confined (Wire.read (α := α))

class Canonical (α : Type) [Wire α] : Prop where
  exactly : Exact (Wire.read (α := α)) Wire.encode

section Numbers

instance : Sized UInt64 := ⟨fun _ => True⟩
instance : Sized Int64 := ⟨fun _ => True⟩
instance : Sized Bool := ⟨fun _ => True⟩

theorem takes_word (n : UInt64) : Takes (readNat 8) (littleEndian 8 n.toNat) n.toNat :=
  takes_readNat n.toNat_lt

instance : Lawful UInt64 where
  takes n _ := by
    have takes := (takes_word n).map Nat.toUInt64
    rw [Nat.toUInt64, UInt64.ofNat_toNat] at takes
    exact takes
  confined := (confined_readNat 8).map _

instance : Lawful Int64 where
  takes i _ := by
    have takes := (takes_word i.toUInt64).map fun n => n.toUInt64.toInt64
    rw [Nat.toUInt64, UInt64.ofNat_toNat, Int64.toInt64_toUInt64] at takes
    exact takes
  confined := (confined_readNat 8).map _

instance : Lawful Bool where
  takes b _ := (takes_readByte _).last (by cases b <;> exact takes_pure _)
  confined := confined_readByte.bind fun b => by
    split
    · exact confined_pure false
    · exact confined_pure true
    · exact confined_throw _

instance : Canonical Int64 where
  exactly bytes i rest read := by
    obtain ⟨n, begun, rfl⟩ := map_eq_ok_reader read
    obtain ⟨rfl, small⟩ := readNat_eq_ok begun
    have same : n.toUInt64.toInt64.toUInt64.toNat = n := by
      rw [UInt64.toUInt64_toInt64]
      exact UInt64.toNat_ofNat_of_lt' small
    show _ = littleEndian 8 n.toUInt64.toInt64.toUInt64.toNat ++ rest
    rw [same]

end Numbers

section Texts

instance : Sized String := ⟨fun s => (Text.Utf8.encode s.toList).length < 2 ^ 64⟩

instance : Lawful String where
  takes s short := (takes_readBytes short).last (by
    simp only [Text.Utf8.decode_encode, String.ofList_toList]
    exact takes_pure s)
  confined := confined_readBytes.bind fun bytes => by
    split
    · exact confined_pure _
    · exact confined_throw _

instance : Canonical String where
  exactly bytes s rest read := by
    obtain ⟨front, middle, begun, ended⟩ := bind_eq_ok_reader read
    obtain ⟨rfl, -⟩ := readBytes_eq_ok begun
    cases decoded : Text.Utf8.decode front with
    | error e =>
      rw [decoded] at ended
      cases ended
    | ok cs =>
      rw [decoded] at ended
      cases ended
      show _ = encodeBytes (Text.Utf8.encode (String.ofList cs).toList) ++ rest
      rw [String.toList_ofList, Text.Utf8.encode_of_decode decoded]

end Texts

section Composite

variable {α β : Type} [Wire α] [Sized α] [Wire β] [Sized β]

instance : Sized (Option α) := ⟨fun o => ∀ a ∈ o, Fits a⟩
instance : Sized (α × β) := ⟨fun p => Fits p.1 ∧ Fits p.2⟩
instance : Sized (List α) := ⟨fun as => as.length < 2 ^ 64 ∧ ∀ a ∈ as, Fits a⟩
instance : Sized (Entry α β) := ⟨fun e => Fits e.key ∧ Fits e.value⟩

section Lawful

variable [Lawful α] [Lawful β]

instance : Lawful (Option α) where
  takes
    | none, _ => (takes_readByte 0).last (takes_pure none)
    | some a, fits => (takes_readByte 1).bind ((Lawful.takes a (fits a rfl)).map some)
  confined := confined_readByte.bind fun b => by
    split
    · exact confined_pure none
    · exact Lawful.confined.map some
    · exact confined_throw _

instance : Lawful (α × β) where
  takes p fits :=
    (Lawful.takes p.1 fits.1).bind ((Lawful.takes p.2 fits.2).last (takes_pure p))
  confined := Lawful.confined.bind fun a => Lawful.confined.bind fun b => confined_pure (a, b)

instance : Lawful (Entry α β) where
  takes e fits :=
    (Lawful.takes e.key fits.1).bind ((Lawful.takes e.value fits.2).last (takes_pure e))
  confined := Lawful.confined.bind fun key =>
    Lawful.confined.bind fun value => confined_pure (Entry.mk key value)

instance : Lawful (List α) where
  takes _ fits :=
    (takes_readNat fits.1).bind (takes_readMany fun a member => Lawful.takes a (fits.2 a member))
  confined := (confined_readNat 8).bind (confined_readMany Lawful.confined)

end Lawful

section Canonical

variable {α β : Type} [Wire α] [Wire β] [Canonical α] [Canonical β]

instance : Canonical (Entry α β) where
  exactly bytes e rest read := by
    obtain ⟨key, middle, first, read⟩ := bind_eq_ok_reader read
    obtain ⟨value, last, second, done⟩ := bind_eq_ok_reader read
    cases done
    rw [Canonical.exactly _ _ _ first, Canonical.exactly _ _ _ second]
    exact (List.append_assoc _ _ rest).symm

instance : Canonical (List α) where
  exactly bytes as rest read := by
    obtain ⟨n, middle, length, read⟩ := bind_eq_ok_reader read
    obtain ⟨cut, -⟩ := readNat_eq_ok length
    obtain ⟨rfl, rfl⟩ := readMany_eq_ok Canonical.exactly read
    rw [cut]
    exact (List.append_assoc _ _ rest).symm

end Canonical

end Composite

end Wire

open Wire

section Graph

instance : Sized VertexId := ⟨fun _ => True⟩

instance : Lawful VertexId where
  takes id _ := (Lawful.takes id.val trivial).map VertexId.mk
  confined := Lawful.confined.map VertexId.mk

-- The list of a map names nothing twice, so no entry of it is overwritten by a later one.
theorem Vertex.propertiesOf_toList {α : Type} (properties : Std.ExtTreeMap String α) :
    propertiesOf properties.toList = properties := by
  have listed : propertiesOf properties.toList = .ofList properties.toList := by
    rw [Std.ExtTreeMap.ofList_eq_insertMany_empty, Std.ExtTreeMap.insertMany_list_eq_foldl]
    rfl
  rw [listed]
  refine Std.ExtTreeMap.ext_getElem? fun name => ?_
  cases found : properties[name]? with
  | some value =>
    have member := Std.ExtTreeMap.mem_toList_iff_getElem?_eq_some.mpr found
    exact Std.ExtTreeMap.getElem?_ofList_of_mem Std.ReflCmp.compare_self
      Std.ExtTreeMap.distinct_keys_toList member
  | none =>
    refine Std.ExtTreeMap.getElem?_ofList_of_contains_eq_false ?_
    rw [Std.ExtTreeMap.map_fst_toList_eq_keys]
    simpa using found

end Graph

namespace Memory

instance : Sized Kind := ⟨fun _ => True⟩

instance : Sized Value where
  Fits
    | .blob bytes => bytes.length < 2 ^ 64
    | _ => True

instance : Sized Key := ⟨fun key => Fits key.name⟩

instance : Lawful Kind where
  takes k _ := by
    cases k <;> exact (takes_readVariant (by decide) (by decide)).last (takes_pure _)
  confined := (confined_readVariant 3).bind fun index => by
    split <;> exact confined_pure _

instance : Lawful Value where
  takes v fits := (Lawful.takes v.kind trivial).bind (match v with
    | .integer i => (Lawful.takes i trivial).map Value.integer
    | .boolean b => (Lawful.takes b trivial).map Value.boolean
    | .blob bytes => (takes_readBytes fits).map Value.blob)
  confined := Lawful.confined.bind fun kind => by
    cases kind with
    | integer => exact Lawful.confined.map Value.integer
    | boolean => exact Lawful.confined.map Value.boolean
    | blob => exact confined_readBytes.map Value.blob

instance : Lawful Key where
  takes key fits :=
    (Lawful.takes key.name fits).bind ((Lawful.takes key.kind trivial).last (takes_pure key))
  confined := Lawful.confined.bind fun name =>
    Lawful.confined.bind fun kind => confined_pure (Key.mk name kind)

end Memory

end BulkSync
