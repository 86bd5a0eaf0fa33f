import BulkSync.Proofs.Wire.Lawful
import Mathlib

set_option autoImplicit false

-- What is known of the bits of floats comes with no smaller part of the library.

namespace BulkSync

open Wire

section Carried

-- Values that are written as other ones, and read by way of them.
structure Carried {α β : Type} [Wire α] [Wire β] (down : α → β) (up : β → α) : Prop where
  inverse : ∀ a, up (down a) = a
  encode : ∀ a, Wire.encode a = Wire.encode (down a)
  read : Wire.read (α := α) = up <$> Wire.read

theorem readMany_map {α β : Type} (one : Reader β) (up : β → α) (n : Nat) :
    readMany (up <$> one) n = List.map up <$> readMany one n := by
  induction n with
  | zero => simp [readMany]
  | succ n ih => simp [readMany, ih]

def Entry.mapValue {κ α β : Type} (f : α → β) (e : Entry κ α) : Entry κ β := ⟨e.key, f e.value⟩

variable {κ α β : Type} [Wire κ] [Wire α] [Wire β] {down : α → β} {up : β → α}
  (carried : Carried down up)
include carried

theorem Carried.lawful [Sized α] [Sized β] [Lawful β] (fits : ∀ a, Fits a → Fits (down a)) :
    Lawful α where
  takes a sized := by
    have takes := (Lawful.takes (down a) (fits a sized)).map up
    rwa [← carried.read, ← carried.encode, carried.inverse] at takes
  confined := carried.read ▸ Lawful.confined.map up

theorem Carried.pair :
    Carried (fun p : κ × α => (p.1, down p.2)) fun p : κ × β => (p.1, up p.2) where
  inverse p := Prod.ext rfl (carried.inverse p.2)
  encode p := congrArg (Wire.encode p.1 ++ ·) (carried.encode p.2)
  read := by
    show (do let k ← Wire.read; let a ← Wire.read; return (k, a)) =
      (fun p : κ × β => (p.1, up p.2)) <$> (do let k ← Wire.read; let b ← Wire.read; return (k, b))
    rw [carried.read]
    simp

theorem Carried.entry : Carried (Entry.mapValue (κ := κ) down) (Entry.mapValue up) where
  inverse e := congrArg (Entry.mk e.key) (carried.inverse e.value)
  encode e := congrArg (Wire.encode e.key ++ ·) (carried.encode e.value)
  read := by
    show (do let k ← Wire.read; let a ← Wire.read; return Entry.mk k a) =
      Entry.mapValue up <$> (do let k ← Wire.read; let b ← Wire.read; return Entry.mk k b)
    rw [carried.read]
    simp [Entry.mapValue]

theorem Carried.list : Carried (List.map down) (List.map up) where
  inverse as := by simp [Function.comp_def, carried.inverse]
  encode as := by
    show encodeLength _ ++ _ = encodeLength _ ++ _
    rw [List.length_map, List.flatMap_map, funext carried.encode]
  read := by
    show readLength >>= readMany Wire.read = List.map up <$> (readLength >>= readMany Wire.read)
    rw [carried.read, map_bind]
    exact congrArg (readLength >>= ·) (funext (readMany_map Wire.read up))

end Carried

theorem carried_float : Carried Float.toBits Float.ofBits where
  inverse := Float.ofBits_toBits
  encode _ := rfl
  read := comp_map Nat.toUInt64 Float.ofBits (readNat 8)

instance : Sized Float := ⟨fun _ => True⟩
instance : Lawful Float := carried_float.lawful fun _ _ => trivial

section Scalar

-- A scalar with the bits of its float, of which many stand for the one that is no number.
inductive Scalar.Bits
  | integer (i : Int64)
  | float (bits : UInt64)
  | boolean (b : Bool)
  | text (s : String)

def Scalar.bits : Scalar → Scalar.Bits
  | .integer i => .integer i
  | .float x => .float x.toBits
  | .boolean b => .boolean b
  | .text s => .text s

def Scalar.ofBits : Scalar.Bits → Scalar
  | .integer i => .integer i
  | .float bits => .float (.ofBits bits)
  | .boolean b => .boolean b
  | .text s => .text s

instance : Wire Scalar.Bits where
  encode
    | .integer i => Wire.encodeVariant 0 ++ Wire.encode i
    | .float bits => Wire.encodeVariant 1 ++ Wire.encode bits
    | .boolean b => Wire.encodeVariant 2 ++ Wire.encode b
    | .text s => Wire.encodeVariant 3 ++ Wire.encode s
  read := do
    match ← Wire.readVariant 4 with
    | 0 => Scalar.Bits.integer <$> Wire.read
    | 1 => Scalar.Bits.float <$> Wire.read
    | 2 => Scalar.Bits.boolean <$> Wire.read
    | _ => Scalar.Bits.text <$> Wire.read

instance : Sized Scalar.Bits where
  Fits
    | .text s => Fits s
    | _ => True

instance : Sized Scalar where
  Fits s := Fits s.bits

theorem takes_alternative {α β : Type} [Wire α] [Sized α] [Lawful α] {count index : Nat}
    {alternatives : Nat → Reader β} {make : α → β} (known : index < count) (few : count ≤ 256 ^ 4)
    (this : alternatives index = make <$> Wire.read) (a : α) (fits : Fits a) :
    Takes (readVariant count >>= alternatives) (encodeVariant index ++ Wire.encode a) (make a) :=
  (takes_readVariant known few).bind (this ▸ (Lawful.takes a fits).map make)

instance : Lawful Scalar.Bits where
  takes
    | .integer i, _ => takes_alternative (by decide) (by decide) rfl i trivial
    | .float bits, _ => takes_alternative (by decide) (by decide) rfl bits trivial
    | .boolean b, _ => takes_alternative (by decide) (by decide) rfl b trivial
    | .text s, fits => takes_alternative (by decide) (by decide) rfl s fits
  confined := (confined_readVariant 4).bind fun index => by
    split <;> exact Lawful.confined.map _

theorem carried_scalar : Carried Scalar.bits Scalar.ofBits where
  inverse s := by
    cases s with
    | float x => exact congrArg Scalar.float (Float.ofBits_toBits x)
    | integer | boolean | text => rfl
  encode s := by cases s <;> rfl
  read := by
    show readVariant 4 >>= _ = Scalar.ofBits <$> (readVariant 4 >>= _)
    rw [map_bind]
    refine congrArg (readVariant 4 >>= ·) (funext fun index => ?_)
    match index with
    | 0 => exact comp_map Scalar.Bits.integer Scalar.ofBits Wire.read
    | 1 =>
      show Scalar.float <$> Wire.read = Scalar.ofBits <$> Scalar.Bits.float <$> Wire.read
      rw [carried_float.read, ← comp_map, ← comp_map]
      rfl
    | 2 => exact comp_map Scalar.Bits.boolean Scalar.ofBits Wire.read
    | n + 3 => exact comp_map Scalar.Bits.text Scalar.ofBits Wire.read

instance : Lawful Scalar := carried_scalar.lawful fun _ fits => fits

end Scalar

section Vertex

-- A vertex with its properties as their bits.
structure Vertex.Bits where
  id : VertexId
  label : String
  properties : Std.ExtTreeMap String Scalar.Bits
  outEdges : List VertexId
  halted : Bool

instance : Wire Vertex.Bits where
  encode v :=
    Wire.encode v.id ++ Wire.encode v.label ++ Wire.encode v.properties.toList ++
      Wire.encode v.outEdges ++ Wire.encode v.halted
  read := do
    let id ← Wire.read
    let label ← Wire.read
    let properties ← Wire.read
    let outEdges ← Wire.read
    let halted ← Wire.read
    return ⟨id, label, Vertex.propertiesOf properties, outEdges, halted⟩

def Vertex.bits (v : Vertex) : Vertex.Bits :=
  ⟨v.id, v.label, v.properties.map fun _ => Scalar.bits, v.outEdges, v.halted⟩

def Vertex.ofBits (v : Vertex.Bits) : Vertex :=
  ⟨v.id, v.label, v.properties.map fun _ => Scalar.ofBits, v.outEdges, v.halted⟩

instance : Sized Vertex.Bits where
  Fits v := Fits v.label ∧ Fits v.properties.toList ∧ Fits v.outEdges

instance : Sized Vertex where
  Fits v := Fits v.bits

instance : Lawful Vertex.Bits where
  takes v fits := by
    obtain ⟨label, properties, outEdges⟩ := fits
    have id := Lawful.takes v.id trivial
    have label := Lawful.takes v.label label
    have properties := Lawful.takes v.properties.toList properties
    have outEdges := Lawful.takes v.outEdges outEdges
    have halted := Lawful.takes v.halted trivial
    have made : Takes (pure ⟨v.id, v.label, Vertex.propertiesOf v.properties.toList, v.outEdges,
        v.halted⟩) [] v := by
      rw [Vertex.propertiesOf_toList]
      exact takes_pure v
    show Takes _ (_ ++ _ ++ _ ++ _ ++ _) v
    simp only [List.append_assoc]
    exact id.bind (label.bind (properties.bind (outEdges.bind (halted.last made))))
  confined := Lawful.confined.bind fun id => Lawful.confined.bind fun label =>
    Lawful.confined.bind fun properties => Lawful.confined.bind fun outEdges =>
    Lawful.confined.bind fun halted => confined_pure _

theorem Vertex.propertiesOf_map {α β : Type} (f : α → β) (entries : List (String × α)) :
    propertiesOf (entries.map fun p => (p.1, f p.2)) = (propertiesOf entries).map fun _ => f := by
  have step (properties : Std.ExtTreeMap String α) (name : String) (a : α) :
      (properties.map fun _ => f).insert name (f a) =
        (properties.insert name a).map fun _ => f := by
    refine Std.ExtTreeMap.ext_getElem? fun key => ?_
    simp only [Std.ExtTreeMap.getElem?_map, Std.ExtTreeMap.getElem?_insert]
    split <;> rfl
  have all (properties : Std.ExtTreeMap String α) :
      (entries.map fun p => (p.1, f p.2)).foldl (fun map p => map.insert p.1 p.2)
          (properties.map fun _ => f) =
        (entries.foldl (fun map p => map.insert p.1 p.2) properties).map fun _ => f := by
    induction entries generalizing properties with
    | nil => rfl
    | cons entry rest ih => rw [List.map_cons, List.foldl_cons, List.foldl_cons, step, ih]
  exact all ∅

theorem carried_vertex : Carried Vertex.bits Vertex.ofBits where
  inverse v := by
    have properties : (v.properties.map fun _ => Scalar.bits).map (fun _ => Scalar.ofBits) =
        v.properties := by
      refine Std.ExtTreeMap.ext_getElem? fun key => ?_
      simp [carried_scalar.inverse]
    rw [Vertex.ofBits, Vertex.bits, properties]
  encode v := by
    have properties : Wire.encode (v.properties.map fun _ => Scalar.bits).toList =
        Wire.encode v.properties.toList := by
      rw [Std.ExtTreeMap.toList_map]
      exact (carried_scalar.pair.list.encode v.properties.toList).symm
    show _ = _ ++ _ ++ Wire.encode (v.properties.map fun _ => Scalar.bits).toList ++ _ ++ _
    rw [properties]
    rfl
  read := by
    have properties : Wire.read (α := List (String × Scalar)) = _ := carried_scalar.pair.list.read
    show (do
      let id ← Wire.read
      let label ← Wire.read
      let properties ← Wire.read
      let outEdges ← Wire.read
      let halted ← Wire.read
      return (⟨id, label, Vertex.propertiesOf properties, outEdges, halted⟩ : Vertex)) =
        Vertex.ofBits <$> (do
          let id ← Wire.read
          let label ← Wire.read
          let properties ← Wire.read
          let outEdges ← Wire.read
          let halted ← Wire.read
          return ⟨id, label, Vertex.propertiesOf properties, outEdges, halted⟩)
    rw [properties]
    simp [Vertex.ofBits, Vertex.propertiesOf_map]

instance : Lawful Vertex := carried_vertex.lawful fun _ fits => fits

end Vertex

end BulkSync
