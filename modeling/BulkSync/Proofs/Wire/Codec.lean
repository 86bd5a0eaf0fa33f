import BulkSync.Proofs.MapReduce.Storing
import BulkSync.Proofs.Memory.Operations
import BulkSync.Proofs.Wire.Bits

set_option autoImplicit false

namespace BulkSync

open Wire Memory

section Bytes

variable {α : Type} [Wire α] [Sized α] [Lawful α] {a : α}

theorem decode_append (fits : Fits a) (more : List UInt8) :
    Wire.decode (Wire.encode a ++ more) = .ok a := by
  rw [Wire.decode, Lawful.takes a fits more]
  rfl

-- Had the cut bytes been enough, the reader would have left the bytes cut off as well.
theorem decode_cut (fits : Fits a) {cut lost : List UInt8} (whole : cut ++ lost = Wire.encode a)
    (short : lost ≠ []) : ∃ e, Wire.decode (α := α) cut = .error e := by
  cases read : Wire.read (α := α) cut with
  | error e => exact ⟨e, congrArg (·.map Prod.fst) read⟩
  | ok result =>
    obtain ⟨b, rest⟩ := result
    obtain ⟨front, rfl, takes⟩ := Lawful.confined _ _ _ read
    have full := Lawful.takes a fits []
    rw [List.append_nil, ← whole, List.append_assoc, takes] at full
    have nothing : rest ++ lost = [] := (Prod.mk.inj (Except.ok.inj full)).2
    exact absurd (List.append_eq_nil_iff.mp nothing).2 short

theorem encode_prefix_of_decode {β : Type} [Wire β] [Canonical β] {bytes : List UInt8} {b : β}
    (decoded : Wire.decode bytes = .ok b) : Wire.encode b <+: bytes := by
  obtain ⟨⟨c, rest⟩, read, rfl⟩ := map_eq_ok decoded
  exact ⟨rest, (Canonical.exactly _ _ _ read).symm⟩

end Bytes

structure Codec (α : Type) [Wire α] [Sized α] : Prop where
  returns : ∀ a : α, Fits a → (Value.encode a).decode = .ok a
  followed : ∀ a : α, Fits a → ∀ more, Value.decode (.blob (Wire.encode a ++ more)) = .ok a
  truncated : ∀ a : α, Fits a → ∀ cut, cut <+: Wire.encode a → cut ≠ Wire.encode a →
    ∃ failure, Value.decode (α := α) (.blob cut) = .error (.codec failure)
  foreign : ∀ v : Value, v.kind ≠ .blob → ∃ failure, v.decode (α := α) = .error (.codec failure)
  apart : ∀ a b : α, Fits a → Fits b → Value.encode a = Value.encode b → a = b

theorem codec_of_lawful {α : Type} [Wire α] [Sized α] [Lawful α] : Codec α := by
  have followed (a : α) (fits : Fits a) (more : List UInt8) :
      Value.decode (.blob (Wire.encode a ++ more)) = .ok a := by
    rw [Value.decode, decode_append fits more]
    rfl
  have returns (a : α) (fits : Fits a) : (Value.encode a).decode = .ok a := by
    simpa [Value.encode] using followed a fits []
  constructor
  case returns => exact returns
  case followed => exact followed
  case truncated =>
    intro a fits cut front other
    obtain ⟨lost, whole⟩ := front
    have short : lost ≠ [] := by
      rintro rfl
      exact other ((List.append_nil cut).symm.trans whole)
    obtain ⟨e, failed⟩ := decode_cut fits whole short
    refine ⟨.malformed e, ?_⟩
    rw [Value.decode, failed]
    rfl
  case foreign =>
    intro v kind
    cases v with
    | integer i => exact ⟨_, rfl⟩
    | boolean b => exact ⟨_, rfl⟩
    | blob bytes => exact absurd rfl kind
  case apart =>
    intro a b fitsA fitsB same
    have decoded := returns a fitsA
    rw [same, returns b fitsB] at decoded
    exact (Except.ok.inj decoded).symm

structure Delivered (α : Type) [Wire α] [Sized α] [Storable α] : Prop where
  left : ∀ {κ ν ρ ω : Type} [Ord κ] [Std.TransOrd κ] (job : Job κ ν ρ ω), job.Outputs α →
    ∀ vertices parts v, job.run vertices parts = .ok v → ∃ a : α, v = Value.encode a
  stored : ∀ a : α, Storable.store a = .ok (Value.encode a)
  read : ∀ a : α, Fits a → ∀ (m n : Memory) key, m.storeResult key (Value.encode a) = .ok n →
    n.getDecoded α key = .ok a

theorem getDecoded_of_storeResult {α : Type} [Wire α] {m n : Memory} {key : String} {v : Value}
    (stored : m.storeResult key v = .ok n) : n.getDecoded α key = v.decode := by
  obtain ⟨-, -, rfl⟩ := storeResult_eq_ok stored
  rw [getDecoded, Memory.get, Std.ExtTreeMap.getElem?_insert_self]
  rfl

theorem delivered_entries {κ ν : Type} [Wire κ] [Wire ν] [Sized κ] [Sized ν] [Lawful κ] [Lawful ν] :
    Delivered (List (Entry κ ν)) where
  left job outputs vertices parts v ran := by
    obtain ⟨entries, stored⟩ := outputs.store_of_run ran
    exact ⟨entries, (Except.ok.inj stored).symm⟩
  stored _ := rfl
  read entries fits m n key stored :=
    (getDecoded_of_storeResult stored).trans (codec_of_lawful.returns entries fits)

structure BlobCodecs : Prop where
  integer : Codec Int64
  boolean : Codec Bool
  text : Codec String
  option : Codec (Option Int64)
  counts : Codec (List (Entry String Int64))
  ranks : Codec (List (Entry VertexId Float))
  id : Codec VertexId
  scalar : Codec Scalar
  vertex : Codec Vertex
  key : Codec Key
  kind : Codec Kind
  value : Codec Value
  -- Counts are read from nothing but what they are written as.
  canonical : ∀ bytes (entries : List (Entry String Int64)),
    Value.decode (.blob bytes) = .ok entries → Wire.encode entries <+: bytes
  deliveredCounts : Delivered (List (Entry String Int64))
  deliveredRanks : Delivered (List (Entry VertexId Float))
  -- The same with the bits of each float, and how the one form goes with the other.
  bits : Codec UInt64
  ofFloat : Carried Float.toBits Float.ofBits
  rankBits : Codec (List (Entry VertexId UInt64))
  deliveredRankBits : Delivered (List (Entry VertexId UInt64))
  ofRanks : Carried (List.map (Entry.mapValue (κ := VertexId) Float.toBits))
    (List.map (Entry.mapValue Float.ofBits))
  scalarBits : Codec Scalar.Bits
  ofScalar : Carried Scalar.bits Scalar.ofBits
  vertexBits : Codec Vertex.Bits
  ofVertex : Carried Vertex.bits Vertex.ofBits

theorem blob_codecs : BlobCodecs where
  integer := codec_of_lawful
  boolean := codec_of_lawful
  text := codec_of_lawful
  option := codec_of_lawful
  counts := codec_of_lawful
  ranks := codec_of_lawful
  id := codec_of_lawful
  scalar := codec_of_lawful
  vertex := codec_of_lawful
  key := codec_of_lawful
  kind := codec_of_lawful
  value := codec_of_lawful
  canonical _ _ decoded := encode_prefix_of_decode (mapError_eq_ok decoded)
  deliveredCounts := delivered_entries
  deliveredRanks := delivered_entries
  bits := codec_of_lawful
  ofFloat := carried_float
  rankBits := codec_of_lawful
  deliveredRankBits := delivered_entries
  ofRanks := carried_float.entry.list
  scalarBits := codec_of_lawful
  ofScalar := carried_scalar
  vertexBits := codec_of_lawful
  ofVertex := carried_vertex

example : Wire.encode ([⟨"to", -2⟩] : List (Entry String Int64)) =
    [1, 0, 0, 0, 0, 0, 0, 0, 2, 0, 0, 0, 0, 0, 0, 0, 0x74, 0x6f] ++
      [0xfe, 0xff, 0xff, 0xff, 0xff, 0xff, 0xff, 0xff] := by decide

end BulkSync
