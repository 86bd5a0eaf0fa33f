import BulkSync.Proofs.Except
import BulkSync.Proofs.Text.Utf8
import BulkSync.Wire.Basic

set_option autoImplicit false

namespace BulkSync.Wire

variable {α β : Type}

-- The reader takes these bytes for this value, and leaves all that follow.
def Takes (r : Reader α) (front : List UInt8) (a : α) : Prop :=
  ∀ rest, r (front ++ rest) = .ok (a, rest)

-- What the reader takes does not depend on the bytes that it leaves.
def Confined (r : Reader α) : Prop :=
  ∀ bytes a rest, r bytes = .ok (a, rest) → ∃ front, bytes = front ++ rest ∧ Takes r front a

-- The reader takes only what the value is written as.
def Exact (r : Reader α) (encode : α → List UInt8) : Prop :=
  ∀ bytes a rest, r bytes = .ok (a, rest) → bytes = encode a ++ rest

section Combined

variable {r : Reader α}

theorem takes_pure (a : α) : Takes (pure a) [] a := fun _ => rfl

theorem Takes.bind {next : α → Reader β} {front back : List UInt8} {a : α} {b : β}
    (first : Takes r front a) (later : Takes (next a) back b) :
    Takes (r >>= next) (front ++ back) b := by
  intro rest
  show r (front ++ back ++ rest) >>= _ = _
  rw [List.append_assoc, first]
  exact later rest

theorem Takes.last {next : α → Reader β} {front : List UInt8} {a : α} {b : β}
    (first : Takes r front a) (done : Takes (next a) [] b) : Takes (r >>= next) front b :=
  List.append_nil front ▸ first.bind done

theorem Takes.map {front : List UInt8} {a : α} (first : Takes r front a) (f : α → β) :
    Takes (f <$> r) front (f a) := by
  intro rest
  show r (front ++ rest) >>= _ = _
  rw [first]
  rfl

theorem bind_eq_ok_reader {next : α → Reader β} {bytes rest : List UInt8} {b : β}
    (read : (r >>= next) bytes = .ok (b, rest)) :
    ∃ a middle, r bytes = .ok (a, middle) ∧ next a middle = .ok (b, rest) := by
  obtain ⟨⟨a, middle⟩, first, later⟩ := bind_eq_ok read
  exact ⟨a, middle, first, later⟩

theorem map_eq_ok_reader {f : α → β} {bytes rest : List UInt8} {b : β}
    (read : (f <$> r) bytes = .ok (b, rest)) : ∃ a, r bytes = .ok (a, rest) ∧ f a = b := by
  obtain ⟨⟨a, middle⟩, first, later⟩ := bind_eq_ok read
  cases later
  exact ⟨a, first, rfl⟩

theorem confined_pure (a : α) : Confined (pure a) := by
  intro bytes b rest read
  cases read
  exact ⟨[], rfl, takes_pure a⟩

theorem confined_throw (e : Error) : Confined (throw e : Reader α) :=
  fun _ _ _ read => nomatch read

theorem Confined.bind {next : α → Reader β} (first : Confined r)
    (later : ∀ a, Confined (next a)) : Confined (r >>= next) := by
  intro bytes b rest read
  obtain ⟨a, middle, begun, ended⟩ := bind_eq_ok_reader read
  obtain ⟨front, rfl, takes⟩ := first _ _ _ begun
  obtain ⟨back, rfl, goes⟩ := later a _ _ _ ended
  exact ⟨front ++ back, (List.append_assoc front back rest).symm, takes.bind goes⟩

theorem Confined.map (first : Confined r) (f : α → β) : Confined (f <$> r) := by
  intro bytes b rest read
  obtain ⟨a, begun, rfl⟩ := map_eq_ok_reader read
  obtain ⟨front, cut, takes⟩ := first _ _ _ begun
  exact ⟨front, cut, takes.map f⟩

end Combined

section Numbers

theorem takes_readNat {width n : Nat} (small : n < 256 ^ width) :
    Takes (readNat width) (littleEndian width n) n := by
  induction width generalizing n with
  | zero =>
    obtain rfl : n = 0 := by simpa using small
    exact fun _ => rfl
  | succ width ih =>
    have high : n / 256 < 256 ^ width := by
      rw [Nat.pow_succ] at small
      exact Nat.div_lt_of_lt_mul (Nat.mul_comm _ 256 ▸ small)
    have low : n.toUInt8.toNat + 256 * (n / 256) = n := by
      simp only [UInt8.toNat_ofNat', Nat.toUInt8]
      omega
    intro rest
    rw [littleEndian, List.cons_append, readNat, ih high rest]
    exact congrArg (fun m => Except.ok (m, rest)) low

theorem readNat_eq_ok {width n : Nat} {bytes rest : List UInt8}
    (read : readNat width bytes = .ok (n, rest)) :
    bytes = littleEndian width n ++ rest ∧ n < 256 ^ width := by
  induction width generalizing n bytes with
  | zero =>
    cases read
    exact ⟨rfl, Nat.one_pos⟩
  | succ width ih =>
    cases bytes with
    | nil => cases read
    | cons b bytes =>
      obtain ⟨⟨high, middle⟩, more, done⟩ := bind_eq_ok read
      obtain ⟨same, rfl⟩ := Prod.mk.inj (Except.ok.inj done)
      obtain ⟨rfl, small⟩ := ih more
      have byte := b.toNat_lt
      have first : n.toUInt8 = b := by
        rw [← UInt8.toNat_inj]
        simp
        omega
      have later : n / 256 = high := by omega
      refine ⟨?_, ?_⟩
      · rw [littleEndian, first, later, List.cons_append]
      · rw [Nat.pow_succ]
        omega

theorem confined_readNat (width : Nat) : Confined (readNat width) := by
  intro bytes n rest read
  obtain ⟨cut, small⟩ := readNat_eq_ok read
  exact ⟨_, cut, takes_readNat small⟩

theorem takes_readByte (b : UInt8) : Takes readByte [b] b := by
  have small : b.toNat < 256 ^ 1 := b.toNat_lt
  have takes := (takes_readNat small).map Nat.toUInt8
  have same : littleEndian 1 b.toNat = [b] := by simp [littleEndian]
  rw [same, Nat.toUInt8, UInt8.ofNat_toNat] at takes
  exact takes

theorem confined_readByte : Confined readByte := (confined_readNat 1).map _

theorem takes_readVariant {count index : Nat} (known : index < count) (few : count ≤ 256 ^ 4) :
    Takes (readVariant count) (encodeVariant index) index := by
  have takes := takes_readNat (Nat.lt_of_lt_of_le known few)
  refine takes.last ?_
  rw [if_pos known]
  exact takes_pure index

theorem confined_readVariant (count : Nat) : Confined (readVariant count) := by
  refine (confined_readNat 4).bind fun index => ?_
  split
  · exact confined_pure index
  · exact confined_throw _

end Numbers

section Lengths

theorem takes_take (front : List UInt8) : Takes (take front.length) front front := by
  intro rest
  simp [take]

theorem take_eq_ok {n : Nat} {bytes front rest : List UInt8}
    (read : take n bytes = .ok (front, rest)) : bytes = front ++ rest ∧ front.length = n := by
  unfold take at read
  split at read
  next enough =>
    obtain ⟨rfl, rfl⟩ := Prod.mk.inj (Except.ok.inj read)
    exact ⟨(List.take_append_drop n bytes).symm, List.length_take_of_le enough⟩
  next => cases read

theorem takes_readBytes {bytes : List UInt8} (short : bytes.length < 2 ^ 64) :
    Takes readBytes (encodeBytes bytes) bytes :=
  (takes_readNat short).bind (takes_take bytes)

theorem readBytes_eq_ok {bytes front rest : List UInt8}
    (read : readBytes bytes = .ok (front, rest)) :
    bytes = encodeBytes front ++ rest ∧ front.length < 2 ^ 64 := by
  obtain ⟨n, middle, length, taken⟩ := bind_eq_ok_reader read
  obtain ⟨rfl, small⟩ := readNat_eq_ok length
  obtain ⟨rfl, rfl⟩ := take_eq_ok taken
  exact ⟨(List.append_assoc _ front rest).symm, small⟩

theorem confined_readBytes : Confined readBytes := by
  intro bytes front rest read
  obtain ⟨cut, short⟩ := readBytes_eq_ok read
  exact ⟨_, cut, takes_readBytes short⟩

variable {one : Reader α} {encode : α → List UInt8}

theorem takes_readMany {as : List α} (each : ∀ a ∈ as, Takes one (encode a) a) :
    Takes (readMany one as.length) (as.flatMap encode) as := by
  induction as with
  | nil => exact takes_pure []
  | cons a rest ih =>
    have first := each a List.mem_cons_self
    have later := ih fun b member => each b (List.mem_cons_of_mem a member)
    exact first.bind (later.last (takes_pure (a :: rest)))

theorem confined_readMany (confined : Confined one) (n : Nat) : Confined (readMany one n) := by
  induction n with
  | zero => exact confined_pure []
  | succ n ih => exact confined.bind fun a => ih.bind fun rest => confined_pure (a :: rest)

theorem readMany_eq_ok (exactly : Exact one encode) {n : Nat} {bytes rest : List UInt8}
    {as : List α} (read : readMany one n bytes = .ok (as, rest)) :
    bytes = as.flatMap encode ++ rest ∧ as.length = n := by
  induction n generalizing bytes as with
  | zero =>
    cases read
    exact ⟨rfl, rfl⟩
  | succ n ih =>
    obtain ⟨a, middle, first, read⟩ := bind_eq_ok_reader read
    obtain ⟨later, last, more, done⟩ := bind_eq_ok_reader read
    cases done
    obtain ⟨rfl, length⟩ := ih more
    refine ⟨?_, congrArg (· + 1) length⟩
    rw [exactly _ _ _ first, List.flatMap_cons, List.append_assoc]

end Lengths

end BulkSync.Wire
