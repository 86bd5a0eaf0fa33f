import BulkSync.Proofs.Decimal.Shortest
import BulkSync.Proofs.Wire.Bits

set_option autoImplicit false

namespace BulkSync

namespace Decimal

variable {d : Dyadic} {f : Finite}

theorem Legible.length_withPoint (double : d.Double) (legible : Legible d f) (style : Style) :
    (style.withPoint f).length ≤ 450 + style.integral.toList.length := by
  have digits := legible.length_digits
  have some := Nat.length_toDigits_pos (b := 10) (n := f.digits)
  obtain ⟨low, high⟩ := legible.exponent double
  simp only [Style.withPoint]
  split
  next => simp [Style.zeros]; omega
  next =>
    split
    next => simp; omega
    next => simp [Style.zeros]; omega

theorem length_plain (x : Float) : (Style.plain.format x).toList.length ≤ 500 := by
  have parts := parts_of x
  have signed (negative : Bool) (text : List Char) :
      (Style.signed negative text).length ≤ text.length + 1 := by
    cases negative <;> simp [Style.signed]
  rw [Style.format, String.toList_ofList]
  generalize Parts.ofBits x.toBits = found, x.toModel.unpack = unpacked at parts ⊢
  cases parts with
  | nan => decide
  | infinite negative => cases negative <;> decide
  | zero negative => cases negative <;> decide
  | @finite negative d double =>
    have long := (legible_shortest double .up).length_withPoint double Style.plain
    have all := signed negative (Style.plain.withPoint (d.shortest .up))
    have none : Style.plain.integral.toList.length = 0 := rfl
    show (Style.signed negative (Style.plain.withPoint (d.shortest .up))).length ≤ 500
    omega

end Decimal

theorem length_encode_le (cs : List Char) : (Text.Utf8.encode cs).length ≤ 4 * cs.length := by
  induction cs with
  | nil => rfl
  | cons c rest ih =>
    have one : (Text.Utf8.encodeCode c.toNat).length ≤ 4 := by
      unfold Text.Utf8.encodeCode
      split_ifs <;> simp
    rw [Text.Utf8.encode, List.flatMap_cons, List.length_append, List.length_cons]
    unfold Text.Utf8.encode at ih
    omega

theorem length_integer (i : Int64) : (toString i.toInt).toList.length ≤ 20 := by
  have low := i.le_toInt
  have high := i.toInt_lt
  have digits : (Nat.toDigits 10 i.toInt.natAbs).length ≤ 19 := by
    rw [Nat.length_toDigits_le_iff (by decide) (by decide)]
    omega
  rw [Int.toString_eq_repr, Int.repr_eq_if]
  split
  next =>
    rw [Nat.toList_repr, show i.toInt.toNat = i.toInt.natAbs by omega]
    omega
  next =>
    have sign : "-".toList.length = 1 := rfl
    rw [String.toList_append, List.length_append, sign, Nat.toList_repr,
      show (-i.toInt).toNat = i.toInt.natAbs by omega]
    omega

theorem fits_of_length {s : String} (short : s.toList.length ≤ 500) : Wire.Fits s := by
  have bytes := length_encode_le s.toList
  show (Text.Utf8.encode s.toList).length < 2 ^ 64
  omega

theorem fits_display {v : Scalar} (fits : Wire.Fits v) : Wire.Fits v.display := by
  cases v with
  | integer i => exact fits_of_length ((length_integer i).trans (by decide))
  | float x => exact fits_of_length (Decimal.length_plain x)
  | boolean b => exact fits_of_length (by cases b <;> decide)
  | text s => exact fits

end BulkSync
