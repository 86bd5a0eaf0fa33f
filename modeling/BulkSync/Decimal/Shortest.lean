set_option autoImplicit false

namespace BulkSync.Decimal

structure Ratio where
  num : Nat
  den : Nat

namespace Ratio

def le (a b : Ratio) : Bool := a.num * b.den ≤ b.num * a.den

def lt (a b : Ratio) : Bool := a.num * b.den < b.num * a.den

def floor (a : Ratio) : Nat := a.num / a.den

def scale (a : Ratio) (base : Nat) (exponent : Int) : Ratio :=
  ⟨a.num * Nat.pow base exponent.toNat, a.den * Nat.pow base (-exponent).toNat⟩

end Ratio

structure Dyadic where
  mantissa : Nat
  exponent : Int
  -- The next number below is only half a step away.
  narrow : Bool

structure Finite where
  digits : Nat
  exponent : Int
  deriving DecidableEq

inductive Tie
  | up
  | even

namespace Dyadic

def value (d : Dyadic) : Ratio := (Ratio.mk d.mantissa 1).scale 2 d.exponent

/-- Does `x` round to `d`? The ends of the interval do exactly when the mantissa is even. -/
def accepts (d : Dyadic) (x : Ratio) : Bool :=
  let low := (Ratio.mk (4 * d.mantissa - if d.narrow then 1 else 2) 1).scale 2 (d.exponent - 2)
  let high := (Ratio.mk (4 * d.mantissa + 2) 1).scale 2 (d.exponent - 2)
  if d.mantissa % 2 = 0 then low.le x && x.le high else low.lt x && x.lt high

-- No binary grid in use reaches below 10 ^ (-400), so the shifted value has a first digit.
def shift : Nat := 400

def magnitude (d : Dyadic) : Int :=
  ((Nat.toDigits 10 (d.value.scale 10 shift).floor).length : Int) - shift

/-- The neighbour of `d` on the grid of `10 ^ exponent`: the one below, unless only the one above
reads back or is nearer. -/
def nearest? (d : Dyadic) (tie : Tie) (exponent : Int) : Option Finite :=
  let scaled := d.value.scale 10 (-exponent)
  let below := scaled.floor
  let reads (c : Nat) : Bool := d.accepts ((Ratio.mk c 1).scale 10 exponent)
  let middle : Ratio := ⟨2 * below + 1, 2⟩
  let upward : Bool := middle.lt scaled ||
    (!scaled.lt middle && match tie with
      | .up => true
      | .even => below % 2 = 1)
  match reads below, reads (below + 1) with
  | true, true => some ⟨if upward then below + 1 else below, exponent⟩
  | true, false => some ⟨below, exponent⟩
  | false, true => some ⟨below + 1, exponent⟩
  | false, false => none

end Dyadic

def Finite.trim (fuel : Nat) (f : Finite) : Finite :=
  match fuel with
  | 0 => f
  | fuel + 1 =>
    if f.digits ≠ 0 ∧ f.digits % 10 = 0 then Finite.trim fuel ⟨f.digits / 10, f.exponent + 1⟩
    else f

/-- Seventeen digits tell any two numbers with 53 bits apart. -/
def Dyadic.shortest (d : Dyadic) (tie : Tie) : Finite :=
  let grids := (List.range 17).map fun n => d.magnitude - (n + 1 : Nat)
  match grids.findSome? (d.nearest? tie) with
  | some f => f.trim 17
  | none => ⟨0, 0⟩

inductive Parts
  | nan
  | infinite (negative : Bool)
  | zero (negative : Bool)
  | finite (negative : Bool) (d : Dyadic)

def Parts.ofBits (bits : UInt64) : Parts :=
  let negative := bits >>> 63 = 1
  let biased : Nat := ((bits >>> 52) &&& 0x7ff).toNat
  let fraction : Nat := (bits &&& 0xfffffffffffff).toNat
  if biased = 0x7ff then
    if fraction = 0 then .infinite negative else .nan
  else if biased = 0 then
    if fraction = 0 then .zero negative else .finite negative ⟨fraction, -1074, false⟩
  else
    .finite negative ⟨0x10000000000000 + fraction, biased - 1075, fraction = 0 ∧ 1 < biased⟩

end BulkSync.Decimal
