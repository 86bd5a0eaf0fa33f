import BulkSync.Json.Basic

set_option autoImplicit false

namespace BulkSync.Json

def digitsValue (ds : List Char) : Nat :=
  ds.foldl (fun n d => n * 10 + (d.toNat - '0'.toNat)) 0

def readDigits (cs : List Char) : Option (List Char × List Char) :=
  match cs.takeWhile Char.isDigit with
  | [] => none
  | ds => some (ds, cs.dropWhile Char.isDigit)

def readWhole (cs : List Char) : Option (List Char × List Char) :=
  match cs with
  | '0' :: rest => if rest.head?.any Char.isDigit then none else some (['0'], rest)
  | cs => readDigits cs

def readFraction : List Char → Option (Option (List Char) × List Char)
  | '.' :: rest => (readDigits rest).map fun (ds, after) => (some ds, after)
  | cs => some (none, cs)

def readSigned (cs : List Char) : Option (Int × List Char) :=
  match cs with
  | '-' :: rest => (readDigits rest).map fun (ds, after) => (-(digitsValue ds : Int), after)
  | '+' :: rest => (readDigits rest).map fun (ds, after) => ((digitsValue ds : Int), after)
  | cs => (readDigits cs).map fun (ds, after) => ((digitsValue ds : Int), after)

def readExponent : List Char → Option (Option Int × List Char)
  | 'e' :: rest | 'E' :: rest => (readSigned rest).map fun (n, after) => (some n, after)
  | cs => some (none, cs)

def readUnsigned (negative : Bool) (cs : List Char) : Option (Number × List Char) := do
  let (whole, cs) ← readWhole cs
  let (fraction, cs) ← readFraction cs
  let (exponent, cs) ← readExponent cs
  let places := fraction.getD []
  let number : Number :=
    { negative
      mantissa := digitsValue (whole ++ places)
      exponent := exponent.getD 0 - places.length
      integral := fraction.isNone && exponent.isNone }
  return (number, cs)

def readNumber : List Char → Option (Number × List Char)
  | '-' :: rest => readUnsigned true rest
  | cs => readUnsigned false cs

namespace Number

/-- An integer; a zero with a sign is none. -/
def int? (n : Number) : Option Int :=
  if !n.integral || (n.negative && n.mantissa = 0) then none
  else some (if n.negative then -(n.mantissa : Int) else n.mantissa)

-- Beyond this many places every double overflows or vanishes.
def reach : Nat := 400

def float? (n : Number) : Option Float :=
  let sign (x : Float) : Float := if n.negative then -x else x
  let magnitude : Int := (Nat.toDigits 10 n.mantissa).length + n.exponent
  if n.mantissa = 0 then some (sign 0.0)
  else if reach < magnitude then none
  else if magnitude < -(reach : Int) then some (sign 0.0)
  else
    let x := Float.ofScientific n.mantissa (n.exponent < 0) n.exponent.natAbs
    if x.isInf then none else some (sign x)

end Number

end BulkSync.Json
