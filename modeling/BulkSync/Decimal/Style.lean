import BulkSync.Decimal.Shortest

set_option autoImplicit false

namespace BulkSync.Decimal

structure Style where
  tie : Tie
  -- The exponents of the first digit that are written with a point and no exponent.
  positional : Int → Bool
  -- What follows an integral value that is written without an exponent.
  integral : String
  positiveExponent : String
  nan : String
  infinite : Bool → String

namespace Style

def zeros (n : Nat) : List Char := List.replicate n '0'

def withPoint (style : Style) (f : Finite) : List Char :=
  let digits := Nat.toDigits 10 f.digits
  let point : Int := digits.length + f.exponent
  if 0 ≤ f.exponent then
    digits ++ zeros f.exponent.toNat ++ style.integral.toList
  else if 0 < point then
    digits.take point.toNat ++ '.' :: digits.drop point.toNat
  else
    ['0', '.'] ++ zeros (-point).toNat ++ digits

def withExponent (style : Style) (f : Finite) : List Char :=
  let digits := Nat.toDigits 10 f.digits
  let exponent : Int := digits.length + f.exponent - 1
  let tail := match digits.drop 1 with
    | [] => []
    | rest => '.' :: rest
  let sign := if exponent < 0 then ['-'] else style.positiveExponent.toList
  digits.take 1 ++ tail ++ 'e' :: sign ++ Nat.toDigits 10 exponent.natAbs

def finite (style : Style) (f : Finite) : List Char :=
  if style.positional ((Nat.toDigits 10 f.digits).length + f.exponent - 1) then style.withPoint f
  else style.withExponent f

def signed (negative : Bool) (text : List Char) : List Char :=
  if negative then '-' :: text else text

def format (style : Style) (x : Float) : String :=
  String.ofList <| match Parts.ofBits x.toBits with
    | .nan => style.nan.toList
    | .infinite negative => (style.infinite negative).toList
    | .zero negative => signed negative ('0' :: style.integral.toList)
    | .finite negative d => signed negative (style.finite (d.shortest style.tie))

/-- All digits, however many; an integral value looks like an integer. -/
def plain : Style where
  tie := .up
  positional _ := true
  integral := ""
  positiveExponent := ""
  nan := "NaN"
  infinite negative := if negative then "-inf" else "inf"

/-- An integral value keeps a fraction; below 10 ^ (-4) and from 10 ^ 16 on there is an
exponent. -/
def kinded : Style where
  tie := .up
  positional exponent := -4 ≤ exponent && exponent < 16
  integral := ".0"
  positiveExponent := ""
  nan := "NaN"
  infinite negative := if negative then "-inf" else "inf"

/-- As a JSON number; there is none for what is not finite. -/
def json : Style where
  tie := .even
  positional exponent := -5 ≤ exponent && exponent < 16
  integral := ".0"
  positiveExponent := "+"
  nan := "null"
  infinite _ := "null"

end Style

end BulkSync.Decimal
