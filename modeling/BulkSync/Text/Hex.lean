set_option autoImplicit false

namespace BulkSync.Text

def hexDigits (n : Nat) : List Char := Nat.toDigits 16 n

def hexValue? (c : Char) : Option Nat :=
  if c.isDigit then some (c.toNat - '0'.toNat)
  else if 'a' ≤ c ∧ c ≤ 'f' then some (c.toNat - 'a'.toNat + 10)
  else if 'A' ≤ c ∧ c ≤ 'F' then some (c.toNat - 'A'.toNat + 10)
  else none

def hexByte (b : UInt8) : List Char := hexDigits (b.toNat / 16) ++ hexDigits (b.toNat % 16)

def hexText (bytes : List UInt8) : String := String.ofList (bytes.flatMap hexByte)

def bytesOfHex? : List Char → Option (List UInt8)
  | [] => some []
  | [_] => none
  | high :: low :: rest => do
    let b := (← hexValue? high) * 16 + (← hexValue? low)
    return b.toUInt8 :: (← bytesOfHex? rest)

end BulkSync.Text
