set_option autoImplicit false

namespace BulkSync.Text.Utf8

/-- The bytes of a code point; surrogates, which are no characters, have three as well. -/
def encodeCode (code : Nat) : List UInt8 :=
  if code < 0x80 then
    [code.toUInt8]
  else if code < 0x800 then
    [(0xc0 + code / 0x40).toUInt8, (0x80 + code % 0x40).toUInt8]
  else if code < 0x10000 then
    [(0xe0 + code / 0x1000).toUInt8, (0x80 + code / 0x40 % 0x40).toUInt8,
      (0x80 + code % 0x40).toUInt8]
  else
    [(0xf0 + code / 0x40000).toUInt8, (0x80 + code / 0x1000 % 0x40).toUInt8,
      (0x80 + code / 0x40 % 0x40).toUInt8, (0x80 + code % 0x40).toUInt8]

def encode (cs : List Char) : List UInt8 := cs.flatMap fun c => encodeCode c.toNat

inductive Fault
  | invalid (length : Nat)
  | incomplete
  deriving DecidableEq

structure Error where
  start : Nat
  fault : Fault
  deriving DecidableEq

def Error.message (e : Error) : String :=
  match e.fault with
  | .invalid length => s!"invalid utf-8 sequence of {length} bytes from index {e.start}"
  | .incomplete => s!"incomplete utf-8 byte sequence from index {e.start}"

-- A character that has begun: the bits so far, how many bytes were read, how many are owed,
-- and the bounds of the next one.
structure Begun where
  bits : Nat
  read : Nat
  owed : Nat
  low : UInt8
  high : UInt8

/-- What a first byte from 0x80 on announces. Overlong forms, surrogates and codes above
0x10ffff are cut off by the bounds of the second byte. -/
def begin? (b : UInt8) : Option Begun :=
  let start (lead owed : Nat) (low high : UInt8) : Option Begun :=
    some ⟨b.toNat - lead, 1, owed, low, high⟩
  if b < 0xc2 then none
  else if b < 0xe0 then start 0xc0 1 0x80 0xbf
  else if b = 0xe0 then start 0xe0 2 0xa0 0xbf
  else if b = 0xed then start 0xe0 2 0x80 0x9f
  else if b < 0xf0 then start 0xe0 2 0x80 0xbf
  else if b = 0xf0 then start 0xf0 3 0x90 0xbf
  else if b < 0xf4 then start 0xf0 3 0x80 0xbf
  else if b = 0xf4 then start 0xf0 3 0x80 0x8f
  else none

def decodeFrom (start : Nat) : Option Begun → List UInt8 → Except Error (List Char)
  | none, [] => .ok []
  | some _, [] => .error ⟨start, .incomplete⟩
  | none, b :: rest =>
    if b < 0x80 then
      (decodeFrom (start + 1) none rest).map (Char.ofNat b.toNat :: ·)
    else
      match begin? b with
      | none => .error ⟨start, .invalid 1⟩
      | some p => decodeFrom start (some p) rest
  | some p, b :: rest =>
    if p.low ≤ b ∧ b ≤ p.high then
      let bits := p.bits * 0x40 + (b.toNat - 0x80)
      if p.owed ≤ 1 then
        (decodeFrom (start + p.read + 1) none rest).map (Char.ofNat bits :: ·)
      else
        decodeFrom start (some ⟨bits, p.read + 1, p.owed - 1, 0x80, 0xbf⟩) rest
    else
      .error ⟨start, .invalid p.read⟩

def decode (bytes : List UInt8) : Except Error (List Char) := decodeFrom 0 none bytes

end BulkSync.Text.Utf8
