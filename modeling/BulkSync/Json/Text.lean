import BulkSync.Json.Basic
import BulkSync.Text.Hex

set_option autoImplicit false

namespace BulkSync.Json

inductive Place
  | between
  | escape
  -- Hexadecimal digits of a code that are still owed, and the code so far.
  | code (owed : Nat) (bits : Nat)

def escape? : Char → Option Char
  | '"' => some '"'
  | '\\' => some '\\'
  | '/' => some '/'
  | 'b' => some '\x08'
  | 'f' => some '\x0c'
  | 'n' => some '\n'
  | 'r' => some '\r'
  | 't' => some '\t'
  | _ => none

def isHighHalf (code : Nat) : Bool := 0xd800 ≤ code && code < 0xdc00

def isLowHalf (code : Nat) : Bool := 0xdc00 ≤ code && code < 0xe000

def Piece.ofCode (code : Nat) : Piece :=
  if isHighHalf code || isLowHalf code then .half code else .escaped (Char.ofNat code)

def joinPiece : Piece → List Piece → List Piece
  | .half high, .half low :: rest =>
    if isHighHalf high && isLowHalf low then
      .escaped (Char.ofNat (0x10000 + (high - 0xd800) * 0x400 + (low - 0xdc00))) :: rest
    else .half high :: .half low :: rest
  | piece, rest => piece :: rest

def readPieces : Place → List Char → Option (List Piece × List Char)
  | _, [] => none
  | .between, c :: rest =>
    if c = '"' then some ([], rest)
    else if c = '\\' then readPieces .escape rest
    else (readPieces .between rest).map fun (pieces, after) => (joinPiece (.plain c) pieces, after)
  | .escape, c :: rest =>
    if c = 'u' then readPieces (.code 4 0) rest
    else do
      let escaped ← escape? c
      let (pieces, after) ← readPieces .between rest
      return (joinPiece (.escaped escaped) pieces, after)
  | .code owed bits, c :: rest => do
    let bits := bits * 16 + (← Text.hexValue? c)
    if owed ≤ 1 then
      let (pieces, after) ← readPieces .between rest
      return (joinPiece (.ofCode bits) pieces, after)
    else readPieces (.code (owed - 1) bits) rest

def writeChar (c : Char) : List Char :=
  match c with
  | '"' => ['\\', '"']
  | '\\' => ['\\', '\\']
  | '\x08' => ['\\', 'b']
  | '\x0c' => ['\\', 'f']
  | '\n' => ['\\', 'n']
  | '\r' => ['\\', 'r']
  | '\t' => ['\\', 't']
  | c =>
    if c.val < 0x20 then
      let digits := Text.hexDigits c.toNat
      ['\\', 'u'] ++ List.replicate (4 - digits.length) '0' ++ digits
    else [c]

def writeText (s : String) : List Char := '"' :: s.toList.flatMap writeChar ++ ['"']

end BulkSync.Json
