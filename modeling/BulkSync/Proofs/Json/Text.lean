import BulkSync.Json.Text

set_option autoImplicit false

namespace BulkSync.Json

section Hex

variable {digit : Char} {value owed bits : Nat} {rest : List Char}

theorem readPieces_digit (known : Text.hexValue? digit = some value) (more : ¬owed ≤ 1) :
    readPieces (.code owed bits) (digit :: rest) =
      readPieces (.code (owed - 1) (bits * 16 + value)) rest := by
  rw [readPieces, known]
  exact if_neg more

theorem readPieces_last (known : Text.hexValue? digit = some value) :
    readPieces (.code 1 bits) (digit :: rest) =
      (readPieces .between rest).map fun (pieces, after) =>
        (joinPiece (.ofCode (bits * 16 + value)) pieces, after) := by
  rw [readPieces, known]
  cases readPieces .between rest <;> rfl

theorem hexValue?_digitChar {n : Nat} (digit : n < 16) : Text.hexValue? n.digitChar = some n := by
  have all : ∀ n < 16, Text.hexValue? n.digitChar = some n := by decide
  exact all n digit

-- A character below the space takes two of the four digits at most.
theorem hexDigits_control {n : Nat} (control : n < 32) :
    List.replicate (4 - (Text.hexDigits n).length) '0' ++ Text.hexDigits n =
      ['0', '0', (n / 16).digitChar, (n % 16).digitChar] := by
  have all : ∀ n < 32, List.replicate (4 - (Text.hexDigits n).length) '0' ++ Text.hexDigits n =
      ['0', '0', (n / 16).digitChar, (n % 16).digitChar] := by decide
  exact all n control

end Hex

-- The text is read as one piece, which stands for the character.
structure Restores (c : Char) (piece : Piece) (text : List Char) : Prop where
  stands : piece.char? = some c
  reads : ∀ rest, readPieces .between (text ++ rest) =
    (readPieces .between rest).map fun (pieces, after) => (piece :: pieces, after)

theorem restores_escape {letter c : Char} (known : escape? letter = some c) :
    Restores c (.escaped c) ['\\', letter] where
  stands := rfl
  reads rest := by
    have short : letter ≠ 'u' := by
      rintro rfl
      cases known
    show readPieces .escape (letter :: rest) = _
    rw [readPieces, if_neg short, known]
    cases readPieces .between rest <;> rfl

theorem restores_code {c : Char} (control : c.toNat < 32) :
    Restores c (.escaped c) (['\\', 'u'] ++
      List.replicate (4 - (Text.hexDigits c.toNat).length) '0' ++ Text.hexDigits c.toNat) where
  stands := rfl
  reads rest := by
    have zero : Text.hexValue? '0' = some 0 := rfl
    have high := hexValue?_digitChar (n := c.toNat / 16) (by omega)
    have low := hexValue?_digitChar (n := c.toNat % 16) (by omega)
    have whole : Piece.ofCode c.toNat = .escaped c := by
      have single : (isHighHalf c.toNat || isLowHalf c.toNat) = false := by
        simp only [isHighHalf, isLowHalf, Bool.or_eq_false_iff, Bool.and_eq_false_iff,
          decide_eq_false_iff_not]
        omega
      rw [Piece.ofCode, single, if_neg Bool.false_ne_true, Char.ofNat_toNat]
    rw [List.append_assoc ['\\', 'u'], hexDigits_control control]
    show readPieces (.code 4 0) ('0' :: '0' :: (c.toNat / 16).digitChar ::
      (c.toNat % 16).digitChar :: rest) = _
    rw [readPieces_digit zero (by decide), readPieces_digit zero (by decide),
      readPieces_digit high (by decide), readPieces_last low]
    have code : (((0 * 16 + 0) * 16 + 0) * 16 + c.toNat / 16) * 16 + c.toNat % 16 = c.toNat := by
      omega
    rw [code, whole]
    rfl

theorem restores_plain {c : Char} (quote : c ≠ '"') (backslash : c ≠ '\\')
    (printable : ¬c.val < 0x20) : Restores c (.plain c) [c] where
  stands := if_neg printable
  reads rest := by
    show readPieces .between (c :: rest) = _
    rw [readPieces, if_neg quote, if_neg backslash]
    rfl

theorem exists_restores (c : Char) : ∃ piece, Restores c piece (writeChar c) := by
  unfold writeChar
  split
  case h_1 | h_2 | h_3 | h_4 | h_5 | h_6 | h_7 => exact ⟨_, restores_escape rfl⟩
  case h_8 quote backslash _ _ _ _ _ =>
    split
    next control => exact ⟨_, restores_code control⟩
    next printable => exact ⟨_, restores_plain quote backslash printable⟩

theorem exists_pieces (s : String) :
    ∃ pieces, text? pieces = some s ∧ ∀ rest,
      readPieces .between (s.toList.flatMap writeChar ++ '"' :: rest) = some (pieces, rest) := by
  suffices chars : ∀ cs : List Char, ∃ pieces, pieces.mapM Piece.char? = some cs ∧ ∀ rest,
      readPieces .between (cs.flatMap writeChar ++ '"' :: rest) = some (pieces, rest) by
    obtain ⟨pieces, stands, reads⟩ := chars s.toList
    exact ⟨pieces, by rw [text?, stands, Option.map_some, String.ofList_toList], reads⟩
  intro cs
  induction cs with
  | nil => exact ⟨[], rfl, fun rest => rfl⟩
  | cons c cs ih =>
    obtain ⟨piece, restores⟩ := exists_restores c
    obtain ⟨pieces, stands, reads⟩ := ih
    refine ⟨piece :: pieces, ?_, fun rest => ?_⟩
    · rw [List.mapM_cons, restores.stands, stands]
      rfl
    · rw [List.flatMap_cons, List.append_assoc, restores.reads, reads, Option.map_some]

end BulkSync.Json
