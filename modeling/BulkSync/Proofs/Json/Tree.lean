import BulkSync.Proofs.Json.Number
import BulkSync.Proofs.Json.Text

set_option autoImplicit false

namespace BulkSync.Json

theorem skip_cons {c : Char} (rest : List Char) (solid : isSpace c = false) :
    skip (c :: rest) = c :: rest := by
  rw [skip, List.dropWhile_cons, solid, if_neg Bool.false_ne_true]

-- The text is read as this value wherever a value may stand.
def Reads (text : List Char) (j : Json) : Prop :=
  ∀ fuel rest, Ends rest → readValue (fuel + 1) (text ++ rest) = some (j, rest)

section Scalars

theorem reads_numeral {n : Numeral} (proper : n.Proper) : Reads n.text (.number n.number) := by
  intro fuel rest ends
  have read := proper.readNumber ends
  obtain ⟨c, others, text, first⟩ := proper.first
  have apart {d : Char} (other : ¬(d = '-' ∨ d.isDigit)) : c ≠ d := by
    rintro rfl
    exact other first
  have solid : isSpace c = false := by
    rw [Bool.eq_false_iff]
    simp only [isSpace, Ne, Bool.or_eq_true, decide_eq_true_eq]
    rintro (((same | same) | same) | same) <;> exact apart (by decide) same
  rw [text, List.cons_append] at read ⊢
  rw [readValue, skip_cons _ solid]
  split
  case h_1 empty => cases empty
  case h_2 same | h_3 same | h_4 same =>
    exact absurd (List.cons.inj same).1 (apart (by decide))
  case h_5 same =>
    obtain ⟨rfl, rfl⟩ := List.cons.inj same
    rw [if_neg (apart (by decide)), if_neg (apart (by decide)), if_neg (apart (by decide)), read]
    rfl

theorem reads_boolean (b : Bool) : Reads (if b then "true" else "false").toList (.boolean b) := by
  cases b <;> exact fun _ _ _ => rfl

theorem reads_null : Reads "null".toList .null := fun _ _ _ => rfl

theorem exists_text (s : String) :
    ∃ pieces, text? pieces = some s ∧ Reads (writeText s) (.string pieces) := by
  obtain ⟨pieces, stands, reads⟩ := exists_pieces s
  refine ⟨pieces, stands, fun fuel rest _ => ?_⟩
  have text : writeText s ++ rest = '"' :: (s.toList.flatMap writeChar ++ '"' :: rest) := by
    simp [writeText]
  rw [text, readValue, skip_cons _ (by decide)]
  show (readPieces .between _).map _ = _
  rw [reads]
  rfl

end Scalars

-- What is written under a name, and what it is read as.
structure Member where
  name : String
  text : List Char
  value : Json
  reads : Reads text value

section Objects

def Member.write (m : Member) : List Char := writeMember m.name m.text

def writeMembers (members : List Member) : List Char := [','].intercalate (members.map Member.write)

theorem writeMembers_cons (m next : Member) (others : List Member) :
    writeMembers (m :: next :: others) = m.write ++ ',' :: writeMembers (next :: others) := by
  rw [writeMembers, List.map_cons, List.map_cons, List.intercalate_cons_cons, List.append_assoc]
  rfl

theorem ends_of_mark {c : Char} (rest : List Char) (mark : c = ',' ∨ c = '\x7d') :
    Ends (c :: rest) := by
  rintro d ⟨⟩
  obtain rfl | rfl := mark <;> decide

theorem readMembers_member (m : Member) :
    ∃ pieces, text? pieces = some m.name ∧ ∀ fuel rest,
      readMembers (fuel + 2) (m.write ++ ',' :: rest) =
          (readMembers (fuel + 1) rest).map (fun (parsed, after) =>
            ((pieces, m.value) :: parsed, after)) ∧
        readMembers (fuel + 2) (m.write ++ '\x7d' :: rest) =
          some ([(pieces, m.value)], rest) := by
  obtain ⟨pieces, stands, named⟩ := exists_pieces m.name
  have text (rest : List Char) : m.write ++ rest =
      '"' :: (m.name.toList.flatMap writeChar ++ '"' :: ':' :: (m.text ++ rest)) := by
    simp [Member.write, writeMember, writeText]
  have colon (rest : List Char) : skip (':' :: rest) = ':' :: rest := skip_cons _ (by decide)
  refine ⟨pieces, stands, fun fuel rest => ⟨?_, ?_⟩⟩
  · have value := m.reads fuel _ (ends_of_mark rest (.inl rfl))
    rw [text, readMembers, skip_cons _ (by decide)]
    simp only [named, colon, value, Option.bind_eq_bind, Option.bind_some]
    rw [skip_cons _ (by decide)]
    show (readMembers (fuel + 1) rest).bind _ = _
    cases readMembers (fuel + 1) rest <;> rfl
  · have value := m.reads fuel _ (ends_of_mark rest (.inr rfl))
    rw [text, readMembers, skip_cons _ (by decide)]
    simp only [named, colon, value, Option.bind_eq_bind, Option.bind_some]
    rw [skip_cons _ (by decide)]
    rfl

theorem exists_readMembers (m : Member) (others : List Member) :
    ∃ parsed, namedMembers parsed = some ((m :: others).map fun m => (m.name, m.value)) ∧
      ∀ fuel rest, others.length < fuel →
        readMembers (fuel + 1) (writeMembers (m :: others) ++ '\x7d' :: rest) =
          some (parsed, rest) := by
  -- Each member takes one step of the fuel, and its value another.
  induction others generalizing m with
  | nil =>
    obtain ⟨pieces, stands, reads⟩ := readMembers_member m
    refine ⟨[(pieces, m.value)], ?_, fun fuel rest enough => ?_⟩
    · simp [namedMembers, stands]
    · obtain ⟨fuel, rfl⟩ := Nat.exists_eq_add_of_le' (show 1 ≤ fuel from enough)
      rw [writeMembers, List.map_singleton, List.intercalate_singleton]
      exact (reads fuel rest).2
  | cons next others ih =>
    obtain ⟨pieces, stands, first⟩ := readMembers_member m
    obtain ⟨parsed, named, reads⟩ := ih next
    refine ⟨(pieces, m.value) :: parsed, ?_, fun fuel rest enough => ?_⟩
    · simp only [namedMembers] at named ⊢
      rw [List.mapM_cons, named, stands]
      rfl
    · rw [List.length_cons] at enough
      obtain ⟨fuel, rfl⟩ := Nat.exists_eq_add_of_le' (show 1 ≤ fuel by omega)
      rw [writeMembers_cons, List.append_assoc, List.cons_append, (first _ _).1,
        reads fuel rest (by omega)]
      rfl

theorem length_le_writeMembers (members : List Member) :
    members.length ≤ (writeMembers members).length := by
  match members with
  | [] => exact Nat.zero_le _
  | [m] => simp [writeMembers, Member.write, writeMember, writeText]
  | m :: next :: others =>
    have rest := length_le_writeMembers (next :: others)
    simp only [writeMembers_cons, List.length_append, List.length_cons] at rest ⊢
    omega

theorem exists_parse (members : List Member) :
    ∃ parsed, namedMembers parsed = some (members.map fun m => (m.name, m.value)) ∧
      parse (String.ofList (writeObject (members.map fun m => (m.name, m.text)))) =
        some (.object parsed) := by
  have text : writeObject (members.map fun m => (m.name, m.text)) =
      '\x7b' :: (writeMembers members ++ ['\x7d']) := by
    simp only [writeObject, List.map_map]
    rfl
  have enough := length_le_writeMembers members
  suffices whole : ∃ parsed, namedMembers parsed = some (members.map fun m => (m.name, m.value)) ∧
      ∀ fuel, members.length < fuel →
        readValue (fuel + 1) ('\x7b' :: (writeMembers members ++ ['\x7d'])) =
          some (.object parsed, []) by
    obtain ⟨parsed, named, reads⟩ := whole
    refine ⟨parsed, named, ?_⟩
    rw [text, parse, String.toList_ofList]
    simp only [reads _ (show members.length < 2 * ('\x7b' :: (writeMembers members ++
      ['\x7d'])).length + 1 by simp; omega), Option.bind_eq_bind, Option.bind_some]
    rfl
  cases members with
  | nil => exact ⟨[], rfl, fun fuel _ => rfl⟩
  | cons m others =>
    obtain ⟨parsed, named, reads⟩ := exists_readMembers m others
    obtain ⟨tail, front⟩ : ∃ tail, writeMembers (m :: others) = '"' :: tail := by
      cases others <;> exact ⟨_, rfl⟩
    refine ⟨parsed, named, fun fuel more => ?_⟩
    obtain ⟨fuel, rfl⟩ := Nat.exists_eq_add_of_le' (show 1 ≤ fuel by omega)
    have read := reads fuel [] (by rw [List.length_cons] at more; omega)
    rw [front, List.cons_append] at read ⊢
    rw [readValue, skip_cons _ (by decide)]
    show (readMembers (fuel + 1) ('"' :: (tail ++ ['\x7d']))).map _ = _
    rw [read]
    rfl

end Objects

end BulkSync.Json
