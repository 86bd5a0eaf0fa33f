import BulkSync.Proofs.Except
import BulkSync.Text.Utf8
import Mathlib.Algebra.Group.Nat.Defs

set_option autoImplicit false

namespace BulkSync.Text.Utf8

-- The byte of a code point that `left` more bytes follow, if it is not the first one.
def tail (code left : Nat) : UInt8 := (0x80 + code / 0x40 ^ left % 0x40).toUInt8

@[simp]
theorem toNat_tail (code left : Nat) :
    (tail code left).toNat = 0x80 + code / 0x40 ^ left % 0x40 := by
  simp [tail]
  omega

def continuation (code : Nat) : (owed : Nat) → List UInt8
  | 0 => []
  | owed + 1 => tail code owed :: continuation code owed

-- A character that has begun can still become `code`.
structure Begun.Expects (p : Begun) (code : Nat) : Prop where
  bits : code / 0x40 ^ p.owed = p.bits
  owed : 0 < p.owed
  low : p.low.toNat ≤ (tail code (p.owed - 1)).toNat
  high : (tail code (p.owed - 1)).toNat ≤ p.high.toNat

-- Whatever the character becomes, the bytes read so far are those it begins with.
structure Begun.Follows (p : Begun) (before : List UInt8) : Prop where
  owed : 0 < p.owed
  low : 0x80 ≤ p.low.toNat
  high : p.high.toNat ≤ 0xbf
  code : ∀ code, p.Expects code →
    code.isValidChar ∧ encodeCode code = before ++ continuation code p.owed

section Begin

-- What the first of two, three and four bytes announces, by the bits it carries.
def Begun.two (lead : Nat) : Begun := ⟨lead, 1, 1, 0x80, 0xbf⟩

def Begun.three (lead : Nat) : Begun :=
  ⟨lead, 1, 2, if lead = 0 then 0xa0 else 0x80, if lead = 0xd then 0x9f else 0xbf⟩

def Begun.four (lead : Nat) : Begun :=
  ⟨lead, 1, 3, if lead = 0 then 0x90 else 0x80, if lead = 4 then 0x8f else 0xbf⟩

theorem begin?_eq (b : UInt8) :
    begin? b =
      if b.toNat < 0xc2 then none
      else if b.toNat < 0xe0 then some (.two (b.toNat - 0xc0))
      else if b.toNat < 0xf0 then some (.three (b.toNat - 0xe0))
      else if b.toNat < 0xf5 then some (.four (b.toNat - 0xf0))
      else none := by
  simp only [begin?, UInt8.lt_iff_toNat_lt, ← UInt8.toNat_inj, UInt8.reduceToNat]
  grind [Begun.two, Begun.three, Begun.four]

theorem begin?_eq_some_iff {b : UInt8} {p : Begun} :
    begin? b = some p ↔
      (∃ lead, 2 ≤ lead ∧ lead < 0x20 ∧ b.toNat = 0xc0 + lead ∧ p = .two lead) ∨
        (∃ lead < 0x10, b.toNat = 0xe0 + lead ∧ p = .three lead) ∨
        ∃ lead < 5, b.toNat = 0xf0 + lead ∧ p = .four lead := by
  rw [begin?_eq]
  constructor
  · intro begun
    split at begun
    · cases begun
    split at begun
    · obtain rfl := Option.some.inj begun
      exact .inl ⟨b.toNat - 0xc0, by omega, by omega, by omega, rfl⟩
    split at begun
    · obtain rfl := Option.some.inj begun
      exact .inr (.inl ⟨b.toNat - 0xe0, by omega, by omega, rfl⟩)
    split at begun
    · obtain rfl := Option.some.inj begun
      exact .inr (.inr ⟨b.toNat - 0xf0, by omega, by omega, rfl⟩)
    · cases begun
  · rintro (⟨lead, low, high, first, rfl⟩ | ⟨lead, high, first, rfl⟩ | ⟨lead, high, first, rfl⟩)
    all_goals
      rw [first, Nat.add_sub_cancel_left]
      grind

variable {code : Nat}

theorem encodeCode_two (low : 0x80 ≤ code) (high : code < 0x800) :
    encodeCode code = (0xc0 + code / 0x40 ^ 1).toUInt8 :: continuation code 1 := by
  simp [encodeCode, continuation, tail, Nat.not_lt.2 low, high]

theorem encodeCode_three (low : 0x800 ≤ code) (high : code < 0x10000) :
    encodeCode code = (0xe0 + code / 0x40 ^ 2).toUInt8 :: continuation code 2 := by
  have : ¬code < 0x80 := by omega
  simp [encodeCode, continuation, tail, Nat.not_lt.2 low, high, this]

theorem encodeCode_four (low : 0x10000 ≤ code) :
    encodeCode code = (0xf0 + code / 0x40 ^ 3).toUInt8 :: continuation code 3 := by
  have : ¬code < 0x80 := by omega
  have : ¬code < 0x800 := by omega
  simp [encodeCode, continuation, tail, Nat.not_lt.2 low, *]

theorem expects_two : (Begun.two (code / 0x40 ^ 1)).Expects code where
  bits := rfl
  owed := Nat.one_pos
  low := by simp [Begun.two]
  high := by
    simp [Begun.two]
    omega

theorem expects_three (valid : code.isValidChar) (low : 0x800 ≤ code) (high : code < 0x10000) :
    (Begun.three (code / 0x40 ^ 2)).Expects code := by
  unfold Nat.isValidChar at valid
  refine ⟨rfl, Nat.two_pos, ?_, ?_⟩
  all_goals
    dsimp only [Begun.three]
    split <;> simp <;> omega

theorem expects_four (valid : code.isValidChar) (low : 0x10000 ≤ code) :
    (Begun.four (code / 0x40 ^ 3)).Expects code := by
  unfold Nat.isValidChar at valid
  refine ⟨rfl, Nat.succ_pos 2, ?_, ?_⟩
  all_goals
    dsimp only [Begun.four]
    split <;> simp <;> omega

theorem expects_begin (valid : code.isValidChar) (long : 0x80 ≤ code) :
    ∃ b p, encodeCode code = b :: continuation code p.owed ∧ 0x80 ≤ b.toNat ∧
      begin? b = some p ∧ p.Expects code := by
  have byte {n : Nat} (small : n < 0x100) : n.toUInt8.toNat = n := by simpa using small
  have within := valid
  unfold Nat.isValidChar at within
  rcases Nat.lt_or_ge code 0x800 with two | more
  · have first := byte (n := 0xc0 + code / 0x40 ^ 1) (by omega)
    exact ⟨_, .two (code / 0x40 ^ 1), encodeCode_two long two, by omega,
      begin?_eq_some_iff.2 (.inl ⟨_, by omega, by omega, first, rfl⟩), expects_two⟩
  rcases Nat.lt_or_ge code 0x10000 with three | many
  · have first := byte (n := 0xe0 + code / 0x40 ^ 2) (by omega)
    exact ⟨_, .three (code / 0x40 ^ 2), encodeCode_three more three, by omega,
      begin?_eq_some_iff.2 (.inr (.inl ⟨_, by omega, first, rfl⟩)),
      expects_three valid more three⟩
  · have first := byte (n := 0xf0 + code / 0x40 ^ 3) (by omega)
    exact ⟨_, .four (code / 0x40 ^ 3), encodeCode_four many, by omega,
      begin?_eq_some_iff.2 (.inr (.inr ⟨_, by omega, first, rfl⟩)), expects_four valid many⟩

-- The bounds of the second byte keep out what is too short, the surrogates and what is too large.
theorem valid_of_expects_three {lead : Nat} (high : lead < 0x10)
    (expects : (Begun.three lead).Expects code) :
    code.isValidChar ∧ 0x800 ≤ code ∧ code < 0x10000 := by
  obtain ⟨bits, -, least, most⟩ := expects
  simp only [toNat_tail, Begun.three] at bits least most
  have shortest (is : lead = 0) : 0xa0 ≤ 0x80 + code / 0x40 % 0x40 := by simpa [is] using least
  have surrogate (is : lead = 0xd) : 0x80 + code / 0x40 % 0x40 ≤ 0x9f := by
    simpa [is] using most
  unfold Nat.isValidChar
  omega

theorem valid_of_expects_four {lead : Nat} (high : lead < 5)
    (expects : (Begun.four lead).Expects code) : code.isValidChar ∧ 0x10000 ≤ code := by
  obtain ⟨bits, -, least, most⟩ := expects
  simp only [toNat_tail, Begun.four] at bits least most
  have shortest (is : lead = 0) : 0x90 ≤ 0x80 + code / 0x1000 % 0x40 := by
    simpa [is] using least
  have largest (is : lead = 4) : 0x80 + code / 0x1000 % 0x40 ≤ 0x8f := by simpa [is] using most
  unfold Nat.isValidChar
  omega

theorem follows_begin {b : UInt8} {p : Begun} (begun : begin? b = some p) : p.Follows [b] := by
  have same {n : Nat} (first : b.toNat = n) : n.toUInt8 = b := by simp [← first]
  rcases begin?_eq_some_iff.1 begun with
    ⟨lead, low, high, first, rfl⟩ | ⟨lead, high, first, rfl⟩ | ⟨lead, high, first, rfl⟩
  · refine ⟨Nat.one_pos, by simp [Begun.two], by simp [Begun.two], fun code expects => ?_⟩
    have bits : code / 0x40 ^ 1 = lead := expects.bits
    refine ⟨.inl (by omega), ?_⟩
    rw [encodeCode_two (by omega) (by omega), bits, same first]
    rfl
  · refine ⟨Nat.two_pos, ?_, ?_, fun code expects => ?_⟩
    · dsimp only [Begun.three]
      split <;> simp
    · dsimp only [Begun.three]
      split <;> simp
    · have bits : code / 0x40 ^ 2 = lead := expects.bits
      obtain ⟨valid, low, short⟩ := valid_of_expects_three high expects
      refine ⟨valid, ?_⟩
      rw [encodeCode_three low short, bits, same first]
      rfl
  · refine ⟨Nat.succ_pos 2, ?_, ?_, fun code expects => ?_⟩
    · dsimp only [Begun.four]
      split <;> simp
    · dsimp only [Begun.four]
      split <;> simp
    · have bits : code / 0x40 ^ 3 = lead := expects.bits
      obtain ⟨valid, low⟩ := valid_of_expects_four high expects
      refine ⟨valid, ?_⟩
      rw [encodeCode_four low, bits, same first]
      rfl

end Begin

section Next

def Begun.next (p : Begun) (b : UInt8) : Begun :=
  ⟨p.bits * 0x40 + (b.toNat - 0x80), p.read + 1, p.owed - 1, 0x80, 0xbf⟩

variable {p : Begun} {b : UInt8} {code : Nat}

theorem bits_next (p : Begun) (b : UInt8) :
    (p.next b).bits = p.bits * 0x40 + (b.toNat - 0x80) := rfl

theorem owed_next (p : Begun) (b : UInt8) : (p.next b).owed = p.owed - 1 := rfl

theorem decodeFrom_of_begun (start : Nat) (rest : List UInt8) :
    decodeFrom start (some p) (b :: rest) =
      if p.low ≤ b ∧ b ≤ p.high then
        if p.owed ≤ 1 then
          (decodeFrom (start + p.read + 1) none rest).map (Char.ofNat (p.next b).bits :: ·)
        else decodeFrom start (some (p.next b)) rest
      else .error ⟨start, .invalid p.read⟩ := rfl

-- One more byte fixes six more bits.
theorem bits_next_iff (owed : 0 < p.owed) (low : 0x80 ≤ b.toNat) (high : b.toNat ≤ 0xbf) :
    code / 0x40 ^ (p.owed - 1) = (p.next b).bits ↔
      code / 0x40 ^ p.owed = p.bits ∧ tail code (p.owed - 1) = b := by
  obtain ⟨more, owed⟩ := Nat.exists_eq_add_one.2 owed
  rw [bits_next, ← UInt8.toNat_inj, toNat_tail, owed, Nat.add_sub_cancel, Nat.pow_succ,
    ← Nat.div_div_eq_div_mul]
  omega

section Expects

variable (expects : p.Expects code)
include expects

theorem Begun.Expects.within : p.low ≤ tail code (p.owed - 1) ∧ tail code (p.owed - 1) ≤ p.high :=
  ⟨UInt8.le_iff_toNat_le.2 expects.low, UInt8.le_iff_toNat_le.2 expects.high⟩

theorem Begun.Expects.bits_next :
    code / 0x40 ^ (p.owed - 1) = (p.next (tail code (p.owed - 1))).bits := by
  refine (bits_next_iff expects.owed ?_ ?_).2 ⟨expects.bits, rfl⟩
  · simp
  · rw [toNat_tail]
    omega

theorem Begun.Expects.next (more : 1 < p.owed) :
    (p.next (tail code (p.owed - 1))).Expects code where
  bits := expects.bits_next
  owed := Nat.sub_pos_of_lt more
  low := by
    rw [toNat_tail]
    exact Nat.le_add_right 0x80 _
  high := by
    rw [toNat_tail]
    show _ ≤ 0xbf
    omega

end Expects

section Follows

variable {before : List UInt8} (follows : p.Follows before) (low : p.low ≤ b) (high : b ≤ p.high)
include follows low high

theorem Begun.Follows.expects (bits : code / 0x40 ^ (p.owed - 1) = (p.next b).bits) :
    p.Expects code ∧ tail code (p.owed - 1) = b := by
  have low := UInt8.le_iff_toNat_le.1 low
  have high := UInt8.le_iff_toNat_le.1 high
  obtain ⟨before, rfl⟩ := (bits_next_iff follows.owed (Nat.le_trans follows.low low)
    (Nat.le_trans high follows.high)).1 bits
  exact ⟨⟨before, follows.owed, low, high⟩, rfl⟩

theorem Begun.Follows.encodeCode
    (bits : code / 0x40 ^ (p.owed - 1) = (p.next b).bits) :
    code.isValidChar ∧
      encodeCode code = before ++ [b] ++ continuation code (p.next b).owed := by
  obtain ⟨expects, rfl⟩ := follows.expects low high bits
  obtain ⟨valid, encoded⟩ := follows.code code expects
  obtain ⟨more, owed⟩ := Nat.exists_eq_add_one.2 follows.owed
  refine ⟨valid, ?_⟩
  rw [encoded, owed_next, owed, continuation, List.append_assoc]
  rfl

theorem Begun.Follows.next (more : 1 < p.owed) : (p.next b).Follows (before ++ [b]) where
  owed := Nat.sub_pos_of_lt more
  low := Nat.le_refl _
  high := Nat.le_refl _
  code _ expects := follows.encodeCode low high expects.bits

end Follows

end Next

section Decode

theorem decodeFrom_continuation {p : Begun} {code : Nat} (expects : p.Expects code) (start : Nat)
    (rest : List UInt8) :
    decodeFrom start (some p) (continuation code p.owed ++ rest) =
      if p.owed = 1 then (decodeFrom (start + p.read + 1) none rest).map (Char.ofNat code :: ·)
      else
        let q := p.next (tail code (p.owed - 1))
        decodeFrom start (some q) (continuation code q.owed ++ rest) := by
  obtain ⟨more, owed⟩ := Nat.exists_eq_add_one.2 expects.owed
  have split : continuation code p.owed = tail code (p.owed - 1) :: continuation code more := by
    rw [owed]
    rfl
  rw [split, List.cons_append, decodeFrom_of_begun, if_pos expects.within]
  by_cases last : p.owed = 1
  · obtain rfl : more = 0 := by omega
    have whole : (p.next (tail code (p.owed - 1))).bits = code := by
      rw [← expects.bits_next, last]
      exact Nat.div_one code
    rw [if_pos (Nat.le_of_eq last), if_pos last, whole]
    rfl
  · have left : (p.next (tail code (p.owed - 1))).owed = more := by
      rw [owed_next, owed, Nat.add_sub_cancel]
    rw [if_neg (by omega), if_neg last]
    simp only [left]

theorem decodeFrom_expects {p : Begun} {code : Nat} (expects : p.Expects code) (start : Nat)
    (rest : List UInt8) :
    ∃ later, decodeFrom start (some p) (continuation code p.owed ++ rest) =
      (decodeFrom later none rest).map (Char.ofNat code :: ·) := by
  obtain ⟨more, owed⟩ := Nat.exists_eq_add_one.2 expects.owed
  -- What is owed is taken byte by byte, and each of them keeps the code in reach.
  induction more generalizing p with
  | zero => exact ⟨_, (decodeFrom_continuation expects start rest).trans (if_pos owed)⟩
  | succ more ih =>
    have left : (p.next (tail code (p.owed - 1))).owed = more + 1 := by
      rw [owed_next, owed]
      rfl
    obtain ⟨later, read⟩ := ih (expects.next (by omega)) left
    exact ⟨later, (decodeFrom_continuation expects start rest).trans
      ((if_neg (by omega)).trans read)⟩

theorem decodeFrom_encode (cs : List Char) (start : Nat) :
    decodeFrom start none (encode cs) = .ok cs := by
  induction cs generalizing start with
  | nil => rfl
  | cons c rest ih =>
    have written : encode (c :: rest) = encodeCode c.toNat ++ encode rest := rfl
    have char : Char.ofNat c.toNat = c := Char.ofNat_toNat c
    rcases Nat.lt_or_ge c.toNat 0x80 with short | long
    · have byte : c.toNat.toUInt8.toNat = c.toNat := by
        simp
        omega
      have small : c.toNat.toUInt8 < 0x80 := by
        rw [UInt8.lt_iff_toNat_lt, byte]
        exact short
      have one : encodeCode c.toNat = [c.toNat.toUInt8] := if_pos short
      rw [written, one, List.singleton_append, decodeFrom, if_pos small, ih, byte, char]
      rfl
    · have valid : c.toNat.isValidChar := c.valid
      obtain ⟨b, p, bytes, high, begun, expects⟩ := expects_begin valid long
      obtain ⟨later, read⟩ := decodeFrom_expects expects start (encode rest)
      have first : ¬b < 0x80 := fun small => Nat.not_lt.2 high (UInt8.lt_iff_toNat_lt.1 small)
      rw [written, bytes, List.cons_append, decodeFrom, if_neg first, begun]
      simp only [read, ih, char]
      rfl

theorem encode_cons_ofNat {code : Nat} (valid : code.isValidChar) (cs : List Char) :
    encode (Char.ofNat code :: cs) = encodeCode code ++ encode cs := by
  have char : (Char.ofNat code).toNat = code := by
    rw [Char.ofNat, dif_pos valid]
    rfl
  show encodeCode (Char.ofNat code).toNat ++ encode cs = _
  rw [char]

theorem encode_of_decodeFrom (bytes : List UInt8) (start : Nat) (cs : List Char) :
    (decodeFrom start none bytes = .ok cs → encode cs = bytes) ∧
      ∀ p before, Begun.Follows p before → decodeFrom start (some p) bytes = .ok cs →
        encode cs = before ++ bytes := by
  induction bytes generalizing start cs with
  | nil =>
    refine ⟨fun read => ?_, fun p before _ read => ?_⟩
    · cases read
      rfl
    · cases read
  | cons b rest ih =>
    refine ⟨fun read => ?_, fun p before follows read => ?_⟩
    · rw [decodeFrom] at read
      split at read
      next small =>
        obtain ⟨later, more, rfl⟩ := map_eq_ok read
        have short : b.toNat < 0x80 := UInt8.lt_iff_toNat_lt.1 small
        rw [encode_cons_ofNat (.inl (by omega)), (ih (start + 1) later).1 more, encodeCode,
          if_pos short]
        simp
      next =>
        split at read
        next => cases read
        next p begun => exact (ih start cs).2 p [b] (follows_begin begun) read
    · rw [decodeFrom_of_begun] at read
      split at read
      next within =>
        obtain ⟨low, high⟩ := within
        split at read
        next last =>
          obtain ⟨later, more, rfl⟩ := map_eq_ok read
          have owed : p.owed = 1 := Nat.le_antisymm last follows.owed
          have whole : (p.next b).bits / 0x40 ^ (p.owed - 1) = (p.next b).bits := by
            rw [owed]
            exact Nat.div_one _
          obtain ⟨valid, encoded⟩ := follows.encodeCode low high whole
          rw [encode_cons_ofNat valid, encoded, owed_next, owed, (ih _ later).1 more]
          simp [continuation]
        next more =>
          have next := follows.next low high (Nat.lt_of_not_le more)
          simpa using (ih start cs).2 _ _ next read
      next => cases read

theorem decode_encode (cs : List Char) : decode (encode cs) = .ok cs := decodeFrom_encode cs 0

theorem encode_of_decode {bytes : List UInt8} {cs : List Char} (read : decode bytes = .ok cs) :
    encode cs = bytes :=
  (encode_of_decodeFrom bytes 0 cs).1 read

end Decode

end BulkSync.Text.Utf8
