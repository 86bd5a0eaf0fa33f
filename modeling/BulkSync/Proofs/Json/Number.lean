import BulkSync.Json.Form
import BulkSync.Proofs.Decimal.Shortest

set_option autoImplicit false

namespace BulkSync.Json

open Decimal (Style Finite)

section Digits

variable {ds rest : List Char}

structure Digits (ds : List Char) : Prop where
  some : ds ≠ []
  all : ∀ c ∈ ds, c.isDigit

theorem digitsValue_eq (ds : List Char) : digitsValue ds = Nat.ofDigitChars 10 ds 0 := by
  simp only [digitsValue, Nat.ofDigitChars, Nat.mul_comm 10]

theorem digitsValue_toDigits (n : Nat) : digitsValue (Nat.toDigits 10 n) = n := by
  rw [digitsValue_eq, Nat.ofDigitChars_ten_toDigits]

theorem digits_toDigits (n : Nat) : Digits (Nat.toDigits 10 n) where
  some := Nat.toDigits_ne_nil
  all _ member := Nat.isDigit_of_mem_toDigits (by decide) (by decide) member

theorem head_toDigits {n : Nat} (positive : 0 < n) : (Nat.toDigits 10 n).head? ≠ some '0' := by
  induction n using Nat.strongRecOn with
  | ind n ih =>
    by_cases one : n < 10
    · rw [Nat.toDigits_of_lt_base one]
      have nonzero : ∀ d < 10, 0 < d → d.digitChar ≠ '0' := by decide
      simpa using nonzero n one positive
    · rw [Nat.toDigits_of_base_le (by decide) (not_lt.1 one),
        List.head?_append_of_ne_nil _ Nat.toDigits_ne_nil]
      exact ih (n / 10) (by omega) (by omega)

theorem readDigits_append (digits : Digits ds) (stop : ∀ c ∈ rest.head?, ¬c.isDigit) :
    readDigits (ds ++ rest) = some (ds, rest) := by
  have stopped : rest.takeWhile Char.isDigit = [] ∧ rest.dropWhile Char.isDigit = rest := by
    cases rest with
    | nil => exact ⟨rfl, rfl⟩
    | cons c rest => simp [stop c rfl]
  rw [readDigits, List.takeWhile_append_of_pos digits.all, List.dropWhile_append_of_pos digits.all,
    stopped.1, stopped.2, List.append_nil]
  obtain ⟨first, others, rfl⟩ := List.exists_cons_of_ne_nil digits.some
  rfl

end Digits

structure Numeral where
  negative : Bool
  whole : List Char
  fraction : Option (List Char)
  exponent : Option Int

-- Nothing here could be a part of a number in front.
def Ends (rest : List Char) : Prop :=
  ∀ c ∈ rest.head?, ¬c.isDigit ∧ c ≠ '.' ∧ c ≠ 'e' ∧ c ≠ 'E'

namespace Numeral

def writeExponent (e : Int) : List Char :=
  'e' :: (if e < 0 then '-' else '+') :: Nat.toDigits 10 e.natAbs

def unsigned (n : Numeral) : List Char :=
  n.whole ++ (n.fraction.elim [] ('.' :: ·) ++ n.exponent.elim [] writeExponent)

def text (n : Numeral) : List Char := Style.signed n.negative n.unsigned

def places (n : Numeral) : List Char := n.fraction.getD []

def number (n : Numeral) : Number where
  negative := n.negative
  mantissa := digitsValue (n.whole ++ n.places)
  exponent := n.exponent.getD 0 - n.places.length
  integral := n.fraction.isNone && n.exponent.isNone

structure Proper (n : Numeral) : Prop where
  whole : Digits n.whole
  leading : n.whole.head? = some '0' → n.whole = ['0']
  fraction : ∀ places ∈ n.fraction, Digits places

variable {n : Numeral} {rest : List Char}

theorem readWhole_append {ds : List Char} (digits : Digits ds)
    (leading : ds.head? = some '0' → ds = ['0']) (stop : ∀ c ∈ rest.head?, ¬c.isDigit) :
    readWhole (ds ++ rest) = some (ds, rest) := by
  by_cases zero : ds.head? = some '0'
  · rw [leading zero]
    have stopped : ¬rest.head?.any Char.isDigit := by
      cases rest with
      | nil => exact Bool.false_ne_true
      | cons c _ => exact stop c rfl
    exact if_neg stopped
  · obtain ⟨first, others, rfl⟩ := List.exists_cons_of_ne_nil digits.some
    have nonzero : first ≠ '0' := fun same => zero (congrArg some same)
    rw [readWhole]
    · exact readDigits_append digits stop
    · rintro others' same
      exact nonzero (List.cons.inj same).1

theorem readFraction_append {fraction : Option (List Char)}
    (proper : ∀ places ∈ fraction, Digits places)
    (stop : ∀ c ∈ rest.head?, ¬c.isDigit ∧ c ≠ '.') :
    readFraction (fraction.elim [] ('.' :: ·) ++ rest) = some (fraction, rest) := by
  cases fraction with
  | none =>
    show readFraction rest = some (none, rest)
    rw [readFraction]
    rintro others rfl
    exact (stop '.' rfl).2 rfl
  | some places =>
    show (readDigits (places ++ rest)).map _ = _
    rw [readDigits_append (proper places rfl) fun c head => (stop c head).1]
    rfl

theorem readExponent_append (exponent : Option Int) (ends : Ends rest) :
    readExponent (exponent.elim [] writeExponent ++ rest) = some (exponent, rest) := by
  cases exponent with
  | none =>
    show readExponent rest = some (none, rest)
    rw [readExponent]
    · rintro others rfl
      exact (ends 'e' rfl).2.2.1 rfl
    · rintro others rfl
      exact (ends 'E' rfl).2.2.2 rfl
  | some e =>
    have digits := readDigits_append (digits_toDigits e.natAbs) fun c head => (ends c head).1
    show (readSigned ((if e < 0 then '-' else '+') :: (Nat.toDigits 10 e.natAbs ++ rest))).map _ = _
    split
    next below =>
      rw [readSigned, digits]
      simp only [Option.map_some, digitsValue_toDigits]
      congr 3
      omega
    next below =>
      rw [readSigned, digits]
      simp only [Option.map_some, digitsValue_toDigits]
      congr 3
      omega

theorem Proper.readUnsigned (proper : n.Proper) (ends : Ends rest) :
    readUnsigned n.negative (n.unsigned ++ rest) = some (n.number, rest) := by
  have exponent : ∀ c ∈ (n.exponent.elim [] writeExponent ++ rest).head?,
      ¬c.isDigit ∧ c ≠ '.' := by
    cases n.exponent with
    | none => exact fun c head => ⟨(ends c head).1, (ends c head).2.1⟩
    | some e => rintro c ⟨⟩; decide
  have fraction : ∀ c ∈ (n.fraction.elim [] ('.' :: ·) ++
      (n.exponent.elim [] writeExponent ++ rest)).head?, ¬c.isDigit := by
    cases n.fraction with
    | none => exact fun c head => (exponent c head).1
    | some places => rintro c ⟨⟩; decide
  rw [unsigned, List.append_assoc, List.append_assoc]
  simp only [Json.readUnsigned, readWhole_append proper.whole proper.leading fraction,
    readFraction_append proper.fraction exponent, readExponent_append n.exponent ends,
    Option.bind_eq_bind, Option.bind_some]
  rfl

-- This tells a number from every other value.
theorem Proper.first (proper : n.Proper) :
    ∃ c others, n.text = c :: others ∧ (c = '-' ∨ c.isDigit) := by
  obtain ⟨first, others, whole⟩ := List.exists_cons_of_ne_nil proper.whole.some
  rw [text, unsigned, whole]
  cases n.negative with
  | true => exact ⟨_, _, rfl, .inl rfl⟩
  | false => exact ⟨first, _, rfl, .inr (proper.whole.all first (whole ▸ .head _))⟩

theorem Proper.readNumber (proper : n.Proper) (ends : Ends rest) :
    readNumber (n.text ++ rest) = some (n.number, rest) := by
  have read := proper.readUnsigned ends
  obtain ⟨first, others, whole⟩ := List.exists_cons_of_ne_nil proper.whole.some
  rw [text]
  cases sign : n.negative with
  | true =>
    rw [sign] at read
    exact read
  | false =>
    rw [sign] at read
    show Json.readNumber (n.unsigned ++ rest) = _
    rw [Json.readNumber]
    · exact read
    · intro others' same
      have digit := proper.whole.all first (whole ▸ .head _)
      rw [unsigned, whole] at same
      rw [(List.cons.inj same).1] at digit
      exact absurd digit (by decide)

end Numeral

def Number.value (n : Number) : ℚ := n.mantissa * 10 ^ n.exponent

structure Numeral.Denotes (n : Numeral) (f : Finite) : Prop where
  proper : n.Proper
  -- There is a fraction or an exponent.
  marked : n.number.integral = false
  value : n.number.value = f.value

theorem exists_integer (i : Int) :
    ∃ n : Numeral, n.text = writeInt i ∧ n.Proper ∧ n.number.int? = some i := by
  have digits := digits_toDigits i.natAbs
  refine ⟨⟨i < 0, Nat.toDigits 10 i.natAbs, none, none⟩, ?_, ⟨digits, ?_, ?_⟩, ?_⟩
  · rw [Numeral.text, writeInt, Numeral.unsigned]
    simp [Style.signed]
  · intro zero
    by_cases positive : 0 < i.natAbs
    · exact absurd zero (head_toDigits positive)
    · rw [show i.natAbs = 0 by omega]
      rfl
  · rintro _ ⟨⟩
  · have value : digitsValue (Nat.toDigits 10 i.natAbs ++ []) = i.natAbs := by
      rw [List.append_nil, digitsValue_toDigits]
    have unmarked : (decide (i < 0) && decide (i.natAbs = 0)) = false := by
      rw [Bool.and_eq_false_iff, decide_eq_false_iff_not, decide_eq_false_iff_not]
      omega
    simp only [Number.int?, Numeral.number, Numeral.places, Option.getD_none, value, unmarked,
      Option.isNone_none, Bool.and_self, Bool.not_true, Bool.or_self, Bool.false_eq_true, if_false,
      decide_eq_true_eq]
    congr 1
    split <;> omega

section Written

open Decimal.Style (zeros)

variable {f : Finite} {n : Numeral}

theorem digits_zeros {ds : List Char} (digits : Digits ds) (k : Nat) :
    Digits (ds ++ zeros k) ∧ Digits (zeros k ++ ds) := by
  have all : ∀ c ∈ zeros k, c.isDigit := fun c member => (List.eq_of_mem_replicate member) ▸ rfl
  refine ⟨⟨?_, ?_⟩, ⟨?_, ?_⟩⟩
  · exact List.append_ne_nil_of_left_ne_nil digits.some _
  · exact List.forall_mem_append.2 ⟨digits.all, all⟩
  · exact List.append_ne_nil_of_right_ne_nil _ digits.some
  · exact List.forall_mem_append.2 ⟨all, digits.all⟩

theorem digitsValue_zeros (ds : List Char) (k : Nat) :
    digitsValue (ds ++ zeros k) = digitsValue ds * 10 ^ k ∧
      digitsValue (zeros k ++ ds) = digitsValue ds := by
  simp only [digitsValue_eq, zeros, Nat.ofDigitChars_append, Nat.ofDigitChars_replicate_zero,
    mul_zero, and_true]
  exact Nat.mul_comm _ _

theorem digits_take {ds : List Char} (digits : Digits ds) {k : Nat} (positive : 0 < k) :
    Digits (ds.take k) where
  some empty := (List.take_eq_nil_iff.1 empty).elim (by omega) digits.some
  all c member := digits.all c (List.mem_of_mem_take member)

theorem digits_drop {ds : List Char} (digits : Digits ds) {k : Nat} (less : k < ds.length) :
    Digits (ds.drop k) where
  some empty := absurd (List.drop_eq_nil_iff.1 empty) (by omega)
  all c member := digits.all c (List.mem_of_mem_drop member)

-- Zeros at the end of the digits may be counted in the exponent.
theorem value_of_digits {k : Nat} (mantissa : n.number.mantissa = f.digits * 10 ^ k)
    (exponent : n.number.exponent = f.exponent - k) : n.number.value = f.value := by
  rw [Number.value, Finite.value, mantissa, exponent, zpow_sub₀ (by norm_num), zpow_natCast]
  push_cast
  field_simp

theorem denotes_fraction {whole places : List Char} {k : Nat} (negative : Bool)
    (front : Digits whole) (leading : whole.head? = some '0' → whole = ['0'])
    (back : Digits places) (value : digitsValue (whole ++ places) = f.digits * 10 ^ k)
    (exponent : f.exponent = k - places.length) :
    Numeral.Denotes ⟨negative, whole, some places, none⟩ f where
  proper := ⟨front, leading, by rintro _ ⟨⟩; exact back⟩
  marked := rfl
  value := by
    refine value_of_digits value ?_
    simp [Numeral.number, Numeral.places, exponent]

theorem exists_withPoint (positive : 0 < f.digits) (negative : Bool) :
    ∃ n : Numeral, n.negative = negative ∧ n.unsigned = Style.json.withPoint f ∧ n.Denotes f := by
  have digits := digits_toDigits f.digits
  have value := digitsValue_toDigits f.digits
  have leading := head_toDigits positive
  simp only [Style.withPoint]
  generalize Nat.toDigits 10 f.digits = ds at digits value leading
  split_ifs with whole inside
  · -- The point stands behind the zeros that the exponent asks for, and a zero behind the point.
    obtain ⟨k, exponent⟩ := Int.eq_ofNat_of_zero_le whole
    rw [exponent, Int.toNat_natCast]
    refine ⟨⟨negative, ds ++ zeros k, some (zeros 1), none⟩, rfl, rfl, ?_⟩
    have front : (ds ++ zeros k).head? = ds.head? := List.head?_append_of_ne_nil _ digits.some
    refine denotes_fraction (k := k + 1) negative (digits_zeros digits k).1
      (fun head => absurd (front ▸ head) leading) (digits_toDigits 0) ?_ ?_
    · rw [(digitsValue_zeros _ 1).1, (digitsValue_zeros ds k).1, value]
      ring
    · simp [exponent, zeros]
  · -- The point stands among the digits.
    obtain ⟨k, point⟩ := Int.eq_ofNat_of_zero_le inside.le
    rw [point, Int.toNat_natCast]
    refine ⟨⟨negative, ds.take k, some (ds.drop k), none⟩, rfl, by simp [Numeral.unsigned], ?_⟩
    have front : (ds.take k).head? = ds.head? := by rw [List.head?_take, if_neg (by omega)]
    refine denotes_fraction (k := 0) negative (digits_take digits (by omega))
      (fun head => absurd (front ▸ head) leading) (digits_drop digits (by omega)) ?_ ?_
    · rw [List.take_append_drop, value, pow_zero, mul_one]
    · rw [List.length_drop]
      omega
  · -- The point stands in front of all digits, and of zeros for want of them.
    obtain ⟨k, point⟩ := Int.eq_ofNat_of_zero_le (show 0 ≤ -(ds.length + f.exponent) by omega)
    rw [point, Int.toNat_natCast]
    refine ⟨⟨negative, zeros 1, some (zeros k ++ ds), none⟩, rfl, by simp [Numeral.unsigned, zeros],
      ?_⟩
    refine denotes_fraction (k := 0) negative (digits_toDigits 0) (fun _ => rfl)
      (digits_zeros digits k).2 ?_ ?_
    · rw [(digitsValue_zeros _ 1).2, (digitsValue_zeros ds k).2, value, pow_zero, mul_one]
    · simp only [zeros, List.length_append, List.length_replicate]
      omega

theorem writeExponent_eq (e : Int) :
    Numeral.writeExponent e =
      ['e'] ++ (if e < 0 then ['-'] else Style.json.positiveExponent.toList) ++
        Nat.toDigits 10 e.natAbs := by
  rw [Numeral.writeExponent]
  split <;> rfl

theorem exists_withExponent (positive : 0 < f.digits) (negative : Bool) :
    ∃ n : Numeral, n.negative = negative ∧ n.unsigned = Style.json.withExponent f ∧
      n.Denotes f := by
  have digits := digits_toDigits f.digits
  have value := digitsValue_toDigits f.digits
  have leading := head_toDigits positive
  simp only [Style.withExponent]
  generalize Nat.toDigits 10 f.digits = ds at digits value leading
  obtain ⟨e, exponent⟩ : ∃ e : Int, ds.length + f.exponent - 1 = e := ⟨_, rfl⟩
  rw [exponent]
  obtain ⟨first, others, rfl⟩ := List.exists_cons_of_ne_nil digits.some
  have front : Digits [first] := digits_take digits Nat.one_pos
  have single : [first].head? = some '0' → [first] = ['0'] := fun head => absurd head leading
  cases others with
  | nil =>
    refine ⟨⟨negative, [first], none, some e⟩, rfl, ?_, ⟨⟨front, single, ?_⟩, rfl, ?_⟩⟩
    · simp [Numeral.unsigned, writeExponent_eq]
    · rintro _ ⟨⟩
    · refine value_of_digits (k := 0) (value.trans (by ring)) ?_
      simp [Numeral.number, Numeral.places, ← exponent]
  | cons second others =>
    refine ⟨⟨negative, [first], some (second :: others), some e⟩, rfl, ?_,
      ⟨⟨front, single, ?_⟩, rfl, ?_⟩⟩
    · simp [Numeral.unsigned, writeExponent_eq]
    · rintro _ ⟨⟩
      exact digits_drop (k := 1) digits (by simp)
    · refine value_of_digits (k := 0) (value.trans (by ring)) ?_
      simp [Numeral.number, Numeral.places, ← exponent]
      ring

theorem exists_finite (positive : 0 < f.digits) (negative : Bool) :
    ∃ n : Numeral, n.negative = negative ∧ n.text = Style.signed negative (Style.json.finite f) ∧
      n.Denotes f := by
  rw [Style.finite]
  split
  next =>
    obtain ⟨n, rfl, text, denotes⟩ := exists_withPoint positive negative
    exact ⟨n, rfl, text ▸ rfl, denotes⟩
  next =>
    obtain ⟨n, rfl, text, denotes⟩ := exists_withExponent positive negative
    exact ⟨n, rfl, text ▸ rfl, denotes⟩

end Written

section Read

variable {d : Decimal.Dyadic} (double : d.Double)

theorem neg_float : -Decimal.float double false = Decimal.float double true :=
  congrArg (Float.ofModel ∘ Float.Model.pack ∘ Float.Model.UnpackedFloat.neg)
    (Decimal.unpack_pack double .positive)

theorem isInf_float (negative : Bool) : (Decimal.float double negative).isInf = false :=
  congrArg Float.Model.UnpackedFloat.isInf (Decimal.unpack_pack double (Decimal.signOf negative))

theorem float?_of_near {n : Number} (positive : 0 < n.mantissa) (near : d.Near n.value) :
    n.float? = some (Decimal.float double n.negative) := by
  obtain ⟨low, high⟩ := Decimal.magnitude_of_near double positive near
  have read := Decimal.ofScientific_of_near double positive near
  have within : ¬(Number.reach : Int) < (Nat.toDigits 10 n.mantissa).length + n.exponent := by
    simp only [Number.reach]
    omega
  have visible :
      ¬((Nat.toDigits 10 n.mantissa).length + n.exponent : Int) < -(Number.reach : Int) := by
    simp only [Number.reach]
    omega
  simp only [Number.float?, Nat.ne_of_gt positive, within, visible, if_false, read,
    isInf_float double false, Bool.false_eq_true]
  cases n.negative with
  | true => exact congrArg some (neg_float double)
  | false => rfl

end Read

theorem exists_float {x : Float} (finite : x.isFinite) :
    ∃ n : Numeral, n.text = writeFloat x ∧ n.Proper ∧ n.number.integral = false ∧
      n.number.float? = some x := by
  have parts := Decimal.parts_of x
  have same := Decimal.ofModel_pack_unpack x
  have finite : x.toModel.unpack.isFinite := finite
  rw [writeFloat, Style.format, String.toList_ofList]
  generalize Decimal.Parts.ofBits x.toBits = found, x.toModel.unpack = unpacked
    at parts same finite ⊢
  cases parts with
  | nan => cases finite
  | infinite => cases finite
  | zero negative =>
    refine ⟨⟨negative, ['0'], some ['0'], none⟩, rfl, ⟨digits_toDigits 0, fun _ => rfl, ?_⟩, rfl,
      ?_⟩
    · rintro _ ⟨⟩
      exact digits_toDigits 0
    · rw [← same]
      cases negative <;> rfl
  | @finite negative d double =>
    have legible := Decimal.legible_shortest double .even
    obtain ⟨n, rfl, text, denotes⟩ := exists_finite legible.positive negative
    have near : d.Near n.number.value := denotes.value ▸ legible.near
    have positive : 0 < n.number.mantissa :=
      Decimal.digits_pos_of_near double (f := ⟨n.number.mantissa, n.number.exponent⟩) near
    exact ⟨n, text, denotes.proper, denotes.marked, same ▸ float?_of_near double positive near⟩

theorem writeFloat_of_not_finite {x : Float} (infinite : x.isFinite = false) :
    writeFloat x = "null".toList := by
  have parts := Decimal.parts_of x
  have infinite : x.toModel.unpack.isFinite = false := infinite
  rw [writeFloat, Style.format, String.toList_ofList]
  generalize Decimal.Parts.ofBits x.toBits = found, x.toModel.unpack = unpacked at parts infinite ⊢
  cases parts with
  | nan => rfl
  | infinite => rfl
  | zero => cases infinite
  | finite => cases infinite

end BulkSync.Json
