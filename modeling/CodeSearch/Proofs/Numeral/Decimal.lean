import CodeSearch.Numeral.Shortest
import Mathlib.Algebra.Order.Field.Rat
import Mathlib.Tactic.FieldSimp
import Mathlib.Tactic.Ring

/-! # What a decimal text stands for

A decimal text is read back as a rational number. However the digits of a number are laid out, the
text stands for the digits times the power of ten that was asked for.
-/

namespace CodeSearch.Numeral

/-- The number that digits write. -/
def written (digits : List Char) : Nat := Nat.ofDigitChars 10 digits 0

/-- Nothing but digits. -/
def AreDigits (text : List Char) : Prop := ∀ c ∈ text, c.isDigit = true

theorem written_append (first second : List Char) :
    written (first ++ second) = written first * 10 ^ second.length + written second := by
  rw [written, Nat.ofDigitChars_append, Nat.ofDigitChars_eq_ofDigitChars_zero, Nat.mul_comm]
  rfl

@[simp] theorem written_replicate_zero (count : Nat) : written (List.replicate count '0') = 0 := by
  simp [written]

@[simp] theorem written_digits (n : Nat) : written (digits n) = n := Nat.ofDigitChars_ten_toDigits

theorem areDigits_digits (n : Nat) : AreDigits (digits n) :=
  fun _ member => Nat.isDigit_of_mem_toDigits (by decide) (by decide) member

theorem areDigits_replicate_zero (count : Nat) : AreDigits (List.replicate count '0') := by
  intro c member
  rw [List.eq_of_mem_replicate member]
  rfl

theorem AreDigits.append {first second : List Char} (digitsFirst : AreDigits first)
    (digitsSecond : AreDigits second) : AreDigits (first ++ second) := by
  intro c member
  rcases List.mem_append.mp member with inFirst | inSecond
  · exact digitsFirst c inFirst
  · exact digitsSecond c inSecond

theorem AreDigits.of_append {first second : List Char} (digits : AreDigits (first ++ second)) :
    AreDigits first ∧ AreDigits second :=
  ⟨fun c member => digits c (List.mem_append_left _ member),
    fun c member => digits c (List.mem_append_right _ member)⟩

/-- The digits in front of a text, and what follows them. -/
def spanDigitChars (text : List Char) : List Char × List Char :=
  (text.takeWhile Char.isDigit, text.dropWhile Char.isDigit)

theorem spanDigitChars_append {digits rest : List Char} (areDigits : AreDigits digits)
    (ends : rest.head?.any Char.isDigit = false) :
    spanDigitChars (digits ++ rest) = (digits, rest) := by
  rw [spanDigitChars, List.takeWhile_append_of_pos areDigits, List.dropWhile_append_of_pos areDigits]
  cases rest with
  | nil => simp
  | cons c rest =>
    have stops : ¬ c.isDigit = true := by simpa using ends
    rw [List.takeWhile_cons_of_neg stops, List.dropWhile_cons_of_neg stops, List.append_nil]

/-- The exponent at the end of a decimal text. -/
def tailExponent : List Char → Int
  | 'e' :: '-' :: digits => -(written digits : Int)
  | 'e' :: '+' :: digits => written digits
  | _ => 0

/-- The digits behind the point, and what follows them. -/
def spanBehind : List Char → List Char × List Char
  | '.' :: text => spanDigitChars text
  | text => ([], text)

/-- The number that a decimal text without a sign stands for. -/
def worth (text : List Char) : ℚ :=
  let (whole, rest) := spanDigitChars text
  let (behind, tail) := spanBehind rest
  written (whole ++ behind) * 10 ^ (tailExponent tail - behind.length)

theorem worth_point {whole behind tail : List Char} (digitsWhole : AreDigits whole)
    (digitsBehind : AreDigits behind) (ends : tail.head?.any Char.isDigit = false) :
    worth (whole ++ '.' :: (behind ++ tail)) =
      written (whole ++ behind) * 10 ^ (tailExponent tail - behind.length) := by
  rw [worth, spanDigitChars_append digitsWhole rfl]
  simp only [spanBehind]
  rw [spanDigitChars_append digitsBehind ends]

theorem worth_whole {whole tail : List Char} (digitsWhole : AreDigits whole) :
    worth (whole ++ 'e' :: tail) = written whole * 10 ^ tailExponent ('e' :: tail) := by
  rw [worth, spanDigitChars_append digitsWhole rfl]
  simp [spanBehind]

theorem written_padded (width n : Nat) : written (padded width n) = n := by
  simp [padded, written_append]

variable {shown : List Char}

private theorem worth_small (areDigits : AreDigits shown) (zeros : Nat) :
    worth (['0', '.'] ++ List.replicate zeros '0' ++ shown) =
      written shown * 10 ^ (-(zeros + shown.length : ℤ)) := by
  have behind : AreDigits (List.replicate zeros '0' ++ shown) :=
    (areDigits_replicate_zero zeros).append areDigits
  have shape : ['0', '.'] ++ List.replicate zeros '0' ++ shown =
      ['0'] ++ '.' :: (List.replicate zeros '0' ++ shown ++ []) := by simp
  have value : written (['0'] ++ (List.replicate zeros '0' ++ shown)) = written shown := by
    rw [← List.append_assoc, show ['0'] ++ List.replicate zeros '0' = List.replicate (zeros + 1) '0'
      from rfl, written_append, written_replicate_zero]
    simp
  have zero : AreDigits ['0'] := areDigits_replicate_zero 1
  rw [shape, worth_point zero behind rfl, value]
  simp [tailExponent]

private theorem worth_large (areDigits : AreDigits shown) (zeros : Nat) :
    worth (shown ++ List.replicate zeros '0' ++ ['.'] ++ ['0']) = written shown * 10 ^ zeros := by
  have whole : AreDigits (shown ++ List.replicate zeros '0') :=
    areDigits.append (areDigits_replicate_zero zeros)
  have shape : shown ++ List.replicate zeros '0' ++ ['.'] ++ ['0'] =
      (shown ++ List.replicate zeros '0') ++ '.' :: (List.replicate 1 '0' ++ []) := by simp
  rw [shape, worth_point whole (areDigits_replicate_zero 1) rfl, written_append, written_append,
    written_replicate_zero, written_replicate_zero]
  simp only [tailExponent, List.length_replicate]
  push_cast
  norm_num [mul_assoc]

private theorem worth_between (areDigits : AreDigits shown) {count : Nat}
    (inside : count ≤ shown.length) :
    worth (shown.take count ++ ['.'] ++ shown.drop count) =
      written shown * 10 ^ ((count : ℤ) - shown.length) := by
  have parts := (List.take_append_drop count shown).symm ▸ areDigits
  have shape : shown.take count ++ ['.'] ++ shown.drop count =
      shown.take count ++ '.' :: (shown.drop count ++ []) := by simp
  rw [shape, worth_point parts.of_append.1 parts.of_append.2 rfl, List.take_append_drop,
    List.length_drop]
  congr 2
  simp only [tailExponent]
  omega

private theorem tailExponent_mark (exponent : Int) :
    tailExponent ((if exponent < 0 then ['e', '-'] else ['e', '+']) ++ padded 2 exponent.natAbs) =
      exponent := by
  split
  · next negative =>
    change -(written (padded 2 exponent.natAbs) : ℤ) = exponent
    rw [written_padded]
    omega
  · next positive =>
    change (written (padded 2 exponent.natAbs) : ℤ) = exponent
    rw [written_padded]
    omega

private theorem worth_scientific (areDigits : AreDigits shown) (exponent : Int) :
    worth (shown.take 1 ++ (if shown.length ≤ 1 then [] else '.' :: shown.drop 1) ++
        (if exponent < 0 then ['e', '-'] else ['e', '+']) ++ padded 2 exponent.natAbs) =
      written shown * 10 ^ (exponent - (shown.length - 1 : Nat)) := by
  rw [List.append_assoc _ _ (padded _ _)]
  have told := tailExponent_mark exponent
  obtain ⟨tail, mark⟩ : ∃ tail, (if exponent < 0 then ['e', '-'] else ['e', '+']) ++
      padded 2 exponent.natAbs = 'e' :: tail := by
    split <;> exact ⟨_, rfl⟩
  rw [mark] at told ⊢
  split
  · next short =>
    rw [List.take_of_length_le short, List.append_nil, worth_whole areDigits, told]
    congr 2
    omega
  · next long =>
    have parts := (List.take_append_drop 1 shown).symm ▸ areDigits
    rw [List.append_assoc, List.cons_append, worth_point parts.of_append.1 parts.of_append.2 rfl,
      List.take_append_drop, told, List.length_drop]

/-- A text laid out in powers of ten stands for its digits, the first of which counts as often as
was asked for. -/
theorem worth_layOut (areDigits : AreDigits shown) (some : shown ≠ []) (exponent : Int) :
    worth (layOut shown exponent) = written shown * 10 ^ (exponent + 1 - shown.length) := by
  have length := List.length_pos_iff.mpr some
  unfold layOut
  split
  · split
    · next negative =>
      rw [worth_small areDigits]
      congr 2
      omega
    · next notNegative =>
      by_cases short : shown.length ≤ (exponent + 1).toNat
      · have filled : (shown ++ List.replicate ((exponent + 1).toNat - shown.length) '0').length ≤
            (exponent + 1).toNat := by simp; omega
        simp only [List.take_of_length_le filled, List.drop_of_length_le filled, List.isEmpty_nil,
          if_true]
        rw [worth_large areDigits, ← zpow_natCast]
        congr 2
        omega
      · have none : (exponent + 1).toNat - shown.length = 0 := by omega
        have behind : (shown.drop (exponent + 1).toNat).isEmpty = false := by simp; omega
        simp only [none, List.replicate_zero, List.append_nil, behind, Bool.false_eq_true, if_false]
        rw [worth_between areDigits (by omega)]
        congr 2
        omega
  · rw [worth_scientific areDigits]
    congr 2
    omega

end CodeSearch.Numeral
