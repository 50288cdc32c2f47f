import Mathlib.Algebra.BigOperators.Fin
import Mathlib.Data.Nat.ModEq
import Mathlib.Tactic.Ring
import CodeSearch.Embedding.Vector

/-! # Hashes as polynomials

The word that a token is hashed to is the value at thirty-one of the polynomial whose coefficients
are the UTF-16 units of the token, modulo `2 ^ 32`. What is proved of the loop is stated for any
value that it starts from, so that the hash of a joined text follows from the same equation. The
sign is dropped at the end, which leaves one value more than signed words have on their positive
side: `2 ^ 31`.
-/

namespace CodeSearch

/-! ## Units -/

/-- A text written in UTF-16: a character of the first plane is a unit of its own, any other one is
a high and a low unit that carry ten bits each. -/
inductive IsUtf16 : List Char → List ℕ → Prop where
  | nil : IsUtf16 [] []
  | single {c : Char} {text : List Char} {units : List ℕ} (plane : c.toNat < 0x10000)
      (rest : IsUtf16 text units) : IsUtf16 (c :: text) (c.toNat :: units)
  | pair {c : Char} {text : List Char} {units : List ℕ} {high low : ℕ} (highBits : high < 0x400)
      (lowBits : low < 0x400) (code : c.toNat = 0x10000 + high * 0x400 + low)
      (rest : IsUtf16 text units) :
      IsUtf16 (c :: text) ((0xD800 + high) :: (0xDC00 + low) :: units)

/-- The UTF-16 units of a token. -/
def codeUnits (token : String) : List UInt32 := token.toList.flatMap utf16Units

section Units

variable {c : Char} {high low : ℕ} {text : List Char} {units : List ℕ}

theorem map_toNat_utf16Units_of_lt (plane : c.toNat < 0x10000) :
    (utf16Units c).map UInt32.toNat = [c.toNat] := by
  have small : c.val < 0x10000 := UInt32.lt_iff_toNat_lt.mpr plane
  rw [utf16Units, if_pos small]
  rfl

theorem map_toNat_utf16Units_of_eq (highBits : high < 0x400) (lowBits : low < 0x400)
    (code : c.toNat = 0x10000 + high * 0x400 + low) :
    (utf16Units c).map UInt32.toNat = [0xD800 + high, 0xDC00 + low] := by
  have value : c.val.toNat = 0x10000 + high * 0x400 + low := code
  have large : (0x10000 : UInt32) ≤ c.val := UInt32.le_iff_toNat_le.mpr (by
    rw [value]
    exact Nat.le_trans (Nat.le_add_right _ _) (Nat.le_add_right _ _))
  have above : (c.val - 0x10000).toNat = high * 0x400 + low := by
    rw [UInt32.toNat_sub_of_le _ _ large, value, Nat.add_assoc]
    exact Nat.add_sub_cancel_left _ _
  have upper : ((c.val - 0x10000) >>> 10).toNat = high := by
    rw [UInt32.toNat_shiftRight, above]
    change (high * 0x400 + low) >>> 10 = high
    rw [Nat.shiftRight_eq_div_pow]
    omega
  have lower : ((c.val - 0x10000) &&& 0x3FF).toNat = low := by
    rw [UInt32.toNat_and, above]
    change (high * 0x400 + low) &&& (2 ^ 10 - 1) = low
    rw [Nat.and_two_pow_sub_one_eq_mod]
    omega
  rw [utf16Units, if_neg (UInt32.not_lt.mpr large)]
  simp only [List.map_cons, List.map_nil, UInt32.toNat_add, upper, lower]
  change [(0xD800 + high) % 2 ^ 32, (0xDC00 + low) % 2 ^ 32] = _
  rw [Nat.mod_eq_of_lt (by omega), Nat.mod_eq_of_lt (by omega)]

theorem isUtf16_flatMap (text : List Char) :
    IsUtf16 text ((text.flatMap utf16Units).map UInt32.toNat) := by
  induction text with
  | nil => exact .nil
  | cons c rest ih =>
    rw [List.flatMap_cons, List.map_append]
    by_cases plane : c.toNat < 0x10000
    · rw [map_toNat_utf16Units_of_lt plane]
      exact .single plane ih
    · have bound : c.toNat < 0x110000 := by
        rcases c.valid with below | ⟨-, below⟩
        · exact below.trans (by decide)
        · exact below
      have highBits : (c.toNat - 0x10000) / 0x400 < 0x400 := by omega
      have lowBits : (c.toNat - 0x10000) % 0x400 < 0x400 := Nat.mod_lt _ (by decide)
      have code : c.toNat =
          0x10000 + (c.toNat - 0x10000) / 0x400 * 0x400 + (c.toNat - 0x10000) % 0x400 := by
        omega
      rw [map_toNat_utf16Units_of_eq highBits lowBits code]
      exact .pair highBits lowBits code ih

/-- A text is written in one way only. -/
theorem isUtf16_iff :
    IsUtf16 text units ↔ units = (text.flatMap utf16Units).map UInt32.toNat := by
  constructor
  · intro written
    induction written with
    | nil => rfl
    | single plane _ ih =>
      rw [List.flatMap_cons, List.map_append, map_toNat_utf16Units_of_lt plane, ih]
      rfl
    | pair highBits lowBits code _ ih =>
      rw [List.flatMap_cons, List.map_append, map_toNat_utf16Units_of_eq highBits lowBits code, ih]
      rfl
  · rintro rfl
    exact isUtf16_flatMap text

theorem IsUtf16.lt (written : IsUtf16 text units) : ∀ unit ∈ units, unit < 0x10000 := by
  induction written with
  | nil => simp
  | single plane _ ih => exact List.forall_mem_cons.mpr ⟨plane, ih⟩
  | pair highBits lowBits _ _ ih =>
    exact List.forall_mem_cons.mpr ⟨by omega, List.forall_mem_cons.mpr ⟨by omega, ih⟩⟩

theorem codeUnits_append (token more : String) :
    codeUnits (token ++ more) = codeUnits token ++ codeUnits more := by
  rw [codeUnits, String.toList_append, List.flatMap_append]
  rfl

end Units

/-! ## Words -/

/-- The hash of a token before its sign is dropped. -/
def wordHash (token : String) : UInt32 := hashUnits (codeUnits token)

/-- The value at thirty-one of the polynomial with these coefficients, the last of which is that of
degree zero. -/
def unitPolynomial (units : List ℕ) : ℕ :=
  ∑ place : Fin units.length, units[place] * 31 ^ (units.length - 1 - place)

theorem unitPolynomial_cons (unit : ℕ) (units : List ℕ) :
    unitPolynomial (unit :: units) = unit * 31 ^ units.length + unitPolynomial units := by
  have degrees (place : Fin units.length) :
      units.length + 1 - 1 - (place.val + 1) = units.length - 1 - place.val := by
    omega
  simp only [unitPolynomial, List.length_cons]
  rw [Fin.sum_univ_succ]
  simp only [Fin.getElem_fin, Fin.val_zero, List.getElem_cons_zero, Fin.val_succ,
    List.getElem_cons_succ, degrees]
  rfl

/-- The shift and the subtraction multiply by thirty-one. -/
theorem hashStep_eq (value unit : UInt32) : hashStep value unit = value * 31 + unit := by
  have shifted : value <<< 5 = value * 32 := by
    apply UInt32.toNat_inj.mp
    rw [UInt32.toNat_shiftLeft, UInt32.toNat_mul, Nat.shiftLeft_eq]
    rfl
  rw [hashStep, shifted]
  grind

theorem toNat_hashStep (value unit : UInt32) :
    (hashStep value unit).toNat = (value.toNat * 31 + unit.toNat) % 2 ^ 32 := by
  rw [hashStep_eq, UInt32.toNat_add, UInt32.toNat_mul]
  exact Nat.mod_add_mod _ _ _

/-- The loop from any value: what it starts from is one more coefficient in front of the units. -/
theorem toNat_foldl_hashStep (value : UInt32) (units : List UInt32) :
    (units.foldl hashStep value).toNat =
      (value.toNat * 31 ^ units.length + unitPolynomial (units.map UInt32.toNat)) % 2 ^ 32 := by
  induction units generalizing value with
  | nil =>
    have same : value.toNat * 31 ^ 0 + unitPolynomial [] = value.toNat := by simp [unitPolynomial]
    exact ((congrArg (· % 2 ^ 32) same).trans (Nat.mod_eq_of_lt value.toNat_lt)).symm
  | cons unit rest ih =>
    have step : (hashStep value unit).toNat ≡ value.toNat * 31 + unit.toNat [MOD 2 ^ 32] := by
      rw [toNat_hashStep]
      exact Nat.mod_modEq _ _
    rw [List.map_cons, unitPolynomial_cons, List.length_map]
    calc ((unit :: rest).foldl hashStep value).toNat
      _ = ((hashStep value unit).toNat * 31 ^ rest.length +
          unitPolynomial (rest.map UInt32.toNat)) % 2 ^ 32 := ih _
      _ = ((value.toNat * 31 + unit.toNat) * 31 ^ rest.length +
          unitPolynomial (rest.map UInt32.toNat)) % 2 ^ 32 := (step.mul_right _).add_right _
      _ = (value.toNat * 31 ^ (rest.length + 1) + (unit.toNat * 31 ^ rest.length +
          unitPolynomial (rest.map UInt32.toNat))) % 2 ^ 32 :=
        congrArg (· % 2 ^ 32) (by rw [pow_succ]; ring)

theorem toNat_hashUnits (units : List UInt32) :
    (hashUnits units).toNat = unitPolynomial (units.map UInt32.toNat) % 2 ^ 32 := by
  rw [hashUnits, toNat_foldl_hashStep]
  simp

theorem toNat_hashUnits_append (first second : List UInt32) :
    (hashUnits (first ++ second)).toNat =
      ((hashUnits first).toNat * 31 ^ second.length + (hashUnits second).toNat) % 2 ^ 32 := by
  rw [hashUnits, List.foldl_append, toNat_foldl_hashStep, toNat_hashUnits second, Nat.add_mod_mod]
  rfl

/-! ## Bytes -/

/-- A unit of sixteen bits as two bytes, the lower one first. -/
def unitBytes (unit : UInt32) : List UInt8 := [unit.toUInt8, (unit >>> 8).toUInt8]

/-- The loop over bytes: every two of them are a unit. -/
def hashBytes (value : UInt32) : List UInt8 → UInt32
  | low :: high :: rest =>
    hashBytes (hashStep value (low.toUInt32 ||| high.toUInt32 <<< 8)) rest
  | _ => value

theorem joined_unitBytes {unit : UInt32} (bits : unit.toNat < 0x10000) :
    unit.toUInt8.toUInt32 ||| (unit >>> 8).toUInt8.toUInt32 <<< 8 = unit := by
  apply UInt32.toNat_inj.mp
  have upper : ((unit >>> 8).toUInt8.toUInt32 <<< 8).toNat = (unit.toNat / 256) <<< 8 := by
    have high : (unit >>> 8).toUInt8.toUInt32.toNat = unit.toNat / 256 := by
      rw [UInt8.toNat_toUInt32, UInt32.toNat_toUInt8, UInt32.toNat_shiftRight]
      change unit.toNat >>> 8 % 2 ^ 8 = _
      rw [Nat.shiftRight_eq_div_pow]
      omega
    rw [UInt32.toNat_shiftLeft, high]
    change (unit.toNat / 256) <<< 8 % 2 ^ 32 = _
    rw [Nat.shiftLeft_eq]
    omega
  rw [UInt32.toNat_or, upper, UInt8.toNat_toUInt32, UInt32.toNat_toUInt8, Nat.or_comm,
    ← Nat.shiftLeft_add_eq_or_of_lt (Nat.mod_lt _ (by decide)), Nat.shiftLeft_eq]
  omega

/-- Reading the units byte by byte gives the same word. -/
theorem hashBytes_flatMap_unitBytes {units : List UInt32}
    (bits : ∀ unit ∈ units, unit.toNat < 0x10000) (value : UInt32) :
    hashBytes value (units.flatMap unitBytes) = units.foldl hashStep value := by
  induction units generalizing value with
  | nil => rfl
  | cons unit rest ih =>
    obtain ⟨here, later⟩ := List.forall_mem_cons.mp bits
    rw [List.flatMap_cons, List.foldl_cons, ← ih later]
    simp only [unitBytes, List.cons_append, List.nil_append, hashBytes, joined_unitBytes here]

/-! ## Signs -/

theorem signedSize_eq_natAbs (value : UInt32) : signedSize value = value.toBitVec.toInt.natAbs := by
  have bound := value.toNat_lt
  rw [BitVec.toInt_eq_toNat_cond, UInt32.toNat_toBitVec]
  by_cases small : value < 0x80000000
  · have less : value.toNat < 2 ^ 31 := UInt32.lt_iff_toNat_lt.mp small
    rw [signedSize, if_pos small, if_pos (by omega)]
    rfl
  · have more : 2 ^ 31 ≤ value.toNat := UInt32.le_iff_toNat_le.mp (UInt32.not_lt.mp small)
    rw [signedSize, if_neg small, if_neg (by omega)]
    omega

theorem signedSize_le (value : UInt32) : signedSize value ≤ 2 ^ 31 := by
  rw [signedSize_eq_natAbs]
  have lower := BitVec.le_toInt value.toBitVec
  have upper := BitVec.toInt_lt (x := value.toBitVec)
  omega

/-- The hash of a token is the polynomial of its UTF-16 units at thirty-one, read as a signed word
of which the sign is dropped. It is at most `2 ^ 31` and so leads to a slot of every vector, and
before the sign is dropped the hash of a joined text follows from those of its parts. -/
theorem tokenHash_isPolynomial {α : Type} [Scalar α] (token : String) (dimensions : ℕ)
    (positive : 0 < dimensions) :
    (∀ units, IsUtf16 token.toList units ↔ units = (codeUnits token).map UInt32.toNat) ∧
      (wordHash token).toNat = unitPolynomial ((codeUnits token).map UInt32.toNat) % 2 ^ 32 ∧
      wordHash token = hashBytes 0 ((codeUnits token).flatMap unitBytes) ∧
      tokenHash token =
        (BitVec.ofNat 32 (unitPolynomial ((codeUnits token).map UInt32.toNat))).toInt.natAbs ∧
      tokenHash token ≤ 2 ^ 31 ∧
      (∀ tokens, tokenHash token % dimensions < (tokenSums (α := α) dimensions tokens).length) ∧
      ∀ more, (wordHash (token ++ more)).toNat =
        ((wordHash token).toNat * 31 ^ (codeUnits more).length + (wordHash more).toNat) %
          2 ^ 32 := by
  have word := toNat_hashUnits (codeUnits token)
  have bits : ∀ unit ∈ codeUnits token, unit.toNat < 0x10000 := fun unit member =>
    (isUtf16_flatMap token.toList).lt _ (List.mem_map_of_mem member)
  refine ⟨fun units => isUtf16_iff, word, (hashBytes_flatMap_unitBytes bits 0).symm, ?_,
    signedSize_le _, fun tokens => ?_, fun more => ?_⟩
  · have same : (wordHash token).toBitVec =
        BitVec.ofNat 32 (unitPolynomial ((codeUnits token).map UInt32.toNat)) := by
      apply BitVec.eq_of_toNat_eq
      rw [BitVec.toNat_ofNat]
      exact word
    rw [← same]
    exact signedSize_eq_natAbs (wordHash token)
  · rw [tokenSums_eq_map, List.length_map, List.length_range]
    exact Nat.mod_lt _ positive
  · rw [wordHash, codeUnits_append]
    exact toNat_hashUnits_append (codeUnits token) (codeUnits more)

/-- A token whose hash is the one value that has no positive signed word, in front of a character
that takes two units. -/
theorem hash_of_least_word :
    0 < 3 ∧ tokenHash "polygenelubricants" = 2 ^ 31 ∧
      tokenHash "polygenelubricants" % 3 < (tokenSums (α := Float) 3 ["hash"]).length ∧
      (codeUnits "😀").map UInt32.toNat = [0xD83D, 0xDE00] ∧
      (wordHash ("polygenelubricants" ++ "😀")).toNat =
        (2 ^ 31 * 31 ^ 2 + (wordHash "😀").toNat) % 2 ^ 32 := by
  obtain ⟨-, -, -, -, -, slot, joined⟩ :=
    tokenHash_isPolynomial (α := Float) "polygenelubricants" 3 (by decide)
  have least : (wordHash "polygenelubricants").toNat = 2 ^ 31 := by decide +kernel
  have units : (codeUnits "😀").map UInt32.toNat = [0xD83D, 0xDE00] := by decide +kernel
  have both := joined "😀"
  have count : (codeUnits "😀").length = 2 := by rw [← List.length_map, units]; rfl
  rw [least, count] at both
  exact ⟨by decide, by decide +kernel, slot ["hash"], units, both⟩

end CodeSearch
