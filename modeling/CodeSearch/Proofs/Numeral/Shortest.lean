import CodeSearch.Proofs.Numeral.Decimal
import CodeSearch.Proofs.Numeral.Readings

/-! # Shortest texts tell doubles apart

The shortest text of a double stands for a number that reads back as it, so different doubles have
different texts. A double's text is never that of a whole number.
-/

namespace CodeSearch.Numeral

/-- The digits of a double without its sign, laid out. -/
def magnitude (mantissa : Nat) (exponent : Int) : List Char :=
  if mantissa = 0 then ['0', '.', '0']
  else
    let reading := Reading.ofBinary mantissa exponent
    let (count, place) := reading.search reading.leading 0 17
    let all := digits count
    let shown := (all.reverse.dropWhile (· == '0')).reverse
    layOut shown (place + all.length - 1)

namespace Binary

/-- The shortest text of what a double stands for. -/
def text : Binary → List Char
  | undefined => ['n', 'a', 'n']
  | infinite negative => (if negative then ['-'] else []) ++ ['i', 'n', 'f']
  | finite negative mantissa exponent =>
    (if negative then ['-'] else []) ++ magnitude mantissa exponent

/-- What the fields of a double can be. -/
def IsProper : Binary → Prop
  | finite _ mantissa exponent => mantissa = 0 ∧ exponent = -1074 ∨ IsDouble mantissa exponent
  | _ => True

theorem isProper_ofFloat (x : Float) : (ofFloat x).IsProper := by
  unfold ofFloat
  dsimp only
  have raised : x.toBits.toNat / twoTo 52 % twoTo 11 < 2 ^ 11 := Nat.mod_lt _ (by decide)
  have fraction : x.toBits.toNat % twoTo 52 < 2 ^ 52 := Nat.mod_lt _ (by decide)
  split
  · split <;> trivial
  · split
    · by_cases zero : x.toBits.toNat % twoTo 52 = 0
      · exact .inl ⟨zero, rfl⟩
      · exact .inr ⟨Nat.pos_of_ne_zero zero, by omega, by omega, .inr rfl⟩
    · have full : twoTo 52 = 2 ^ 52 := rfl
      exact .inr ⟨by omega, by omega, by omega, .inl (by omega)⟩

open Float.Model in
private theorem toBits_of_undefined {x : Float}
    (raised : x.toBits.toNat / 2 ^ 52 % 2 ^ 11 = 2047) (fraction : x.toBits.toNat % 2 ^ 52 ≠ 0) :
    x.toBits.toBitVec = UnpackedFloat.packedNaN Format.binary64 := by
  refine x.toModel.valid.eq_packedNaN ?_ ?_
  · apply BitVec.eq_of_toNat_eq
    rw [UnpackedFloat.unpackExponent]
    simp only [BitVec.toNat_cast, BitVec.extractLsb_toNat, Nat.shiftRight_eq_div_pow]
    exact raised
  · intro zero
    apply fraction
    have bits := congrArg BitVec.toNat zero
    rw [UnpackedFloat.unpackMantissa] at bits
    simp only [BitVec.toNat_cast, BitVec.extractLsb_toNat, Nat.shiftRight_eq_div_pow] at bits
    have low : x.toModel.toBits.toNat % 2 ^ 52 = 0 := by simpa using bits
    exact low

private theorem eq_of_toBits {x y : Float} (same : x.toBits = y.toBits) : x = y := by
  obtain ⟨⟨bits, valid⟩⟩ := x
  obtain ⟨⟨bits', valid'⟩⟩ := y
  cases same
  rfl

private theorem sign_eq {first second : Nat} (small : first < 2 ^ 64) (small' : second < 2 ^ 64)
    (same : (first / 2 ^ 63 == 1) = (second / 2 ^ 63 == 1)) : first / 2 ^ 63 = second / 2 ^ 63 := by
  rw [Bool.eq_iff_iff, beq_iff_eq, beq_iff_eq] at same
  omega

/-- A double is known by its fields. -/
theorem ofFloat_injective {x y : Float} (same : ofFloat x = ofFloat y) : x = y := by
  have undefinedX := toBits_of_undefined (x := x)
  have undefinedY := toBits_of_undefined (x := y)
  have bits := x.toBits.toNat_lt
  have bits' := y.toBits.toNat_lt
  refine eq_of_toBits (UInt64.toBitVec_inj.mp ?_)
  have fields : x.toBits.toNat = y.toBits.toNat → x.toBits.toBitVec = y.toBits.toBitVec :=
    fun same => BitVec.eq_of_toNat_eq same
  simp only [ofFloat, show twoTo 63 = 2 ^ 63 from rfl, show twoTo 52 = 2 ^ 52 from rfl,
    show twoTo 11 = 2 ^ 11 from rfl] at same
  split at same
  · next raised =>
    split at same
    · next fraction =>
      split at same
      · next raised' =>
        split at same
        · next fraction' =>
          have sign := sign_eq bits bits' (infinite.inj same)
          exact fields (by omega)
        · cases same
      · split at same <;> cases same
    · next fraction =>
      split at same
      · next raised' =>
        split at same
        · cases same
        · next fraction' =>
          exact (undefinedX raised fraction).trans (undefinedY raised' fraction').symm
      · split at same <;> cases same
  · next raised =>
    split at same
    · next least =>
      split at same
      · split at same <;> cases same
      · split at same
        · next least' =>
          obtain ⟨negative, mantissa, -⟩ := finite.inj same
          have sign := sign_eq bits bits' negative
          exact fields (by omega)
        · obtain ⟨-, mantissa, -⟩ := finite.inj same
          omega
    · next normal =>
      split at same
      · split at same <;> cases same
      · split at same
        · obtain ⟨-, mantissa, -⟩ := finite.inj same
          omega
        · next normal' =>
          obtain ⟨negative, mantissa, exponent⟩ := finite.inj same
          have sign := sign_eq bits bits' negative
          exact fields (by omega)

end Binary

theorem shortest_eq (x : Float) : shortest x = String.ofList (Binary.ofFloat x).text := by
  unfold shortest
  split
  · next shape => rw [shape]; rfl
  · next negative shape => rw [shape]; cases negative <;> rfl
  · next negative mantissa exponent shape => rw [shape]; rfl

variable {mantissa other : Nat} {exponent exponent' : Int}

private theorem digits_eq_append (count : Nat) : ∃ zeros,
    digits count = ((digits count).reverse.dropWhile (· == '0')).reverse ++
      List.replicate zeros '0' := by
  have parts := List.takeWhile_append_dropWhile (p := (· == '0')) (l := (digits count).reverse)
  have zeros : (digits count).reverse.takeWhile (· == '0') =
      List.replicate ((digits count).reverse.takeWhile (· == '0')).length '0' :=
    List.eq_replicate_of_mem fun c member => by
      simpa using List.all_eq_true.mp List.all_takeWhile c member
  refine ⟨((digits count).reverse.takeWhile (· == '0')).length, ?_⟩
  have reversed := congrArg List.reverse parts
  rw [List.reverse_append, List.reverse_reverse, zeros, List.reverse_replicate] at reversed
  exact reversed.symm

private theorem shown_digits {count : Nat} (some : 0 < count) : ∃ shown zeros,
    ((digits count).reverse.dropWhile (· == '0')).reverse = shown ∧
      digits count = shown ++ List.replicate zeros '0' ∧ AreDigits shown ∧ shown ≠ [] ∧
        count = written shown * 10 ^ zeros := by
  obtain ⟨zeros, shape⟩ := digits_eq_append count
  refine ⟨_, zeros, rfl, shape, (shape ▸ areDigits_digits count).of_append.1, ?_⟩
  generalize ((digits count).reverse.dropWhile (· == '0')).reverse = shown at shape ⊢
  have value : count = written shown * 10 ^ zeros := by
    have read := congrArg written shape
    rwa [written_digits, written_append, written_replicate_zero, List.length_replicate] at read
  refine ⟨?_, value⟩
  rintro rfl
  rw [value] at some
  simp [written] at some

private theorem magnitude_eq_layOut (double : IsDouble mantissa exponent) :
    ∃ shown power, AreDigits shown ∧ shown ≠ [] ∧
      magnitude mantissa exponent = layOut shown power ∧
      (Reading.ofBinary mantissa exponent).Reads
        (written shown * 10 ^ (power + 1 - shown.length)) := by
  have reads := Reading.reads_search double
  dsimp only at reads
  obtain ⟨⟨count, place⟩, found⟩ : ∃ found, (Reading.ofBinary mantissa exponent).search
      (Reading.ofBinary mantissa exponent).leading 0 17 = found := ⟨_, rfl⟩
  rw [found] at reads
  dsimp only at reads
  have positive := pos_of_mul_pos_left (Reading.pos_of_reads double.some reads) (by positivity)
  obtain ⟨shown, zeros, stripped, shape, areDigits, some, value⟩ :=
    shown_digits (Nat.cast_pos.mp positive)
  refine ⟨shown, place + (digits count).length - 1, areDigits, some, ?_, ?_⟩
  · simp only [magnitude, found, stripped, if_neg (Nat.pos_iff_ne_zero.mp double.some)]
  · have length := congrArg List.length shape
    rw [List.length_append, List.length_replicate] at length
    rw [value, Nat.cast_mul, Nat.cast_pow, mul_assoc, ← zpow_natCast, Nat.cast_ofNat,
      ← zpow_add₀ (by norm_num)] at reads
    convert reads using 3
    omega

/-- The text of a double reads back as it. -/
theorem reads_magnitude (double : IsDouble mantissa exponent) :
    (Reading.ofBinary mantissa exponent).Reads (worth (magnitude mantissa exponent)) := by
  obtain ⟨shown, power, areDigits, some, shape, reads⟩ := magnitude_eq_layOut double
  rwa [shape, worth_layOut areDigits some]

private theorem exists_layOut
    (proper : mantissa = 0 ∧ exponent = -1074 ∨ IsDouble mantissa exponent) :
    ∃ shown power, AreDigits shown ∧ shown ≠ [] ∧
      magnitude mantissa exponent = layOut shown power := by
  rcases proper with ⟨rfl, rfl⟩ | double
  · exact ⟨['0'], 0, areDigits_replicate_zero 1, by simp, rfl⟩
  · obtain ⟨shown, power, areDigits, some, shape, -⟩ := magnitude_eq_layOut double
    exact ⟨shown, power, areDigits, some, shape⟩

theorem magnitude_injective {mantissa' : Nat} {exponent' : Int}
    (proper : mantissa = 0 ∧ exponent = -1074 ∨ IsDouble mantissa exponent)
    (proper' : mantissa' = 0 ∧ exponent' = -1074 ∨ IsDouble mantissa' exponent')
    (same : magnitude mantissa exponent = magnitude mantissa' exponent') :
    mantissa = mantissa' ∧ exponent = exponent' := by
  have zero : ∀ exponent, worth (magnitude 0 exponent) = 0 := by
    intro exponent
    have zero : AreDigits ['0'] := areDigits_replicate_zero 1
    rw [magnitude, if_pos rfl, show ['0', '.', '0'] = layOut ['0'] 0 from rfl,
      worth_layOut zero (by simp)]
    simp [written, Nat.ofDigitChars_cons]
  have positive : ∀ {mantissa exponent}, IsDouble mantissa exponent →
      0 < worth (magnitude mantissa exponent) :=
    fun double => Reading.pos_of_reads double.some (reads_magnitude double)
  rcases proper with ⟨rfl, rfl⟩ | double <;> rcases proper' with ⟨rfl, rfl⟩ | double'
  · exact ⟨rfl, rfl⟩
  · exact absurd (same ▸ positive double') (by rw [zero]; exact lt_irrefl _)
  · exact absurd (same ▸ positive double) (by rw [zero]; exact lt_irrefl _)
  · exact Reading.unique_of_reads double double' (reads_magnitude double)
      (same ▸ reads_magnitude double')

/-! ## Characters of numbers -/

private theorem magnitude_head
    (proper : mantissa = 0 ∧ exponent = -1074 ∨ IsDouble mantissa exponent) :
    ∃ c rest, magnitude mantissa exponent = c :: rest ∧ c.isDigit = true := by
  obtain ⟨shown, power, areDigits, some, shape⟩ := exists_layOut proper
  obtain ⟨c, rest, rfl⟩ := List.exists_cons_of_ne_nil some
  have digit : c.isDigit = true := areDigits c List.mem_cons_self
  rw [shape, layOut]
  split
  · split
    · exact ⟨'0', _, rfl, rfl⟩
    · next notNegative =>
      obtain ⟨whole, more⟩ : ∃ whole, (power + 1).toNat = whole + 1 := ⟨power.toNat, by omega⟩
      exact ⟨c, _, by simp only [more, List.cons_append, List.take_succ_cons]; rfl, digit⟩
  · exact ⟨c, _, rfl, digit⟩

/-- What a magnitude is written with. -/
def isMark (c : Char) : Bool := c == '.' || c == 'e' || c == '+' || c == '-'

private theorem mem_layOut {shown : List Char} (areDigits : AreDigits shown) {power : Int} {c : Char}
    (member : c ∈ layOut shown power) : c.isDigit = true ∨ isMark c = true := by
  have filled : ∀ {count}, c ∈ shown ++ List.replicate count '0' → c.isDigit = true :=
    fun inFilled => areDigits.append (areDigits_replicate_zero _) c inFilled
  unfold layOut at member
  split at member
  · split at member
    · simp only [List.mem_append, List.mem_cons, List.not_mem_nil, or_false] at member
      rcases member with ((rfl | rfl) | inZeros) | inShown
      · exact .inl rfl
      · exact .inr rfl
      · exact .inl (areDigits_replicate_zero _ c inZeros)
      · exact .inl (areDigits c inShown)
    · simp only [List.mem_append, List.mem_singleton] at member
      rcases member with (inWhole | rfl) | inBehind
      · exact .inl (filled (List.mem_of_mem_take inWhole))
      · exact .inr rfl
      · split at inBehind
        · exact .inl (areDigits_replicate_zero 1 c inBehind)
        · exact .inl (filled (List.mem_of_mem_drop inBehind))
  · simp only [List.mem_append] at member
    rcases member with ((first | inPoint) | inMark) | inPower
    · exact .inl (areDigits c (List.mem_of_mem_take first))
    · split at inPoint
      · cases inPoint
      · rcases List.mem_cons.mp inPoint with rfl | later
        · exact .inr rfl
        · exact .inl (areDigits c (List.mem_of_mem_drop later))
    · right
      split at inMark
      · rcases List.mem_pair.mp inMark with rfl | rfl <;> rfl
      · rcases List.mem_pair.mp inMark with rfl | rfl <;> rfl
    · exact .inl ((areDigits_replicate_zero _).append (areDigits_digits _) c inPower)

private theorem layOut_marked (shown : List Char) (power : Int) :
    '.' ∈ layOut shown power ∨ 'e' ∈ layOut shown power := by
  unfold layOut
  split
  · left
    split <;> simp
  · right
    split <;> simp

/-! ## Texts of doubles -/

/-- A sign in front of a text that begins with another character is told apart from it. -/
theorem sign_append_injective {negative negative' : Bool} {c d : Char}
    {rest rest' : List Char} (first : c ≠ '-') (second : d ≠ '-')
    (same : (if negative then ['-'] else []) ++ c :: rest =
      (if negative' then ['-'] else []) ++ d :: rest') :
    negative = negative' ∧ c = d ∧ rest = rest' := by
  cases negative <;> cases negative' <;> simp at same
  · exact ⟨rfl, same⟩
  · exact absurd same.1 first
  · exact absurd same.1.symm second
  · exact ⟨rfl, same⟩

/-- What stands for something else is written in another way. -/
theorem Binary.text_injective {first second : Binary} (proper : first.IsProper)
    (proper' : second.IsProper) (same : first.text = second.text) : first = second := by
  have letter : ∀ {c d : Char}, c.isDigit = true → d.isDigit = false → c ≠ d := by
    rintro c d digit other rfl
    exact absurd digit (by simp [other])
  cases first with
  | undefined =>
    cases second with
    | undefined => rfl
    | infinite negative => cases negative <;> cases same
    | finite negative mantissa exponent =>
      obtain ⟨c, rest, shape, digit⟩ := magnitude_head proper'
      rw [text, text, shape] at same
      exact absurd (@sign_append_injective false negative 'n' c _ _ (by decide) (letter digit rfl)
        same).2.1 (letter digit rfl).symm
  | infinite negative =>
    cases second with
    | undefined => cases negative <;> cases same
    | infinite negative' =>
      rw [text, text] at same
      rw [(sign_append_injective (by decide) (by decide) same).1]
    | finite negative' mantissa exponent =>
      obtain ⟨c, rest, shape, digit⟩ := magnitude_head proper'
      rw [text, text, shape] at same
      exact absurd (sign_append_injective (by decide) (letter digit rfl) same).2.1
        (letter digit rfl).symm
  | finite negative mantissa exponent =>
    obtain ⟨c, rest, shape, digit⟩ := magnitude_head proper
    cases second with
    | undefined =>
      rw [text, text, shape] at same
      exact absurd (@sign_append_injective negative false c 'n' _ _ (letter digit rfl) (by decide)
        same).2.1 (letter digit rfl)
    | infinite negative' =>
      rw [text, text, shape] at same
      exact absurd (sign_append_injective (letter digit rfl) (by decide) same).2.1
        (letter digit rfl)
    | finite negative' mantissa' exponent' =>
      obtain ⟨d, rest', shape', digit'⟩ := magnitude_head proper'
      rw [text, text, shape, shape'] at same
      obtain ⟨rfl, rfl, rfl⟩ := sign_append_injective (letter digit rfl) (letter digit' rfl) same
      obtain ⟨rfl, rfl⟩ := magnitude_injective proper proper' (shape.trans shape'.symm)
      rfl

/-- Different doubles have different texts. -/
theorem shortest_injective {x y : Float} (same : shortest x = shortest y) : x = y := by
  rw [shortest_eq, shortest_eq, String.ofList_inj] at same
  exact Binary.ofFloat_injective (Binary.text_injective (Binary.isProper_ofFloat x)
    (Binary.isProper_ofFloat y) same)

private theorem mem_sign {negative : Bool} {c : Char} {text : List Char}
    (member : c ∈ (if negative then ['-'] else []) ++ text) : c = '-' ∨ c ∈ text := by
  rcases List.mem_append.mp member with inSign | inText
  · split at inSign
    · exact .inl (List.mem_singleton.mp inSign)
    · cases inSign
  · exact .inr inText

/-- The characters of doubles: digits, marks and the letters of what is not finite. -/
theorem mem_shortest {x : Float} {c : Char} (member : c ∈ (shortest x).toList) :
    c.isDigit = true ∨ isMark c = true ∨ c ∈ ['n', 'a', 'i', 'f'] := by
  have proper := Binary.isProper_ofFloat x
  rw [shortest_eq, String.toList_ofList] at member
  generalize Binary.ofFloat x = binary at proper member
  cases binary with
  | undefined =>
    simp only [Binary.text, List.mem_cons, List.not_mem_nil, or_false] at member
    rcases member with rfl | rfl | rfl <;> decide
  | infinite negative =>
    rcases mem_sign member with rfl | inText
    · exact .inr (.inl rfl)
    · simp only [List.mem_cons, List.not_mem_nil, or_false] at inText
      rcases inText with rfl | rfl | rfl <;> decide
  | finite negative mantissa exponent =>
    obtain ⟨shown, power, areDigits, -, shape⟩ := exists_layOut proper
    rcases mem_sign member with rfl | inText
    · exact .inr (.inl rfl)
    · rcases mem_layOut areDigits (shape ▸ inText) with digit | mark
      · exact .inl digit
      · exact .inr (.inl mark)

/-- A double is not written as a whole number. -/
theorem exists_mem_shortest (x : Float) :
    ∃ c ∈ (shortest x).toList, c.isDigit = false ∧ c ≠ '-' := by
  have proper := Binary.isProper_ofFloat x
  rw [shortest_eq, String.toList_ofList]
  generalize Binary.ofFloat x = binary at proper
  cases binary with
  | undefined => exact ⟨'n', by simp [Binary.text], by decide, by decide⟩
  | infinite negative => exact ⟨'i', by simp [Binary.text], by decide, by decide⟩
  | finite negative mantissa exponent =>
    obtain ⟨shown, power, -, -, shape⟩ := exists_layOut proper
    rw [Binary.text, shape]
    rcases layOut_marked shown power with point | power
    · exact ⟨'.', List.mem_append_right _ point, by decide, by decide⟩
    · exact ⟨'e', List.mem_append_right _ power, by decide, by decide⟩

end CodeSearch.Numeral
