import Mathlib
import Snippet.Decimal.Binary

/-!
Doubles and their bit patterns. A pattern stands for the double with its sign, exponent and fraction, and
all patterns of undefined values stand for the same one. Main statements: arithmetic on bit patterns gives
patterns of what the same arithmetic on doubles gives, and so does negation.
-/

namespace Snippet.Decimal

open Float.Model Float.Model.UnpackedFloat

/-! ### The fields of a pattern -/

section

variable {pattern : BitVec Format.binary64.numBits}

theorem toNat_unpackMantissa (pattern : BitVec Format.binary64.numBits) :
    (unpackMantissa pattern).toNat = pattern.toNat % 2 ^ 52 := by
  simp [unpackMantissa]

theorem toNat_unpackExponent (pattern : BitVec Format.binary64.numBits) :
    (unpackExponent pattern).toNat = pattern.toNat / 2 ^ 52 % 2 ^ 11 := by
  simp [unpackExponent, Nat.shiftRight_eq_div_pow]

theorem toNat_unpackSign (pattern : BitVec Format.binary64.numBits) :
    (unpackSign pattern).toNat = pattern.toNat / 2 ^ 63 := by
  have small : pattern.toNat < 2 ^ 64 := pattern.isLt
  simp [unpackSign, Nat.shiftRight_eq_div_pow]
  omega

/-- A pattern is put together again from its sign, its exponent and its fraction. -/
theorem packComponents_of_fields {exponent : BitVec Format.binary64.exponentBits}
    {mantissa : BitVec Format.binary64.mantissaBitsWithoutImplicit} (isExponent : unpackExponent pattern = exponent)
    (isMantissa : unpackMantissa pattern = mantissa) :
    packComponents .binary64 (Sign.ofBitVec (unpackSign pattern)) exponent mantissa = pattern := by
  subst isExponent isMantissa
  have small : pattern.toNat < 2 ^ 64 := pattern.isLt
  have sign : (Sign.ofBitVec (unpackSign pattern)).toBitVec = unpackSign pattern := by
    rcases BitVec.eq_zero_or_eq_one (unpackSign pattern) with isSign | isSign <;> rw [isSign] <;> rfl
  apply BitVec.eq_of_toNat_eq
  rw [packComponents, sign, BitVec.toNat_append, BitVec.toNat_append, toNat_unpackMantissa, toNat_unpackExponent,
    toNat_unpackSign]
  show ((pattern.toNat / 2 ^ 63) <<< 11 ||| pattern.toNat / 2 ^ 52 % 2 ^ 11) <<< 52 ||| pattern.toNat % 2 ^ 52 =
    pattern.toNat
  rw [← Nat.shiftLeft_add_eq_or_of_lt (Nat.mod_lt _ (by decide)),
    ← Nat.shiftLeft_add_eq_or_of_lt (Nat.mod_lt _ (by decide)), Nat.shiftLeft_eq, Nat.shiftLeft_eq]
  omega

/-- A pattern that is no second form of the undefined value comes back from what it stands for. -/
theorem pack_unpack (valid : Format.binary64.Valid pattern) :
    UnpackedFloat.pack .binary64 (UnpackedFloat.unpack .binary64 pattern) = pattern := by
  have bias : ((Format.binary64.exponentBias : Nat) : Int) = 1023 := rfl
  have digits : Format.binary64.mantissaBits = 53 := rfl
  have fraction : (unpackMantissa pattern).toNat < 2 ^ 52 := (unpackMantissa pattern).isLt
  have range : (unpackExponent pattern).toNat < 2 ^ 11 := (unpackExponent pattern).isLt
  rw [UnpackedFloat.unpack]
  dsimp only
  split_ifs with isFull isZero isSmall isZero
  · exact packComponents_of_fields isFull isZero
  · exact (valid.eq_packedNaN isFull isZero).symm
  · exact packComponents_of_fields isSmall isZero
  · -- Below the least normal number there is no hidden bit, and the fraction is short.
    have positive : (unpackMantissa pattern).toNat ≠ 0 := fun same => isZero (BitVec.eq_of_toNat_eq same)
    have short : (unpackMantissa pattern).toNat.log2 < 52 := (Nat.log2_lt positive).2 fraction
    have lowest : (unpackExponent pattern).toNat = 0 := by rw [isSmall]; rfl
    rw [UnpackedFloat.pack, if_neg (by rw [lowest, bias]; decide), if_neg (by omega)]
    exact packComponents_of_fields isSmall (by rw [BitVec.ofNat_toNat, BitVec.setWidth_eq])
  · have notFull : (unpackExponent pattern).toNat ≠ 2 ^ 11 - 1 := fun same => isFull (BitVec.eq_of_toNat_eq same)
    have whole : (1#1 ++ unpackMantissa pattern).toNat = 2 ^ 52 + (unpackMantissa pattern).toNat := by
      rw [BitVec.toNat_append]
      show 1 <<< 52 ||| _ = _
      rw [← Nat.shiftLeft_add_eq_or_of_lt fraction]
      rfl
    have long : (1#1 ++ unpackMantissa pattern).toNat.log2 = 52 := by
      rw [whole]
      refine (Nat.log2_eq_iff (by omega)).2 (by omega)
    have biased : ((((unpackExponent pattern).toNat : Int) - ((Format.binary64.exponentBias : Nat) +
        (Format.binary64.mantissaBitsWithoutImplicit : Nat))) + (Format.binary64.exponentBias : Nat) +
        (Format.binary64.mantissaBitsWithoutImplicit : Nat)).toNat = (unpackExponent pattern).toNat := by
      omega
    rw [UnpackedFloat.pack]
    simp only [biased]
    rw [if_neg (by show ¬(2 ^ 11 ≤ _); omega), if_pos (by omega)]
    refine packComponents_of_fields (by rw [BitVec.ofNat_toNat, BitVec.setWidth_eq]) ?_
    apply BitVec.eq_of_toNat_eq
    rw [BitVec.toNat_ofNat, whole]
    show _ = (2 ^ 52 + (unpackMantissa pattern).toNat) % 2 ^ 52
    omega

end

/-! ### Undefined values -/

/-- The undefined value. -/
def undefinedValue : Float := .ofModel (.pack .notANumber)

/-- A double comes back from what its pattern stands for. -/
theorem pack_unpack_toModel (value : Float) : Float.ofModel (.pack value.toModel.unpack) = value := by
  obtain ⟨⟨bits, valid⟩⟩ := value
  refine congrArg Float.ofModel ?_
  simp only [Float.Model.pack, Float.Model.unpack, pack_unpack valid]

theorem eq_undefinedValue {value : Float} (isUndefined : value.toModel.unpack = .notANumber) :
    value = undefinedValue := by
  rw [← pack_unpack_toModel value, isUndefined]
  rfl

/-- A double comes back from its bits. -/
theorem ofBits_toBits (value : Float) : Float.ofBits value.toBits = value := pack_unpack_toModel value

theorem eq_undefinedValue_of_isNaN {value : Float} (isNaN : value.isNaN = true) : value = undefinedValue := by
  apply eq_undefinedValue
  have isNotANumber : value.toModel.unpack.isNaN = true := isNaN
  cases unpacked : value.toModel.unpack <;> rw [unpacked] at isNotANumber <;> first | rfl | cases isNotANumber

/-- A pattern and its double stand for the same. -/
theorem unpack_ofBits (bits : UInt64) :
    (Float.ofBits bits).toModel.unpack = UnpackedFloat.unpack .binary64 bits.toBitVec := by
  by_cases valid : Format.binary64.Valid bits.toBitVec
  · exact congrArg (UnpackedFloat.unpack .binary64) (pack_unpack valid)
  · have full : @unpackExponent Format.binary64 bits.toBitVec = -1#_ :=
      Decidable.byContradiction fun notFull => valid ⟨fun isFull => absurd isFull notFull⟩
    have nonzero : @unpackMantissa Format.binary64 bits.toBitVec ≠ 0#_ :=
      fun isZero => valid ⟨fun _ notZero => absurd isZero notZero⟩
    have isUndefined : UnpackedFloat.unpack .binary64 bits.toBitVec = .notANumber := by
      rw [UnpackedFloat.unpack]
      exact (if_pos full).trans (if_neg nonzero)
    rw [isUndefined]
    show UnpackedFloat.unpack .binary64 (UnpackedFloat.pack .binary64 (UnpackedFloat.unpack .binary64 bits.toBitVec)) = _
    rw [isUndefined]
    rfl

/-- A pattern is one of an undefined value if its exponent is full and its fraction is not zero. -/
theorem isUndefined_iff (bits : UInt64) :
    isUndefined bits = true ↔ UnpackedFloat.unpack .binary64 bits.toBitVec = .notANumber := by
  have full : @unpackExponent Format.binary64 bits.toBitVec = -1#_ ↔ bits.toNat / 2 ^ 52 % 2048 = 2047 := by
    rw [← BitVec.toNat_inj, toNat_unpackExponent, UInt64.toNat_toBitVec]
    rfl
  have zero : @unpackMantissa Format.binary64 bits.toBitVec = 0#_ ↔ bits.toNat % 2 ^ 52 = 0 := by
    rw [← BitVec.toNat_inj, toNat_unpackMantissa, UInt64.toNat_toBitVec]
    rfl
  simp only [isUndefined, magnitude, beq_iff_eq, Nat.pow_eq, UnpackedFloat.unpack, full, zero]
  split_ifs <;> simp

theorem ofBits_of_isUndefined {bits : UInt64} (undefined : isUndefined bits = true) :
    Float.ofBits bits = undefinedValue :=
  eq_undefinedValue ((unpack_ofBits bits).trans ((isUndefined_iff bits).1 undefined))

theorem ofBits_undefinedResult : Float.ofBits undefinedResult = undefinedValue :=
  ofBits_of_isUndefined rfl

/-! ### Arithmetic on patterns -/

/-- Whether arithmetic on an undefined value gives an undefined value. -/
structure PassesUndefined (compute : Float → Float → Float) : Prop where
  first : ∀ value, compute undefinedValue value = undefinedValue
  second : ∀ value, compute value undefinedValue = undefinedValue

theorem passesUndefined_add : PassesUndefined (· + ·) where
  first _ := rfl
  second value := by
    show Float.ofModel (.pack (UnpackedFloat.add .binary64 value.toModel.unpack .notANumber)) = _
    cases value.toModel.unpack <;> rfl

theorem passesUndefined_sub : PassesUndefined (· - ·) where
  first _ := rfl
  second value := by
    show Float.ofModel (.pack (UnpackedFloat.sub .binary64 value.toModel.unpack .notANumber)) = _
    cases value.toModel.unpack <;> rfl

theorem passesUndefined_mul : PassesUndefined (· * ·) where
  first _ := rfl
  second value := by
    show Float.ofModel (.pack (UnpackedFloat.mul .binary64 value.toModel.unpack .notANumber)) = _
    cases value.toModel.unpack <;> rfl

theorem passesUndefined_div : PassesUndefined (· / ·) where
  first _ := rfl
  second value := by
    show Float.ofModel (.pack (UnpackedFloat.div .binary64 value.toModel.unpack .notANumber)) = _
    cases value.toModel.unpack <;> rfl

theorem passesUndefined_remainder : PassesUndefined remainder where
  first value := by
    have isUndefined : magnitude undefinedValue.toBits = .nan := rfl
    have noQuotient : (0.0 / 0.0 : Float) = undefinedValue := rfl
    rw [remainder, isUndefined]
    exact noQuotient
  second value := by
    have isUndefined : magnitude undefinedValue.toBits = .nan := rfl
    have noQuotient : (0.0 / 0.0 : Float) = undefinedValue := rfl
    rw [remainder, isUndefined]
    cases magnitude value.toBits <;> exact noQuotient

/-- Arithmetic on patterns gives a pattern of the result. -/
theorem ofBits_onBits {compute : Float → Float → Float} (passes : PassesUndefined compute) (first second : UInt64) :
    Float.ofBits (onBits compute first second) = compute (Float.ofBits first) (Float.ofBits second) := by
  unfold onBits
  dsimp only
  split_ifs with firstUndefined secondUndefined isNaN
  · rw [ofBits_of_isUndefined firstUndefined, passes.first]
  · rw [ofBits_of_isUndefined secondUndefined, passes.second]
  · rw [ofBits_undefinedResult]
    exact (eq_undefinedValue_of_isNaN isNaN).symm
  · exact ofBits_toBits _

theorem Sign.ofBitVec_not (bit : BitVec 1) : Sign.ofBitVec (bit ^^^ 1#1) = -Sign.ofBitVec bit := by
  rcases BitVec.eq_zero_or_eq_one bit with rfl | rfl <;> rfl

/-- A pattern with the other sign stands for the negated double. -/
theorem unpack_negateBits (bits : UInt64) :
    UnpackedFloat.unpack .binary64 (negateBits bits).toBitVec =
      (UnpackedFloat.unpack .binary64 bits.toBitVec).neg := by
  have mantissa : @unpackMantissa Format.binary64 (negateBits bits).toBitVec =
      @unpackMantissa Format.binary64 bits.toBitVec := by
    simp [negateBits, unpackMantissa, BitVec.extractLsb_xor]
  have exponent : @unpackExponent Format.binary64 (negateBits bits).toBitVec =
      @unpackExponent Format.binary64 bits.toBitVec := by
    simp [negateBits, unpackExponent, BitVec.extractLsb_xor]
  have sign : Sign.ofBitVec (@unpackSign Format.binary64 (negateBits bits).toBitVec) =
      -Sign.ofBitVec (@unpackSign Format.binary64 bits.toBitVec) := by
    rw [← Sign.ofBitVec_not]
    congr 1
    simp [negateBits, unpackSign, BitVec.extractLsb_xor]
  simp only [UnpackedFloat.unpack, mantissa, exponent, sign]
  split_ifs <;> rfl

theorem ofBits_negateBits (bits : UInt64) : Float.ofBits (negateBits bits) = -Float.ofBits bits := by
  show Float.ofModel (.pack (UnpackedFloat.unpack .binary64 (negateBits bits).toBitVec)) =
    Float.ofModel (.pack (Float.ofBits bits).toModel.unpack.neg)
  rw [unpack_negateBits, unpack_ofBits]

end Snippet.Decimal
