import ItemSql.Proofs.Decimal.Numeral

/-!
# Doubles that are numbers

A double that is no number is not even equal to itself. No numeral is read as one
(`Numeral.exists_number`): what is nearest to a decimal comes of numbers by a product or a quotient
with a power of ten, and a power of ten is neither zero nor infinite, so the outcome is a number.

Doubles are bit patterns, and each operation unpacks its operands, works on signs, mantissas and
exponents, and packs the outcome. All that has to be known of packing here is that it makes no value
that is no number of one that is.
-/

namespace ItemSql.Decimal

open Float.Model (UnpackedFloat Format)
open Float.Model.UnpackedFloat

variable {f g : UnpackedFloat} {x : Float}

/-! ## Bit patterns -/

theorem isNaN_unpack_iff {spec : Format} {b : BitVec spec.numBits} :
    (UnpackedFloat.unpack spec b).isNaN = true ↔
      unpackExponent b = -1#_ ∧ unpackMantissa b ≠ 0#_ := by
  rw [UnpackedFloat.unpack]
  split
  · rename_i hexponent
    split
    · rename_i hmantissa
      simp [UnpackedFloat.isNaN, hmantissa]
    · rename_i hmantissa
      simp [UnpackedFloat.isNaN, hexponent, hmantissa]
  · rename_i hexponent
    refine iff_of_false ?_ fun h ↦ hexponent h.1
    split
    · split <;> simp [UnpackedFloat.isNaN]
    · simp [UnpackedFloat.isNaN]

/-- What is packed is unpacked as no number only if it is none. -/
theorem isNaN_unpack_pack (h : f.isNaN = false) :
    (UnpackedFloat.unpack .binary64 (UnpackedFloat.pack .binary64 f)).isNaN = false := by
  rw [Bool.eq_false_iff, ne_eq, isNaN_unpack_iff]
  rintro ⟨hexponent, hmantissa⟩
  cases f with
  | notANumber => cases h
  | infinity s => exact hmantissa unpackMantissa_packComponents
  | zero s =>
    rw [UnpackedFloat.pack, packedZero, unpackExponent_packComponents] at hexponent
    exact absurd hexponent (by decide)
  | finite s m e hm =>
    rw [UnpackedFloat.pack] at hexponent hmantissa
    dsimp only at hexponent hmantissa
    split at hexponent
    · rename_i hoverflow
      rw [if_pos hoverflow] at hmantissa
      exact hmantissa unpackMantissa_packComponents
    · rename_i hoverflow
      split at hexponent
      · rw [unpackExponent_packComponents] at hexponent
        have hbits := congrArg BitVec.toNat hexponent
        have hones : (-1#11 : BitVec 11).toNat = 2047 := by decide
        rw [BitVec.toNat_ofNat, hones] at hbits
        omega
      · rw [unpackExponent_packComponents] at hexponent
        exact absurd hexponent (by decide)

/-! ## Arithmetic -/

theorem isNaN_ofModel_pack (h : f.isNaN = false) :
    (Float.ofModel (.pack f)).isNaN = false :=
  isNaN_unpack_pack h

theorem isNaN_roundWithAccuracy (spec : Format) (s : Sign) (m : Nat) (e : Int)
    (accuracy : Accuracy) : (roundWithAccuracy spec s m e accuracy).isNaN = false := by
  rw [roundWithAccuracy]
  dsimp only
  split <;> rfl

/-- Whether a value is a number other than zero and the infinities. -/
def isProper : UnpackedFloat → Bool
  | .finite .. => true
  | _ => false

theorem isNaN_mul (spec : Format) (hf : f.isNaN = false) (hg : isProper g = true) :
    (UnpackedFloat.mul spec f g).isNaN = false := by
  cases g with
  | finite s m e hm =>
    cases f with
    | notANumber => cases hf
    | infinity s | zero s => rfl
    | finite s m e hm => exact isNaN_roundWithAccuracy _ _ _ _ _
  | _ => cases hg

theorem isNaN_div (spec : Format) (hf : f.isNaN = false) (hg : isProper g = true) :
    (UnpackedFloat.div spec f g).isNaN = false := by
  cases g with
  | finite s m e hm =>
    cases f with
    | notANumber => cases hf
    | infinity s | zero s => rfl
    | finite s m e hm => exact isNaN_roundWithAccuracy _ _ _ _ _
  | _ => cases hg

theorem isNaN_neg (hf : f.isNaN = false) : f.neg.isNaN = false := by
  cases f with
  | notANumber => cases hf
  | _ => rfl

theorem isNaN_normalize (spec : Format) (m e : Int) (s : Sign) :
    (UnpackedFloat.normalize spec m e s).isNaN = false := by
  rw [UnpackedFloat.normalize]
  split
  · exact isNaN_roundWithAccuracy _ _ _ _ _
  · rfl
  · exact isNaN_roundWithAccuracy _ _ _ _ _

theorem isNaN_ofScientific (spec : Format) (m : Nat) (e : Int) :
    (UnpackedFloat.ofScientific spec m e).isNaN = false := by
  rw [UnpackedFloat.ofScientific]
  split
  · rfl
  split
  · rfl
  split
  · rfl
  split
  · exact isNaN_mul spec rfl rfl
  · exact isNaN_div spec rfl rfl

theorem compare_self (h : f.isNaN = false) : f.compare f = some .eq := by
  cases f with
  | notANumber => cases h
  | infinity s => cases s <;> rfl
  | zero s => rfl
  | finite s m e hm => cases s <;> simp [UnpackedFloat.compare]

/-! ## Doubles -/

theorem isNaN_ofScientific_double (m : Nat) (negative : Bool) (e : Nat) :
    (Float.ofScientific m negative e).isNaN = false := by
  have hpowers : Float.exactlyRepresentablePowersOfTen.all
      (fun x ↦ isProper x.toModel.unpack) = true := by
    decide +kernel
  rw [Float.ofScientific]
  split
  · rename_i h
    have hpower := Array.all_eq_true.mp hpowers e (Nat.lt_succ_of_le h.2)
    have hm : m.toUInt64.toFloat.toModel.unpack.isNaN = false :=
      isNaN_unpack_pack (isNaN_normalize _ _ _ _)
    cases negative
    · exact isNaN_ofModel_pack (isNaN_mul _ hm hpower)
    · exact isNaN_ofModel_pack (isNaN_div _ hm hpower)
  · exact isNaN_ofModel_pack (isNaN_ofScientific _ _ _)

theorem isNaN_nearest (n : Nat) (exponent : Int) : (nearest n exponent).isNaN = false := by
  rw [nearest]
  split
  · decide +kernel
  split
  · decide +kernel
  split
  · exact isNaN_ofScientific_double _ _ _
  · exact isNaN_ofScientific_double _ _ _

theorem isNaN_neg_double (h : x.isNaN = false) : (-x).isNaN = false :=
  isNaN_ofModel_pack (isNaN_neg h)

theorem lt_iff_compare {y : Float} :
    x < y ↔ x.toModel.unpack.compare y.toModel.unpack = some .lt := by
  change decide ((x.toModel.unpack.compare y.toModel.unpack == some .lt) = true) = true ↔ _
  rw [decide_eq_true_iff, beq_iff_eq]

theorem beq_iff_compare {y : Float} :
    (x == y) = true ↔ x.toModel.unpack.compare y.toModel.unpack = some .eq := by
  change (x.toModel.unpack.compare y.toModel.unpack == some .eq) = true ↔ _
  rw [beq_iff_eq]

/-- A double that is some number is equal to itself. -/
theorem compare?_self (h : x.isNaN = false) : compare? x x = some .eq := by
  have hself : x.toModel.unpack.compare x.toModel.unpack = some .eq := compare_self h
  rw [compare?, if_neg, if_pos (beq_iff_compare.mpr hself)]
  rw [lt_iff_compare, hself]
  nofun

/-- A numeral is read as a number. -/
theorem Numeral.exists_number {text : String} (h : Numeral text.toList) :
    ∃ x, double? text = some x ∧ x.isNaN = false := by
  obtain ⟨n, e, hread | hread⟩ := h.exists_double?
  · exact ⟨_, hread, isNaN_nearest n e⟩
  · exact ⟨_, hread, isNaN_neg_double (isNaN_nearest n e)⟩

end ItemSql.Decimal
