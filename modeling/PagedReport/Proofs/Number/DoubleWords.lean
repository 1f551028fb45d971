import PagedReport.Proofs.Number.Nearest

/-!
# Words of doubles

A double keeps the word that it is made from unless the word is one of the many for a NaN.  So a
ratio within the range becomes the double that has the fields of its nearest word.
-/

namespace PagedReport

section

open Float.Model (Format)
open Float.Model.UnpackedFloat

theorem ofBitVec_toBitVec (s : BitVec 1) : (Sign.ofBitVec s).toBitVec = s := by
  revert s
  decide

theorem packComponents_unpack (spec : Format) (b : BitVec spec.numBits) :
    packComponents spec (Sign.ofBitVec (unpackSign b)) (unpackExponent b) (unpackMantissa b) =
      b := by
  have hm := spec.hm
  have he := spec.he
  rw [packComponents, ofBitVec_toBitVec]
  apply BitVec.eq_of_getLsbD_eq
  intro i hi
  rw [BitVec.getLsbD_append, BitVec.getLsbD_append]
  unfold unpackMantissa unpackExponent unpackSign
  simp only [BitVec.getLsbD_cast, BitVec.getLsbD_extract]
  grind

/-! ### Mantissas of 52 bits -/

section

variable (m : BitVec 52)

theorem log2_subnormal (hm : m ≠ 0#52) : m.toNat.log2 + 1 ≠ Format.binary64.mantissaBits := by
  have hpos : m.toNat ≠ 0 := fun heq ↦ hm (BitVec.eq_of_toNat_eq heq)
  have hlt := (Nat.log2_lt hpos).mpr m.isLt
  exact Nat.ne_of_lt (Nat.succ_lt_succ hlt)

theorem toNat_implicit : (1#1 ++ m).toNat = 2 ^ 52 + m.toNat := by
  rw [BitVec.toNat_append, ← Nat.shiftLeft_add_eq_or_of_lt m.isLt]
  rfl

theorem log2_implicit : (1#1 ++ m).toNat.log2 + 1 = Format.binary64.mantissaBits := by
  have hm : m.toNat < 2 ^ 52 := m.isLt
  have hpos : 2 ^ 52 + m.toNat ≠ 0 := by omega
  have hlt := (Nat.log2_lt hpos).mpr (by omega : 2 ^ 52 + m.toNat < 2 ^ 53)
  have hle := (Nat.le_log2 hpos).mpr (by omega : 2 ^ 52 ≤ 2 ^ 52 + m.toNat)
  rw [toNat_implicit]
  exact congrArg (· + 1) (le_antisymm (Nat.le_of_lt_succ hlt) hle)

theorem ofNat_implicit : BitVec.ofNat 52 (1#1 ++ m).toNat = m := by
  apply BitVec.eq_of_toNat_eq
  rw [toNat_implicit, BitVec.toNat_ofNat, Nat.add_mod_left, Nat.mod_eq_of_lt m.isLt]

end

/-- A word that is not for a NaN or an infinity is packed from what it is unpacked to. -/
theorem pack_unpack {b : BitVec 64} (h : @unpackExponent Format.binary64 b ≠ -1#11) :
    pack Format.binary64 (unpack Format.binary64 b) = b := by
  have hb := packComponents_unpack Format.binary64 b
  generalize he : @unpackExponent Format.binary64 b = e at h hb
  have helt : e.toNat < 2047 := by
    have hlt : e.toNat < 2048 := e.isLt
    have hne : e.toNat ≠ 2047 := fun heq ↦ h (BitVec.eq_of_toNat_eq heq)
    omega
  unfold unpack
  dsimp only
  rw [he, if_neg h]
  by_cases h0 : e = 0#11
  · rw [if_pos h0]
    subst h0
    by_cases hm0 : @unpackMantissa Format.binary64 b = 0#52
    · rw [dif_pos hm0]
      rw [hm0] at hb
      exact hb
    · rw [dif_neg hm0]
      unfold pack
      dsimp only
      rw [if_neg (by decide), if_neg (log2_subnormal _ hm0), BitVec.ofNat_toNat]
      exact hb
  · have hexp : ((e.toNat - (Format.binary64.exponentBias + (52 : ℕ)) : ℤ) +
        Format.binary64.exponentBias + (52 : ℕ)).toNat = e.toNat := by
      omega
    have hmantissa := ofNat_implicit (@unpackMantissa Format.binary64 b)
    rw [if_neg h0]
    unfold pack
    dsimp only
    rw [hexp, if_neg (Nat.not_le.mpr (Nat.succ_lt_succ helt)), if_pos (log2_implicit _),
      BitVec.ofNat_toNat]
    rw [← hmantissa] at hb
    exact hb

theorem toNat_unpackExponent (w : UInt64) :
    (@unpackExponent Format.binary64 w.toBitVec).toNat = w.toNat / 2 ^ 52 % 2 ^ 11 := by
  rw [← Nat.shiftRight_eq_div_pow]
  rfl

theorem unpackExponent_ne {w : UInt64} (h : w.toNat / 2 ^ 52 % 2 ^ 11 ≠ 2 ^ 11 - 1) :
    @unpackExponent Format.binary64 w.toBitVec ≠ -1#11 := by
  intro heq
  rw [← toNat_unpackExponent, heq] at h
  exact h rfl

theorem toBits_ofBits {w : UInt64} (h : w.toNat / 2 ^ 52 % 2 ^ 11 ≠ 2 ^ 11 - 1) :
    (Float.ofBits w).toBits = w :=
  UInt64.toBitVec_inj.mp (pack_unpack (unpackExponent_ne h))

theorem isFinite_ofBits {w : UInt64} (h : w.toNat / 2 ^ 52 % 2 ^ 11 ≠ 2 ^ 11 - 1) :
    (Float.ofBits w).isFinite = true := by
  have hmodel : (Float.ofBits w).isFinite = Float.Model.UnpackedFloat.isFinite
      (unpack Format.binary64 (Float.ofBits w).toBits.toBitVec) := rfl
  rw [hmodel, toBits_ofBits h]
  unfold unpack
  dsimp only
  rw [if_neg (unpackExponent_ne h)]
  by_cases h0 : @unpackExponent Format.binary64 w.toBitVec = 0#11
  · rw [if_pos h0]
    by_cases hm0 : @unpackMantissa Format.binary64 w.toBitVec = 0#52
    · rw [dif_pos hm0]
      rfl
    · rw [dif_neg hm0]
      rfl
  · rw [if_neg h0]
    rfl

end

namespace BinaryLayout

variable (l : BinaryLayout)

/-- Below infinity there are only finite numbers. -/
theorem exists_decode {bits : ℕ} (h : bits % (l.hidden * 2 ^ l.exponentBits) < l.infinity) :
    ∃ m q, l.decode bits =
      .finite (bits / (2 ^ l.exponentBits * l.hidden) % 2 == 1) m q := by
  have hfield : bits / l.hidden % 2 ^ l.exponentBits ≠ 2 ^ l.exponentBits - 1 := by
    intro heq
    rw [Nat.mod_mul, heq, infinity, Nat.mul_comm l.hidden] at h
    exact Nat.not_lt.mpr (Nat.le_add_left ..) h
  unfold decode
  dsimp only [Nat.pow_eq]
  rw [if_neg hfield]
  split
  · exact ⟨_, _, rfl⟩
  · exact ⟨_, _, rfl⟩

end BinaryLayout

/-- What is read of a ratio that is nearest to a number. -/
theorem doubleValue_doubleNearest (negative : Bool) {num den m : ℕ} {q : ℤ}
    (hcanonical : BinaryLayout.double.Canonical m q)
    (hfinite : BinaryLayout.double.word m q < BinaryLayout.double.infinity)
    (h : BinaryLayout.double.nearest num den = BinaryLayout.double.word m q) :
    doubleValue (doubleNearest negative num den) = .finite negative m q ∧
      (doubleNearest negative num den).isFinite = true := by
  unfold doubleNearest
  dsimp only
  rw [h]
  generalize hword : BinaryLayout.double.word m q = word at *
  have hlt : word < 2 ^ 63 - 2 ^ 52 := hfinite
  have hbits : (UInt64.ofNat (if negative then Nat.pow 2 63 + word else word)).toNat =
      if negative then 2 ^ 63 + word else word := by
    rw [UInt64.toNat_ofNat']
    split
    · exact Nat.mod_eq_of_lt (by rw [Nat.pow_eq]; omega)
    · exact Nat.mod_eq_of_lt (by omega)
  generalize UInt64.ofNat _ = w at hbits ⊢
  have hmod : w.toNat % (BinaryLayout.double.hidden * 2 ^ BinaryLayout.double.exponentBits) =
      word := by
    change w.toNat % 2 ^ 63 = word
    rw [hbits]
    split <;> omega
  have hfield : w.toNat / 2 ^ 52 % 2 ^ 11 ≠ 2 ^ 11 - 1 := by
    rw [hbits]
    split <;> omega
  refine ⟨?_, isFinite_ofBits hfield⟩
  rw [doubleValue, toBits_ofBits hfield]
  obtain ⟨m', q', hdecode⟩ := BinaryLayout.double.exists_decode (hmod.trans_lt hfinite)
  obtain ⟨hcanonical', -, hword'⟩ := BinaryLayout.decode_word hdecode
  obtain ⟨rfl, rfl⟩ := hcanonical'.word_inj hcanonical (hword'.trans (hmod.trans hword.symm))
  have hsign : (w.toNat / (2 ^ 11 * 2 ^ 52) % 2 == 1) = negative := by
    rw [hbits]
    cases negative with
    | true => exact beq_iff_eq.mpr (by rw [if_pos rfl]; omega)
    | false => exact beq_eq_false_iff_ne.mpr (by rw [if_neg (by decide)]; omega)
  exact hdecode.trans (congrArg (BinaryValue.finite · _ _) hsign)

end PagedReport
