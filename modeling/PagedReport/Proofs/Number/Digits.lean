import Mathlib.Data.List.Basic
import Mathlib.Data.List.Induction
import Mathlib.Data.List.TakeWhile
import Mathlib.Tactic.Ring
import PagedReport.Number.Decimal

/-!
# Numbers and their digits

What a list of digits stands for, and how it is read from a text and printed again.  A list is taken
apart at its end, as numbers grow there.
-/

namespace PagedReport

namespace Decimal

/-- The number with these digits, the most significant first. -/
def number (ds : List ℕ) : ℕ := ds.foldl (fun n d ↦ n * 10 + d) 0

/-- A list of digits below ten. -/
def Digits (ds : List ℕ) : Prop := ∀ d ∈ ds, d < 10

theorem number_concat (ds : List ℕ) (d : ℕ) : number (ds ++ [d]) = number ds * 10 + d :=
  List.foldl_concat ..

theorem number_append (ds es : List ℕ) :
    number (ds ++ es) = number ds * 10 ^ es.length + number es := by
  induction es using List.reverseRecOn with
  | nil => simp [number]
  | append_singleton es e ih =>
      rw [← List.append_assoc, number_concat, ih, number_concat, List.length_append,
        List.length_singleton]
      ring

theorem number_replicate_zero (n : ℕ) : number (List.replicate n 0) = 0 := by
  induction n with
  | zero => rfl
  | succ n ih => rw [List.replicate_succ', number_concat, ih]

theorem number_eq_zero {ds : List ℕ} : number ds = 0 ↔ ∀ d ∈ ds, d = 0 := by
  induction ds using List.reverseRecOn with
  | nil => simp [number]
  | append_singleton ds d ih =>
      rw [number_concat]
      constructor
      · intro h e he
        rcases List.mem_append.mp he with he | he
        · exact ih.mp (by omega) e he
        · rw [List.mem_singleton.mp he]
          omega
      · intro h
        have hds := ih.mpr fun e he ↦ h e (List.mem_append_left _ he)
        have hd := h d (List.mem_append_right _ (List.mem_singleton_self d))
        omega

/-- Only zeros stand for zero. -/
theorem dropWhile_eq_nil {ds : List ℕ} : ds.dropWhile (· == 0) = [] ↔ number ds = 0 := by
  rw [List.dropWhile_eq_nil_iff, number_eq_zero]
  simp only [beq_iff_eq]

theorem Digits.append {ds es : List ℕ} (h : Digits ds) (h' : Digits es) : Digits (ds ++ es) := by
  intro d hd
  rcases List.mem_append.mp hd with hd | hd
  · exact h d hd
  · exact h' d hd

theorem Digits.of_subset {ds es : List ℕ} (h : Digits ds) (hes : es ⊆ ds) : Digits es :=
  fun d hd ↦ h d (hes hd)

theorem number_lt {ds : List ℕ} (h : Digits ds) : number ds < 10 ^ ds.length := by
  induction ds using List.reverseRecOn with
  | nil => exact Nat.one_pos
  | append_singleton ds d ih =>
      have hds := ih (h.of_subset (List.subset_append_left ..))
      have hd := h d (List.mem_append_right _ (List.mem_singleton_self d))
      rw [number_concat, List.length_append, List.length_singleton, Nat.pow_succ]
      omega

/-! ## Texts of digits -/

theorem digitOf_digitChar {d : ℕ} (h : d < 10) : digitOf d.digitChar = d :=
  Nat.toNat_digitChar_sub_48_of_lt_ten h

theorem number_toDigits (n : ℕ) : number ((Nat.toDigits 10 n).map digitOf) = n := by
  induction n using Nat.strong_induction_on with
  | _ n ih =>
      rw [Nat.toDigits_eq_if (by decide)]
      split
      · next hn => rw [List.map_singleton, digitOf_digitChar hn]; simp [number]
      · next hn =>
          rw [List.map_append, List.map_singleton, number_concat, ih (n / 10) (by omega),
            digitOf_digitChar (Nat.mod_lt n (by decide))]
          omega

/-- A number is printed by its digits without zeros in front of them. -/
theorem toDigits_number {ds : List ℕ} (h : Digits ds) (hne : number ds ≠ 0) :
    Nat.toDigits 10 (number ds) = (ds.dropWhile (· == 0)).map Nat.digitChar := by
  induction ds using List.reverseRecOn with
  | nil => exact absurd rfl hne
  | append_singleton ds d ih =>
      have hds : Digits ds := h.of_subset (List.subset_append_left ..)
      have hd : d < 10 := h d (List.mem_append_right _ (List.mem_singleton_self d))
      rw [number_concat] at hne ⊢
      rw [List.dropWhile_append]
      by_cases hzero : number ds = 0
      · have hd' : (d == 0) = false := by
          rw [beq_eq_false_iff_ne]
          omega
        rw [dropWhile_eq_nil.mpr hzero, hzero, Nat.zero_mul, Nat.zero_add,
          Nat.toDigits_of_lt_base hd]
        simp [hd']
      · have hdrop : (ds.dropWhile (· == 0)).isEmpty = false := by
          rw [List.isEmpty_eq_false_iff]
          exact mt dropWhile_eq_nil.mp hzero
        rw [hdrop, if_neg (by decide), List.map_append, ← ih hds hzero, List.map_singleton,
          ← Nat.toDigits_of_lt_base hd, Nat.mul_comm,
          Nat.toDigits_append_toDigits (by decide) (Nat.pos_of_ne_zero hzero) hd]

/-- A power of ten writes zeros behind a number. -/
theorem toDigits_mul_pow {n : ℕ} (hn : 0 < n) (k : ℕ) :
    Nat.toDigits 10 (n * 10 ^ k) = Nat.toDigits 10 n ++ List.replicate k '0' := by
  induction k with
  | zero => rw [pow_zero, mul_one, List.replicate_zero, List.append_nil]
  | succ k ih =>
      have hpos : 0 < n * 10 ^ k := Nat.mul_pos hn (Nat.pow_pos (by decide))
      have hzero : Nat.toDigits 10 (10 * (n * 10 ^ k)) = Nat.toDigits 10 (n * 10 ^ k) ++ ['0'] :=
        (Nat.toDigits_append_toDigits (by decide) hpos (by decide : 0 < 10)).symm
      rw [pow_succ, ← mul_assoc, mul_comm _ 10, hzero, ih, List.append_assoc,
        List.replicate_succ']

end Decimal

end PagedReport
