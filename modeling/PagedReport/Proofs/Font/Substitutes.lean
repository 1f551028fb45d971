import Mathlib.Tactic.LinearCombination
import Mathlib.Tactic.Zify
import PagedReport.Proofs.Pdf.FontDecoding

/-!
# Widths of substitutes

A standard font draws a question mark for a character outside of Windows-1252, but such a character
is measured by the width that its face has for all characters without one of their own.  The two
widths are the same in some faces only, and there the width of a text is that of its bytes.
-/

namespace PagedReport

/-! ## What is drawn -/

namespace WinAnsi

/-- The character that is drawn for a character. -/
def substitute (c : Char) : Char := if Has c then c else '?'

/-- The text that is drawn for a text. -/
def substituted (s : String) : String := String.ofList (s.toList.map substitute)

/-- How many characters of a text are not drawn as they are. -/
def lost (s : String) : Nat := s.toList.countP fun c ↦ ¬ Has c

/-- The characters of ASCII and of the upper half of Latin-1 are their own bytes. -/
theorem char?_ofNat {c : Char} (h : c.toNat < 0x80 ∨ 0xA0 ≤ c.toNat ∧ c.toNat ≤ 0xFF) :
    char? (UInt8.ofNat c.toNat) = some c := by
  have hsize : c.toNat < UInt8.size := Nat.lt_of_le_of_lt (by omega) (by decide : 0xFF < UInt8.size)
  rw [char?, UInt8.toNat_ofNat_of_lt' hsize, if_neg (by omega), Char.ofNat_toNat]

theorem char?_byte (c : Char) : byte c = 0x3F ∨ char? (byte c) = some c := by
  have hupper : ∀ e ∈ upper, char? e.2 = some (Char.ofNat e.1) := by decide +kernel
  unfold byte
  dsimp only
  split
  · next hlatin =>
      refine .inr ?_
      exact char?_ofNat (by omega)
  · cases hfound : upper.lookup c.toNat with
    | none => exact .inl rfl
    | some b =>
        obtain ⟨before, after, hentries, -⟩ := List.lookup_eq_some_iff.mp hfound
        have hchar : char? b = some (Char.ofNat c.toNat) :=
          hupper (c.toNat, b) (hentries ▸ List.mem_append_right before List.mem_cons_self)
        exact .inr (hchar.trans (congrArg some (Char.ofNat_toNat c)))

theorem byte_of_not_has {c : Char} (h : ¬ Has c) : byte c = 0x3F :=
  (char?_byte c).resolve_right (mt has_iff.mpr h)

/-- A byte is read as the character that was drawn. -/
theorem char?_byte_substitute (c : Char) : char? (byte c) = some (substitute c) := by
  unfold substitute
  split
  · next hc => exact has_iff.mp hc
  · next hc => rw [byte_of_not_has hc]; rfl

theorem byte_substitute (c : Char) : byte (substitute c) = byte c :=
  byte_of_char? (char?_byte_substitute c)

theorem encode_substituted (s : String) : encode (substituted s) = encode s := by
  simp [encode, substituted, byte_substitute]

/-- Texts with the same bytes are drawn as the same text. -/
theorem substituted_eq {s t : String} (h : encode s = encode t) :
    substituted s = substituted t := by
  have hread (s : String) : s.toList.map (some ∘ substitute) = (encode s).map char? := by
    rw [encode, List.map_map]
    exact List.map_congr_left fun c _ ↦ (char?_byte_substitute c).symm
  have heq : s.toList.map (some ∘ substitute) = t.toList.map (some ∘ substitute) := by
    rw [hread, h, hread]
  rw [← List.map_map, ← List.map_map] at heq
  exact congrArg String.ofList (List.map_injective_iff.mpr (fun _ _ ↦ Option.some.inj) heq)

theorem lost_substituted (s : String) : lost (substituted s) = 0 := by
  have hhas : ∀ c, Has (substitute c) := fun c ↦ ⟨byte c, char?_byte_substitute c⟩
  simp [lost, substituted, hhas]

end WinAnsi

/-! ## What is measured -/

namespace StandardFont

open WinAnsi

variable (f : StandardFont)

/-- A character that has no byte has no width of its own either. -/
theorem charWidth_of_not_has {c : Char} (h : ¬ Has c) : f.charWidth c = f.metrics.2 := by
  have hbullet : Has '•' := by decide +kernel
  unfold charWidth
  split
  · next hmetrics => rw [hmetrics]
  · next hmetrics =>
      have hascii : ¬ (32 ≤ c.toNat ∧ c.toNat ≤ 126) := fun hrange ↦
        h ⟨_, char?_ofNat (.inl (by omega))⟩
      have hother : c ≠ '•' := fun hc ↦ h (hc ▸ hbullet)
      rw [if_neg hascii, if_neg hother, hmetrics]

theorem charWidth_substitute (c : Char) :
    f.charWidth c + (if Has c then 0 else f.charWidth '?') =
      f.charWidth (substitute c) + if Has c then 0 else f.metrics.2 := by
  unfold substitute
  split
  · rfl
  · next hc => rw [f.charWidth_of_not_has hc, Nat.add_comm]

/-- A text measures as what is drawn, but for the difference that each lost character makes. -/
theorem textWidth_substituted (s : String) :
    f.textWidth s + lost s * f.charWidth '?' =
      f.textWidth (substituted s) + lost s * f.metrics.2 := by
  simp only [textWidth, lost, substituted, String.toList_ofList]
  induction s.toList with
  | nil => simp
  | cons c cs ih =>
      have hchar := f.charWidth_substitute c
      by_cases hc : Has c
      · simp only [if_pos hc] at hchar
        simp only [List.map_cons, List.foldr_cons, List.countP_cons, hc, not_true_eq_false,
          decide_false, Bool.false_eq_true, if_false, Nat.add_zero]
        omega
      · simp only [if_neg hc] at hchar
        simp only [List.map_cons, List.foldr_cons, List.countP_cons, hc, not_false_eq_true,
          decide_true, if_true, Nat.add_mul, Nat.one_mul]
        omega

/-- A question mark is as wide as the characters that have no width of their own. -/
def Uniform : Prop := f.charWidth '?' = f.metrics.2

instance : Decidable f.Uniform := inferInstanceAs (Decidable (_ = _))

theorem uniform_iff : f.Uniform ↔ f.family = .courier ∨
    f.family = .helvetica ∧ f.style.bold = false ∨ f.family = .times ∧ f.style.bold = true := by
  obtain ⟨family, bold, italic⟩ := f
  cases family <;> cases bold <;> cases italic <;> decide

variable {f} in
theorem textWidth_eq_iff {s t : String} (h : substituted s = substituted t) :
    f.textWidth s = f.textWidth t ↔ lost s = lost t ∨ f.Uniform := by
  have hs := f.textWidth_substituted s
  have ht := f.textWidth_substituted t
  rw [h] at hs
  unfold Uniform
  constructor
  · intro hwidth
    zify at hs ht hwidth
    have hproduct : ((lost s : ℤ) - lost t) * (f.charWidth '?' - f.metrics.2) = 0 := by
      linear_combination hs - ht - hwidth
    rcases mul_eq_zero.mp hproduct with hlost | hwidths
    · exact .inl (by omega)
    · exact .inr (by omega)
  · rintro (hlost | huniform)
    · rw [hlost] at hs
      omega
    · rw [huniform] at hs ht
      omega

/-- Texts with the same bytes have the same width in the faces whose question mark is as wide as the
characters it is drawn for, and in the other faces if and only if they lose as many characters.  In
particular a text is as wide as the one that is drawn for it, in the other faces only if no
character is lost. -/
theorem textWidth_of_bytes {s t : String} (h : encode s = encode t) :
    (f.textWidth s = f.textWidth t ↔ lost s = lost t ∨ f.Uniform) ∧
      encode (substituted s) = encode s ∧
      (f.textWidth s = f.textWidth (substituted s) ↔ (∀ c ∈ s.toList, Has c) ∨ f.Uniform) ∧
      (f.Uniform ↔ f.family = .courier ∨ f.family = .helvetica ∧ f.style.bold = false ∨
        f.family = .times ∧ f.style.bold = true) := by
  have hnone : lost s = 0 ↔ ∀ c ∈ s.toList, Has c := by simp [lost]
  refine ⟨textWidth_eq_iff (substituted_eq h), encode_substituted s, ?_, f.uniform_iff⟩
  rw [textWidth_eq_iff (substituted_eq (encode_substituted s).symm), lost_substituted, hnone]

theorem textWidth_of_bytes_bold : encode "漢字" = encode "?字" ∧ lost "漢字" ≠ lost "?字" ∧
    (⟨.times, { bold := true }⟩ : StandardFont).textWidth "漢字" =
      (⟨.times, { bold := true }⟩ : StandardFont).textWidth "?字" ∧
    (⟨.times, .regular⟩ : StandardFont).textWidth "漢字" ≠
      (⟨.times, .regular⟩ : StandardFont).textWidth "?字" := by
  have hbytes : encode "漢字" = encode "?字" := by decide +kernel
  have hlost : lost "漢字" ≠ lost "?字" := by decide +kernel
  refine ⟨hbytes, hlost, (textWidth_of_bytes _ hbytes).1.mpr (.inr (by decide)), fun hsame ↦ ?_⟩
  exact ((textWidth_of_bytes _ hbytes).1.mp hsame).elim hlost (by decide)

/-- In bold Helvetica a Chinese character is measured narrower than the question mark that is drawn
for it. -/
theorem not_textWidth_of_bytes : ¬ ∀ (f : StandardFont) (s t : String), encode s = encode t →
    f.textWidth s = f.textWidth t := by
  intro h
  have hwidth := h ⟨.helvetica, { bold := true }⟩ "漢" "?" (by decide +kernel)
  revert hwidth
  decide +kernel

end StandardFont

end PagedReport
