import PagedReport.Color

/-!
# Hexadecimal colours

A text is read as a colour if it is `#` with three or six digits in base sixteen, blanks at its ends
apart.  A component of two digits is read as an integer, which may have a sign: of all other texts
those are read in which a plus stands for the first digit of a component, as if it were a zero.
-/

namespace PagedReport

namespace Color

/-! ## Digits -/

/-- The digits in base sixteen, in either case, with their numbers. -/
def hexDigits : List (Char × Nat) :=
  "0123456789abcdef".toList.zipIdx ++ "ABCDEF".toList.zipIdx 10

theorem digitValue_eq_some_iff {c : Char} {n : Nat} :
    digitValue 16 c = some n ↔ (c, n) ∈ hexDigits := by
  constructor
  · intro h
    have hascii : c.toNat < 128 := by
      refine Nat.lt_of_not_le fun hlarge ↦ ?_
      have hnone : digitValue 16 c = none := by
        unfold digitValue
        dsimp only
        rw [if_neg (by omega), if_neg (by omega), if_neg (by omega)]
        rfl
      rw [hnone] at h
      cases h
    have hall : ∀ k < 128, ∀ n ∈ digitValue 16 (Char.ofNat k), (Char.ofNat k, n) ∈ hexDigits := by
      decide
    have hc := hall c.toNat hascii
    rw [Char.ofNat_toNat] at hc
    exact hc n h
  · intro h
    have hall : ∀ d ∈ hexDigits, digitValue 16 d.1 = some d.2 := by decide
    exact hall (c, n) h

theorem lt_of_mem_hexDigits {d : Char × Nat} (h : d ∈ hexDigits) : d.1.toNat < 128 ∧ d.2 < 16 := by
  have hall : ∀ d ∈ hexDigits, d.1.toNat < 128 ∧ d.2 < 16 := by decide
  exact hall d h

/-- A character is a digit for one number only. -/
theorem eq_of_mem_hexDigits {c : Char} {m n : Nat} (hm : (c, m) ∈ hexDigits)
    (hn : (c, n) ∈ hexDigits) : m = n := by
  rw [← digitValue_eq_some_iff] at hm hn
  exact Option.some.inj (hm.symm.trans hn)

/-! ## Components -/

/-- A plus before a digit is read like a zero there. -/
def unsignedDigit (c : Char) : Char := if c = '+' then '0' else c

theorem unsignedDigit_eq_self {c : Char} {n : Nat} (h : (c, n) ∈ hexDigits) :
    unsignedDigit c = c := by
  rw [unsignedDigit, if_neg]
  rintro rfl
  have hnone : digitValue 16 '+' = none := by decide
  rw [← digitValue_eq_some_iff, hnone] at h
  cases h

theorem readInteger_pair (a b : Char) :
    readInteger 16 0 255 [a, b] =
      (readDigits 16 255 .tooLarge 0 [unsignedDigit a, b]).map Int.ofNat := by
  by_cases hplus : a = '+'
  · subst hplus
    rfl
  · rw [unsignedDigit, if_neg hplus]
    unfold readInteger
    split
    · next heq => cases heq
    · next heq => cases heq
    · next heq => cases heq
    · next heq => exact absurd (List.cons.inj heq).1 hplus
    · next heq => rw [if_neg (Nat.lt_irrefl 0), heq]
    · rfl

theorem readDigits_pair {a b : Char} {v : Nat} :
    readDigits 16 255 .tooLarge 0 [a, b] = .ok v ↔
      ∃ m n, (a, m) ∈ hexDigits ∧ (b, n) ∈ hexDigits ∧ v = 16 * m + n := by
  simp only [← digitValue_eq_some_iff, readDigits]
  constructor
  · intro h
    split at h
    · cases h
    · next m hm =>
        split at h
        · cases h
        · split at h
          · cases h
          · next n hn =>
              split at h
              · cases h
              · refine ⟨m, n, hm, hn, ?_⟩
                have hv := Except.ok.inj h
                omega
  · rintro ⟨m, n, hm, hn, rfl⟩
    have hm16 := (lt_of_mem_hexDigits (digitValue_eq_some_iff.mp hm)).2
    have hn16 := (lt_of_mem_hexDigits (digitValue_eq_some_iff.mp hn)).2
    dsimp only at hm16 hn16
    rw [hm, hn]
    dsimp only
    rw [if_neg (by omega), if_neg (by omega)]
    congr 1
    omega

theorem hexComponent_pair {which : Component} {a b : Char} {v : UInt8} :
    hexComponent which [a, b] = .ok v ↔
      ∃ m n, (unsignedDigit a, m) ∈ hexDigits ∧ (b, n) ∈ hexDigits ∧ v = .ofNat (16 * m + n) := by
  rw [hexComponent, readInteger_pair]
  cases hread : readDigits 16 255 .tooLarge 0 [unsignedDigit a, b] with
  | error e =>
      constructor
      · nofun
      · rintro ⟨m, n, hm, hn, -⟩
        rw [readDigits_pair.mpr ⟨m, n, hm, hn, rfl⟩] at hread
        cases hread
  | ok k =>
      obtain ⟨m, n, hm, hn, rfl⟩ := readDigits_pair.mp hread
      constructor
      · intro h
        exact ⟨m, n, hm, hn, (Except.ok.inj h).symm⟩
      · rintro ⟨m', n', hm', hn', rfl⟩
        rw [eq_of_mem_hexDigits hm' hm, eq_of_mem_hexDigits hn' hn]
        rfl

/-- A doubled digit has no sign before it. -/
theorem hexComponent_double {which : Component} {a : Char} {v : UInt8} :
    hexComponent which [a, a] = .ok v ↔ ∃ n, (a, n) ∈ hexDigits ∧ v = .ofNat (16 * n + n) := by
  rw [hexComponent_pair]
  constructor
  · rintro ⟨m, n, hm, hn, rfl⟩
    rw [unsignedDigit_eq_self hn] at hm
    rw [eq_of_mem_hexDigits hm hn]
    exact ⟨n, hn, rfl⟩
  · rintro ⟨n, hn, rfl⟩
    exact ⟨n, n, by rwa [unsignedDigit_eq_self hn], hn, rfl⟩

/-! ## Colours -/

/-- The hexadecimal texts and the colours that their digits denote.  In the short form every digit
stands for itself twice. -/
inductive HexText : List Char → Color → Prop
  | short {a b c : Char} {r g l : Nat} (ha : (a, r) ∈ hexDigits) (hb : (b, g) ∈ hexDigits)
      (hc : (c, l) ∈ hexDigits) :
      HexText ['#', a, b, c] ⟨.ofNat (16 * r + r), .ofNat (16 * g + g), .ofNat (16 * l + l)⟩
  | long {a a' b b' c c' : Char} {r r' g g' l l' : Nat} (ha : (a, r) ∈ hexDigits)
      (ha' : (a', r') ∈ hexDigits) (hb : (b, g) ∈ hexDigits) (hb' : (b', g') ∈ hexDigits)
      (hc : (c, l) ∈ hexDigits) (hc' : (c', l') ∈ hexDigits) :
      HexText ['#', a, a', b, b', c, c']
        ⟨.ofNat (16 * r + r'), .ofNat (16 * g + g'), .ofNat (16 * l + l')⟩

/-- A text of six digits with zeros for the plus signs before second digits of its components. -/
def unsignedText : List Char → List Char
  | ['#', a, a', b, b', c, c'] =>
    ['#', unsignedDigit a, a', unsignedDigit b, b', unsignedDigit c, c']
  | cs => cs

/-- A text with a plus for the first digit of a component. -/
def SignedText (cs : List Char) (c : Color) : Prop :=
  unsignedText cs ≠ cs ∧ HexText (unsignedText cs) c

theorem HexText.unsignedText_eq {cs : List Char} {c : Color} (h : HexText cs c) :
    unsignedText cs = cs := by
  cases h with
  | short => rfl
  | long ha _ hb _ hc _ =>
      rw [unsignedText, unsignedDigit_eq_self ha, unsignedDigit_eq_self hb,
        unsignedDigit_eq_self hc]

theorem hexText_unsignedText {cs : List Char} {c : Color} :
    HexText (unsignedText cs) c ↔ HexText cs c ∨ SignedText cs c := by
  by_cases heq : unsignedText cs = cs
  · rw [heq]
    exact ⟨.inl, fun h ↦ h.elim id fun hsigned ↦ absurd heq hsigned.1⟩
  · exact ⟨fun h ↦ .inr ⟨heq, h⟩,
      fun h ↦ h.elim (fun hcs ↦ absurd hcs.unsignedText_eq heq) And.right⟩

theorem components_eq_ok {x y z : Except HexError UInt8} {c : Color} :
    (do
      let r ← x
      let g ← y
      let b ← z
      return (⟨r, g, b⟩ : Color)) = Except.ok c ↔
      x = .ok c.red ∧ y = .ok c.green ∧ z = .ok c.blue := by
  obtain ⟨r, g, b⟩ := c
  cases x <;> cases y <;> cases z <;>
    simp [bind, Except.bind, pure, Except.pure]

theorem hexText_short {a b c : Char} {color : Color} :
    HexText ['#', a, b, c] color ↔
      (∃ n, (a, n) ∈ hexDigits ∧ color.red = .ofNat (16 * n + n)) ∧
      (∃ n, (b, n) ∈ hexDigits ∧ color.green = .ofNat (16 * n + n)) ∧
      ∃ n, (c, n) ∈ hexDigits ∧ color.blue = .ofNat (16 * n + n) := by
  constructor
  · intro h
    cases h with
    | short ha hb hc => exact ⟨⟨_, ha, rfl⟩, ⟨_, hb, rfl⟩, _, hc, rfl⟩
  · obtain ⟨red, green, blue⟩ := color
    rintro ⟨⟨r, ha, rfl⟩, ⟨g, hb, rfl⟩, l, hc, rfl⟩
    exact .short ha hb hc

theorem hexText_long {a a' b b' c c' : Char} {color : Color} :
    HexText ['#', a, a', b, b', c, c'] color ↔
      (∃ m n, (a, m) ∈ hexDigits ∧ (a', n) ∈ hexDigits ∧ color.red = .ofNat (16 * m + n)) ∧
      (∃ m n, (b, m) ∈ hexDigits ∧ (b', n) ∈ hexDigits ∧ color.green = .ofNat (16 * m + n)) ∧
      ∃ m n, (c, m) ∈ hexDigits ∧ (c', n) ∈ hexDigits ∧ color.blue = .ofNat (16 * m + n) := by
  constructor
  · intro h
    cases h with
    | long ha ha' hb hb' hc hc' =>
        exact ⟨⟨_, _, ha, ha', rfl⟩, ⟨_, _, hb, hb', rfl⟩, _, _, hc, hc', rfl⟩
  · obtain ⟨red, green, blue⟩ := color
    rintro ⟨⟨r, r', ha, ha', rfl⟩, ⟨g, g', hb, hb', rfl⟩, l, l', hc, hc', rfl⟩
    exact .long ha ha' hb hb' hc hc'

/-- A text that is read has three or six characters behind its hash, all of them ASCII. -/
theorem HexText.shape {cs : List Char} {c : Color} (h : HexText (unsignedText cs) c) :
    ∃ digits, cs = '#' :: digits ∧ (digits.length = 3 ∨ digits.length = 6) ∧
      digits.all (·.toNat < 128) = true := by
  have hascii {d : Char} {n : Nat} (hd : (d, n) ∈ hexDigits) : d.toNat < 128 :=
    (lt_of_mem_hexDigits hd).1
  have hsigned {d : Char} {n : Nat} (hd : (unsignedDigit d, n) ∈ hexDigits) : d.toNat < 128 := by
    by_cases hplus : d = '+'
    · subst hplus
      decide
    · rw [unsignedDigit, if_neg hplus] at hd
      exact hascii hd
  unfold unsignedText at h
  split at h
  · next a a' b b' c c' =>
      obtain ⟨⟨_, _, ha, ha', -⟩, ⟨_, _, hb, hb', -⟩, _, _, hc, hc', -⟩ := hexText_long.mp h
      refine ⟨_, rfl, .inr rfl, ?_⟩
      simp [hsigned ha, hascii ha', hsigned hb, hascii hb', hsigned hc, hascii hc']
  · next hlong =>
      cases h with
      | short ha hb hc =>
          refine ⟨_, rfl, .inl rfl, ?_⟩
          simp [hascii ha, hascii hb, hascii hc]
      | long => exact absurd rfl (hlong _ _ _ _ _ _)

theorem ofHex_eq_ok {s : String} {c : Color} :
    ofHex s = .ok c ↔ HexText (unsignedText (trimBoth s.toList)) c := by
  unfold ofHex
  dsimp only
  generalize trimBoth s.toList = text
  split
  · next digits =>
      split
      · next hother =>
          refine ⟨nofun, fun h ↦ ?_⟩
          obtain ⟨_, heq, -, hascii⟩ := h.shape
          obtain ⟨-, rfl⟩ := List.cons.inj heq
          rw [hascii] at hother
          cases hother
      · split
        · rw [components_eq_ok]
          simp only [hexComponent_double]
          exact hexText_short.symm
        · rw [components_eq_ok]
          simp only [hexComponent_pair]
          exact hexText_long.symm
        · next hshort hlong =>
            refine ⟨nofun, fun h ↦ ?_⟩
            obtain ⟨_, heq, hlength, -⟩ := h.shape
            obtain ⟨-, rfl⟩ := List.cons.inj heq
            rcases hlength with hthree | hsix
            · match digits, hthree with
              | [a, b, c], _ => exact absurd rfl (hshort a b c)
            · match digits, hsix with
              | [a, a', b, b', c, c'], _ => exact absurd rfl (hlong a a' b b' c c')
  · next hhash =>
      refine ⟨nofun, fun h ↦ ?_⟩
      obtain ⟨digits, rfl, -⟩ := h.shape
      exact absurd rfl (hhash digits)

/-! ## Acceptance -/

/-- A text is read as the colour that its digits denote, if it is a hexadecimal text without the
blanks at its ends or becomes one by zeros in the place of plus signs, and as no other.  An
attribute is the colour of its name, if it is a name, or else the one that is read, or black. -/
theorem ofHex_exact (s : String) :
    let text := trimBoth s.toList
    (∀ c, ofHex s = .ok c ↔ HexText text c ∨ SignedText text c) ∧
    (∀ c, named s = some c → ofAttribute s = c) ∧
    (named s = none → ∀ c, HexText text c ∨ SignedText text c → ofAttribute s = c) ∧
    (named s = none → (∀ c, ¬(HexText text c ∨ SignedText text c)) → ofAttribute s = black) := by
  intro text
  have hread (c : Color) : ofHex s = .ok c ↔ HexText text c ∨ SignedText text c :=
    ofHex_eq_ok.trans hexText_unsignedText
  refine ⟨hread, fun c hname ↦ ?_, fun hname c hc ↦ ?_, fun hname hnone ↦ ?_⟩
  · rw [ofAttribute, hname]
  · rw [ofAttribute, hname, (hread c).mpr hc]
  · cases hhex : ofHex s with
    | ok c => exact absurd ((hread c).mp hhex) (hnone c)
    | error e => rw [ofAttribute, hname, hhex]

/-- Blanks around three digits, a plus before a digit, a text that is too short, and a name. -/
theorem ofHex_exact_samples :
    ofHex "\t#3aF " = .ok ⟨0x33, 0xAA, 0xFF⟩ ∧ ofAttribute "#336699" = ⟨0x33, 0x66, 0x99⟩ ∧
      ofHex "#+1fF0b" = .ok ⟨1, 0xFF, 11⟩ ∧ ofAttribute "#12" = black ∧
      ofAttribute "lightgray" = gray 211 := by
  have hshort : HexText ['#', '3', 'a', 'F'] ⟨0x33, 0xAA, 0xFF⟩ :=
    hexText_short.mpr ⟨⟨3, by decide⟩, ⟨10, by decide⟩, 15, by decide⟩
  have hlong : HexText ['#', '3', '3', '6', '6', '9', '9'] ⟨0x33, 0x66, 0x99⟩ :=
    hexText_long.mpr ⟨⟨3, 3, by decide⟩, ⟨6, 6, by decide⟩, 9, 9, by decide⟩
  have hsigned : SignedText ['#', '+', '1', 'f', 'F', '0', 'b'] ⟨1, 0xFF, 11⟩ :=
    ⟨by decide, hexText_long.mpr ⟨⟨0, 1, by decide⟩, ⟨15, 15, by decide⟩, 0, 11, by decide⟩⟩
  have htwo (c : Color) : ¬(HexText ['#', '1', '2'] c ∨ SignedText ['#', '1', '2'] c) := by
    rintro (h | ⟨-, h⟩) <;> cases h
  exact ⟨((ofHex_exact "\t#3aF ").1 _).mpr (.inl hshort),
    (ofHex_exact "#336699").2.2.1 rfl _ (.inl hlong),
    ((ofHex_exact "#+1fF0b").1 _).mpr (.inr hsigned),
    (ofHex_exact "#12").2.2.2 rfl htwo, (ofHex_exact "lightgray").2.1 _ rfl⟩

/-- A plus is no digit, but is read as if it were one. -/
theorem not_hexText_of_ofHex :
    ofHex "#+1+2+3" = .ok ⟨1, 2, 3⟩ ∧ ofAttribute "#+1+2+3" = ⟨1, 2, 3⟩ ∧ named "#+1+2+3" = none ∧
      ∀ c, ¬HexText (trimBoth "#+1+2+3".toList) c := by
  refine ⟨rfl, rfl, rfl, fun c h ↦ ?_⟩
  obtain ⟨⟨m, n, hplus, -⟩, -⟩ := hexText_long.mp h
  have hnone : ∀ d ∈ hexDigits, d.1 ≠ '+' := by decide
  exact hnone _ hplus rfl

end Color

end PagedReport
