import Mathlib.Data.List.Basic
import PagedReport.Pdf.EmbeddedFont
import PagedReport.Proofs.Pdf.Agreement
import PagedReport.Proofs.Pdf.Blocks
import PagedReport.Proofs.Pdf.UnicodeMaps

/-!
# Decoding by fonts

A viewer gets a text back from its codes by what the dictionary of the font says: a standard font
has the characters of Windows-1252 for bytes, and a font with glyph numbers for codes comes with a
map from glyphs to characters.  A font decodes what was encoded with it, whatever is drawn later.
-/

namespace PagedReport

/-! ## Windows-1252 -/

namespace WinAnsi

/-- The characters of the bytes from `0x80` to `0x9F`; five of these bytes have none. -/
def upperHalf : List (Option Char) :=
  [ some '€', none, some '‚', some 'ƒ', some '„', some '…', some '†', some '‡',
    some 'ˆ', some '‰', some 'Š', some '‹', some 'Œ', none, some 'Ž', none,
    none, some '‘', some '’', some '“', some '”', some '•', some '–', some '—',
    some '˜', some '™', some 'š', some '›', some 'œ', none, some 'ž', some 'Ÿ' ]

/-- The character of a byte. -/
def char? (b : UInt8) : Option Char :=
  if 0x80 ≤ b.toNat ∧ b.toNat < 0xA0 then (upperHalf[b.toNat - 0x80]?).join
  else some (Char.ofNat b.toNat)

/-- A character of Windows-1252. -/
def Has (c : Char) : Prop := ∃ b, char? b = some c

theorem byte_of_char? {b : UInt8} {c : Char} (h : char? b = some c) : byte c = b := by
  have hupper : ∀ i : Fin 32, (char? (UInt8.ofNat (0x80 + i))).all
      fun c ↦ byte c == UInt8.ofNat (0x80 + i) := by decide +kernel
  have hbyte := b.toNat_lt
  by_cases hrange : 0x80 ≤ b.toNat ∧ b.toNat < 0xA0
  · have hb : UInt8.ofNat (0x80 + (b.toNat - 0x80)) = b := by
      rw [Nat.add_sub_cancel' hrange.1, UInt8.ofNat_toNat]
    have hall := hupper ⟨b.toNat - 0x80, by omega⟩
    rw [hb, h] at hall
    exact eq_of_beq hall
  · rw [char?, if_neg hrange] at h
    obtain rfl := Option.some.inj h
    have hvalid : b.toNat.isValidChar := .inl (by omega)
    have hchar : (Char.ofNat b.toNat).toNat = b.toNat := by
      rw [Char.ofNat, dif_pos hvalid]
      rfl
    rw [byte, hchar, if_pos (by omega), UInt8.ofNat_toNat]

theorem has_iff {c : Char} : Has c ↔ char? (byte c) = some c :=
  ⟨fun ⟨_, hb⟩ ↦ (byte_of_char? hb).symm ▸ hb, fun h ↦ ⟨byte c, h⟩⟩

instance (c : Char) : Decidable (Has c) := decidable_of_iff _ has_iff.symm

end WinAnsi

namespace Pdf

/-! ## Reading -/

namespace Object

/-- The content of a stream. -/
def content? : Object → Option ByteArray
  | .stream _ content _ => some content
  | .indirect o => content? o
  | _ => none

/-- Codes of two bytes each, the higher byte first. -/
def codes? : List UInt8 → Option (List UInt16)
  | [] => some []
  | [_] => none
  | high :: low :: rest => (codes? rest).map (UInt16.ofNat (high.toNat * 256 + low.toNat) :: ·)

/-- The map from glyphs to characters that a font comes with. -/
def unicodeMap? (font : Object) : Option UnicodeMap := do
  let content ← (← font.get? "ToUnicode").content?
  UnicodeMap.read? (← String.fromUTF8? content)

/-- The text of the operand of `Tj` by the dictionary of a font. -/
def readText? (font : Object) (bytes : List UInt8) : Option String :=
  match font.get? "Subtype", font.get? "Encoding" with
  | some (.name "Type1"), some (.name "WinAnsiEncoding") =>
    (bytes.mapM WinAnsi.char?).map String.ofList
  | some (.name "Type0"), some (.name "Identity-H") => do
    let map ← font.unicodeMap?
    let codes ← codes? bytes
    (codes.mapM fun code ↦ map.lookup code).map String.ofList
  | _, _ => none

theorem codes?_glyphBytes (gs : List UInt16) :
    codes? (gs.flatMap EmbeddedFont.glyphBytes) = some gs := by
  induction gs with
  | nil => rfl
  | cons g gs ih =>
      have hbound := g.toNat_lt
      have hcode : UInt16.ofNat ((UInt8.ofNat (g.toNat / 256)).toNat * 256 +
          (UInt8.ofNat g.toNat).toNat) = g := by
        rw [UInt8.toNat_ofNat', UInt8.toNat_ofNat', Nat.mod_eq_of_lt (by omega),
          Nat.div_add_mod' g.toNat 256, UInt16.ofNat_toNat]
      rw [List.flatMap_cons]
      change (codes? (gs.flatMap EmbeddedFont.glyphBytes)).map (_ :: ·) = _
      rw [ih, hcode, Option.map_some]

theorem mapM_eq_some {α β : Type} {f : α → Option β} {g : β → α} {xs : List β}
    (h : ∀ x ∈ xs, f (g x) = some x) : (xs.map g).mapM f = some xs := by
  induction xs with
  | nil => rfl
  | cons x xs ih =>
      rw [List.map_cons, List.mapM_cons, h x List.mem_cons_self,
        ih fun y hy ↦ h y (List.mem_cons_of_mem x hy)]
      rfl

end Object

/-! ## Glyphs noted -/

namespace UnicodeMap

/-- The glyphs of a map are in order and each is there once. -/
def Sorted (m : UnicodeMap) : Prop := m.Pairwise fun e e' ↦ e.1 < e'.1

theorem mem_note {g : UInt16} {c : Char} {m : UnicodeMap} {e : UInt16 × Char}
    (he : e ∈ note g c m) : e = (g, c) ∨ e ∈ m := by
  fun_induction note g c m <;> grind

theorem Sorted.note {m : UnicodeMap} (hm : Sorted m) (g : UInt16) (c : Char) :
    Sorted (note g c m) := by
  induction m with
  | nil => exact List.pairwise_singleton _ _
  | cons e m ih =>
      obtain ⟨hfirst, hrest⟩ := List.pairwise_cons.mp hm
      unfold UnicodeMap.note
      split
      · next hlt =>
          refine List.pairwise_cons.mpr ⟨fun e' he' ↦ ?_, hm⟩
          rcases List.mem_cons.mp he' with rfl | he'
          · exact hlt
          · exact UInt16.lt_trans hlt (hfirst e' he')
      · next hle =>
          split
          · exact hm
          · next hne =>
              refine List.pairwise_cons.mpr ⟨fun e' he' ↦ ?_, ih hrest⟩
              rcases mem_note he' with rfl | he'
              · exact UInt16.lt_of_le_of_ne (UInt16.not_lt.mp hle) (Ne.symm hne)
              · exact hfirst e' he'

theorem lookup_cons_eq (g : UInt16) (e : UInt16 × Char) (m : UnicodeMap) :
    List.lookup g (e :: m) = if g = e.1 then some e.2 else m.lookup g := by
  rw [List.lookup_cons]
  by_cases hg : g = e.1
  · rw [if_pos hg, beq_iff_eq.mpr hg]
  · rw [if_neg hg, beq_eq_false_iff_ne.mpr hg]

/-- A glyph keeps the character that it was noted for first. -/
theorem lookup_note {m : UnicodeMap} (hm : Sorted m) (g : UInt16) (c : Char) (g' : UInt16) :
    (note g c m).lookup g' = if g' = g then some ((m.lookup g).getD c) else m.lookup g' := by
  induction m with
  | nil => rw [note, lookup_cons_eq]; rfl
  | cons e m ih =>
      obtain ⟨hfirst, hrest⟩ := List.pairwise_cons.mp hm
      unfold note
      split
      · next hlt =>
          -- all glyphs of the map are greater, so the new one was not among them
          have hnew : List.lookup g (e :: m) = none := by
            refine List.lookup_eq_none_iff.mpr fun e' he' ↦ ?_
            have hbelow : g < e'.1 := by
              rcases List.mem_cons.mp he' with rfl | he'
              · exact hlt
              · exact UInt16.lt_trans hlt (hfirst e' he')
            simpa using UInt16.ne_of_lt hbelow
          rw [lookup_cons_eq, hnew]
          rfl
      · split
        · next heq =>
            simp only [lookup_cons_eq, heq, if_true, Option.getD_some]
            split <;> rfl
        · next hne =>
            simp only [lookup_cons_eq, ih hrest, if_neg hne]
            by_cases hg : g' = g
            · simp [hg, hne]
            · simp [hg]

end UnicodeMap

namespace EmbeddedFont

theorem use_used (f : EmbeddedFont) (c : Char) : (f.use c).used =
    if f.program.glyph c = 0 then f.used else f.used.note (f.program.glyph c) c := by
  unfold use
  dsimp only
  split <;> rfl

theorem foldl_use_sorted {f : EmbeddedFont} (hf : f.used.Sorted) (cs : List Char) :
    (cs.foldl use f).used.Sorted := by
  induction cs generalizing f with
  | nil => exact hf
  | cons c cs ih =>
      refine ih ?_
      rw [use_used]
      split
      · exact hf
      · exact hf.note _ c

/-- A glyph stands for the first character that it was drawn for. -/
theorem lookup_foldl_use {f : EmbeddedFont} (hf : f.used.Sorted) {g : UInt16} (hg : g ≠ 0)
    (cs : List Char) : (cs.foldl use f).used.lookup g =
      (f.used.lookup g).or (cs.find? fun c ↦ f.program.glyph c == g) := by
  induction cs generalizing f with
  | nil => simp
  | cons c cs ih =>
      have hused : (f.use c).used.Sorted := foldl_use_sorted hf [c]
      have hprogram : (f.use c).program = f.program := f.foldl_use_program [c]
      rw [List.foldl_cons, ih hused, hprogram, use_used, List.find?_cons]
      by_cases hc : f.program.glyph c = g
      · rw [if_neg (hc ▸ hg), hc, UnicodeMap.lookup_note hf, if_pos rfl]
        cases f.used.lookup g <;> simp
      · have hother : (f.program.glyph c == g) = false := by simpa using hc
        rw [hother]
        split
        · rfl
        · rw [UnicodeMap.lookup_note hf, if_neg (Ne.symm hc)]

/-- A character is found by its glyph if no other one was drawn with it. -/
theorem lookup_drawn {f : EmbeddedFont} (hf : f.used = []) {cs : List Char} {c : Char}
    (hc : c ∈ cs) (hglyph : f.program.glyph c ≠ 0)
    (hown : ∀ c' ∈ cs, f.program.glyph c' = f.program.glyph c → c' = c) :
    (cs.foldl use f).used.lookup (f.program.glyph c) = some c := by
  have hsorted : f.used.Sorted := hf ▸ List.Pairwise.nil
  rw [lookup_foldl_use hsorted hglyph, hf]
  obtain ⟨c', hfound⟩ : ∃ c', cs.find? (f.program.glyph · == f.program.glyph c) = some c' :=
    Option.isSome_iff_exists.mp (List.find?_isSome.mpr ⟨c, hc, by simp⟩)
  obtain rfl := hown c' (List.mem_of_find?_eq_some hfound) (by simpa using List.find?_some hfound)
  rw [hfound]
  rfl

theorem unicodeMap?_object (f : EmbeddedFont) : f.object.unicodeMap? = some f.used := by
  have htext : String.fromUTF8? f.used.text.toUTF8 = some f.used.text := by
    have hvalid : f.used.text.toUTF8.IsValidUTF8 := f.used.text.isValidUTF8
    rw [String.fromUTF8?, dif_pos hvalid]
    rfl
  have hget : f.object.get? "ToUnicode" =
      some (.indirect (.stream [] f.used.text.toUTF8 true)) := by
    simp [object, Object.get?, List.lookup_cons]
  simp only [Object.unicodeMap?, hget, Object.content?, htext, Option.bind_eq_bind,
    Option.bind_some, UnicodeMap.read?_text]

/-- An operand is read by the glyphs that a font has noted. -/
theorem readText?_object (f : EmbeddedFont) (bytes : List UInt8) :
    f.object.readText? bytes = (Object.codes? bytes).bind fun codes ↦
      (codes.mapM fun code ↦ f.used.lookup code).map String.ofList := by
  have hsubtype : f.object.get? "Subtype" = some (.name "Type0") := by
    simp [object, Object.get?, List.lookup_cons]
  have hencoding : f.object.get? "Encoding" = some (.name "Identity-H") := by
    simp [object, Object.get?, List.lookup_cons]
  rw [Object.readText?, hsubtype, hencoding, unicodeMap?_object]
  rfl

end EmbeddedFont

theorem FontProgram.readText?_standardObject (f : StandardFont) (bytes : List UInt8) :
    (standardObject f).readText? bytes = (bytes.mapM WinAnsi.char?).map String.ofList := by
  have hsubtype : (standardObject f).get? "Subtype" = some (.name "Type1") := by
    simp [standardObject, Object.get?, List.lookup_cons]
  have hencoding : (standardObject f).get? "Encoding" = some (.name "WinAnsiEncoding") := by
    simp [standardObject, Object.get?, List.lookup_cons]
  rw [Object.readText?, hsubtype, hencoding]
  rfl

/-! ## What a key is drawn in -/

/-- Characters can be told from all that is drawn in a font: those of Windows-1252 in a standard
font, and in a font program those that have a glyph of their own. -/
inductive Tells : Option TrueType → (drawn cs : List Char) → Prop
  | standard {drawn cs : List Char} : (∀ c ∈ cs, WinAnsi.Has c) → Tells none drawn cs
  | program {program : TrueType} {drawn cs : List Char} :
      (∀ c ∈ cs, program.glyph c ≠ 0 ∧
        ∀ c' ∈ drawn, program.glyph c' = program.glyph c → c' = c) →
      Tells (some program) drawn cs

instance : (program : Option TrueType) → (drawn cs : List Char) → Decidable (Tells program drawn cs)
  | none, _, cs =>
    decidable_of_iff (cs.all fun c ↦ WinAnsi.Has c)
      ⟨fun h ↦ .standard (by simpa using h), fun (.standard h) ↦ by simpa using h⟩
  | some program, drawn, cs =>
    decidable_of_iff
      (cs.all fun c ↦ program.glyph c ≠ 0 ∧
        drawn.all fun c' ↦ program.glyph c' = program.glyph c → c' = c)
      ⟨fun h ↦ .program (by simpa [imp_iff_not_or] using h),
        fun (.program h) ↦ by simpa [imp_iff_not_or] using h⟩

/-- What texts of a key are drawn in: a font program, unless it is the standard font of the key, and
the characters that were drawn in it. -/
structure FontUse where
  program : Option TrueType := none
  drawn : List Char := []

namespace FontUse

/-- The font of a use. -/
def font (key : FontKey) (use : FontUse) : FontProgram :=
  match use.program with
  | none => .standard (standardFont key)
  | some program =>
    .embedded (use.drawn.foldl EmbeddedFont.use { name := EmbeddedFont.nameOf key, program })

/-- The use after more characters. -/
def draw (use : FontUse) (cs : List Char) : FontUse := { use with drawn := use.drawn ++ cs }

theorem encode_font (key : FontKey) (use : FontUse) (text : String) :
    ((use.font key).encode text).2.2 = (use.draw text.toList).font key := by
  obtain ⟨_ | program, drawn⟩ := use
  · rfl
  · simp [font, draw, FontProgram.encode, EmbeddedFont.encode]

/-- A text is decoded by the font that it was encoded with, whatever is drawn in this font later. -/
theorem readText?_encode (key : FontKey) {use : FontUse} {text : String} {later : List Char}
    (htells : Tells use.program (use.drawn ++ text.toList ++ later) text.toList) :
    (((use.draw text.toList).draw later).font key).object.readText?
      ((use.font key).encode text).1 = some text := by
  obtain ⟨program, earlier⟩ := use
  cases htells with
  | standard hall =>
      have hchars : (WinAnsi.encode text).mapM WinAnsi.char? = some text.toList :=
        Object.mapM_eq_some fun c hc ↦ WinAnsi.has_iff.mp (hall c hc)
      refine (FontProgram.readText?_standardObject (standardFont key) _).trans ?_
      change ((WinAnsi.encode text).mapM WinAnsi.char?).map String.ofList = some text
      rw [hchars, Option.map_some, String.ofList_toList]
  | @program program _ _ hall =>
      let blank : EmbeddedFont := { name := EmbeddedFont.nameOf key, program }
      let final := (earlier ++ text.toList ++ later).foldl EmbeddedFont.use blank
      let codes := text.toList.map program.glyph
      have hchars : codes.mapM (fun code ↦ final.used.lookup code) = some text.toList := by
        refine Object.mapM_eq_some fun c hc ↦ ?_
        obtain ⟨hglyph, hown⟩ := hall c hc
        exact EmbeddedFont.lookup_drawn (f := blank) rfl (by simp [hc]) hglyph hown
      have hbytes : ((earlier.foldl EmbeddedFont.use blank).encode text).1 =
          codes.flatMap EmbeddedFont.glyphBytes := by
        rw [EmbeddedFont.encode, EmbeddedFont.foldl_use_program, List.flatMap_map]
      have hcodes : Object.codes? ((earlier.foldl EmbeddedFont.use blank).encode text).1 =
          some codes := hbytes ▸ Object.codes?_glyphBytes codes
      refine (EmbeddedFont.readText?_object final _).trans ?_
      change ((Object.codes? ((earlier.foldl EmbeddedFont.use blank).encode text).1).bind _) = _
      rw [hcodes, Option.bind_some, hchars, Option.map_some, String.ofList_toList]

end FontUse

end Pdf

end PagedReport
