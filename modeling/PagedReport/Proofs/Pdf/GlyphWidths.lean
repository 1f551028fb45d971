import Mathlib.Algebra.Order.Round
import Mathlib.Data.Rat.Floor
import Mathlib.Tactic.FieldSimp
import PagedReport.Proofs.Pdf.GlyphTexts

/-!
# Widths of glyphs

A font with glyph numbers for codes comes with the widths of its glyphs, and a viewer advances by a
default width for a glyph without one.  All glyphs that are drawn have their width there, rounded to
the nearest integer, but for the missing glyph: it is drawn and measured like any other, and a
viewer advances by the default for it.
-/

namespace PagedReport

/-! ## Sums -/

/-- Summands that are off by half a unit at most add up to half a unit for each. -/
theorem abs_sum_sub_le {α : Type} {xs : List α} {v : α → ℤ} {w : α → ℚ}
    (h : ∀ x ∈ xs, |(v x : ℚ) - w x| ≤ 1 / 2) :
    |((xs.map v).sum : ℚ) - (xs.map w).sum| ≤ xs.length / 2 := by
  induction xs with
  | nil => simp
  | cons x xs ih =>
      obtain ⟨hx, hrest⟩ := List.forall_mem_cons.mp h
      have hsplit : (((x :: xs).map v).sum : ℚ) - ((x :: xs).map w).sum =
          (v x - w x) + ((xs.map v).sum - (xs.map w).sum) := by
        rw [List.map_cons, List.sum_cons, List.map_cons, List.sum_cons]
        push_cast
        ring
      have hlength : ((x :: xs).length : ℚ) / 2 = 1 / 2 + xs.length / 2 := by
        rw [List.length_cons]
        push_cast
        ring
      rw [hsplit, hlength]
      exact (abs_add_le _ _).trans (add_le_add hx (ih hrest))

theorem sum_ite_countP {α : Type} (xs : List α) (p : α → Prop) [DecidablePred p] (w : ℚ) :
    (xs.map fun x ↦ if p x then w else 0).sum = xs.countP p * w := by
  induction xs with
  | nil => simp
  | cons x xs ih =>
      rw [List.map_cons, List.sum_cons, ih, List.countP_cons]
      split <;> simp [*, add_mul, add_comm]

/-! ## Fonts that were read -/

namespace TrueType

theorem head?_units {t : ByteArray} {units : Nat} {bounds : Int × Int × Int × Int}
    (h : head? t = some (units, bounds)) : 16 ≤ units := by
  unfold head? at h
  simp only [Option.bind_eq_bind, failure, Option.pure_def] at h
  split at h
  · cases h
  · simp only [Option.bind_eq_some_iff] at h
    obtain ⟨units', -, left, -, bottom, -, right, -, top, -, format, -, h⟩ := h
    split at h
    · cases h
    · next hchecked =>
        obtain ⟨rfl, -⟩ := Prod.mk.inj (Option.some.inj h)
        simp only [Bool.or_eq_true, decide_eq_true_eq, not_or] at hchecked
        omega

/-- A font that can be read has units to measure in. -/
theorem read_unitsPerEm {data : ByteArray} {p : TrueType} (h : read data = .ok p) :
    0 < p.unitsPerEm := by
  unfold read at h
  simp only [bind, Except.bind] at h
  split at h
  · cases h
  · next tables _ =>
      cases hhead : (tables.lookup tagHead).join.bind head? with
      | none => rw [hhead] at h; cases h
      | some found =>
          obtain ⟨table, -, hunits⟩ := Option.bind_eq_some_iff.mp hhead
          rw [hhead] at h
          dsimp only at h
          split at h
          · cases h
          · split at h
            · cases h
            · obtain rfl := Except.ok.inj h
              exact Nat.lt_of_lt_of_le (by decide) (head?_units hunits)

/-- The width of a glyph in thousandths of an em as it is, not rounded. -/
def exactWidth (p : TrueType) (g : UInt16) : ℚ := 1000 * p.advance g / p.unitsPerEm

variable {p : TrueType} (hunits : 0 < p.unitsPerEm)

include hunits in
theorem inThousandths_advance (g : UInt16) :
    p.inThousandths (p.advance g) = round (p.exactWidth g) := by
  have hshifted : p.exactWidth g + 1 / 2 =
      ((2 * 1000 * p.advance g + p.unitsPerEm : ℕ) : ℚ) / ((2 * p.unitsPerEm : ℕ) : ℚ) := by
    rw [exactWidth]
    push_cast
    field_simp
    ring
  rw [round_eq, hshifted, Rat.floor_natCast_div_natCast, inThousandths,
    if_neg (Int.not_lt.mpr (Int.natCast_nonneg _)), Int.natAbs_natCast]
  rfl

/-- The advances of the glyphs of a text, which its width is measured from. -/
def units (p : TrueType) (text : String) : Nat :=
  (text.toList.map fun c ↦ p.advance (p.glyph c)).sum

theorem textWidth_eq (p : TrueType) (text : String) :
    p.textWidth text = Float.ofNat (p.units text) * 1000 / Float.ofNat p.unitsPerEm := by
  rw [textWidth, units, List.sum_eq_foldr, List.foldr_map]

theorem sum_exactWidth (p : TrueType) (text : String) :
    (text.toList.map fun c ↦ p.exactWidth (p.glyph c)).sum =
      1000 * p.units text / p.unitsPerEm := by
  rw [units]
  induction text.toList with
  | nil => simp
  | cons c cs ih =>
      rw [List.map_cons, List.sum_cons, List.map_cons, List.sum_cons, ih, exactWidth]
      push_cast
      ring

end TrueType

namespace Pdf

/-! ## Reading -/

namespace Object

def integer? : Object → Option Int
  | .integer n => some n
  | _ => none

/-- Widths as a font lists them: a glyph, and the widths of the glyphs from this one on. -/
def widthEntries? : List Object → Option (List (Nat × Int))
  | [] => some []
  | .integer first :: .array ws :: rest => do
    let ws ← ws.mapM integer?
    return ws.mapIdx (fun i w ↦ (first.toNat + i, w)) ++ (← widthEntries? rest)
  | _ => none

/-- The font that has the glyphs of a font. -/
def glyphFont? (font : Object) : Option Object :=
  match font.get? "DescendantFonts" with
  | some (.array [descendant]) => some descendant
  | _ => none

/-- The widths that a font declares for its glyphs. -/
def widths? (font : Object) : Option (List (Nat × Int)) :=
  match font.glyphFont?.bind (get? "W") with
  | some (.array entries) => widthEntries? entries
  | _ => none

/-- The width of the glyphs that a font declares none for. -/
def defaultWidth (font : Object) : Int :=
  ((font.glyphFont?.bind (get? "DW")).bind integer?).getD 1000

/-- How far a viewer advances for some glyphs, in thousandths of an em. -/
def advance? (font : Object) (codes : List UInt16) : Option Int :=
  font.widths?.map fun widths ↦
    (codes.map fun g ↦ (widths.lookup g.toNat).getD font.defaultWidth).sum

end Object

namespace EmbeddedFont

/-- The widths that a font declares, by the glyphs noted. -/
def declared (f : EmbeddedFont) : List (Nat × Int) :=
  (f.used.map Prod.fst).map fun g ↦ (g.toNat, f.program.inThousandths (f.program.advance g))

theorem widthEntries?_widths (f : EmbeddedFont) :
    Object.widthEntries? f.widths = some f.declared := by
  unfold widths declared
  induction f.used with
  | nil => rfl
  | cons e m ih =>
      rw [List.flatMap_cons, List.map_cons, List.map_cons, List.cons_append, List.cons_append,
        List.nil_append, Object.widthEntries?, ih]
      rfl

theorem glyphFont?_object (f : EmbeddedFont) :
    f.object.glyphFont? = some (.indirect f.glyphFont) := by
  simp [object, Object.glyphFont?, Object.get?, List.lookup_cons]

theorem widths?_object (f : EmbeddedFont) : f.object.widths? = some f.declared := by
  have hget : (Object.indirect f.glyphFont).get? "W" = some (.array f.widths) := by
    simp [glyphFont, Object.get?, List.lookup_cons]
  rw [Object.widths?, glyphFont?_object, Option.bind_some, hget]
  exact f.widthEntries?_widths

theorem defaultWidth_object (f : EmbeddedFont) : f.object.defaultWidth = 1000 := by
  have hget : (Object.indirect f.glyphFont).get? "DW" = none := by
    simp [glyphFont, Object.get?, List.lookup_cons]
  rw [Object.defaultWidth, glyphFont?_object, Option.bind_some, hget]
  rfl

theorem declared_sorted {f : EmbeddedFont} (hf : f.used.Sorted) :
    f.declared.Pairwise fun e e' ↦ e.1 < e'.1 := by
  rw [declared, List.map_map]
  exact List.pairwise_map.mpr hf

theorem lookup_declared (f : EmbeddedFont) (g : UInt16) : f.declared.lookup g.toNat =
    if g ∈ f.used.map Prod.fst then some (f.program.inThousandths (f.program.advance g))
    else none := by
  unfold declared
  induction f.used.map Prod.fst with
  | nil => rfl
  | cons g' gs ih =>
      rw [List.map_cons, List.lookup_cons, ih]
      by_cases hg : g = g'
      · simp [hg]
      · have hne : (g.toNat == g'.toNat) = false :=
          beq_eq_false_iff_ne.mpr fun heq ↦ hg (UInt16.toNat_inj.mp heq)
        simp [hne, hg]

/-! ## What a viewer makes of it -/

section

variable {name : String} {program : TrueType} {drawn : List Char}

/-- A font after all that is drawn in it. -/
def drawing (name : String) (program : TrueType) (drawn : List Char) : EmbeddedFont :=
  drawn.foldl use { name, program }

theorem drawing_program : (drawing name program drawn).program = program :=
  foldl_use_program _ drawn

theorem drawing_sorted : (drawing name program drawn).used.Sorted :=
  foldl_use_sorted (f := { name, program }) List.Pairwise.nil drawn

theorem mem_glyphs_drawing {g : UInt16} : g ∈ (drawing name program drawn).used.map Prod.fst ↔
    g ≠ 0 ∧ ∃ c ∈ drawn, program.glyph c = g := by
  simp [drawing, mem_glyphs_foldl_use]

/-- A glyph has its width rounded to the nearest integer, and the missing glyph none. -/
theorem lookup_drawing (hunits : 0 < program.unitsPerEm) {c : Char} (hc : c ∈ drawn) :
    (drawing name program drawn).declared.lookup (program.glyph c).toNat =
      if program.glyph c = 0 then none
      else some (round (program.exactWidth (program.glyph c))) := by
  rw [lookup_declared, drawing_program, TrueType.inThousandths_advance hunits]
  by_cases hglyph : program.glyph c = 0
  · rw [if_pos hglyph, if_neg fun hmem ↦ (mem_glyphs_drawing.mp hmem).1 hglyph]
  · rw [if_neg hglyph, if_pos (mem_glyphs_drawing.mpr ⟨hglyph, c, hc, rfl⟩)]

/-- The default width stands in the place of the missing glyph's, and no other width is off by more
than half a unit. -/
theorem abs_viewed_sub (hunits : 0 < program.unitsPerEm) {c : Char} (hc : c ∈ drawn) :
    |((((drawing name program drawn).declared.lookup (program.glyph c).toNat).getD 1000 : ℤ) : ℚ) -
      (program.exactWidth (program.glyph c) +
        if program.glyph c = 0 then 1000 - program.exactWidth 0 else 0)| ≤ 1 / 2 := by
  rw [lookup_drawing hunits hc]
  split
  · next hmissing =>
      rw [hmissing]
      norm_num
  · rw [Option.getD_some, add_zero, abs_sub_comm]
    exact abs_sub_round _

/-- A viewer advances for a text as far as it measures, up to half a unit for each character, and by
the default width in the place of the missing glyph's. -/
theorem advance?_drawing (name : String) (hunits : 0 < program.unitsPerEm) {cs : List Char}
    (hcs : ∀ c ∈ cs, c ∈ drawn) :
    ∃ a, (drawing name program drawn).object.advance? (cs.map program.glyph) = some a ∧
      |(a : ℚ) - ((cs.map fun c ↦ program.exactWidth (program.glyph c)).sum +
        (cs.countP fun c ↦ program.glyph c = 0) * (1000 - program.exactWidth 0))| ≤
        cs.length / 2 := by
  have hmissing : (cs.map fun c ↦
      if program.glyph c = 0 then 1000 - program.exactWidth 0 else 0).sum =
        (cs.countP fun c ↦ program.glyph c = 0) * (1000 - program.exactWidth 0) :=
    sum_ite_countP cs _ _
  refine ⟨_, by rw [Object.advance?, widths?_object, Option.map_some, defaultWidth_object], ?_⟩
  rw [← hmissing, ← List.sum_map_add, List.map_map]
  exact abs_sum_sub_le fun c hc ↦ abs_viewed_sub hunits (hcs c hc)

end

end EmbeddedFont

namespace FontUse

theorem font_of_program {use : FontUse} {program : TrueType} (h : use.program = some program)
    (key : FontKey) :
    use.font key = .embedded (.drawing (EmbeddedFont.nameOf key) program use.drawn) := by
  rw [font, h]
  rfl

end FontUse

theorem fontUse_concat (key : FontKey) (demands : List (Demand Float)) (demand : Demand Float) :
    fontUse key (demands ++ [demand]) = (fontUse key demands).after key demand :=
  List.foldl_concat ..

/-- The font program of a key was read from a file. -/
theorem fontUse_read {key : FontKey} {demands : List (Demand Float)} {program : TrueType}
    (h : (fontUse key demands).program = some program) :
    ∃ data, TrueType.read data = .ok program := by
  induction demands using List.reverseRecOn with
  | nil => cases h
  | append_singleton demands demand ih =>
      rw [fontUse_concat] at h
      rcases (fontUse key demands).after_cases key demand with
        hsame | ⟨data, program', -, hread, hnew⟩ | ⟨x, baseline, text, size, color, -, hdrawn⟩
      · exact ih (hsame ▸ h)
      · rw [hnew] at h
        obtain rfl := Option.some.inj h
        exact ⟨data, hread⟩
      · rw [hdrawn] at h
        exact ih h

/-- A character noted was drawn by a text, in the font that the key has in the end. -/
theorem text_of_drawn {key : FontKey} {demands : List (Demand Float)} {c : Char}
    (h : c ∈ (fontUse key demands).drawn) : ∃ before x baseline text size color after,
      demands = before ++ .draw (.mark (.text x baseline text key size color)) :: after ∧
      c ∈ text.toList ∧ (fontUse key before).program = (fontUse key demands).program := by
  induction demands using List.reverseRecOn with
  | nil => cases h
  | append_singleton demands demand ih =>
      rw [fontUse_concat] at h ⊢
      rcases (fontUse key demands).after_cases key demand with
        hsame | ⟨data, program', -, -, hnew⟩ | ⟨x, baseline, text, size, color, rfl, hdrawn⟩
      · rw [hsame] at h ⊢
        obtain ⟨before, x, baseline, text, size, color, after, rfl, hc, hprogram⟩ := ih h
        exact ⟨before, x, baseline, text, size, color, after ++ [demand], by simp, hc, hprogram⟩
      · rw [hnew] at h
        cases h
      · rw [hdrawn] at h ⊢
        rcases List.mem_append.mp h with hearlier | hc
        · obtain ⟨before, x', baseline', text', size', color', after, rfl, hc, hprogram⟩ :=
            ih hearlier
          exact ⟨before, x', baseline', text', size', color', after ++ [_], by simp; rfl, hc,
            hprogram⟩
        · exact ⟨demands, x, baseline, text, size, color, [], rfl, hc, rfl⟩

namespace Draft

/-- The use of a key that keeps its font after a text is drawn. -/
theorem fontUse_text {key : FontKey} (before : List (Demand Float)) {after : List (Demand Float)}
    (x baseline : Float) (text : String) (size : Float) (color : Color) (h : Keeps key after) :
    ∃ later, fontUse key (before ++ .draw (.mark (.text x baseline text key size color)) :: after) =
      ((fontUse key before).draw text.toList).draw later := by
  obtain ⟨later, hlater⟩ := foldl_after_keeps h ((fontUse key before).draw text.toList)
  refine ⟨later, ?_⟩
  rw [← hlater, fontUse, List.foldl_append, List.foldl_cons, ← fontUse, FontUse.after, if_pos rfl]

/-- The operand of a text in a font program. -/
theorem encode_of_program {use : FontUse} {program : TrueType} (h : use.program = some program)
    (key : FontKey) (text : String) : Object.codes? ((use.font key).encode text).1 =
      some (text.toList.map program.glyph) := by
  have hbytes : ((use.font key).encode text).1 =
      (text.toList.map program.glyph).flatMap EmbeddedFont.glyphBytes := by
    rw [FontUse.font_of_program h, FontProgram.encode, EmbeddedFont.encode,
      EmbeddedFont.drawing_program, List.flatMap_map]
  rw [hbytes, Object.codes?_glyphBytes]

theorem textWidth_of_program {d : Draft} {key : FontKey} {use : FontUse} {program : TrueType}
    (hd : d.programOf key = use.font key) (h : use.program = some program) (text : String) :
    d.textWidth key text = program.textWidth text := by
  rw [FontUse.font_of_program h, programOf] at hd
  cases hfound : d.program? key with
  | none => rw [hfound] at hd; cases hd
  | some p =>
      rw [hfound, Option.getD_some] at hd
      rw [textWidth, hfound, Option.getD_some, hd, FontProgram.textWidth,
        EmbeddedFont.drawing_program]

/-- A text that is drawn in a font program is shown in the document as its glyphs, in a font that
has noted all that is drawn in the program, and every character noted is shown in this font. -/
theorem document_program (files : Files) (compress : Bool) (info : DocumentInfo)
    {before after : List (Demand Float)} (x baseline : Float) {text : String} {key : FontKey}
    (size : Float) (color : Color) {program : TrueType} :
    let demands := before ++ .draw (.mark (.text x baseline text key size color)) :: after
    let doc := (attemptAll demands ({ files, compress } : Draft)).document info
    let drawn := (fontUse key demands).drawn
    Demand.PagesFirst demands → Keeps key after → (fontUse key before).program = some program →
    (∀ c ∈ text.toList, c ∈ drawn) ∧ ∃ name bytes,
      (doc.pages.flatMap Page.shown)[(before.filterMap Demand.text?).length]? =
        some (some name, bytes) ∧
      Object.codes? bytes = some (text.toList.map program.glyph) ∧
      doc.fonts.lookup name =
        some (EmbeddedFont.drawing (EmbeddedFont.nameOf key) program drawn).object ∧
      ∀ c ∈ drawn, ∃ bytes' codes, (some name, bytes') ∈ doc.pages.flatMap Page.shown ∧
        Object.codes? bytes' = some codes ∧ program.glyph c ∈ codes := by
  intro demands doc drawn hpages hkeeps hprogram
  obtain ⟨later, huse⟩ := fontUse_text before x baseline text size color hkeeps
  have hfinal : (fontUse key demands).program = some program := huse ▸ hprogram
  obtain ⟨hkey, hshown⟩ := shown_text files compress hpages
  have hlast : (attemptAll demands ({ files, compress } : Draft)).programOf key =
      (fontUse key demands).font key := attemptAll_programOf demands {} rfl
  have hfont := lookup_fontNameOf (attemptAll demands ({ files, compress } : Draft)) info hkey
  rw [hlast, FontUse.font_of_program hfinal] at hfont
  refine ⟨fun c hc ↦ ?_, _, _, hshown, encode_of_program hprogram key text, hfont, fun c hc ↦ ?_⟩
  · change c ∈ (fontUse key demands).drawn
    rw [huse]
    exact List.mem_append_left _ (List.mem_append_right _ hc)
  · -- a text that drew the character, not always the one above
    obtain ⟨before', x', baseline', text', size', color', after', hsplit, hc', hprogram'⟩ :=
      text_of_drawn hc
    obtain ⟨-, hshown'⟩ := shown_text files compress (hsplit ▸ hpages)
    rw [← hsplit] at hshown'
    exact ⟨_, _, List.mem_of_getElem? hshown',
      encode_of_program (hprogram'.trans hfinal) key text', List.mem_map_of_mem hc'⟩

/-- In the document, the font of a text that is drawn in a font program declares the widths of
glyphs in their order, none of them twice and all of them shown in it.  Every glyph of the text is
there with its width rounded to the nearest integer, unless it is the missing glyph, which is never
there.  So a viewer advances for the text as far as it was measured, up to half a unit for each
character, and by the default width in the place of the missing glyph's. -/
theorem glyphs_have_widths (files : Files) (compress : Bool) (info : DocumentInfo)
    (before after : List (Demand Float)) (x baseline size : Float) (text : String) (key : FontKey)
    (color : Color) (program : TrueType) :
    let demands := before ++ .draw (.mark (.text x baseline text key size color)) :: after
    Demand.PagesFirst demands → Keeps key after → (fontUse key before).program = some program →
    ∃ doc d name bytes font widths advance,
      Device.finish info .sound (attemptAll demands ({ files, compress } : Draft)) = .ok (doc, d) ∧
      (doc.pages.flatMap Page.shown)[(before.filterMap Demand.text?).length]? =
        some (some name, bytes) ∧
      Object.codes? bytes = some (text.toList.map program.glyph) ∧
      doc.fonts.lookup name = some font ∧ font.widths? = some widths ∧
      (widths.Pairwise fun e e' ↦ e.1 < e'.1) ∧
      (∀ e ∈ widths, e.1 ≠ 0 ∧ ∃ bytes' codes, (some name, bytes') ∈ doc.pages.flatMap Page.shown ∧
        Object.codes? bytes' = some codes ∧ e.1 ∈ codes.map UInt16.toNat) ∧
      (∀ c ∈ text.toList, widths.lookup (program.glyph c).toNat =
        if program.glyph c = 0 then none
        else some (round (program.exactWidth (program.glyph c)))) ∧
      0 < program.unitsPerEm ∧
      (attemptAll before ({ files, compress } : Draft)).textWidth key text =
        Float.ofNat (program.units text) * 1000 / Float.ofNat program.unitsPerEm ∧
      font.advance? (text.toList.map program.glyph) = some advance ∧
      |(advance : ℚ) - (1000 * program.units text / program.unitsPerEm +
        (text.toList.countP fun c ↦ program.glyph c = 0) * (1000 - program.exactWidth 0))| ≤
        text.toList.length / 2 := by
  intro demands hpages hkeeps hprogram
  obtain ⟨data, hread⟩ := fontUse_read hprogram
  have hunits := TrueType.read_unitsPerEm hread
  obtain ⟨hdrawn, name, bytes, hshown, hcodes, hfont, hnoted⟩ :=
    document_program files compress info x baseline size color hpages hkeeps hprogram
  let font := EmbeddedFont.drawing (EmbeddedFont.nameOf key) program (fontUse key demands).drawn
  obtain ⟨advance, hadvance, hnear⟩ :=
    EmbeddedFont.advance?_drawing (EmbeddedFont.nameOf key) hunits hdrawn
  rw [TrueType.sum_exactWidth] at hnear
  refine ⟨_, _, name, bytes, font.object, font.declared, advance, rfl, hshown, hcodes, hfont,
    font.widths?_object, EmbeddedFont.declared_sorted EmbeddedFont.drawing_sorted, ?_,
    fun c hc ↦ EmbeddedFont.lookup_drawing hunits (hdrawn c hc), hunits, ?_, hadvance, hnear⟩
  · intro e he
    obtain ⟨g, hg, rfl⟩ := List.mem_map.mp he
    obtain ⟨hne, c, hc, rfl⟩ := EmbeddedFont.mem_glyphs_drawing.mp hg
    obtain ⟨bytes', codes, hmem, hcodes', hglyph⟩ := hnoted c hc
    exact ⟨fun h ↦ hne (UInt16.toNat_inj.mp h), bytes', codes, hmem, hcodes',
      List.mem_map_of_mem hglyph⟩
  · rw [textWidth_of_program (attemptAll_programOf before {} rfl) hprogram, TrueType.textWidth_eq]

open EmbeddedFont (capitals capitalsFile capitals_glyphs)

theorem read_capitalsFile : TrueType.read capitalsFile = .ok capitals := by
  have hread : (TrueType.read capitalsFile).toOption = some capitals := (Option.some_get _).symm
  cases hfile : TrueType.read capitalsFile with
  | ok program =>
      rw [hfile] at hread
      exact congrArg Except.ok (Option.some.inj hread)
  | error fault => rw [hfile] at hread; cases hread

theorem capitals_metrics : capitals.unitsPerEm = 2048 ∧ capitals.advance 0 = 512 ∧
    capitals.advance 2 = 1365 ∧ capitals.inThousandths (capitals.advance 2) = 667 := by
  decide +kernel

/-- Texts in a font program, the first of them with a character that has no glyph. -/
def signature : List (Demand Float) :=
  [ .draw (.page ⟨200, 100⟩),
    .registerFont ⟨"capitals", .regular⟩ capitalsFile,
    .draw (.mark (.text 10 20 "B?" ⟨"capitals", .regular⟩ 12 default)),
    .draw (.mark (.text 10 40 "ABBA" ⟨"capitals", .regular⟩ 12 default)) ]

theorem fontUse_signature :
    (fontUse ⟨"capitals", .regular⟩ (signature.take 2)).program = some capitals := by
  rw [fontUse, signature]
  simp only [List.take_succ_cons, List.take_zero, List.foldl_cons, List.foldl_nil,
    FontUse.after_registered read_capitalsFile]
  rfl

theorem glyphs_have_widths_signature : ∃ doc d name font widths advance,
    Device.finish default .sound
        (attemptAll signature ({ files := fun _ ↦ .ok .empty } : Draft)) = .ok (doc, d) ∧
      doc.fonts.lookup name = some font ∧ font.widths? = some widths ∧
      widths.lookup 2 = some 667 ∧ widths.lookup 0 = none ∧
      font.advance? [2, 0] = some advance ∧
      |(advance : ℚ) - (1000 * 1877 / 2048 + (1000 - capitals.exactWidth 0))| ≤ 1 := by
  have hpages : Demand.PagesFirst signature := PagesFirst.of_page _ _
  have hkeeps : Keeps ⟨"capitals", .regular⟩ (signature.drop 3) := by
    intro data hdata
    simp [signature] at hdata
  obtain ⟨doc, d, name, bytes, font, widths, advance, hfinish, -, -, hfont, hwidths, -, -, hlookup,
    hunits, -, hadvance, hnear⟩ := glyphs_have_widths (fun _ ↦ .ok .empty) false default
      (signature.take 2) (signature.drop 3) 10 20 12 "B?" ⟨"capitals", .regular⟩ default capitals
      hpages hkeeps fontUse_signature
  obtain ⟨-, hletter, hmissing⟩ := capitals_glyphs
  obtain ⟨hem, hnone, hadvance', hrounded⟩ := capitals_metrics
  have hround : round (capitals.exactWidth 2) = 667 :=
    (TrueType.inThousandths_advance hunits 2).symm.trans hrounded
  have hfirst := hlookup 'B' (by decide)
  have hsecond := hlookup '?' (by decide)
  simp only [hletter, hmissing, hround] at hfirst hsecond
  have hglyphs : "B?".toList.map capitals.glyph = [2, 0] := by simp [hletter, hmissing]
  have hmeasured : capitals.units "B?" = 1877 := by
    simp [TrueType.units, hletter, hmissing, hadvance', hnone]
  have hcount : "B?".toList.countP (fun c ↦ capitals.glyph c = 0) = 1 := by
    simp [hletter, hmissing]
  have hlength : ("B?".toList.length : ℚ) / 2 = 1 := by simp
  rw [hmeasured, hem, hcount, hlength, Nat.cast_one, one_mul] at hnear
  exact ⟨doc, d, name, font, widths, advance, hfinish, hfont, hwidths, hfirst, hsecond,
    hglyphs ▸ hadvance, by exact_mod_cast hnear⟩

/-- The missing glyph is shown, but has no width. -/
theorem not_glyphs_have_widths : ¬ ∀ (before after : List (Demand Float)) (x baseline size : Float)
    (text : String) (key : FontKey) (color : Color) (program : TrueType),
    let demands := before ++ .draw (.mark (.text x baseline text key size color)) :: after
    let doc := (attemptAll demands { files := fun _ ↦ .ok .empty }).document default
    Demand.PagesFirst demands → Keeps key after → (fontUse key before).program = some program →
    ∀ name bytes, (doc.pages.flatMap Page.shown)[(before.filterMap Demand.text?).length]? =
        some (some name, bytes) →
      ∃ codes font widths, Object.codes? bytes = some codes ∧ doc.fonts.lookup name = some font ∧
        font.widths? = some widths ∧ ∀ g ∈ codes, g.toNat ∈ widths.map Prod.fst := by
  intro hall
  let key : FontKey := ⟨"capitals", .regular⟩
  have hpages : Demand.PagesFirst (signature.take 2 ++
      .draw (.mark (.text 10 20 "B?" key 12 default)) :: []) := PagesFirst.of_page _ _
  have hkeeps : Keeps key [] := nofun
  obtain ⟨-, name, bytes, hshown, hcodes, hfont, -⟩ := document_program (fun _ ↦ .ok .empty) false
    default 10 20 12 default hpages hkeeps fontUse_signature
  obtain ⟨codes, font, widths, hcodes', hfont', hwidths, hdeclared⟩ := hall _ _ _ _ _ _ _ _ _
    hpages hkeeps fontUse_signature name bytes hshown
  obtain rfl := Option.some.inj (hcodes.symm.trans hcodes')
  obtain rfl := Option.some.inj (hfont.symm.trans hfont')
  obtain rfl := Option.some.inj ((EmbeddedFont.widths?_object _).symm.trans hwidths)
  have hmissing : (0 : UInt16) ∈ "B?".toList.map capitals.glyph := by
    rw [← capitals_glyphs.2.2]
    exact List.mem_map_of_mem (by decide)
  obtain ⟨e, he, hzero⟩ := List.mem_map.mp (hdeclared 0 hmissing)
  obtain ⟨g, hg, rfl⟩ := List.mem_map.mp he
  exact (EmbeddedFont.mem_glyphs_drawing.mp hg).1 (UInt16.toNat_inj.mp hzero)

end Draft

end Pdf

end PagedReport
