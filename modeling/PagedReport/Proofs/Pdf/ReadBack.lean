import Mathlib.Data.List.Induction
import PagedReport.Proofs.Pdf.FontDecoding
import PagedReport.Proofs.Pdf.Slots

/-!
# Texts are read back

A viewer goes through the pages with a font in hand and decodes each operand of `Tj` by the
dictionary that the name of the font stands for in the finished document.  It gets back every text
whose font can tell its characters, if no other font takes the place of this one after the text is
drawn.
-/

namespace PagedReport

namespace Pdf

/-! ## Going through a document -/

/-- The font in hand on a page and those that were put aside. -/
structure Pen where
  font : Option String := none
  saved : List (Option String) := []

namespace Pen

def after (pen : Pen) : Operation → Pen
  | .setFont name _ => { pen with font := some name }
  | .save => { pen with saved := pen.font :: pen.saved }
  | .restore => { font := pen.saved.headD pen.font, saved := pen.saved.tail }
  | _ => pen

/-- The operands of `Tj` with the fonts in hand. -/
def shown : Pen → List Operation → List (Option String × List UInt8)
  | _, [] => []
  | pen, .showText bytes _ :: ops => (pen.font, bytes) :: pen.shown ops
  | pen, op :: ops => (pen.after op).shown ops

theorem shown_append (pen : Pen) (ops more : List Operation) :
    pen.shown (ops ++ more) = pen.shown ops ++ (ops.foldl after pen).shown more := by
  induction ops generalizing pen with
  | nil => rfl
  | cons op ops ih => cases op <;> simp [shown, after, ih]

end Pen

def Page.shown (p : Page) : List (Option String × List UInt8) := Pen.shown {} p.operations.toList

/-- The texts of a document as far as they can be read. -/
def Document.texts (doc : Document) : List (Option String) :=
  (doc.pages.flatMap Page.shown).map fun (name, bytes) ↦ do
    let font ← doc.fonts.lookup (← name)
    font.readText? bytes

theorem Document.texts_getElem? {doc : Document} {i : Nat} {name : String} {bytes : List UInt8}
    {font : Object} (hshown : (doc.pages.flatMap Page.shown)[i]? = some (some name, bytes))
    (hfont : doc.fonts.lookup name = some font) :
    doc.texts[i]? = some (font.readText? bytes) := by
  rw [texts, List.getElem?_map, hshown, Option.map_some]
  change some ((doc.fonts.lookup name).bind fun font ↦ font.readText? bytes) = _
  rw [hfont, Option.bind_some]

/-! ## Demands that may be refused -/

end Pdf

/-- The text that is drawn, with its font. -/
def Demand.text? {K : Type} : Demand K → Option (FontKey × String)
  | .draw (.mark (.text _ _ text key _ _)) => some (key, text)
  | _ => none

/-- Whatever is drawn is drawn after a page was begun. -/
def Demand.PagesFirst {K : Type} (demands : List (Demand K)) : Prop :=
  ∀ earlier call later, demands = earlier ++ .draw call :: later →
    ∃ size, .draw (.page size) ∈ earlier ++ [.draw call]

namespace Pdf

/-- A font is used otherwise when another takes its place and when a text is drawn in it. -/
def FontUse.after (key : FontKey) (use : FontUse) : Demand Float → FontUse
  | .registerFont key' data =>
    match TrueType.read data with
    | .ok program => if key' = key then { program := some program } else use
    | .error _ => use
  | .draw (.mark (.text _ _ text key' _ _)) => if key' = key then use.draw text.toList else use
  | _ => use

theorem FontUse.after_registered {data : ByteArray} {program : TrueType}
    (h : TrueType.read data = .ok program) (key key' : FontKey) (use : FontUse) :
    use.after key (.registerFont key' data) =
      if key' = key then { program := some program } else use := by
  rw [after, h]

theorem FontUse.after_refused {data : ByteArray} {fault : FontFault}
    (h : TrueType.read data = .error fault) (key key' : FontKey) (use : FontUse) :
    use.after key (.registerFont key' data) = use := by
  rw [after, h]

/-- A demand leaves the use of a key, puts a font that can be read in the place of its font, or
draws a text in it. -/
theorem FontUse.after_cases (key : FontKey) (use : FontUse) (demand : Demand Float) :
    use.after key demand = use ∨
    (∃ data program, demand = .registerFont key data ∧ TrueType.read data = .ok program ∧
      use.after key demand = { program := some program }) ∨
    ∃ x baseline text size color, demand = .draw (.mark (.text x baseline text key size color)) ∧
      use.after key demand = use.draw text.toList := by
  cases demand with
  | registerFont key' data =>
      cases hread : TrueType.read data with
      | error fault => exact .inl (after_refused hread key key' use)
      | ok program =>
          rw [after_registered hread]
          by_cases hkey : key' = key
          · subst hkey
            exact .inr (.inl ⟨data, program, rfl, hread, if_pos rfl⟩)
          · exact .inl (if_neg hkey)
  | imageSize path => exact .inl rfl
  | draw call =>
      cases call with
      | page | image => exact .inl rfl
      | mark m =>
          cases m with
          | text x baseline text key' size color =>
              by_cases hkey : key' = key
              · subst hkey
                exact .inr (.inr ⟨x, baseline, text, size, color, rfl, if_pos rfl⟩)
              · exact .inl (if_neg hkey)
          | line | rect => exact .inl rfl

/-- What texts of a key are drawn in after some demands. -/
def fontUse (key : FontKey) (demands : List (Demand Float)) : FontUse :=
  demands.foldl (FontUse.after key) {}

namespace Draft

/-- The draft after a demand; one that is refused leaves it as it was. -/
def attempt (d : Draft) (demand : Demand Float) : Draft :=
  match demand.meet d with
  | .ok e => e
  | .error _ => d

def attemptAll (demands : List (Demand Float)) (d : Draft) : Draft := demands.foldl attempt d

/-! ## Programs of keys -/

/-- The program that a text of a key is drawn with. -/
def programOf (d : Draft) (key : FontKey) : FontProgram :=
  (d.program? key).getD (.standard (standardFont key))

theorem program?_eq (d : Draft) (key : FontKey) :
    d.program? key = (d.fonts.toList.find? (·.key == key)).map (·.program) := by
  rw [program?, ← Array.find?_toList]

theorem fontIndex?_eq_list (d : Draft) (key : FontKey) :
    d.fontIndex? key = d.fonts.toList.findIdx? (·.key == key) := by
  obtain ⟨files, compress, pages, ⟨fonts⟩, images⟩ := d
  rw [fontIndex?, List.findIdx?_toArray]

theorem program?_of_fonts {d e : Draft} (h : e.fonts = d.fonts) (key : FontKey) :
    e.program? key = d.program? key := by
  rw [program?, h, program?]

section

variable {d : Draft} {key : FontKey}

theorem program?_of_index {index : Nat} (h : d.fontIndex? key = some index) :
    ∃ program, d.fonts[index]? = some ⟨key, program⟩ ∧ d.program? key = some program := by
  obtain ⟨hlt, hkey, hfirst⟩ := Array.findIdx?_eq_some_iff_getElem.mp h
  have hfind : d.fonts.find? (·.key == key) = some d.fonts[index] :=
    Array.find?_eq_some_iff_getElem.mpr ⟨hkey, index, hlt, rfl, by simpa using hfirst⟩
  obtain rfl : d.fonts[index].key = key := by simpa using hkey
  exact ⟨d.fonts[index].program, Array.getElem?_eq_getElem hlt, by rw [program?, hfind]; rfl⟩

theorem program?_of_none (h : d.fontIndex? key = none) : d.program? key = none := by
  rw [fontIndex?, Array.findIdx?_eq_none_iff] at h
  rw [program?, Array.find?_eq_none.mpr (by simpa using h)]
  rfl

theorem program?_replace {index : Nat} (h : d.fontIndex? key = some index) (program : FontProgram)
    (key' : FontKey) :
    ({ d with fonts := d.fonts.setIfInBounds index ⟨key, program⟩ } : Draft).program? key' =
      if key' = key then some program else d.program? key' := by
  rw [fontIndex?_eq_list] at h
  rw [program?_eq, program?_eq, Array.toList_setIfInBounds]
  split
  · next heq => rw [heq, find?_set_findIdx? h (by simp)]; rfl
  · next hne =>
      rw [find?_set_of_false (by simpa using Ne.symm hne)]
      intro slot hslot
      obtain ⟨hlt, hkey, -⟩ := List.findIdx?_eq_some_iff_getElem.mp h
      obtain ⟨-, rfl⟩ := List.getElem?_eq_some_iff.mp hslot
      rw [beq_iff_eq.mp hkey]
      simpa using Ne.symm hne

theorem program?_push (h : d.fontIndex? key = none) (program : FontProgram) (key' : FontKey) :
    ({ d with fonts := d.fonts.push ⟨key, program⟩ } : Draft).program? key' =
      if key' = key then some program else d.program? key' := by
  have hnone := program?_of_none h
  rw [program?_eq, Option.map_eq_none_iff] at hnone
  rw [program?_eq, program?_eq, Array.toList_push, List.find?_append]
  split
  · next heq => rw [heq, hnone]; simp
  · next hne => simp [Ne.symm hne]

theorem registerFont_program? {data : ByteArray} {e : Draft} (h : d.registerFont key data = .ok e) :
    ∃ program, TrueType.read data = .ok program ∧ ∀ key', e.program? key' =
      if key' = key then some (.embedded { name := EmbeddedFont.nameOf key, program })
      else d.program? key' := by
  unfold registerFont EmbeddedFont.read at h
  cases hread : TrueType.read data with
  | error fault => rw [hread] at h; cases h
  | ok program =>
      rw [hread] at h
      dsimp only [bind, Except.bind] at h
      refine ⟨program, rfl, ?_⟩
      split at h
      · next index hindex =>
          obtain rfl := Except.ok.inj h
          exact program?_replace hindex _
      · next hindex =>
          obtain rfl := Except.ok.inj h
          exact program?_push hindex _

theorem registerFont_error {data : ByteArray} {failure : CanvasError}
    (h : d.registerFont key data = .error failure) :
    ∃ fault, TrueType.read data = .error fault := by
  unfold registerFont EmbeddedFont.read at h
  cases hread : TrueType.read data with
  | error fault => exact ⟨fault, rfl⟩
  | ok program =>
      rw [hread] at h
      dsimp only [bind, Except.bind] at h
      split at h <;> cases h

end

/-- The slot of a key holds the program that its texts are drawn with. -/
theorem fontSlot_program (key : FontKey) (d : Draft) :
    (d.fontSlot key).2.fontIndex? key = some (d.fontSlot key).1 ∧
      (d.fontSlot key).2.program? key = some (d.programOf key) ∧
      ∀ key', key' ≠ key → (d.fontSlot key).2.program? key' = d.program? key' := by
  unfold fontSlot
  cases hindex : d.fontIndex? key with
  | some index =>
      obtain ⟨program, -, hprogram⟩ := program?_of_index hindex
      exact ⟨hindex, by rw [programOf, hprogram]; rfl, fun _ _ ↦ rfl⟩
  | none =>
      have hpushed := program?_push hindex (.standard (standardFont key))
      refine ⟨?_, ?_, fun key' hne ↦ (hpushed key').trans (if_neg hne)⟩
      · rw [fontIndex?_eq_list, List.findIdx?_eq_none_iff] at hindex
        rw [fontIndex?_eq_list, Array.toList_push, List.findIdx?_append,
          List.findIdx?_eq_none_iff.mpr hindex]
        simp
      · rw [programOf, program?_of_none hindex]
        exact (hpushed key).trans (if_pos rfl)

/-- Drawing a text writes it in the program of its key, under the name of the key, and notes it
there. -/
theorem drawText_writes (x baseline : Float) (text : String) (key : FontKey) (size : Float)
    (color : Color) (d : Draft) : ∃ (e : Draft) (y : Float32),
      d.drawText x baseline text key size color = e.add
        [ .beginText, .setFillColor color.unit, .setFont (e.fontNameOf key) size.toFloat32,
          .moveText x.toFloat32 y,
          .showText ((d.programOf key).encode text).1 ((d.programOf key).encode text).2.1,
          .endText ] ∧
      e.pages = d.pages ∧ e.fontKeys = entered key d.fontKeys ∧
      ∀ key', e.program? key' = if key' = key then some ((d.programOf key).encode text).2.2
        else d.program? key' := by
  obtain ⟨hkeys, hname, hpages⟩ := fontSlot_keys key d
  obtain ⟨hindex, hprogram, hothers⟩ := fontSlot_program key d
  obtain ⟨program, hslot, hprogram'⟩ := program?_of_index hindex
  obtain rfl : program = d.programOf key := Option.some.inj (hprogram'.symm.trans hprogram)
  unfold drawText
  rcases hfound : d.fontSlot key with ⟨index, e⟩
  rw [hfound] at hkeys hname hpages hindex hslot hothers
  dsimp only at hkeys hname hpages hindex hslot hothers ⊢
  rw [hslot]
  dsimp only
  let noted : FontSlot := ⟨key, ((d.programOf key).encode text).2.2⟩
  have hset : ({ e with fonts := e.fonts.setIfInBounds index noted } : Draft).fontKeys =
      e.fontKeys := by
    rw [fontKeys, Array.toList_setIfInBounds]
    exact map_set_of_eq (Array.getElem?_toList.trans hslot) rfl
  refine ⟨{ e with fonts := e.fonts.setIfInBounds index noted },
    (e.pageHeight - baseline).toFloat32, ?_, hpages, hset.trans hkeys, fun key' ↦ ?_⟩
  · rw [fontNameOf, hset, ← fontNameOf, ← hname]
  · rw [program?_replace hindex]
    split
    · rfl
    · next hne => exact hothers key' hne

/-! ## Operands on pages -/

/-- The operands of `Tj` on the pages so far. -/
def shown (d : Draft) : List (Option String × List UInt8) := d.pages.toList.flatMap Page.shown

theorem shown_of_pages {d e : Draft} (h : e.pages = d.pages) : e.shown = d.shown := by
  rw [shown, h, shown]

theorem shown_beginPage (size : Size Float) (d : Draft) :
    (Device.beginPage size d : Draft).shown = d.shown := by
  change (d.pages.push ⟨size.width, size.height, #[]⟩).toList.flatMap Page.shown = _
  rw [Array.toList_push, List.flatMap_append]
  exact List.append_nil _

/-- What is added to a page is shown behind the rest; without a page nothing is. -/
theorem shown_add {d : Draft} {ops : List Operation} {new : List (Option String × List UInt8)}
    (hnew : ∀ pen : Pen, pen.shown ops = new) (hpages : 0 < d.pages.size ∨ new = []) :
    (d.add ops).shown = d.shown ++ new := by
  rcases List.eq_nil_or_concat' d.pages.toList with hnil | ⟨front, last, hlist⟩
  · have hempty : d.pages.size = 0 := by rw [← Array.length_toList, hnil]; rfl
    have hadd : (d.add ops).pages.toList = [] := by
      rw [← List.length_eq_zero_iff, Array.length_toList, add, Array.size_modify, hempty]
    rw [hpages.resolve_left (by omega), shown, shown, hadd, hnil]
    rfl
  · rw [shown, shown, pages_add hlist, hlist]
    simp [Page.shown, Pen.shown_append, hnew]

theorem drawRect_shown (r : Rect Float) (radius : Float) (painting : Painting) (p : Paint Float)
    (d : Draft) : ∃ ops : List Operation, d.drawRect r radius painting p = d.add ops ∧
      ∀ pen : Pen, pen.shown ops = [] := by
  refine ⟨_, rfl, fun pen ↦ ?_⟩
  simp only [Pen.shown_append]
  split <;> split <;> split <;> rfl

theorem drawImage_shown {path : String} {place : Rect Float} {d f : Draft}
    (h : d.drawImage path place = .ok f) : ∃ (e : Draft) (ops : List Operation),
      f = e.add ops ∧ e.fonts = d.fonts ∧ e.pages = d.pages ∧ ∀ pen : Pen, pen.shown ops = [] := by
  unfold drawImage at h
  cases hslot : d.imageSlot path with
  | error e => rw [hslot] at h; cases h
  | ok found =>
      obtain ⟨index, image, e⟩ := found
      rw [hslot] at h
      obtain rfl := Except.ok.inj h
      obtain ⟨-, -, hpages, hfonts⟩ := imageSlot_keys hslot
      exact ⟨e, _, rfl, hfonts, hpages, fun _ ↦ rfl⟩

/-! ## Steps -/

/-- What a demand makes of a draft: the names of fonts stay, the programs of keys are those of their
uses, and a text that is drawn on a page is shown in the program and under the name of its key. -/
structure Follows (d : Draft) (demand : Demand Float) (e : Draft) : Prop where
  programOf : ∀ key (use : FontUse), d.programOf key = use.font key →
    e.programOf key = (use.after key demand).font key
  fontKeys : d.fontKeys <+: e.fontKeys
  pages : d.pages.size ≤ e.pages.size
  begun : ∀ size, demand = .draw (.page size) → 0 < e.pages.size
  shown : 0 < d.pages.size ∨ demand.text? = none →
    e.shown = d.shown ++ demand.text?.toList.map fun (key, text) ↦
      (some (e.fontNameOf key), ((d.programOf key).encode text).1)
  held : ∀ key text, demand.text? = some (key, text) → key ∈ e.fontKeys

/-- A demand that neither registers a font nor draws a text leaves all of it as it is. -/
theorem Follows.of_fonts {d e : Draft} {demand : Demand Float} (hfonts : e.fonts = d.fonts)
    (hpages : d.pages.size ≤ e.pages.size) (hshown : e.shown = d.shown)
    (hbegun : ∀ size, demand = .draw (.page size) → 0 < e.pages.size)
    (htext : demand.text? = none) (hafter : ∀ key (use : FontUse), use.after key demand = use) :
    Follows d demand e where
  programOf key use h := by
    rw [hafter, ← h, Draft.programOf, program?_of_fonts hfonts, Draft.programOf]
  fontKeys := fontKeys_grow hfonts
  pages := hpages
  begun := hbegun
  shown _ := by rw [hshown, htext, Option.toList_none, List.map_nil, List.append_nil]
  held key text h := by rw [htext] at h; cases h

/-- Operations that show no text change nothing of all this. -/
theorem Follows.of_add {d e : Draft} {demand : Demand Float} {ops : List Operation}
    (hfonts : e.fonts = d.fonts) (hpages : e.pages = d.pages)
    (hops : ∀ pen : Pen, pen.shown ops = []) (hpage : ∀ size, demand ≠ .draw (.page size))
    (htext : demand.text? = none) (hafter : ∀ key (use : FontUse), use.after key demand = use) :
    Follows d demand (e.add ops) := by
  refine .of_fonts hfonts ?_ ?_ (fun size h ↦ absurd h (hpage size)) htext hafter
  · exact Nat.le_of_eq (by rw [add, Array.size_modify, hpages])
  · rw [shown_add hops (.inr rfl), List.append_nil, shown_of_pages hpages]

theorem follows_registerFont (d : Draft) (key : FontKey) (data : ByteArray) :
    Follows d (.registerFont key data) (d.attempt (.registerFont key data)) := by
  have hmeet : (Demand.registerFont key data).meet d = d.registerFont key data := rfl
  unfold attempt
  rw [hmeet]
  cases hregister : d.registerFont key data with
  | error failure =>
      obtain ⟨fault, hread⟩ := registerFont_error hregister
      exact .of_fonts rfl (Nat.le_refl _) rfl nofun rfl (FontUse.after_refused hread · key)
  | ok e =>
      obtain ⟨program, hread, hprogram⟩ := registerFont_program? hregister
      obtain ⟨hkeys, hpages, -⟩ := registerFont_keys hregister
      refine ⟨fun key' use h ↦ ?_, hkeys ▸ prefix_entered key _, hpages ▸ Nat.le_refl _, nofun,
        fun _ ↦ ?_, nofun⟩
      · rw [Draft.programOf, hprogram, FontUse.after_registered hread]
        by_cases hkey : key' = key
        · rw [if_pos hkey, if_pos hkey.symm, hkey]
          rfl
        · rw [if_neg hkey, if_neg (Ne.symm hkey)]
          exact h
      · exact (shown_of_pages hpages).trans (List.append_nil _).symm

theorem follows_text (d : Draft) (x baseline : Float) (text : String) (key : FontKey) (size : Float)
    (color : Color) : Follows d (.draw (.mark (.text x baseline text key size color)))
      (d.drawText x baseline text key size color) := by
  obtain ⟨e, y, heq, hpages, hkeys, hprogram⟩ := drawText_writes x baseline text key size color d
  rw [heq]
  have hsize : (e.add
      [ .beginText, .setFillColor color.unit, .setFont (e.fontNameOf key) size.toFloat32,
        .moveText x.toFloat32 y,
        .showText ((d.programOf key).encode text).1 ((d.programOf key).encode text).2.1,
        .endText ]).pages.size = d.pages.size := by
    rw [add, Array.size_modify, hpages]
  constructor
  case programOf =>
    intro key' use h
    change (e.program? key').getD _ = _
    rw [hprogram, FontUse.after]
    by_cases hkey : key' = key
    · subst hkey
      rw [if_pos rfl, if_pos rfl, h]
      exact use.encode_font key' text
    · rw [if_neg hkey, if_neg (Ne.symm hkey)]
      exact h
  case fontKeys => exact hkeys ▸ prefix_entered key _
  case pages => exact Nat.le_of_eq hsize.symm
  case begun =>
    intro page hpage
    cases hpage
  case shown =>
    intro hbegun
    obtain hbegun | hnone := hbegun
    · exact (shown_add (fun _ ↦ rfl) (.inl (hpages ▸ hbegun))).trans
        (congrArg (· ++ _) (shown_of_pages hpages))
    · cases hnone
  case held =>
    intro key' text' htext
    obtain ⟨rfl, -⟩ := Prod.mk.inj (Option.some.inj htext)
    exact hkeys ▸ mem_entered key _

theorem attempt_follows (d : Draft) (demand : Demand Float) :
    Follows d demand (d.attempt demand) := by
  cases demand with
  | registerFont key data => exact follows_registerFont d key data
  | imageSize path =>
      unfold attempt
      cases hmeet : (Demand.imageSize path : Demand Float).meet d with
      | error failure => exact .of_fonts rfl (Nat.le_refl _) rfl nofun rfl fun _ _ ↦ rfl
      | ok e =>
          obtain ⟨index, image, hslot⟩ := imageSize_meet hmeet
          obtain ⟨-, -, hpages, hfonts⟩ := imageSlot_keys hslot
          exact .of_fonts hfonts (hpages ▸ Nat.le_refl _) (shown_of_pages hpages) nofun rfl
            fun _ _ ↦ rfl
  | draw call =>
      cases call with
      | page size =>
          have hsize : (Device.beginPage size d : Draft).pages.size = d.pages.size + 1 :=
            Array.size_push _
          exact .of_fonts rfl (hsize ▸ Nat.le_succ _) (shown_beginPage size d)
            (fun _ _ ↦ hsize ▸ Nat.succ_pos _) rfl fun _ _ ↦ rfl
      | mark m =>
          cases m with
          | text x baseline text key size color =>
              exact follows_text d x baseline text key size color
          | line x₁ y₁ x₂ y₂ p => exact .of_add rfl rfl (fun _ ↦ rfl) nofun rfl fun _ _ ↦ rfl
          | rect r radius painting p =>
              obtain ⟨ops, heq, hops⟩ := drawRect_shown r radius painting p d
              change Follows d _ (d.drawRect r radius painting p)
              rw [heq]
              exact .of_add rfl rfl hops nofun rfl fun _ _ ↦ rfl
      | image path place =>
          unfold attempt
          cases hmeet : (Demand.draw (.image path place)).meet d with
          | error failure => exact .of_fonts rfl (Nat.le_refl _) rfl nofun rfl fun _ _ ↦ rfl
          | ok f =>
              obtain ⟨e, ops, rfl, hfonts, hpages, hops⟩ := drawImage_shown hmeet
              exact .of_add hfonts hpages hops nofun rfl fun _ _ ↦ rfl

/-! ## Runs -/

theorem attemptAll_append (demands demands' : List (Demand Float)) (d : Draft) :
    attemptAll (demands ++ demands') d = attemptAll demands' (attemptAll demands d) :=
  List.foldl_append

section

variable {d : Draft} (demands : List (Demand Float))

theorem attemptAll_programOf {key : FontKey} (use : FontUse) (h : d.programOf key = use.font key) :
    (attemptAll demands d).programOf key = (demands.foldl (FontUse.after key) use).font key := by
  induction demands generalizing d use with
  | nil => exact h
  | cons demand demands ih => exact ih _ ((attempt_follows d demand).programOf key use h)

theorem attemptAll_fontKeys : d.fontKeys <+: (attemptAll demands d).fontKeys := by
  induction demands generalizing d with
  | nil => exact List.prefix_rfl
  | cons demand demands ih => exact (attempt_follows d demand).fontKeys.trans ih

theorem attemptAll_pages : d.pages.size ≤ (attemptAll demands d).pages.size := by
  induction demands generalizing d with
  | nil => exact Nat.le_refl _
  | cons demand demands ih => exact Nat.le_trans (attempt_follows d demand).pages ih

theorem attemptAll_begun {size : Size Float} (h : .draw (.page size) ∈ demands) :
    0 < (attemptAll demands d).pages.size := by
  obtain ⟨earlier, later, rfl⟩ := List.append_of_mem h
  rw [attemptAll_append]
  exact Nat.lt_of_lt_of_le ((attempt_follows _ _).begun size rfl) (attemptAll_pages later)

/-- What is shown stays in its place. -/
theorem attemptAll_shown (hpages : 0 < d.pages.size) :
    d.shown <+: (attemptAll demands d).shown := by
  induction demands generalizing d with
  | nil => exact List.prefix_rfl
  | cons demand demands ih =>
      have hstep := attempt_follows d demand
      have hrest := ih (Nat.lt_of_lt_of_le hpages hstep.pages)
      rw [hstep.shown (.inl hpages)] at hrest
      exact (List.prefix_append _ _).trans hrest

end

theorem PagesFirst.of_append {demands more : List (Demand Float)}
    (h : Demand.PagesFirst (demands ++ more)) : Demand.PagesFirst demands := by
  rintro earlier call later rfl
  exact h earlier call (later ++ more) (by simp)

theorem PagesFirst.of_page (size : Size Float) (demands : List (Demand Float)) :
    Demand.PagesFirst (.draw (.page size) :: demands) := by
  intro earlier call later h
  cases earlier with
  | nil =>
      obtain ⟨hcall, -⟩ := List.cons.inj h
      exact ⟨size, by simp [hcall]⟩
  | cons demand earlier =>
      obtain ⟨rfl, -⟩ := List.cons.inj h
      exact ⟨size, by simp⟩

/-- A page is there when a text is drawn. -/
theorem pages_of_text {files : Files} {compress : Bool} {demands more : List (Demand Float)}
    {demand : Demand Float} (h : Demand.PagesFirst (demands ++ demand :: more)) :
    0 < (attemptAll demands { files, compress }).pages.size ∨ demand.text? = none := by
  cases demand with
  | registerFont | imageSize => exact .inr rfl
  | draw call =>
      obtain ⟨size, hsize⟩ := h demands call more rfl
      rcases List.mem_append.mp hsize with hbegun | hcall
      · exact .inl (attemptAll_begun demands hbegun)
      · obtain rfl := Demand.draw.inj (List.mem_singleton.mp hcall)
        exact .inr rfl

/-- Every text that is drawn is shown once. -/
theorem shown_length (files : Files) (compress : Bool) {demands : List (Demand Float)}
    (h : Demand.PagesFirst demands) :
    (attemptAll demands { files, compress }).shown.length =
      (demands.filterMap Demand.text?).length := by
  induction demands using List.reverseRecOn with
  | nil => rfl
  | append_singleton demands demand ih =>
      have hstep := attempt_follows (attemptAll demands { files, compress }) demand
      rw [attemptAll_append]
      change ((attemptAll demands { files, compress }).attempt demand).shown.length = _
      have htexts : ([demand].filterMap Demand.text?).length = demand.text?.toList.length := by
        cases htext : demand.text? <;> simp [htext]
      rw [hstep.shown (pages_of_text h), List.length_append, ih (PagesFirst.of_append h),
        List.filterMap_append, List.length_append, htexts, List.length_map]

/-- The operand of a text and the name of its font stay the same in the document. -/
theorem shown_text (files : Files) (compress : Bool) {before after : List (Demand Float)}
    {x baseline size : Float} {text : String} {key : FontKey} {color : Color}
    (h : Demand.PagesFirst
      (before ++ .draw (.mark (.text x baseline text key size color)) :: after)) :
    let demands := before ++ .draw (.mark (.text x baseline text key size color)) :: after
    let final := attemptAll demands { files, compress }
    key ∈ final.fontKeys ∧ final.shown[(before.filterMap Demand.text?).length]? =
      some (some (final.fontNameOf key), (((fontUse key before).font key).encode text).1) := by
  intro demands final
  let d := attemptAll before { files, compress }
  let demand : Demand Float := .draw (.mark (.text x baseline text key size color))
  have hfinal : final = attemptAll after (d.attempt demand) := attemptAll_append _ _ _
  have hstep := attempt_follows d demand
  have hpages : 0 < d.pages.size := (pages_of_text h).resolve_right nofun
  have hkey := hstep.held key text rfl
  have hgrown : (d.attempt demand).fontKeys <+: final.fontKeys := hfinal ▸ attemptAll_fontKeys after
  refine ⟨hgrown.subset hkey, ?_⟩
  have hshown : (d.attempt demand).shown <+: final.shown :=
    hfinal ▸ attemptAll_shown after (Nat.lt_of_lt_of_le hpages hstep.pages)
  have hprogram : d.programOf key = (fontUse key before).font key :=
    attemptAll_programOf before {} rfl
  rw [hstep.shown (.inl hpages)] at hshown
  change d.shown ++ [(some _, ((d.programOf key).encode text).1)] <+: final.shown at hshown
  have hname : (d.attempt demand).fontNameOf key = final.fontNameOf key := by
    rw [fontNameOf, ← idxOf_grow hgrown hkey, ← fontNameOf]
  obtain ⟨rest, hrest⟩ := hshown
  rw [← hrest, ← shown_length files compress (PagesFirst.of_append h),
    List.append_assoc, List.getElem?_append_right (Nat.le_refl _), Nat.sub_self, hname, hprogram]
  rfl

/-- The name of a key stands for the program that its texts are drawn with. -/
theorem lookup_fontNameOf (d : Draft) (info : DocumentInfo) {key : FontKey}
    (hkey : key ∈ d.fontKeys) :
    (d.document info).fonts.lookup (d.fontNameOf key) = some (d.programOf key).object := by
  cases hindex : d.fontIndex? key with
  | none =>
      rw [fontIndex?_eq_keys, List.findIdx?_eq_none_iff] at hindex
      simpa using hindex key hkey
  | some index =>
      obtain ⟨program, hslot, hprogram⟩ := program?_of_index hindex
      rw [fontIndex?_eq_keys] at hindex
      rw [fontNameOf, (entered_of_some hindex).2, (document_lookup info d _).1, resources_font,
        hslot, programOf, hprogram]
      rfl

/-- A text is read by the last program of its key, from codes of the one it was drawn with. -/
theorem document_text (files : Files) (compress : Bool) (info : DocumentInfo)
    {before after : List (Demand Float)} {x baseline size : Float} {text : String} {key : FontKey}
    {color : Color}
    (h : Demand.PagesFirst
      (before ++ .draw (.mark (.text x baseline text key size color)) :: after)) :
    let demands := before ++ .draw (.mark (.text x baseline text key size color)) :: after
    ((attemptAll demands { files, compress }).document info).texts[
        (before.filterMap Demand.text?).length]? =
      some (((fontUse key demands).font key).object.readText?
        (((fontUse key before).font key).encode text).1) := by
  intro demands
  obtain ⟨hkey, hshown⟩ := shown_text files compress h
  have hprogram : (attemptAll demands { files, compress }).programOf key =
      (fontUse key demands).font key := attemptAll_programOf demands {} rfl
  have hfont := lookup_fontNameOf (attemptAll demands { files, compress }) info hkey
  rw [hprogram] at hfont
  exact Document.texts_getElem? hshown hfont

/-- Nothing that is accepted is registered under a key. -/
def Keeps (key : FontKey) (demands : List (Demand Float)) : Prop :=
  ∀ data, .registerFont key data ∈ demands → ∃ fault, TrueType.read data = .error fault

theorem after_keeps {key : FontKey} {demand : Demand Float}
    (h : ∀ data, demand = .registerFont key data → ∃ fault, TrueType.read data = .error fault)
    (use : FontUse) : ∃ drawn, use.after key demand = use.draw drawn := by
  rcases use.after_cases key demand with
    hsame | ⟨data, program, rfl, hread, -⟩ | ⟨x, baseline, text, size, color, -, hdrawn⟩
  · exact ⟨[], by simp [hsame, FontUse.draw]⟩
  · obtain ⟨fault, hfault⟩ := h data rfl
    rw [hread] at hfault
    cases hfault
  · exact ⟨text.toList, hdrawn⟩

theorem foldl_after_keeps {key : FontKey} {demands : List (Demand Float)} (h : Keeps key demands)
    (use : FontUse) : ∃ later, demands.foldl (FontUse.after key) use = use.draw later := by
  induction demands generalizing use with
  | nil => exact ⟨[], by simp [FontUse.draw]⟩
  | cons demand demands ih =>
      have hrest : Keeps key demands := fun data hdata ↦ h data (List.mem_cons_of_mem _ hdata)
      obtain ⟨first, hfirst⟩ :=
        after_keeps (fun data hdata ↦ h data (hdata ▸ List.mem_cons_self)) use
      obtain ⟨later, hlater⟩ := ih hrest (use.draw first)
      exact ⟨first ++ later, by simpa [hfirst, FontUse.draw] using hlater⟩

/-- A text is read back from the document if its characters can be told in the font that it is drawn
in and no other font is registered under its key later. -/
theorem texts_read_back (files : Files) (compress : Bool) (info : DocumentInfo)
    (before after : List (Demand Float)) (x baseline size : Float) (text : String) (key : FontKey)
    (color : Color) :
    let demands := before ++ .draw (.mark (.text x baseline text key size color)) :: after
    Demand.PagesFirst demands → Keeps key after →
    Tells (fontUse key before).program (fontUse key demands).drawn text.toList →
    ∃ doc d, Device.finish info .sound (attemptAll demands ({ files, compress } : Draft)) =
        .ok (doc, d) ∧
      doc.texts[(before.filterMap Demand.text?).length]? = some (some text) := by
  intro demands hpages hkeeps htells
  obtain ⟨later, hlater⟩ := foldl_after_keeps hkeeps ((fontUse key before).draw text.toList)
  have huse : fontUse key demands = ((fontUse key before).draw text.toList).draw later := by
    rw [← hlater, fontUse, List.foldl_append, List.foldl_cons, ← fontUse, FontUse.after, if_pos rfl]
  refine ⟨_, _, rfl, (document_text files compress info hpages).trans ?_⟩
  rw [huse] at htells ⊢
  exact congrArg some (FontUse.readText?_encode key htells)

/-- A font program with a glyph for `A` and one for `B`: one block of bytes is its header, its
horizontal header and its profile. -/
def letterFont : ByteArray :=
  let record := fun (tag offset size : Nat) ↦
    BigEndian.bytes tag 4 ++ List.replicate 4 0 ++ BigEndian.bytes offset 4 ++
      BigEndian.bytes size 4
  let directory := BigEndian.bytes 0x00010000 4 ++ BigEndian.bytes 4 2 ++ List.replicate 6 0 ++
    record TrueType.tagHead 76 54 ++ record TrueType.tagHorizontal 76 54 ++
    record TrueType.tagProfile 76 54 ++ record TrueType.tagMap 130 26
  let block := BigEndian.bytes 0x00010000 4 ++ BigEndian.bytes 3 2 ++ List.replicate 12 0 ++
    BigEndian.bytes 1000 2 ++ List.replicate 34 0
  let map := ([0, 1, 0, 3, 0, 12, 6, 14, 0, 0x41, 2, 1, 2] : List Nat).flatMap (BigEndian.bytes · 2)
  ⟨(directory ++ block ++ map).toArray⟩

theorem read_letterFont : ∃ program, TrueType.read letterFont = .ok program := by
  have hok : (TrueType.read letterFont).isOk = true := by decide +kernel
  cases hread : TrueType.read letterFont with
  | ok program => exact ⟨program, rfl⟩
  | error fault =>
      rw [hread] at hok
      cases hok

/-- A text in a standard font and one in a font program, on a page. -/
def letterhead : List (Demand Float) :=
  [ .draw (.page ⟨200, 100⟩),
    .registerFont ⟨"garamond", .regular⟩ letterFont,
    .draw (.mark (.text 10 20 "Über" ⟨"times", .regular⟩ 12 default)),
    .draw (.mark (.text 10 40 "AB" ⟨"garamond", .regular⟩ 12 default)),
    .registerFont ⟨"garamond", .regular⟩ .empty,
    .draw (.mark (.text 10 60 "BA" ⟨"garamond", .regular⟩ 12 default)) ]

theorem texts_read_back_letterhead : ∃ doc d,
    Device.finish default .sound (attemptAll letterhead ({ files := fun _ ↦ .ok .empty } : Draft)) =
      .ok (doc, d) ∧ doc.texts[1]? = some (some "AB") := by
  let garamond : FontKey := ⟨"garamond", .regular⟩
  have hsplit : letterhead.take 3 ++
      .draw (.mark (.text 10 40 "AB" garamond 12 default)) :: letterhead.drop 4 = letterhead := rfl
  have hpages : Demand.PagesFirst letterhead := PagesFirst.of_page _ _
  have hkeeps : Keeps garamond (letterhead.drop 4) := by
    intro data hdata
    obtain rfl : data = .empty := by simpa [letterhead, garamond] using hdata
    exact ⟨.unknownMagic, rfl⟩
  have htells : Tells (fontUse garamond (letterhead.take 3)).program
      (fontUse garamond letterhead).drawn "AB".toList := by decide +kernel
  have hread := texts_read_back (fun _ ↦ .ok .empty) false default (letterhead.take 3)
    (letterhead.drop 4) 10 40 12 "AB" garamond default
  simp only [hsplit] at hread
  exact hread hpages hkeeps htells

/-- A text in a standard font, under whose key a font program is registered later. -/
def overprint : List (Demand Float) :=
  [ .draw (.page ⟨200, 100⟩),
    .draw (.mark (.text 10 20 "AB" ⟨"helvetica", .regular⟩ 12 default)),
    .registerFont ⟨"helvetica", .regular⟩ letterFont ]

/-- A text is lost when a font is registered under its key behind it: the name on the page then
stands for a font that has not drawn it. -/
theorem not_read_back_replaced : ¬ ∀ (before after : List (Demand Float)) (x baseline size : Float)
    (text : String) (key : FontKey) (color : Color),
    let demands := before ++ .draw (.mark (.text x baseline text key size color)) :: after
    Demand.PagesFirst demands →
    Tells (fontUse key before).program (fontUse key demands).drawn text.toList →
    ((attemptAll demands { files := fun _ ↦ .ok .empty }).document default).texts[
      (before.filterMap Demand.text?).length]? = some (some text) := by
  intro hread
  let helvetica : FontKey := ⟨"helvetica", .regular⟩
  have hpages : Demand.PagesFirst (overprint.take 1 ++
      .draw (.mark (.text 10 20 "AB" helvetica 12 default)) :: overprint.drop 2) :=
    PagesFirst.of_page _ _
  have htells : Tells (fontUse helvetica (overprint.take 1)).program
      (fontUse helvetica overprint).drawn "AB".toList := by decide +kernel
  obtain ⟨program, hprogram⟩ := read_letterFont
  have huse : fontUse helvetica overprint = { program := some program } := by
    rw [fontUse, overprint]
    simp only [List.foldl_cons, List.foldl_nil, FontUse.after_registered hprogram]
    rfl
  have hlost : (FontUse.font helvetica { program := some program }).object.readText?
      (((fontUse helvetica (overprint.take 1)).font helvetica).encode "AB").1 = none :=
    (EmbeddedFont.readText?_object _ _).trans rfl
  have hsplit : overprint.take 1 ++
      .draw (.mark (.text 10 20 "AB" helvetica 12 default)) :: overprint.drop 2 = overprint := rfl
  have htext := hread (overprint.take 1) (overprint.drop 2) 10 20 12 "AB" helvetica default hpages
    htells
  rw [document_text _ _ _ hpages, hsplit, huse, hlost] at htext
  cases htext

end Draft

end Pdf

end PagedReport
