import PagedReport.Proofs.Canvas.Courses
import PagedReport.Proofs.Pdf.Agreement

/-!
# Measured and drawn

Layout measures the standard fonts by itself and asks the draft for the widths in all others, while
a draft draws with the font that is registered under a key, of whatever family, before it falls back
on a standard one.  The two agree on every key but those of standard fonts that a font program was
registered under.
-/

namespace PagedReport

namespace Pdf

/-! ## Replaced entries -/

theorem find?_set_of_false {α : Type} {p : α → Bool} {xs : List α} {i : Nat} {a : α}
    (ha : p a = false) (hx : ∀ x, xs[i]? = some x → p x = false) :
    (xs.set i a).find? p = xs.find? p := by
  induction xs generalizing i with
  | nil => rfl
  | cons x xs ih =>
      cases i with
      | zero =>
          have hfirst : p x = false := hx x rfl
          rw [List.set_cons_zero, List.find?_cons_of_neg (by simp [ha]),
            List.find?_cons_of_neg (by simp [hfirst])]
      | succ i =>
          rw [List.set_cons_succ, List.find?_cons, List.find?_cons, ih hx]

theorem find?_set_findIdx? {α : Type} {p : α → Bool} {xs : List α} {i : Nat} {a : α}
    (hi : xs.findIdx? p = some i) (ha : p a = true) : (xs.set i a).find? p = some a := by
  induction xs generalizing i with
  | nil => cases hi
  | cons x xs ih =>
      rw [List.findIdx?_cons] at hi
      split at hi
      · obtain rfl := Option.some.inj hi
        rw [List.set_cons_zero, List.find?_cons_of_pos ha]
      · next hx =>
          obtain ⟨j, hj, rfl⟩ := Option.map_eq_some_iff.mp hi
          rw [List.set_cons_succ, List.find?_cons_of_neg hx, ih hj]

theorem FontProgram.face_width (p : FontProgram) (text : String) :
    p.face.2 text = p.textWidth text := by
  cases p <;> rfl

namespace Draft

/-! ## Faces under demands -/

/-- The face that a text is drawn with under a key. -/
def drawnFace (d : Draft) (key : FontKey) : Bool × (String → Float) :=
  (d.face? key).getD (standardFace key)

theorem Extends.drawnFace {d e : Draft} (h : Extends d e) (key : FontKey) :
    e.drawnFace key = d.drawnFace key := by
  unfold Draft.drawnFace
  rcases h.face? key with heq | ⟨hnone, hsome⟩
  · rw [heq]
  · rw [hnone, hsome]
    rfl

theorem drawnFace_of_fonts {d e : Draft} (h : e.fonts = d.fonts) (key : FontKey) :
    e.drawnFace key = d.drawnFace key := by
  rw [drawnFace, face?, faces, h]
  rfl

theorem imageSlot_fonts {path : String} {d e : Draft} {index : Nat} {image : PagedReport.Image}
    (h : d.imageSlot path = .ok (index, image, e)) : e.fonts = d.fonts := by
  unfold imageSlot at h
  dsimp only at h
  split at h
  · cases h; rfl
  · split at h
    · cases h
    · cases h; rfl

theorem fontIndex?_eq (d : Draft) (key : FontKey) :
    d.fontIndex? key = d.faces.findIdx? (·.1 == key) := by
  obtain ⟨files, compress, pages, ⟨fonts⟩, images⟩ := d
  rw [fontIndex?, faces, List.findIdx?_map, List.findIdx?_toArray]
  rfl

/-- The faces of a draft after a font is registered: it has the place of an old one of its key. -/
inductive Registers (key : FontKey) (face : Bool × (String → Float)) (d e : Draft) : Prop
  | replace (index : Nat) : d.faces.findIdx? (·.1 == key) = some index →
      e.faces = d.faces.set index (key, face) → Registers key face d e
  | push : d.faces.find? (·.1 == key) = none → e.faces = d.faces ++ [(key, face)] →
      Registers key face d e

theorem registerFont_registers {key : FontKey} {data : ByteArray} {d e : Draft}
    (h : d.registerFont key data = .ok e) :
    ∃ f : EmbeddedFont, Registers key (FontProgram.embedded f).face d e := by
  unfold registerFont at h
  cases hread : EmbeddedFont.read key data with
  | error failure => rw [hread] at h; cases h
  | ok f =>
      rw [hread] at h
      dsimp only [bind, Except.bind] at h
      refine ⟨f, ?_⟩
      split at h
      · next index hindex =>
          obtain rfl := Except.ok.inj h
          refine .replace index (fontIndex?_eq d key ▸ hindex) ?_
          rw [faces, Array.toList_setIfInBounds, List.map_set, faces]
      · next hindex =>
          obtain rfl := Except.ok.inj h
          rw [fontIndex?_eq, List.findIdx?_eq_none_iff] at hindex
          refine .push (List.find?_eq_none.mpr fun entry hentry ↦ ?_) ?_
          · simpa using hindex entry hentry
          · rw [faces, Array.toList_push, List.map_append, faces]
            rfl

namespace Registers

variable {key : FontKey} {face : Bool × (String → Float)} {d e : Draft}

theorem drawnFace (h : Registers key face d e) : e.drawnFace key = face := by
  have hfind : e.faces.find? (·.1 == key) = some (key, face) := by
    cases h with
    | replace index hindex hfaces => rw [hfaces, find?_set_findIdx? hindex (by simp)]
    | push hnone hfaces => simp [hfaces, List.find?_append, hnone]
  rw [Draft.drawnFace, face?, hfind]
  rfl

theorem drawnFace_of_ne (h : Registers key face d e) {key' : FontKey} (hkey : key' ≠ key) :
    e.drawnFace key' = d.drawnFace key' := by
  have hfind : e.faces.find? (·.1 == key') = d.faces.find? (·.1 == key') := by
    cases h with
    | replace index hindex hfaces =>
        rw [hfaces]
        obtain ⟨hlt, hold, -⟩ := List.findIdx?_eq_some_iff_getElem.mp hindex
        refine find?_set_of_false (by simp [hkey.symm]) fun entry hget ↦ ?_
        obtain ⟨-, rfl⟩ := List.getElem?_eq_some_iff.mp hget
        have hkey' : d.faces[index].1 = key := by simpa using hold
        simp [hkey', hkey.symm]
    | push hnone hfaces => simp [hfaces, List.find?_append, hkey.symm]
  rw [Draft.drawnFace, face?, hfind]
  rfl

end Registers

/-- Only registering a font under a key changes what texts of the key are drawn with. -/
theorem meet_drawnFace {demand : Demand Float} {d e : Draft} (h : demand.meet d = .ok e)
    {key : FontKey} (hkey : ∀ data, demand ≠ .registerFont key data) :
    e.drawnFace key = d.drawnFace key := by
  cases demand with
  | registerFont key' data =>
      obtain ⟨f, hregisters⟩ := registerFont_registers h
      exact hregisters.drawnFace_of_ne fun heq ↦ hkey data (by rw [heq])
  | draw call =>
      cases call with
      | page size =>
          obtain rfl := Except.ok.inj h
          exact drawnFace_of_fonts rfl key
      | mark m =>
          obtain rfl := Except.ok.inj h
          cases m with
          | text x baseline text key' size color =>
              exact (drawText_extends x baseline text key' size color d).drawnFace key
          | line | rect => exact drawnFace_of_fonts rfl key
      | image path place =>
          obtain ⟨index, image, d', ops, hslot, rfl⟩ := drawImage_ok h
          exact drawnFace_of_fonts (imageSlot_fonts hslot) key
  | imageSize path =>
      change (d.imageSize path).map (·.2) = .ok e at h
      cases hsize : d.imageSize path with
      | error failure => rw [hsize] at h; cases h
      | ok measured =>
          rw [hsize] at h
          obtain rfl := Except.ok.inj h
          obtain ⟨index, image, hslot, -⟩ := imageSize_ok hsize
          exact drawnFace_of_fonts (imageSlot_fonts hslot) key

theorem meetAll_drawnFace {demands : List (Demand Float)} {d e : Draft}
    (h : Demand.meetAll demands d = .ok e) {key : FontKey}
    (hkey : ∀ data, .registerFont key data ∉ demands) : e.drawnFace key = d.drawnFace key := by
  induction demands generalizing d with
  | nil =>
      obtain rfl := Except.ok.inj h
      rfl
  | cons demand demands ih =>
      obtain ⟨f, hfirst, hrest⟩ := Demand.meetAll_append.mp (List.singleton_append ▸ h)
      rw [Demand.meetAll_singleton] at hfirst
      rw [ih hrest fun data hdata ↦ hkey data (List.mem_cons_of_mem _ hdata)]
      exact meet_drawnFace hfirst fun data hdata ↦ hkey data (hdata ▸ List.mem_cons_self)

/-! ## Widths -/

theorem fontWidth_of_standard (c : Canvas Float Draft) {key : FontKey} {f : StandardFont}
    (hkey : StandardFont.ofKey? key = some f) (text : String) :
    c.fontWidth key text = (standardFace key).2 text := by
  simp only [Canvas.fontWidth, standardFace, hkey, Option.getD_some]
  rfl

theorem fontWidth_of_other (c : Canvas Float Draft) {key : FontKey}
    (hkey : StandardFont.ofKey? key = none) (text : String) :
    c.fontWidth key text = (c.device.drawnFace key).2 text := by
  have hwidth : Device.textWidth c.device key text = c.device.textWidth key text := rfl
  simp only [Canvas.fontWidth, hkey]
  rw [hwidth, textWidth_eq, drawnFace, standardFace, hkey]
  cases c.device.face? key <;> rfl

/-! ## Texts -/

/-- Putting a text on a draft selects the font of a slot for it. -/
structure ShowsText (key : FontKey) (size : Float) (d e : Draft) (slot : FontSlot) : Prop where
  key : slot.key = key
  selected : ∃ (index : Nat) (before after : List Operation), e.fonts[index]? = some slot ∧
    e.pages = (d.add (before ++ .setFont (fontName index) size.toFloat32 :: after)).pages

/-- The slot of a key has the face that texts of the key are drawn with. -/
theorem fontSlot_face (key : FontKey) (d : Draft) : ∃ slot : FontSlot,
    (d.fontSlot key).2.fonts[(d.fontSlot key).1]? = some slot ∧ slot.key = key ∧
      slot.program.face = d.drawnFace key := by
  unfold fontSlot
  split
  · next index hindex =>
      obtain ⟨hlt, hkey, hfirst⟩ := Array.findIdx?_eq_some_iff_getElem.mp hindex
      have hfind : d.fonts.find? (·.key == key) = some d.fonts[index] :=
        Array.find?_eq_some_iff_getElem.mpr ⟨hkey, index, hlt, rfl, by simpa using hfirst⟩
      refine ⟨d.fonts[index], Array.getElem?_eq_getElem hlt, by simpa using hkey, ?_⟩
      rw [drawnFace, face?_eq, program?, hfind]
      rfl
  · next hindex =>
      have hfind : d.fonts.find? (·.key == key) = none := by
        rw [fontIndex?, Array.findIdx?_eq_none_iff] at hindex
        exact Array.find?_eq_none.mpr (by simpa using hindex)
      refine ⟨_, Array.getElem?_push_size, rfl, ?_⟩
      rw [drawnFace, face?_eq, program?, hfind]
      rfl

theorem drawText_shows (x baseline : Float) (text : String) (key : FontKey) (size : Float)
    (color : Color) (d : Draft) : ∃ slot,
      ShowsText key size d (d.drawText x baseline text key size color) slot ∧
      slot.program.face = d.drawnFace key := by
  have hpages : (d.fontSlot key).2.pages = d.pages := by
    unfold fontSlot
    split <;> rfl
  obtain ⟨slot, hget, hkey, hface⟩ := fontSlot_face key d
  unfold drawText
  rcases hslot : d.fontSlot key with ⟨index, e⟩
  rw [hslot] at hpages hget
  dsimp only at hpages hget ⊢
  rw [hget]
  let noted : FontSlot := { slot with program := (slot.program.encode text).2.2 }
  have hnoted : (e.fonts.setIfInBounds index noted)[index]? = some noted := by
    obtain ⟨hlt, -⟩ := Array.getElem?_eq_some_iff.mp hget
    rw [Array.getElem?_setIfInBounds_self_of_lt hlt]
  refine ⟨noted, ⟨hkey, index, [.beginText, .setFillColor color.unit],
    [ .moveText x.toFloat32 (e.pageHeight - baseline).toFloat32,
      .showText (slot.program.encode text).1 (slot.program.encode text).2.1,
      .endText ], hnoted, ?_⟩, ?_⟩
  · dsimp only [add]
    rw [hpages]
    rfl
  · rw [slot.program.encode_face, hface]

/-- Under the key of a standard font, texts are drawn with the program that was registered and
measured as if none had been. -/
theorem registered_standard_drawn {key : FontKey} {data : ByteArray} {f : StandardFont}
    {d e : Draft} (hkey : StandardFont.ofKey? key = some f)
    (h : d.registerFont key data = .ok e) : ∃ g : EmbeddedFont,
      (∀ (x baseline : Float) (text : String) (size : Float) (color : Color), ∃ slot,
        ShowsText key size e (e.drawText x baseline text key size color) slot ∧
        slot.program.face = (FontProgram.embedded g).face) ∧
      ∀ (c : Canvas Float Draft), c.device = e → ∀ text,
        c.fontWidth key text = (FontProgram.standard f).textWidth text := by
  obtain ⟨g, hregisters⟩ := registerFont_registers h
  refine ⟨g, fun x baseline text size color ↦ ?_, fun c _ text ↦ ?_⟩
  · obtain ⟨slot, hshows, hface⟩ := drawText_shows x baseline text key size color e
    exact ⟨slot, hshows, hface.trans hregisters.drawnFace⟩
  · rw [fontWidth_of_standard c hkey, standardFace, hkey]
    rfl

/-! ## Runs -/

/-- Layout and a draft agree on a key of no standard font whatever is registered, and on one of a
standard font as long as nothing is registered under it. -/
theorem fontWidth_drawn {files : Files} {compress : Bool} {earlier since : List (Demand Float)}
    {c : Canvas Float Draft} {d : Draft} {key : FontKey}
    (hmet : Demand.meetAll (earlier ++ since) { files, compress } = .ok d)
    (hearlier : Demand.meetAll earlier { files, compress } = .ok c.device)
    (hsince : ∀ data, .registerFont key data ∉ since)
    (hkey : StandardFont.ofKey? key = none ∨ ∀ data, .registerFont key data ∉ earlier ++ since)
    (text : String) : c.fontWidth key text = (d.drawnFace key).2 text := by
  obtain ⟨e, hearlier', hrest⟩ := Demand.meetAll_append.mp hmet
  obtain rfl : e = c.device := Except.ok.inj (hearlier'.symm.trans hearlier)
  cases hfont : StandardFont.ofKey? key with
  | none =>
      rw [meetAll_drawnFace hrest hsince]
      exact fontWidth_of_other c hfont text
  | some f =>
      have hnever : ∀ data, .registerFont key data ∉ earlier ++ since := by
        rcases hkey with hnone | hnever
        · rw [hfont] at hnone
          cases hnone
        · exact hnever
      rw [meetAll_drawnFace hmet hnever]
      exact fontWidth_of_standard c hfont text

/-- Every text of a canvas that reaches its draft is drawn in a slot of its key.  If the key is of
no standard font, or if nothing has been registered under it, the slot has the widths that the text
was laid out with, and those that were measured before with no registration in between. -/
theorem layout_measures_drawn (files : Files) (compress : Bool) (setup : PageSetup Float)
    (steps : List (Step Float)) :
    let blank : Draft := { files, compress }
    let finished := (Canvas.new blank setup).run steps
    ∃ demands : List (Demand Float),
      Demand.meetAll demands blank = .ok finished.device ∧
      finished.calls = demands.filterMap Demand.call? ∧
      ∀ before x baseline text key size color after,
        demands = before ++ .draw (.mark (.text x baseline text key size color)) :: after →
        ∃ (l : Canvas Float Draft) (d : Draft) (slot : FontSlot),
          l.LaysOut blank before (.text x baseline text key size color) ∧
          Demand.meetAll before blank = .ok d ∧
          ShowsText key size d (draw (.text x baseline text key size color) d) slot ∧
          ((StandardFont.ofKey? key = none ∨ ∀ data, .registerFont key data ∉ before) →
            (∀ t, l.stringWidth t =
              slot.program.textWidth t * size / Scalar.whole 1000 / l.scale) ∧
            ∀ earlier since (c : Canvas Float Draft), before = earlier ++ since →
              Demand.meetAll earlier blank = .ok c.device →
              (∀ data, .registerFont key data ∉ since) →
              ∀ t, c.fontWidth key t = slot.program.textWidth t) := by
  intro blank finished
  obtain ⟨demands, hmet, hcalls, hlaid⟩ := Canvas.Demands.run steps (Canvas.new blank setup)
  refine ⟨demands, hmet, hcalls, ?_⟩
  rintro before x baseline text key size color after rfl
  obtain ⟨d, hbefore, -⟩ := Demand.meetAll_append.mp hmet
  obtain ⟨l, hlays⟩ := hlaid before _ after rfl rfl
  obtain ⟨slot, hshows, hface⟩ := drawText_shows x baseline text key size color d
  refine ⟨l, d, slot, hlays, hbefore, hshows, fun hkey ↦ ?_⟩
  have hwidth : ∀ earlier since (c : Canvas Float Draft), before = earlier ++ since →
      Demand.meetAll earlier blank = .ok c.device → (∀ data, .registerFont key data ∉ since) →
      ∀ t, c.fontWidth key t = slot.program.textWidth t := by
    rintro earlier since c rfl hearlier hsince t
    rw [fontWidth_drawn hbefore hearlier hsince hkey, ← hface, slot.program.face_width]
  refine ⟨fun t ↦ ?_, hwidth⟩
  obtain ⟨rfl, rfl⟩ : key = l.graphics.font.key ∧ size = l.graphics.font.size :=
    Prod.mk.inj (hlays.font rfl)
  -- only marks come between laying the text out and drawing it, and they register nothing
  obtain ⟨earlier, marks, hsplit, hearlier⟩ := hlays.measured
  rw [Canvas.stringWidth,
    hwidth earlier _ l hsplit hearlier (Demand.registerFont_notMem_marks marks _)]
  rfl

end Draft

end Pdf

end PagedReport
