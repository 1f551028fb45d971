import PagedReport.Pdf.Draft
import PagedReport.Proofs.Canvas.Twins
import PagedReport.Proofs.Files

/-!
# Drafts that layout cannot tell apart

Drawing on a draft adds standard fonts and images that were not used before.  Standard fonts are
measured without the draft, and an image is as large as its file says whenever it is loaded, so what
was drawn before does not change how anything is laid out.
-/

namespace PagedReport

namespace Pdf

/-! ## Fonts -/

namespace FontProgram

/-- Whether a program is a registered one, and the widths of texts in it. -/
def face : FontProgram → Bool × (String → Float)
  | standard f => (false, fun text ↦ (standard f).textWidth text)
  | embedded f => (true, fun text ↦ (embedded f).textWidth text)

end FontProgram

theorem EmbeddedFont.foldl_use_program (f : EmbeddedFont) (cs : List Char) :
    (cs.foldl use f).program = f.program := by
  induction cs generalizing f with
  | nil => rfl
  | cons c cs ih =>
      rw [List.foldl_cons, ih]
      unfold use
      dsimp only
      split <;> rfl

theorem FontProgram.encode_face (p : FontProgram) (text : String) :
    (p.encode text).2.2.face = p.face := by
  cases p with
  | standard f => rfl
  | embedded f =>
      have hprogram : (f.encode text).2.program = f.program := f.foldl_use_program text.toList
      simp [encode, face, textWidth, hprogram]

namespace Draft

/-- The faces of the fonts of a draft with their keys. -/
def faces (d : Draft) : List (FontKey × Bool × (String → Float)) :=
  d.fonts.toList.map fun slot ↦ (slot.key, slot.program.face)

def face? (d : Draft) (key : FontKey) : Option (Bool × (String → Float)) :=
  (d.faces.find? (·.1 == key)).map (·.2)

theorem face?_eq (d : Draft) (key : FontKey) :
    d.face? key = (d.program? key).map FontProgram.face := by
  rw [face?, faces, program?, List.find?_map, ← Array.find?_toList, Option.map_map, Option.map_map]
  rfl

theorem hasFont_eq (d : Draft) (key : FontKey) :
    d.hasFont key = ((d.face? key).map (·.1)).getD false := by
  rw [hasFont, face?_eq]
  cases d.program? key with
  | none => rfl
  | some p => cases p <;> rfl

theorem textWidth_eq (d : Draft) (key : FontKey) (text : String) :
    d.textWidth key text = ((d.face? key).map (·.2 text)).getD
      ((FontProgram.standard ⟨.helvetica, .regular⟩).textWidth text) := by
  rw [textWidth, face?_eq]
  cases d.program? key with
  | none => rfl
  | some p => cases p <;> rfl

/-- Noting the glyphs of a text in a font changes no face. -/
theorem faces_setIfInBounds (d : Draft) {index : Nat} {slot : FontSlot} {p : FontProgram}
    (hslot : d.fonts[index]? = some slot) (hp : p.face = slot.program.face) :
    ({ d with fonts := d.fonts.setIfInBounds index { slot with program := p } } : Draft).faces =
      d.faces := by
  obtain ⟨hindex, rfl⟩ := Array.getElem?_eq_some_iff.mp hslot
  have hself : d.faces.set index (d.fonts[index].key, d.fonts[index].program.face) = d.faces := by
    have hlength : index < d.faces.length := by simpa [faces] using hindex
    have hget : d.faces[index] = (d.fonts[index].key, d.fonts[index].program.face) := by
      simp [faces]
    rw [← hget]
    exact List.set_getElem_self hlength
  rw [faces, Array.toList_setIfInBounds, List.map_set, hp]
  exact hself

/-- What is drawn with a key no font is registered under. -/
def standardFace (key : FontKey) : Bool × (String → Float) :=
  (FontProgram.standard ((StandardFont.ofKey? key).getD ⟨.helvetica, .regular⟩)).face

/-- The faces of a draft after drawing with a key: a key that is not known yet gets a standard
one. -/
inductive Extends (d e : Draft) : Prop
  | same : e.faces = d.faces → Extends d e
  | push (key : FontKey) : d.face? key = none → e.faces = d.faces ++ [(key, standardFace key)] →
      Extends d e

theorem fontSlot_extends (key : FontKey) (d : Draft) : Extends d (d.fontSlot key).2 := by
  unfold fontSlot
  cases hindex : d.fontIndex? key with
  | some index => exact .same rfl
  | none =>
      refine .push key ?_ (by simp [faces]; rfl)
      rw [fontIndex?, Array.findIdx?_eq_none_iff] at hindex
      rw [face?_eq, program?, Array.find?_eq_none.mpr (by simpa using hindex)]
      rfl

theorem drawText_extends (x baseline : Float) (text : String) (key : FontKey) (size : Float)
    (color : Color) (d : Draft) : Extends d (d.drawText x baseline text key size color) := by
  have hslot := fontSlot_extends key d
  unfold drawText
  dsimp only
  split
  · exact hslot
  · next slot hget =>
      have hset := faces_setIfInBounds (d.fontSlot key).2 hget
        (FontProgram.encode_face slot.program text)
      cases hslot with
      | same h => exact .same (hset.trans h)
      | push key' hnone h => exact .push key' hnone (hset.trans h)

theorem Extends.face? {d e : Draft} (h : Extends d e) (key : FontKey) :
    e.face? key = d.face? key ∨ d.face? key = none ∧ e.face? key = some (standardFace key) := by
  cases h with
  | same h => exact .inl (by rw [Draft.face?, h, Draft.face?])
  | push key' hnone h =>
      -- the new face stands last, behind any other of its key
      have happend : e.face? key =
          (d.face? key).or (if key' == key then some (standardFace key') else none) := by
        rw [Draft.face?, h, List.find?_append, Draft.face?]
        cases d.faces.find? (·.1 == key) with
        | some f => rfl
        | none => by_cases hkey : key' = key <;> simp [hkey]
      by_cases hkey : key' = key
      · subst hkey
        exact .inr ⟨hnone, by simp [happend, hnone]⟩
      · exact .inl (by simp [happend, hkey])

theorem Extends.hasFont {d e : Draft} (h : Extends d e) (key : FontKey) :
    e.hasFont key = d.hasFont key := by
  rw [hasFont_eq, hasFont_eq]
  rcases h.face? key with heq | ⟨hnone, hsome⟩
  · rw [heq]
  · rw [hnone, hsome]
    rfl

theorem Extends.textWidth {d e : Draft} (h : Extends d e) {key : FontKey}
    (hkey : StandardFont.ofKey? key = none) (text : String) :
    e.textWidth key text = d.textWidth key text := by
  rw [textWidth_eq, textWidth_eq]
  rcases h.face? key with heq | ⟨hnone, hsome⟩
  · rw [heq]
  · rw [hnone, hsome, standardFace, hkey]
    rfl

/-! ## Images -/

/-- The images of a draft are what their files hold. -/
def Cached (d : Draft) : Prop :=
  ∀ slot ∈ d.images, Image.load d.files slot.path = .ok slot.image

/-- An image that is found is the image of some spelling of its path. -/
theorem imageSlot_ok {path : String} {d e : Draft} {index : Nat} {image : PagedReport.Image}
    (hd : d.Cached) (h : d.imageSlot path = .ok (index, image, e)) :
    e.Cached ∧ e.files = d.files ∧ e.fonts = d.fonts ∧
      ∃ p, FileTree.pathNames p = FileTree.pathNames path ∧ Image.load d.files p = .ok image := by
  unfold imageSlot at h
  dsimp only at h
  split at h
  · next index' slot hindex hslot =>
      obtain ⟨rfl, rfl, rfl⟩ : index' = index ∧ slot.image = image ∧ d = e := by simpa using h
      refine ⟨hd, rfl, rfl, slot.path, ?_, hd slot (Array.mem_of_find?_eq_some hslot)⟩
      simpa using Array.find?_some hslot
  · split at h
    · cases h
    · next image' hload =>
        obtain ⟨rfl, rfl, rfl⟩ : d.images.size = index ∧ image' = image ∧
            { d with images := d.images.push ⟨path, image'⟩ } = e := by simpa using h
        refine ⟨?_, rfl, rfl, path, rfl, hload⟩
        intro slot hslot
        rcases Array.mem_push.mp hslot with hold | rfl
        · exact hd slot hold
        · exact hload

/-- Drafts on the same files that have the same fonts for layout and only cached images. -/
structure Agrees (d e : Draft) : Prop where
  files : d.files = e.files
  consistent : d.files.Consistent
  hasFont : ∀ key, d.hasFont key = e.hasFont key
  textWidth : ∀ key, StandardFont.ofKey? key = none → ∀ text,
    d.textWidth key text = e.textWidth key text
  cached : d.Cached
  cached_right : e.Cached

theorem Agrees.blank {files : Files} (hfiles : files.Consistent) (compress : Bool) :
    Agrees { files, compress } { files, compress } :=
  ⟨rfl, hfiles, fun _ ↦ rfl, fun _ _ _ ↦ rfl, nofun, nofun⟩

theorem Agrees.left {d d' e : Draft} (h : Agrees d e) (hfiles : d'.files = d.files)
    (hcached : d'.Cached) (hfont : ∀ key, d'.hasFont key = d.hasFont key)
    (hwidth : ∀ key, StandardFont.ofKey? key = none → ∀ text,
      d'.textWidth key text = d.textWidth key text) : Agrees d' e where
  files := hfiles.trans h.files
  consistent := hfiles ▸ h.consistent
  hasFont key := (hfont key).trans (h.hasFont key)
  textWidth key hkey text := (hwidth key hkey text).trans (h.textWidth key hkey text)
  cached := hcached
  cached_right := h.cached_right

/-! ## Drawing -/

theorem fontSlot_files (key : FontKey) (d : Draft) :
    (d.fontSlot key).2.files = d.files ∧ (d.fontSlot key).2.images = d.images := by
  unfold fontSlot
  split <;> exact ⟨rfl, rfl⟩

theorem drawText_files (x baseline : Float) (text : String) (key : FontKey) (size : Float)
    (color : Color) (d : Draft) :
    (d.drawText x baseline text key size color).files = d.files ∧
      (d.drawText x baseline text key size color).images = d.images := by
  unfold drawText
  dsimp only
  split
  · exact fontSlot_files key d
  · exact fontSlot_files key d

theorem Agrees.mark {d e : Draft} (h : Agrees d e) (m : Mark Float) : Agrees (draw m d) e := by
  cases m with
  | text x baseline text key size color =>
      have hextends := drawText_extends x baseline text key size color d
      obtain ⟨hfiles, himages⟩ := drawText_files x baseline text key size color d
      refine h.left hfiles ?_ hextends.hasFont fun _ hkey ↦ hextends.textWidth hkey
      rw [draw, Cached, hfiles, himages]
      exact h.cached
  | line => exact h.left rfl h.cached (fun _ ↦ rfl) fun _ _ _ ↦ rfl
  | rect => exact h.left rfl h.cached (fun _ ↦ rfl) fun _ _ _ ↦ rfl

theorem Agrees.of_slot {d d' e : Draft} (h : Agrees d e) {path : String} {index : Nat}
    {image : PagedReport.Image} (hslot : d.imageSlot path = .ok (index, image, d')) :
    Agrees d' e := by
  obtain ⟨hcached, hfiles, hfonts, -⟩ := imageSlot_ok h.cached hslot
  refine h.left hfiles hcached (fun key ↦ ?_) fun key _ text ↦ ?_
  · rw [Draft.hasFont, program?, hfonts]; rfl
  · rw [Draft.textWidth, program?, hfonts]; rfl

theorem imageSize_ok {path : String} {d d' : Draft} {pixels : Nat × Nat}
    (h : d.imageSize path = .ok (pixels, d')) : ∃ index image,
      d.imageSlot path = .ok (index, image, d') ∧ pixels = (image.width, image.height) := by
  unfold imageSize at h
  cases hslot : d.imageSlot path with
  | error e => rw [hslot] at h; cases h
  | ok found =>
      obtain ⟨index, image, e⟩ := found
      rw [hslot] at h
      cases h
      exact ⟨index, image, rfl, rfl⟩

theorem drawImage_ok {path : String} {place : Rect Float} {d e : Draft}
    (h : d.drawImage path place = .ok e) : ∃ index image d' ops,
      d.imageSlot path = .ok (index, image, d') ∧ e = d'.add ops := by
  unfold drawImage at h
  cases hslot : d.imageSlot path with
  | error e => rw [hslot] at h; cases h
  | ok found =>
      obtain ⟨index, image, d'⟩ := found
      rw [hslot] at h
      cases h
      exact ⟨index, image, d', _, rfl, rfl⟩

theorem registerFont_ok {key : FontKey} {data : ByteArray} {d e : Draft}
    (h : d.registerFont key data = .ok e) : e.files = d.files ∧ e.images = d.images := by
  unfold registerFont at h
  cases hread : EmbeddedFont.read key data with
  | error e => rw [hread] at h; cases h
  | ok f =>
      rw [hread] at h
      dsimp only [bind, Except.bind] at h
      split at h <;> cases h <;> exact ⟨rfl, rfl⟩

theorem load_eq {files : Files} (hfiles : files.Consistent) {p q : String}
    (hpq : FileTree.pathNames p = FileTree.pathNames q) {a b : PagedReport.Image}
    (ha : Image.load files p = .ok a) (hb : Image.load files q = .ok b) : a = b := by
  unfold Image.load at ha hb
  split at ha
  · cases ha
  · next x hx =>
      split at hb
      · cases hb
      · next y hy =>
          obtain rfl : x = y := hfiles hpq hx hy
          exact Except.ok.inj (ha.symm.trans hb)

/-- Layout does not see what has been drawn on a draft. -/
theorem agreement : Agreement Agrees where
  symm h :=
    { files := h.files.symm
      consistent := h.files ▸ h.consistent
      hasFont := fun key ↦ (h.hasFont key).symm
      textWidth := fun key hkey text ↦ (h.textWidth key hkey text).symm
      cached := h.cached_right
      cached_right := h.cached }
  hasFont h := h.hasFont
  textWidth h := h.textWidth
  pixels h hp hq := by
    obtain ⟨i, image, hslot, rfl⟩ := imageSize_ok hp
    obtain ⟨j, image', hslot', rfl⟩ := imageSize_ok hq
    obtain ⟨-, -, -, p, hpath, hload⟩ := imageSlot_ok h.cached hslot
    obtain ⟨-, -, -, q, hpath', hload'⟩ := imageSlot_ok h.cached_right hslot'
    rw [← h.files] at hload'
    obtain rfl : image = image' := load_eq h.consistent (hpath.trans hpath'.symm) hload hload'
    rfl
  registerFont h hregister := by
    obtain ⟨hfiles, himages⟩ := registerFont_ok hregister
    exact ⟨rfl, hfiles ▸ h.consistent, fun _ ↦ rfl, fun _ _ _ ↦ rfl,
      by rw [Cached, hfiles, himages]; exact h.cached,
      by rw [Cached, hfiles, himages]; exact h.cached⟩
  page size h := h.left rfl h.cached (fun _ ↦ rfl) fun _ _ _ ↦ rfl
  mark m h := h.mark m
  load h hload := by
    obtain ⟨index, image, hslot, -⟩ := imageSize_ok hload
    exact h.of_slot hslot
  image h himage := by
    obtain ⟨index, image, d', ops, hslot, rfl⟩ := drawImage_ok himage
    have hdrawn := h.of_slot hslot
    exact hdrawn.left rfl hdrawn.cached (fun _ ↦ rfl) fun _ _ _ ↦ rfl

end Draft

end Pdf

end PagedReport
