import Mathlib.Data.List.Basic
import PagedReport.Proofs.Pdf.Blocks
import PagedReport.Proofs.Pdf.Measures

/-!
# Slots and their names

A slot keeps its place for good: new slots come behind the others, and a font that is registered
again takes the place of the old one.  So the name by which a page asks for a font or an image
stands for the same key and the same path in every later draft.
-/

namespace PagedReport

/-- The font of a text that is drawn. -/
def Call.key? {K : Type} (call : Call K) : Option FontKey := call.font?.map (·.1)

/-- The names of the path of an image that is drawn. -/
def Call.path? {K : Type} : Call K → Option (Bool × List String)
  | .image path _ => some (FileTree.pathNames path)
  | _ => none

namespace Pdf

/-! ## Names on pages -/

/-- The font that an operation selects. -/
def Operation.font? : Operation → Option String
  | .setFont name _ => some name
  | _ => none

/-- The image that an operation draws. -/
def Operation.image? : Operation → Option String
  | .drawResource name => some name
  | _ => none

/-- The names of one kind on pages, in their order. -/
def named (kind : Operation → Option String) (pages : List Page) : List String :=
  pages.flatMap fun page ↦ page.operations.toList.filterMap kind

/-! ## Tables -/

theorem map_set_of_eq {α β : Type} {f : α → β} {xs : List α} {i : Nat} {x y : α}
    (hx : xs[i]? = some x) (hy : f y = f x) : (xs.set i y).map f = xs.map f := by
  obtain ⟨hlt, rfl⟩ := List.getElem?_eq_some_iff.mp hx
  rw [List.map_set, hy, ← List.map_set, List.set_getElem_self]

section

variable {α : Type} [BEq α] [LawfulBEq α]

/-- A key is entered behind the others unless it is there. -/
def entered (key : α) (keys : List α) : List α := if key ∈ keys then keys else keys ++ [key]

theorem prefix_entered (key : α) (keys : List α) : keys <+: entered key keys := by
  unfold entered
  split
  · exact List.prefix_rfl
  · exact List.prefix_append _ _

theorem mem_entered (key : α) (keys : List α) : key ∈ entered key keys := by
  unfold entered
  split
  · assumption
  · simp

theorem entered_of_some {key : α} {keys : List α} {index : Nat}
    (h : keys.findIdx? (· == key) = some index) :
    entered key keys = keys ∧ keys.idxOf key = index := by
  obtain ⟨hlt, hindex⟩ := List.findIdx?_eq_some_iff_findIdx_eq.mp h
  have hidx : keys.idxOf key = index := hindex
  exact ⟨if_pos (List.idxOf_lt_length_iff.mp (hidx ▸ hlt)), hidx⟩

theorem entered_of_none {key : α} {keys : List α} (h : keys.findIdx? (· == key) = none) :
    entered key keys = keys ++ [key] ∧ (keys ++ [key]).idxOf key = keys.length := by
  have hnew : key ∉ keys := by
    intro hmem
    simpa using List.findIdx?_eq_none_iff.mp h key hmem
  exact ⟨if_neg hnew, by simp [List.idxOf_append, hnew]⟩

theorem idxOf_grow {key : α} {keys keys' : List α} (h : keys <+: keys') (hkey : key ∈ keys) :
    keys'.idxOf key = keys.idxOf key := by
  obtain ⟨more, rfl⟩ := h
  exact List.idxOf_append_of_mem hkey

end

namespace Draft

def fontKeys (d : Draft) : List FontKey := d.fonts.toList.map (·.key)

def imageKeys (d : Draft) : List (Bool × List String) :=
  d.images.toList.map fun slot ↦ FileTree.pathNames slot.path

theorem fontKeys_grow {d e : Draft} (h : e.fonts = d.fonts) : d.fontKeys <+: e.fontKeys := by
  have hkeys : e.fontKeys = d.fontKeys := by rw [fontKeys, fontKeys, h]
  exact hkeys ▸ List.prefix_rfl

theorem imageKeys_grow {d e : Draft} (h : e.images = d.images) : d.imageKeys <+: e.imageKeys := by
  have hkeys : e.imageKeys = d.imageKeys := by rw [imageKeys, imageKeys, h]
  exact hkeys ▸ List.prefix_rfl

/-- The name of the slot of a font. -/
def fontNameOf (d : Draft) (key : FontKey) : String := fontName (d.fontKeys.idxOf key)

/-- The name of the slot of an image. -/
def imageNameOf (d : Draft) (path : String) : String :=
  imageName (d.imageKeys.idxOf (FileTree.pathNames path))

/-! ## Slots -/

theorem fontIndex?_eq_keys (d : Draft) (key : FontKey) :
    d.fontIndex? key = d.fontKeys.findIdx? (· == key) := by
  obtain ⟨files, compress, pages, ⟨fonts⟩, images⟩ := d
  rw [fontIndex?, fontKeys, List.findIdx?_map, List.findIdx?_toArray]
  rfl

theorem fontSlot_keys (key : FontKey) (d : Draft) :
    (d.fontSlot key).2.fontKeys = entered key d.fontKeys ∧
      fontName (d.fontSlot key).1 = (d.fontSlot key).2.fontNameOf key ∧
      (d.fontSlot key).2.pages = d.pages := by
  unfold fontSlot
  cases hindex : d.fontIndex? key with
  | some index =>
      rw [fontIndex?_eq_keys] at hindex
      obtain ⟨hsame, hidx⟩ := entered_of_some hindex
      exact ⟨hsame.symm, by rw [fontNameOf, hidx], rfl⟩
  | none =>
      rw [fontIndex?_eq_keys] at hindex
      obtain ⟨hnew, hidx⟩ := entered_of_none hindex
      have hpushed : ∀ slot : FontSlot, slot.key = key →
          ({ d with fonts := d.fonts.push slot } : Draft).fontKeys = d.fontKeys ++ [key] := by
        rintro slot rfl
        simp [fontKeys]
      have hkeys := hpushed ⟨key, .standard ((StandardFont.ofKey? key).getD
        ⟨.helvetica, .regular⟩)⟩ rfl
      refine ⟨hkeys.trans hnew.symm, ?_, rfl⟩
      rw [fontNameOf, hkeys, hidx, fontKeys, List.length_map, Array.length_toList]

/-- Drawing a text enters its key and selects the font of its slot. -/
theorem drawText_adds (x baseline : Float) (text : String) (key : FontKey) (size : Float)
    (color : Color) (d : Draft) : ∃ (e : Draft) (ops : List Operation),
      d.drawText x baseline text key size color = e.add ops ∧ e.pages = d.pages ∧
      e.fontKeys = entered key d.fontKeys ∧ e.images = d.images ∧
      ops.filterMap Operation.font? = [e.fontNameOf key] ∧
      ops.filterMap Operation.image? = [] := by
  obtain ⟨hkeys, hname, hpages⟩ := fontSlot_keys key d
  obtain ⟨-, himages⟩ := fontSlot_files key d
  obtain ⟨slot, hslot, -, -⟩ := fontSlot_face key d
  unfold drawText
  rcases hfound : d.fontSlot key with ⟨index, e⟩
  rw [hfound] at hkeys hname hpages himages hslot
  dsimp only at hkeys hname hpages himages hslot ⊢
  rw [hslot]
  dsimp only
  have hset : ∀ program : FontProgram, ({ e with
      fonts := e.fonts.setIfInBounds index { slot with program } } : Draft).fontKeys =
        e.fontKeys := by
    intro program
    rw [fontKeys, Array.toList_setIfInBounds]
    exact map_set_of_eq (Array.getElem?_toList.trans hslot) rfl
  refine ⟨_, _, rfl, hpages, (hset _).trans hkeys, himages, ?_, rfl⟩
  rw [fontNameOf, hset, ← fontNameOf, ← hname]
  rfl

theorem registerFont_keys {key : FontKey} {data : ByteArray} {d e : Draft}
    (h : d.registerFont key data = .ok e) :
    e.fontKeys = entered key d.fontKeys ∧ e.pages = d.pages ∧ e.images = d.images := by
  unfold registerFont at h
  cases hread : EmbeddedFont.read key data with
  | error failure => rw [hread] at h; cases h
  | ok f =>
      rw [hread] at h
      dsimp only [bind, Except.bind] at h
      split at h
      · next index hindex =>
          obtain rfl := Except.ok.inj h
          refine ⟨?_, rfl, rfl⟩
          rw [fontIndex?_eq_keys] at hindex
          obtain ⟨hsame, hidx⟩ := entered_of_some hindex
          obtain ⟨hlt, hkey, -⟩ := List.findIdx?_eq_some_iff_getElem.mp hindex
          have hbound : index < d.fonts.toList.length := by simpa [fontKeys] using hlt
          have hold : d.fonts.toList[index].key = key := by simpa [fontKeys] using hkey
          rw [hsame, fontKeys, Array.toList_setIfInBounds]
          exact map_set_of_eq (List.getElem?_eq_getElem hbound) hold.symm
      · next hindex =>
          obtain rfl := Except.ok.inj h
          rw [fontIndex?_eq_keys] at hindex
          refine ⟨?_, rfl, rfl⟩
          rw [(entered_of_none hindex).1]
          simp [fontKeys]

theorem imageSlot_keys {path : String} {d e : Draft} {index : Nat} {image : PagedReport.Image}
    (h : d.imageSlot path = .ok (index, image, e)) :
    e.imageKeys = entered (FileTree.pathNames path) d.imageKeys ∧
      imageName index = e.imageNameOf path ∧ e.pages = d.pages ∧ e.fonts = d.fonts := by
  have hindex : d.images.findIdx? (fun slot ↦ FileTree.pathNames slot.path ==
      FileTree.pathNames path) = d.imageKeys.findIdx? (· == FileTree.pathNames path) := by
    obtain ⟨files, compress, pages, fonts, ⟨images⟩⟩ := d
    rw [imageKeys, List.findIdx?_map, List.findIdx?_toArray]
    rfl
  unfold imageSlot at h
  dsimp only at h
  rw [hindex] at h
  split at h
  · next i slot hfound _ =>
      obtain ⟨hsame, hidx⟩ := entered_of_some hfound
      obtain ⟨rfl, rfl, rfl⟩ : i = index ∧ slot.image = image ∧ d = e := by simpa using h
      exact ⟨hsame.symm, by rw [imageNameOf, hidx], rfl, rfl⟩
  · next hnone =>
      split at h
      · cases h
      · next image' hload =>
          obtain ⟨rfl, rfl, rfl⟩ : d.images.size = index ∧ image' = image ∧
              { d with images := d.images.push ⟨path, image'⟩ } = e := by simpa using h
          have hnew : d.imageKeys.findIdx? (· == FileTree.pathNames path) = none := by
            cases hfound : d.imageKeys.findIdx? (· == FileTree.pathNames path) with
            | none => rfl
            | some i =>
                obtain ⟨hlt, hsame, -⟩ :=
                  Array.findIdx?_eq_some_iff_getElem.mp (hindex.trans hfound)
                cases hfind : d.images.find? fun slot ↦ FileTree.pathNames slot.path ==
                    FileTree.pathNames path with
                | none =>
                    exact absurd hsame (Array.find?_eq_none.mp hfind _ (Array.getElem_mem hlt))
                | some slot => exact (hnone i slot hfound hfind).elim
          obtain ⟨hentered, hidx⟩ := entered_of_none hnew
          have hkeys : ({ d with images := d.images.push ⟨path, image'⟩ } : Draft).imageKeys =
              d.imageKeys ++ [FileTree.pathNames path] := by
            simp [imageKeys]
          refine ⟨hkeys.trans hentered.symm, ?_, rfl, rfl⟩
          rw [imageNameOf, hkeys, hidx, imageKeys, List.length_map, Array.length_toList]

/-! ## Names of what was drawn -/

theorem named_add (kind : Operation → Option String) {d : Draft} (hpages : 0 < d.pages.size)
    (ops : List Operation) :
    named kind (d.add ops).pages.toList = named kind d.pages.toList ++ ops.filterMap kind := by
  have hstarted : d.pages.toList ≠ [] := by
    intro hnil
    rw [← Array.length_toList, hnil] at hpages
    cases hpages
  obtain ⟨front, last, hlist⟩ := (List.eq_nil_or_concat' _).resolve_left hstarted
  rw [pages_add hlist, hlist]
  simp [named]

/-- The names of a kind on pages are those of the slots of keys, one for each key that was drawn. -/
structure NamesKeys {α : Type} [BEq α] (kind : Operation → Option String) (name : Nat → String)
    (slots : List α) (pages : List Page) (drawn : List α) : Prop where
  named_eq : named kind pages = drawn.map fun key ↦ name (slots.idxOf key)
  held : ∀ key ∈ drawn, key ∈ slots

namespace NamesKeys

variable {α : Type} [BEq α] {kind : Operation → Option String} {name : Nat → String}
  {slots slots' : List α} {pages pages' : List Page} {drawn : List α}

theorem grow [LawfulBEq α] (h : NamesKeys kind name slots pages drawn) (hslots : slots <+: slots') :
    NamesKeys kind name slots' pages drawn where
  named_eq := by
    rw [h.named_eq]
    refine List.map_congr_left fun key hkey ↦ ?_
    rw [idxOf_grow hslots (h.held key hkey)]
  held key hkey := hslots.subset (h.held key hkey)

theorem append (h : NamesKeys kind name slots pages drawn) {new : List α}
    (hnamed : named kind pages' = named kind pages ++ new.map fun key ↦ name (slots.idxOf key))
    (hnew : ∀ key ∈ new, key ∈ slots) : NamesKeys kind name slots pages' (drawn ++ new) where
  named_eq := by rw [hnamed, h.named_eq, List.map_append]
  held key hkey := (List.mem_append.mp hkey).elim (h.held key) (hnew key)

end NamesKeys

/-- The pages name the fonts and the images of some calls, in the order of the calls. -/
structure Names (d : Draft) (calls : List (Call Float)) : Prop where
  fonts : NamesKeys Operation.font? fontName d.fontKeys d.pages.toList (calls.filterMap Call.key?)
  images : NamesKeys Operation.image? imageName d.imageKeys d.pages.toList
    (calls.filterMap Call.path?)

namespace Names

variable {d e : Draft} {calls : List (Call Float)}

theorem grow (h : Names d calls) (hpages : e.pages = d.pages) (hfonts : d.fontKeys <+: e.fontKeys)
    (himages : d.imageKeys <+: e.imageKeys) : Names e calls :=
  ⟨hpages ▸ h.fonts.grow hfonts, hpages ▸ h.images.grow himages⟩

theorem ofSlot (h : Names d calls) {path : String} {index : Nat} {image : PagedReport.Image}
    (hslot : d.imageSlot path = .ok (index, image, e)) : Names e calls := by
  obtain ⟨hkeys, -, hpages, hfonts⟩ := imageSlot_keys hslot
  exact h.grow hpages (fontKeys_grow hfonts) (hkeys ▸ prefix_entered _ _)

end Names

theorem drawRect_adds (r : Rect Float) (radius : Float) (painting : Painting) (p : Paint Float)
    (d : Draft) : ∃ ops : List Operation, d.drawRect r radius painting p = d.add ops ∧
      ops.filterMap Operation.font? = [] ∧ ops.filterMap Operation.image? = [] := by
  refine ⟨_, rfl, ?_, ?_⟩
  all_goals
    simp only [List.filterMap_append]
    split <;> split <;> split <;> rfl

theorem drawImage_adds {path : String} {place : Rect Float} {d e : Draft}
    (h : d.drawImage path place = .ok e) : ∃ index image d' ops,
      d.imageSlot path = .ok (index, image, d') ∧ e = d'.add ops ∧
      ops.filterMap Operation.font? = [] ∧
      ops.filterMap Operation.image? = [imageName index] := by
  unfold drawImage at h
  cases hslot : d.imageSlot path with
  | error e => rw [hslot] at h; cases h
  | ok found =>
      obtain ⟨index, image, d'⟩ := found
      rw [hslot] at h
      obtain rfl := Except.ok.inj h
      exact ⟨index, image, d', _, rfl, rfl, rfl, rfl⟩

/-! ## Demands -/

theorem imageSize_meet {path : String} {d e : Draft}
    (h : (Demand.imageSize path : Demand Float).meet d = .ok e) :
    ∃ index image, d.imageSlot path = .ok (index, image, e) := by
  change (d.imageSize path).map (·.2) = .ok e at h
  cases hsize : d.imageSize path with
  | error failure => rw [hsize] at h; cases h
  | ok measured =>
      rw [hsize] at h
      obtain rfl := Except.ok.inj h
      obtain ⟨index, image, hslot, -⟩ := imageSize_ok hsize
      exact ⟨index, image, hslot⟩

/-- What is not drawn leaves the pages alone. -/
theorem meet_pages {demand : Demand Float} {d e : Draft} (h : demand.meet d = .ok e)
    (hcall : demand.call? = none) : e.pages = d.pages := by
  cases demand with
  | registerFont key data => exact (registerFont_keys h).2.1
  | imageSize path =>
      obtain ⟨index, image, hslot⟩ := imageSize_meet h
      exact (imageSlot_keys hslot).2.2.1
  | draw call => cases hcall

theorem meet_names {demand : Demand Float} {d e : Draft} {calls : List (Call Float)}
    (h : Names d calls) (hmeet : demand.meet d = .ok e) (hcall : demand.call? = none) :
    Names e calls := by
  cases demand with
  | registerFont key data =>
      obtain ⟨hkeys, hpages, himages⟩ := registerFont_keys hmeet
      exact h.grow hpages (hkeys ▸ prefix_entered key _) (imageKeys_grow himages)
  | imageSize path =>
      obtain ⟨index, image, hslot⟩ := imageSize_meet hmeet
      exact h.ofSlot hslot
  | draw call => cases hcall

/-- Drawing a call adds operations that name its font or its image, on a draft that has a slot for
it. -/
structure Adds (call : Call Float) (d e : Draft) (ops : List Operation) : Prop where
  pages : e.pages = d.pages
  fontKeys : d.fontKeys <+: e.fontKeys
  imageKeys : d.imageKeys <+: e.imageKeys
  fonts : ops.filterMap Operation.font? = ([call].filterMap Call.key?).map e.fontNameOf
  keys : ∀ key ∈ [call].filterMap Call.key?, key ∈ e.fontKeys
  images : ops.filterMap Operation.image? =
    ([call].filterMap Call.path?).map fun names ↦ imageName (e.imageKeys.idxOf names)
  paths : ∀ names ∈ [call].filterMap Call.path?, names ∈ e.imageKeys

theorem draw_adds {call : Call Float} {d f : Draft} (hcall : ∀ size, call ≠ .page size)
    (hmeet : (Demand.draw call).meet d = .ok f) : ∃ e ops, f = e.add ops ∧ Adds call d e ops := by
  cases call with
  | page size => exact absurd rfl (hcall size)
  | mark m =>
      obtain rfl := Except.ok.inj hmeet
      cases m with
      | text x baseline text key size color =>
          obtain ⟨e, ops, heq, hpages, hkeys, himages, hfont, himage⟩ :=
            drawText_adds x baseline text key size color d
          refine ⟨e, ops, heq, hpages, hkeys ▸ prefix_entered key _, imageKeys_grow himages,
            hfont, ?_, himage, nofun⟩
          rintro key' hkey'
          obtain rfl := List.mem_singleton.mp hkey'
          exact hkeys ▸ mem_entered key' _
      | line x₁ y₁ x₂ y₂ p =>
          exact ⟨d, _, rfl, rfl, List.prefix_rfl, List.prefix_rfl, rfl, nofun, rfl, nofun⟩
      | rect r radius painting p =>
          obtain ⟨ops, heq, hfont, himage⟩ := drawRect_adds r radius painting p d
          exact ⟨d, ops, heq, rfl, List.prefix_rfl, List.prefix_rfl, hfont, nofun, himage, nofun⟩
  | image path place =>
      obtain ⟨index, image, e, ops, hslot, rfl, hfont, himage⟩ := drawImage_adds hmeet
      obtain ⟨hkeys, hname, hpages, hfonts⟩ := imageSlot_keys hslot
      refine ⟨e, ops, rfl, hpages, fontKeys_grow hfonts, hkeys ▸ prefix_entered _ _, hfont, nofun,
        himage.trans ?_, ?_⟩
      · exact congrArg (fun name ↦ [name]) hname
      · rintro names hnames
        obtain rfl := List.mem_singleton.mp hnames
        exact hkeys ▸ mem_entered _ _

/-- A call that is drawn on a page is named there. -/
theorem draw_names {call : Call Float} {d f : Draft} {calls : List (Call Float)}
    (h : Names d calls) (hpages : 0 < d.pages.size) (hcall : ∀ size, call ≠ .page size)
    (hmeet : (Demand.draw call).meet d = .ok f) : Names f (calls ++ [call]) := by
  obtain ⟨e, ops, rfl, hadds⟩ := draw_adds hcall hmeet
  have hgrown := h.grow hadds.pages hadds.fontKeys hadds.imageKeys
  rw [← hadds.pages] at hpages
  constructor
  · rw [List.filterMap_append]
    exact hgrown.fonts.append ((named_add _ hpages ops).trans (by rw [hadds.fonts]; rfl)) hadds.keys
  · rw [List.filterMap_append]
    exact hgrown.images.append ((named_add _ hpages ops).trans (by rw [hadds.images])) hadds.paths

theorem draw_pages_eq {call : Call Float} {d f : Draft} (hcall : ∀ size, call ≠ .page size)
    (hmeet : (Demand.draw call).meet d = .ok f) : f.pages.size = d.pages.size := by
  obtain ⟨e, ops, rfl, hadds⟩ := draw_adds hcall hmeet
  rw [add, Array.size_modify, hadds.pages]

theorem beginPage_names (size : Size Float) {d : Draft} {calls : List (Call Float)}
    (h : Names d calls) : Names (Device.beginPage size d) (calls ++ [.page size]) := by
  have hnamed (kind : Operation → Option String) :
      named kind (Device.beginPage size d).pages.toList = named kind d.pages.toList := by
    change named kind (d.pages.push ⟨size.width, size.height, #[]⟩).toList = _
    rw [Array.toList_push]
    simp [named]
  constructor
  · rw [List.filterMap_append]
    exact h.fonts.append ((hnamed _).trans (List.append_nil _).symm) nofun
  · rw [List.filterMap_append]
    exact h.images.append ((hnamed _).trans (List.append_nil _).symm) nofun

/-! ## Fonts for keys -/

/-- Texts of a key are not drawn in another font for want of one. -/
def Provides (d : Draft) (key : FontKey) : Prop :=
  (StandardFont.ofKey? key).isSome ∨ d.hasFont key = true

theorem hasFont_eq_drawnFace (d : Draft) (key : FontKey) : d.hasFont key = (d.drawnFace key).1 := by
  rw [hasFont_eq, drawnFace]
  cases d.face? key <;> rfl

theorem meet_hasFont {demand : Demand Float} {d e : Draft} (h : demand.meet d = .ok e)
    {key : FontKey} (hkey : d.hasFont key = true) : e.hasFont key = true := by
  rw [hasFont_eq_drawnFace] at hkey ⊢
  by_cases hdemand : ∃ data, demand = .registerFont key data
  · obtain ⟨data, rfl⟩ := hdemand
    obtain ⟨f, hregisters⟩ := registerFont_registers h
    rw [hregisters.drawnFace]
    rfl
  · rw [meet_drawnFace h fun data heq ↦ hdemand ⟨data, heq⟩]
    exact hkey

/-- A font once provided is provided for good. -/
theorem meetAll_provides {demands : List (Demand Float)} {d e : Draft}
    (h : Demand.meetAll demands d = .ok e) {key : FontKey} (hkey : d.Provides key) :
    e.Provides key := by
  induction demands generalizing d with
  | nil => exact Except.ok.inj h ▸ hkey
  | cons demand demands ih =>
      obtain ⟨f, hfirst, hrest⟩ := Demand.meetAll_append.mp (List.singleton_append ▸ h)
      rw [Demand.meetAll_singleton] at hfirst
      exact ih hrest (hkey.imp_right (meet_hasFont hfirst))

end Draft

/-- After some demands, the program of a slot is one that was registered under its key, or the
standard font that the key names. -/
def FontSlot.Genuine (past : List (Demand Float)) (slot : FontSlot) : Prop :=
  match slot.program with
  | .embedded f => ∃ data g, .registerFont slot.key data ∈ past ∧
      EmbeddedFont.read slot.key data = .ok g ∧ f.program = g.program
  | .standard f => StandardFont.ofKey? slot.key = some f

namespace FontSlot.Genuine

variable {past past' : List (Demand Float)} {slot : FontSlot}

theorem mono (h : slot.Genuine past) (hpast : past ⊆ past') : slot.Genuine past' := by
  obtain ⟨key, program⟩ := slot
  cases program with
  | standard f => exact h
  | embedded f =>
      obtain ⟨data, g, hmem, hread, hprogram⟩ := h
      exact ⟨data, g, hpast hmem, hread, hprogram⟩

theorem encode (h : slot.Genuine past) (text : String) :
    ({ slot with program := (slot.program.encode text).2.2 } : FontSlot).Genuine past := by
  obtain ⟨key, program⟩ := slot
  cases program with
  | standard f => exact h
  | embedded f =>
      obtain ⟨data, g, hmem, hread, hprogram⟩ := h
      exact ⟨data, g, hmem, hread, (f.foldl_use_program text.toList).trans hprogram⟩

end FontSlot.Genuine

namespace Draft

/-- Every font of the draft is the right one for its key. -/
def Genuine (past : List (Demand Float)) (d : Draft) : Prop := ∀ slot ∈ d.fonts, slot.Genuine past

namespace Genuine

variable {past : List (Demand Float)} {d e : Draft}

theorem mono {past' : List (Demand Float)} (h : d.Genuine past) (hpast : past ⊆ past') :
    d.Genuine past' := fun slot hslot ↦ (h slot hslot).mono hpast

theorem of_fonts (h : d.Genuine past) (hfonts : e.fonts = d.fonts) : e.Genuine past := by
  rw [Genuine, hfonts]
  exact h

theorem push (h : d.Genuine past) {slot : FontSlot} (hslot : slot.Genuine past) :
    ({ d with fonts := d.fonts.push slot } : Draft).Genuine past := by
  intro slot' hslot'
  rcases Array.mem_push.mp hslot' with hold | rfl
  · exact h slot' hold
  · exact hslot

theorem set (h : d.Genuine past) {slot : FontSlot} (hslot : slot.Genuine past) (index : Nat) :
    ({ d with fonts := d.fonts.setIfInBounds index slot } : Draft).Genuine past := by
  intro slot' hslot'
  rcases Array.mem_or_eq_of_mem_setIfInBounds hslot' with hold | rfl
  · exact h slot' hold
  · exact hslot

theorem fontSlot (h : d.Genuine past) {key : FontKey} (hkey : d.Provides key) :
    (d.fontSlot key).2.Genuine past := by
  unfold Draft.fontSlot
  cases hindex : d.fontIndex? key with
  | some index => exact h
  | none =>
      -- no program is registered, so the key is of a standard font
      have hnone : d.hasFont key = false := by
        rw [fontIndex?, Array.findIdx?_eq_none_iff] at hindex
        rw [hasFont, program?, Array.find?_eq_none.mpr (by simpa using hindex)]
        rfl
      obtain ⟨f, hf⟩ := Option.isSome_iff_exists.mp (hkey.resolve_right (by simp [hnone]))
      refine h.push ?_
      rw [hf]
      exact hf

theorem drawText (h : d.Genuine past) {key : FontKey} (hkey : d.Provides key)
    (x baseline : Float) (text : String) (size : Float) (color : Color) :
    (d.drawText x baseline text key size color).Genuine past := by
  have hslots := h.fontSlot hkey
  unfold Draft.drawText
  dsimp only
  split
  · exact hslots
  · next slot hget =>
      exact (hslots.set ((hslots slot (Array.mem_of_getElem? hget)).encode text) _).of_fonts rfl

theorem registerFont (h : d.Genuine past) {key : FontKey} {data : ByteArray}
    (hregister : d.registerFont key data = .ok e) :
    e.Genuine (past ++ [.registerFont key data]) := by
  have hold := h.mono (List.subset_append_left past [.registerFont key data])
  unfold Draft.registerFont at hregister
  cases hread : EmbeddedFont.read key data with
  | error failure => rw [hread] at hregister; cases hregister
  | ok f =>
      have hnew : FontSlot.Genuine (past ++ [.registerFont key data]) ⟨key, .embedded f⟩ :=
        ⟨data, f, by simp, hread, rfl⟩
      rw [hread] at hregister
      dsimp only [bind, Except.bind] at hregister
      split at hregister
      · next index _ => exact Except.ok.inj hregister ▸ hold.set hnew index
      · exact Except.ok.inj hregister ▸ hold.push hnew

/-- Texts of keys that are provided need no other font. -/
theorem meet (h : d.Genuine past) {demand : Demand Float} (hmeet : demand.meet d = .ok e)
    (hkey : ∀ call key, demand = .draw call → call.key? = some key → d.Provides key) :
    e.Genuine (past ++ [demand]) := by
  have hold := h.mono (List.subset_append_left past [demand])
  cases demand with
  | registerFont key data => exact h.registerFont hmeet
  | imageSize path =>
      obtain ⟨index, image, hslot⟩ := imageSize_meet hmeet
      exact hold.of_fonts (imageSlot_fonts hslot)
  | draw call =>
      cases call with
      | page size => exact Except.ok.inj hmeet ▸ hold.of_fonts rfl
      | mark m =>
          obtain rfl := Except.ok.inj hmeet
          cases m with
          | text x baseline text key size color =>
              exact hold.drawText (hkey _ key rfl rfl) x baseline text size color
          | line | rect => exact hold.of_fonts rfl
      | image path place =>
          obtain ⟨index, image, d', ops, hslot, rfl, -, -⟩ := drawImage_adds hmeet
          exact (hold.of_fonts (imageSlot_fonts hslot)).of_fonts rfl

end Genuine

/-- Images are loaded from the files of the draft, which stay the same. -/
theorem meet_cached {demand : Demand Float} {d e : Draft} (h : d.Cached)
    (hmeet : demand.meet d = .ok e) : e.Cached ∧ e.files = d.files := by
  have same {f : Draft} (hfiles : f.files = d.files) (himages : f.images = d.images) :
      f.Cached ∧ f.files = d.files := by
    refine ⟨?_, hfiles⟩
    rw [Cached, hfiles, himages]
    exact h
  cases demand with
  | registerFont key data =>
      obtain ⟨hfiles, himages⟩ := registerFont_ok hmeet
      exact same hfiles himages
  | imageSize path =>
      obtain ⟨index, image, hslot⟩ := imageSize_meet hmeet
      obtain ⟨hcached, hfiles, -, -⟩ := imageSlot_ok h hslot
      exact ⟨hcached, hfiles⟩
  | draw call =>
      cases call with
      | page size => exact Except.ok.inj hmeet ▸ ⟨h, rfl⟩
      | mark m =>
          obtain rfl := Except.ok.inj hmeet
          cases m with
          | text x baseline text key size color =>
              obtain ⟨hfiles, himages⟩ := drawText_files x baseline text key size color d
              exact same hfiles himages
          | line | rect => exact ⟨h, rfl⟩
      | image path place =>
          obtain ⟨index, image, d', ops, hslot, rfl, -, -⟩ := drawImage_adds hmeet
          obtain ⟨hcached, hfiles, -, -⟩ := imageSlot_ok h hslot
          exact ⟨hcached, hfiles⟩

end Draft

end Pdf

end PagedReport
