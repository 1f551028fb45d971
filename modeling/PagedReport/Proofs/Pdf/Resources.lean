import Mathlib.Data.List.Nodup
import PagedReport.Proofs.Canvas.Frozen
import PagedReport.Proofs.Pdf.Refinement
import PagedReport.Proofs.Pdf.Slots

/-!
# The resources of a document

Whatever is drawn, registered and refused on the way to a document, the names on its pages are those
of its resources: one name for each font key and for each path, whose resource is the font that the
key stands for and the image of the file.
-/

namespace PagedReport

/-- The image that a step loads. -/
def Step.image? {K : Type} : Step K → Option String
  | .image path .. | .imageExtent path .. | .flowImage path .. => some path
  | _ => none

namespace Canvas

variable {K D Output : Type}

theorem fail_device (e : CanvasError) (c : Canvas K D) : (c.fail e).device = c.device := by
  unfold fail
  split <;> rfl

variable [Scalar K] [Device K D Output]

/-! ## What is refused -/

section

variable (hook' : Origin → Canvas K D → Canvas K D)

theorem stepWith_unregistered {family style : String} {data : ByteArray} {e : CanvasError}
    {c : Canvas K D} (h : Device.registerFont (.ofText family style) data c.device = .error e) :
    stepWith hook' (.registerFont family style data) c = c := by
  simp [stepWith, registerFont, h, Except.map]

theorem imageExtentWith_unloaded {path : String} {e : CanvasError} {c : Canvas K D}
    (h : Device.imageSize path (prepareWith hook' c).1.device = .error e) :
    ∃ d : Canvas K D, d.device = (prepareWith hook' c).1.device ∧
      ∀ width height, imageExtentWith hook' path width height c = (d, none) := by
  by_cases hpossible : (prepareWith hook' c).2 = true
  · refine ⟨(prepareWith hook' c).1.fail e, fail_device _ _, fun width height ↦ ?_⟩
    rw [imageExtentWith_eq, if_pos hpossible, measure, h]
  · exact ⟨(prepareWith hook' c).1, rfl, fun width height ↦ if_neg hpossible⟩

/-- An image that does not load leaves the device as it was when drawing became possible. -/
theorem stepWith_unloaded {s : Step K} {path : String} (hs : s.image? = some path)
    {e : CanvasError} {c : Canvas K D}
    (h : Device.imageSize path (prepareWith hook' c).1.device = .error e) :
    (stepWith hook' s c).device = (prepareWith hook' c).1.device := by
  obtain ⟨d, hdevice, hextent⟩ := imageExtentWith_unloaded hook' h
  have himage (x y width height : K) : imageWith hook' path x y width height c = (d, none) := by
    rw [imageWith_eq, hextent]
    rfl
  suffices heq : stepWith hook' s c = d by rw [heq, hdevice]
  cases s with
  | image path' x y width height =>
      obtain rfl := Option.some.inj hs
      rw [stepWith, himage]
  | imageExtent path' width height =>
      obtain rfl := Option.some.inj hs
      rw [stepWith, hextent]
  | flowImage path' align x y width height spacing =>
      obtain rfl := Option.some.inj hs
      rw [stepWith, flowImageWith_eq, flowStart]
      by_cases haligned : (align = some .center || align = some .right) = true
      · rw [if_pos haligned, hextent]
      · rw [if_neg haligned]
        dsimp only
        rw [himage, flowEnd]
  | _ => cases hs

/-- A canvas that has a page draws nothing to get ready. -/
theorem prepareWith_device {c : Canvas K D} (hpage : 0 < c.pageCount) :
    (prepareWith hook' c).1.device = c.device := by
  have hpages : c.pageCount ≠ 0 := by omega
  unfold prepareWith
  split
  · rfl
  · split
    · exact fail_device _ c
    · rfl

end

/-! ## Fonts of a canvas -/

omit [Scalar K] in
theorem chooseFont_hasFont (c : Canvas K D) (family style : String) :
    c.hasFont (c.chooseFont family style).1 = true := by
  unfold chooseFont
  dsimp only
  split
  · next hasked => exact hasked
  · split
    · next hregular => exact hregular
    · rfl

theorem setFont_key (family style : String) (size : K) (c : Canvas K D) :
    (c.setFont family style size).graphics.font.key = (c.chooseFont family style).1 := by
  unfold setFont
  dsimp only

end Canvas

namespace Pdf

namespace Draft

open Canvas (Course Reaches)

theorem hasFont_iff_provides (c : Canvas Float Draft) (key : FontKey) :
    c.hasFont key = true ↔ c.device.Provides key := Bool.or_eq_true_iff

/-! ## Drafts that a canvas draws on -/

/-- A draft has the pages of its canvas, a font for it, and the right slots for all that was drawn
and demanded in the past. -/
structure Serves (files : Files) (past : List (Demand Float)) (c : Canvas Float Draft) : Prop where
  pages : c.device.pages.size = c.pageCount
  font : c.device.Provides c.graphics.font.key
  genuine : c.device.Genuine past
  names : c.device.Names c.calls
  cached : c.device.Cached
  files : c.device.files = files

namespace Serves

variable {files : Files} {past : List (Demand Float)} {c d : Canvas Float Draft}

theorem blank (files : Files) (compress : Bool) (setup : PageSetup Float) :
    Serves files [] (Canvas.new ({ files, compress } : Draft) setup) where
  pages := rfl
  font := .inl rfl
  genuine := nofun
  names := ⟨⟨rfl, nofun⟩, ⟨rfl, nofun⟩⟩
  cached := nofun
  files := rfl

/-- A canvas that is set otherwise, with a font that the draft has. -/
theorem reset (h : Serves files past c) (hdevice : d.device = c.device)
    (hhistory : d.history = c.history) (hpages : d.pageCount = c.pageCount)
    (hfont : c.device.Provides d.graphics.font.key) : Serves files past d := by
  have hcalls : d.calls = c.calls := by rw [Canvas.calls, hhistory, Canvas.calls]
  obtain ⟨hsize, -, hgenuine, hnames, hcached, hfiles⟩ := h
  rw [← hdevice] at hsize hfont hgenuine hnames hcached hfiles
  rw [← hcalls] at hnames
  exact ⟨hsize.trans hpages.symm, hfont, hgenuine, hnames, hcached, hfiles⟩

/-- What the device grants without drawing. -/
theorem serve (h : Serves files past c) {demand : Demand Float} {device : Draft}
    (hcall : demand.call? = none) (hmeet : demand.meet c.device = .ok device) :
    Serves files (past ++ [demand]) { c with device } := by
  obtain ⟨hcached, hfiles⟩ := meet_cached h.cached hmeet
  exact
    { pages := (congrArg Array.size (meet_pages hmeet hcall)).trans h.pages
      font := h.font.imp_right (meet_hasFont hmeet)
      genuine := h.genuine.meet hmeet fun call key heq ↦ by rw [heq] at hcall; cases hcall
      names := meet_names h.names hmeet hcall
      cached := hcached
      files := hfiles.trans h.files }

/-- What is drawn on a page, in a font that the draft has. -/
theorem draw (h : Serves files past c) {call : Call Float} {device : Draft}
    (hpage : 0 < c.pageCount) (hcall : ∀ size, call ≠ .page size)
    (hkey : ∀ key, call.key? = some key → c.device.Provides key)
    (hmeet : (Demand.draw call).meet c.device = .ok device) :
    Serves files (past ++ [.draw call]) ({ c with device }.note call) := by
  obtain ⟨hcached, hfiles⟩ := meet_cached h.cached hmeet
  have hcalls : ({ c with device }.note call).calls = c.calls ++ [call] := by
    simp [Canvas.calls, Canvas.note]
  exact
    { pages := (draw_pages_eq hcall hmeet).trans h.pages
      font := h.font.imp_right (meet_hasFont hmeet)
      genuine := h.genuine.meet hmeet fun call' key heq ↦ Demand.draw.inj heq ▸ hkey key
      names := hcalls ▸ draw_names h.names (h.pages ▸ hpage) hcall hmeet
      cached := hcached
      files := hfiles.trans h.files }

theorem page (h : Serves files past c) :
    Serves files
      (past ++ [.draw (.page ⟨c.pageSize.width * c.scale, c.pageSize.height * c.scale⟩)])
      c.putPage := by
  let size : Size Float := ⟨c.pageSize.width * c.scale, c.pageSize.height * c.scale⟩
  have hmeet :
      (Demand.draw (.page size)).meet c.device = .ok (Device.beginPage size c.device) := rfl
  have hcalls : c.putPage.calls = c.calls ++ [.page size] := by
    simp [Canvas.calls, Canvas.putPage, Canvas.note, size]
  obtain ⟨hcached, hfiles⟩ := meet_cached h.cached hmeet
  exact
    { pages := (Array.size_push _).trans (congrArg (· + 1) h.pages)
      font := h.font.imp_right (meet_hasFont hmeet)
      genuine := h.genuine.meet hmeet fun call key heq ↦ by
        obtain rfl := Demand.draw.inj heq
        intro hkey
        cases hkey
      names := hcalls ▸ beginPage_names size h.names
      cached := hcached
      files := hfiles.trans h.files }

theorem puts (h : Serves files past c) (hpage : 0 < c.pageCount) {ms : List (Mark Float)}
    (hms : ∀ m ∈ ms, ∀ font, m.font? = some font → c.device.Provides font.1) :
    Serves files (past ++ Demand.marks ms) (c.puts ms) := by
  induction ms generalizing past c with
  | nil => simpa [Demand.marks] using h
  | cons m ms ih =>
      have hmeet : (Demand.draw (.mark m)).meet c.device = .ok (Device.mark m c.device) := rfl
      have hcall : ∀ size, Call.mark m ≠ .page size := by simp
      have hput : Serves files (past ++ [.draw (.mark m)]) (c.put m) := by
        refine h.draw hpage hcall (fun key hkey ↦ ?_) hmeet
        obtain ⟨font, hfont, rfl⟩ := Option.map_eq_some_iff.mp hkey
        exact hms m List.mem_cons_self font hfont
      have hrest := ih hput hpage fun m' hm' font hfont ↦
        (hms m' (List.mem_cons_of_mem m hm') font hfont).imp_right (meet_hasFont hmeet)
      rwa [List.append_assoc] at hrest

/-- A canvas keeps a draft in order all along its course. -/
theorem course {ds : List (Demand Float)} (h : Course c ds d) (hc : Serves files past c) :
    Serves files (past ++ ds) d := by
  induction h generalizing past with
  | trans _ _ ih ih' => exact List.append_assoc _ _ _ ▸ ih' (ih hc)
  | @kept c d hkept =>
      rw [List.append_nil]
      refine hc.reset hkept.device hkept.history hkept.pageCount ?_
      rw [hkept.font]
      exact hc.font
  | setFont family style size c =>
      rw [List.append_nil]
      obtain ⟨hdevice, hhistory, hpages⟩ := Canvas.setFont_kept family style size c
      refine hc.reset hdevice hhistory hpages ((hasFont_iff_provides c _).mp ?_)
      rw [Canvas.setFont_key]
      exact c.chooseFont_hasFont family style
  | restore hcourse ih =>
      -- the font is that of before, and the draft still has every font it had
      exact (ih hc).reset rfl rfl rfl (meetAll_provides hcourse.meets hc.font)
  | serve hcall hmeet => exact hc.serve hcall hmeet
  | page c => exact hc.page
  | draw hpage hcall hfont hmeet =>
      refine hc.draw hpage hcall (fun key hkey ↦ ?_) hmeet
      rw [Call.key?, hfont] at hkey
      cases hkey
  | content cell justify width hpage =>
      refine hc.puts hpage fun m hm font hfont ↦ ?_
      rw [Canvas.font?_contentMarks hm hfont]
      exact hc.font

end Serves

/-! ## Documents -/

/-- The names of a document are one for each slot. -/
theorem map_fst_mapIdx {α β : Type} (xs : List α) (name : Nat → String) (f : α → β) :
    (xs.mapIdx fun i x ↦ (name i, f x)).map (·.1) = (List.range xs.length).map name := by
  apply List.ext_getElem
  · simp
  · intro i _ _
    simp

/-- The resources of a document are those its pages name: a font for each key and an image for each
path that was drawn, under a name of its own. -/
structure Resourced (files : Files) (demands : List (Demand Float)) (calls : List (Call Float))
    (doc : Document) : Prop where
  fontNames : (doc.fonts.map (·.1)).Nodup
  imageNames : (doc.images.map (·.1)).Nodup
  fontsListed : ∀ page ∈ doc.pages, ∀ name size,
    Operation.setFont name size ∈ page.operations → name ∈ doc.fonts.map (·.1)
  imagesListed : ∀ page ∈ doc.pages, ∀ name,
    Operation.drawResource name ∈ page.operations → name ∈ doc.images.map (·.1)
  /-- The operands of `Tf` are the keys of the texts under other names. -/
  fonts : ∃ name : FontKey → String,
    named Operation.font? doc.pages = (calls.filterMap Call.key?).map name ∧
    ∀ key ∈ calls.filterMap Call.key?, (∀ key', name key' = name key ↔ key' = key) ∧
      ∃ slot : FontSlot, slot.key = key ∧ slot.Genuine demands ∧
        doc.fonts.lookup (name key) = some slot.program.object
  /-- The operands of `Do` are the paths of the images under other names. -/
  images : ∃ name : Bool × List String → String,
    named Operation.image? doc.pages = (calls.filterMap Call.path?).map name ∧
    ∀ names ∈ calls.filterMap Call.path?, (∀ names', name names' = name names ↔ names' = names) ∧
      ∃ (path : String) (image : PagedReport.Image), FileTree.pathNames path = names ∧
        Image.load files path = .ok image ∧
        doc.images.lookup (name names) = some (imageObject image)

/-- A name for the slot of a key is for no other key. -/
theorem name_idxOf_inj {α : Type} [BEq α] [LawfulBEq α] {name : Nat → String}
    (hname : Function.Injective name) {slots : List α} {key : α} (hkey : key ∈ slots) (key' : α) :
    name (slots.idxOf key') = name (slots.idxOf key) ↔ key' = key := by
  rw [hname.eq_iff, eq_comm, List.idxOf_inj hkey, eq_comm]

theorem mem_map_fst_of_lookup {β : Type} {entries : List (String × β)} {name : String} {b : β}
    (h : entries.lookup name = some b) : name ∈ entries.map (·.1) := by
  obtain ⟨before, after, rfl, -⟩ := List.lookup_eq_some_iff.mp h
  simp

/-- The slot of a key is the entry of its name. -/
theorem lookup_fontName (d : Draft) (info : DocumentInfo) {key : FontKey}
    (hkey : key ∈ d.fontKeys) :
    ∃ slot ∈ d.fonts, slot.key = key ∧
      (d.document info).fonts.lookup (fontName (d.fontKeys.idxOf key)) =
        some slot.program.object := by
  have hget := List.getElem?_idxOf hkey
  rw [fontKeys, List.getElem?_map] at hget
  obtain ⟨slot, hslot, rfl⟩ := Option.map_eq_some_iff.mp hget
  rw [Array.getElem?_toList] at hslot
  refine ⟨slot, Array.mem_of_getElem? hslot, rfl, ?_⟩
  rw [(document_lookup info d _).1, resources_font]
  exact congrArg (Option.map fun slot ↦ slot.program.object) hslot

theorem lookup_imageName (d : Draft) (info : DocumentInfo) {names : Bool × List String}
    (hnames : names ∈ d.imageKeys) :
    ∃ slot ∈ d.images, FileTree.pathNames slot.path = names ∧
      (d.document info).images.lookup (imageName (d.imageKeys.idxOf names)) =
        some (imageObject slot.image) := by
  have hget := List.getElem?_idxOf hnames
  rw [imageKeys, List.getElem?_map] at hget
  obtain ⟨slot, hslot, rfl⟩ := Option.map_eq_some_iff.mp hget
  rw [Array.getElem?_toList] at hslot
  refine ⟨slot, Array.mem_of_getElem? hslot, rfl, ?_⟩
  rw [(document_lookup info d _).2, resources_image]
  exact congrArg (Option.map fun slot ↦ imageObject slot.image) hslot

theorem mem_named (kind : Operation → Option String) {pages : List Page} {page : Page}
    (hpage : page ∈ pages) {operation : Operation} (hoperation : operation ∈ page.operations)
    {name : String} (hname : kind operation = some name) : name ∈ named kind pages := by
  refine List.mem_flatMap.mpr ⟨page, hpage, List.mem_filterMap.mpr ⟨operation, ?_, hname⟩⟩
  exact Array.mem_toList_iff.mpr hoperation

theorem Serves.resourced {files : Files} {past : List (Demand Float)} {c : Canvas Float Draft}
    (h : Serves files past c) (info : DocumentInfo) :
    Resourced files past c.calls (c.device.document info) := by
  obtain ⟨hfonts, hkeys⟩ := h.names.fonts
  obtain ⟨himages, hpaths⟩ := h.names.images
  constructor
  · change ((c.device.fonts.toList.mapIdx fun i slot ↦ (fontName i, slot.program.object)).map
      (·.1)).Nodup
    rw [map_fst_mapIdx]
    exact List.nodup_range.map fontName_injective
  · change ((c.device.images.toList.mapIdx fun i slot ↦ (imageName i, imageObject slot.image)).map
      (·.1)).Nodup
    rw [map_fst_mapIdx]
    exact List.nodup_range.map imageName_injective
  · intro page hpage name size hoperation
    have hname := mem_named Operation.font? hpage hoperation rfl
    change name ∈ named Operation.font? c.device.pages.toList at hname
    rw [hfonts] at hname
    obtain ⟨key, hkey, rfl⟩ := List.mem_map.mp hname
    obtain ⟨slot, -, -, hlookup⟩ := lookup_fontName c.device info (hkeys key hkey)
    exact mem_map_fst_of_lookup hlookup
  · intro page hpage name hoperation
    have hname := mem_named Operation.image? hpage hoperation rfl
    change name ∈ named Operation.image? c.device.pages.toList at hname
    rw [himages] at hname
    obtain ⟨names, hnames, rfl⟩ := List.mem_map.mp hname
    obtain ⟨slot, -, -, hlookup⟩ := lookup_imageName c.device info (hpaths names hnames)
    exact mem_map_fst_of_lookup hlookup
  · refine ⟨_, hfonts, fun key hkey ↦ ⟨name_idxOf_inj fontName_injective (hkeys key hkey), ?_⟩⟩
    obtain ⟨slot, hslot, rfl, hlookup⟩ := lookup_fontName c.device info (hkeys key hkey)
    exact ⟨slot, rfl, h.genuine slot hslot, hlookup⟩
  · refine ⟨_, himages, fun names hnames ↦
      ⟨name_idxOf_inj imageName_injective (hpaths names hnames), ?_⟩⟩
    obtain ⟨slot, hslot, rfl, hlookup⟩ := lookup_imageName c.device info (hpaths names hnames)
    exact ⟨slot.path, slot.image, rfl, h.files ▸ h.cached slot hslot, hlookup⟩

/-! ## Runs -/

theorem operate_reaches (o : Canvas.Operation Float) (c : Canvas Float Draft) :
    Reaches c (c.operate o) := by
  cases o with
  | step s => exact .stepped s c
  | write sink =>
      have hclose : Reaches c c.close := .closed c
      unfold Canvas.operate Canvas.write
      dsimp only
      split
      · exact hclose
      · cases sink with
        | sound => exact hclose.andThen ⟨rfl, rfl, rfl, rfl, .of_eq rfl rfl⟩
        | broken reason => exact hclose

theorem operateAll_reaches (operations : List (Canvas.Operation Float)) (c : Canvas Float Draft) :
    Reaches c (c.operateAll operations) := by
  induction operations generalizing c with
  | nil => exact .refl c
  | cons o operations ih => exact (operate_reaches o c).trans (ih _)

theorem write_ok {c d : Canvas Float Draft} {sink : Sink} {doc : Document}
    (h : c.write sink = (d, .ok doc)) : d = c.close ∧ doc = d.device.document d.info := by
  unfold Canvas.write at h
  dsimp only at h
  split at h
  · cases h
  · cases sink with
    | sound =>
        obtain ⟨rfl, hdoc⟩ := Prod.mk.inj h
        exact ⟨rfl, (Except.ok.inj hdoc).symm⟩
    | broken reason => cases h

/-- A text is drawn when the draft has a font for its key. -/
theorem provides_of_course {files : Files} {past ds before after : List (Demand Float)}
    {c d : Canvas Float Draft} (h : Course c ds d) (hc : Serves files past c) {call : Call Float}
    {key : FontKey} (hds : ds = before ++ .draw call :: after) (hkey : call.key? = some key) :
    ∃ e : Draft, Demand.meetAll before c.device = .ok e ∧ e.Provides key := by
  obtain ⟨font, hfont, rfl⟩ := Option.map_eq_some_iff.mp hkey
  cases call with
  | page | image => cases hfont
  | mark m =>
      have htext : m.font? = some font := hfont
      obtain ⟨l, earlier, marks, rfl, hcourse, cell, justify, width, hm⟩ :=
        h.laidOut hds (by rw [htext]; rfl)
      have hl := hc.course hcourse
      obtain rfl := Canvas.font?_contentMarks hm htext
      have hmarks := Demand.meetAll_marks marks l.device
      exact ⟨_, Demand.meetAll_append.mpr ⟨_, hcourse.meets, hmarks⟩,
        meetAll_provides hmarks hl.font⟩

/-- Every name on the pages of a document is that of a resource, and of the right one.  There is a
font for the key in effect at all times, and for each text when it is drawn.  What is refused
leaves the slots as they were. -/
theorem resources_right (files : Files) (compress : Bool) (setup : PageSetup Float)
    (operations : List (Canvas.Operation Float)) (sink : Sink) {c : Canvas Float Draft}
    {doc : Document}
    (hwrite : ((Canvas.new ({ files, compress } : Draft) setup).operateAll operations).write sink =
      (c, .ok doc)) :
    (∃ demands : List (Demand Float),
      Demand.meetAll demands ({ files, compress } : Draft) = .ok c.device ∧
      c.calls = demands.filterMap Demand.call? ∧
      Resourced files demands c.calls doc ∧
      ∀ before call after key, demands = before ++ .draw call :: after → call.key? = some key →
        ∃ d : Draft, Demand.meetAll before { files, compress } = .ok d ∧ d.Provides key) ∧
    (∀ earlier, earlier <+: operations →
      let d := (Canvas.new ({ files, compress } : Draft) setup).operateAll earlier
      d.device.Provides d.graphics.font.key) ∧
    ∀ (hook' : Origin → Canvas Float Draft → Canvas Float Draft) (d : Canvas Float Draft),
      (∀ family style data failure,
        d.device.registerFont (.ofText family style) data = .error failure →
        Canvas.stepWith hook' (.registerFont family style data) d = d) ∧
      ∀ (s : Step Float) path failure, s.image? = some path →
        (Canvas.prepareWith hook' d).1.device.imageSize path = .error failure →
        (Canvas.stepWith hook' s d).device = (Canvas.prepareWith hook' d).1.device ∧
          (0 < d.pageCount → (Canvas.stepWith hook' s d).device = d.device) := by
  have hblank := Serves.blank files compress setup
  refine ⟨?_, fun earlier _ ↦ ?_, fun hook' d ↦ ⟨?_, ?_⟩⟩
  · obtain ⟨rfl, rfl⟩ := write_ok hwrite
    obtain ⟨demands, hcourse⟩ := (operateAll_reaches operations
      (Canvas.new ({ files, compress } : Draft) setup)).trans (.closed _)
    have hserves := hblank.course hcourse
    rw [List.nil_append] at hserves
    exact ⟨demands, hcourse.meets, hcourse.calls_eq, hserves.resourced _,
      fun before call after key ↦ provides_of_course hcourse hblank⟩
  · obtain ⟨ds, hcourse⟩ := operateAll_reaches earlier
      (Canvas.new ({ files, compress } : Draft) setup)
    exact (hblank.course hcourse).font
  · intro family style data failure hrefused
    exact Canvas.stepWith_unregistered hook' hrefused
  · intro s path failure hs hrefused
    have hdevice := Canvas.stepWith_unloaded hook' hs hrefused
    exact ⟨hdevice, fun hpage ↦ hdevice.trans (Canvas.prepareWith_device hook' hpage)⟩

/-- Two pages with texts in two fonts, after one was refused, and one picture by three spellings of
its path, two of which are the same path. -/
def scrapbook : List (Canvas.Operation Float) :=
  [ .step (.registerFont "garamond" "" .empty),
    .step (.setFont "garamond" "" 11),
    .step (.cell { width := 40, height := 6, text := "Dear Ada," }),
    .step (.image "pictures/dot.jpg" 20 40 10 10),
    .step (.setFont "times" "I" 12),
    .step .addPage,
    .step (.cell { width := 40, height := 6, text := "at the sea" }),
    .step (.image "pictures//dot.jpg" 20 40 10 10),
    .step (.setFont "helvetica" "" 12),
    .step (.cell { width := 40, height := 6, text := "Yours" }),
    .step (.image "./pictures/dot.jpg" 20 60 10 10) ]

theorem resources_right_scrapbook : ∃ (c : Canvas Float Draft) (doc : Document),
    ((Canvas.new ({ files := fun _ ↦ .ok dot } : Draft) default).operateAll scrapbook).write
      .sound = (c, .ok doc) ∧
    named Operation.font? doc.pages = ["F1", "F2", "F1"] ∧
    named Operation.image? doc.pages = ["Im1", "Im1", "Im2"] ∧
    ∃ demands, Resourced (fun _ ↦ .ok dot) demands c.calls doc := by
  have hnames : (((Canvas.new ({ files := fun _ ↦ .ok dot } : Draft) default).operateAll
      scrapbook).write .sound).2.toOption.map (fun doc ↦
        (named Operation.font? doc.pages, named Operation.image? doc.pages)) =
      some (["F1", "F2", "F1"], ["Im1", "Im1", "Im2"]) := by decide +kernel
  rcases hwrite : ((Canvas.new ({ files := fun _ ↦ .ok dot } : Draft) default).operateAll
      scrapbook).write .sound with ⟨c, failure | doc⟩
  · rw [hwrite] at hnames
    cases hnames
  · rw [hwrite] at hnames
    obtain ⟨hfonts, himages⟩ := Prod.mk.inj (Option.some.inj hnames)
    obtain ⟨⟨demands, -, -, hresourced, -⟩, -, -⟩ :=
      resources_right (fun _ ↦ .ok dot) false default scrapbook .sound hwrite
    exact ⟨c, doc, rfl, hfonts, himages, demands, hresourced⟩

end Draft

end Pdf

end PagedReport
