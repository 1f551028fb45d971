import PagedReport.Canvas.Recorder
import PagedReport.Proofs.Pdf.Agreement
import PagedReport.Proofs.Pdf.Blocks

/-!
# Pages show what was drawn

A recorder keeps the calls it receives and a draft turns them into operations.  Interpreted page by
page, the operations of a draft paint exactly what a recorder keeps for the same requests.
-/

namespace PagedReport

/-! ## Requests -/

/-- What a device without registered fonts is asked for. -/
inductive Request (K : Type) where
  | draw (call : Call K)
  | imageSize (path : String)

namespace Request

variable {K D Output : Type}

def call? : Request K → Option (Call K)
  | draw call => some call
  | imageSize _ => none

def path? : Request K → Option String
  | draw (.image path _) => some path
  | draw _ => none
  | imageSize path => some path

def serve [Device K D Output] : Request K → D → Except CanvasError D
  | draw (.page size), d => .ok (Device.beginPage size d)
  | draw (.mark m), d => .ok (Device.mark m d)
  | draw (.image path place), d => Device.image path place d
  | imageSize path, d => (Device.imageSize path d).map (·.2)

def serveAll [Device K D Output] (requests : List (Request K)) (d : D) : Except CanvasError D :=
  requests.foldlM (fun d r ↦ r.serve d) d

end Request

namespace Pdf

namespace Draft

/-! ## Drafts without registered fonts -/

/-- Every font is the standard font of its key, and every image is what its file holds. -/
structure Plain (d : Draft) : Prop where
  standard : ∀ slot ∈ d.fonts, slot.program = .standard (standardFont slot.key)
  cached : d.Cached

/-- The draft `e` has the pages of `d` and more resources. -/
structure Grown (d e : Draft) : Prop where
  files : e.files = d.files
  pages : e.pages = d.pages
  fonts : d.fonts.toList <+: e.fonts.toList
  images : d.images.toList <+: e.images.toList

theorem Grown.refl (d : Draft) : Grown d d := ⟨rfl, rfl, List.prefix_rfl, List.prefix_rfl⟩

theorem Grown.within {d e : Draft} (h : Grown d e) : d.resources.Within e.resources :=
  resources_within h.fonts h.images

theorem Grown.pageHeight {d e : Draft} (h : Grown d e) : e.pageHeight = d.pageHeight := by
  rw [Draft.pageHeight, h.pages, Draft.pageHeight]

theorem fontSlot_plain {d : Draft} (hd : d.Plain) (key : FontKey) :
    (d.fontSlot key).2.Plain ∧ Grown d (d.fontSlot key).2 ∧
      (d.fontSlot key).2.fonts[(d.fontSlot key).1]? = some ⟨key, .standard (standardFont key)⟩ := by
  unfold fontSlot
  cases hindex : d.fontIndex? key with
  | some index =>
      obtain ⟨hlt, hkey, -⟩ := Array.findIdx?_eq_some_iff_getElem.mp hindex
      have hprogram := hd.standard d.fonts[index] (Array.getElem_mem hlt)
      obtain rfl : d.fonts[index].key = key := by simpa using hkey
      refine ⟨hd, .refl d, ?_⟩
      rw [Array.getElem?_eq_getElem hlt, ← hprogram]
  | none =>
      refine ⟨⟨?_, hd.cached⟩, ⟨rfl, rfl, ?_, List.prefix_rfl⟩, Array.getElem?_push_size⟩
      · intro slot hslot
        rcases Array.mem_push.mp hslot with hold | rfl
        · exact hd.standard slot hold
        · rfl
      · rw [Array.toList_push]
        exact List.prefix_append _ _

theorem drawText_plain {d : Draft} (hd : d.Plain) (x baseline : Float) (text : String)
    (key : FontKey) (size : Float) (color : Color) :
    ∃ e index, e.Plain ∧ Grown d e ∧ e.fonts[index]? = some ⟨key, .standard (standardFont key)⟩ ∧
      d.drawText x baseline text key size color = e.add
        [.beginText, .setFillColor color.unit, .setFont (fontName index) size.toFloat32,
          .moveText x.toFloat32 (d.pageHeight - baseline).toFloat32,
          .showText (WinAnsi.encode text) false, .endText] := by
  obtain ⟨hplain, hgrown, hslot⟩ := fontSlot_plain hd key
  refine ⟨_, _, hplain, hgrown, hslot, ?_⟩
  obtain ⟨hlt, hget⟩ := Array.getElem?_eq_some_iff.mp hslot
  -- a standard font is the same after it was drawn with
  have hset : (d.fontSlot key).2.fonts.setIfInBounds (d.fontSlot key).1
      ⟨key, .standard (standardFont key)⟩ = (d.fontSlot key).2.fonts := by
    rw [Array.setIfInBounds, dif_pos hlt, ← hget, Array.set_getElem_self]
  simp only [drawText, hslot, FontProgram.encode, hset, hgrown.pageHeight]

theorem mark_block {d : Draft} (hd : d.Plain) (m : Mark Float) :
    ∃ e block p, e.Plain ∧ Grown d e ∧ draw m d = e.add block ∧ Paints e.resources block p ∧
      Shows d.files d.pageHeight (.mark m) p := by
  cases m with
  | text x baseline text key size color =>
      obtain ⟨e, index, hplain, hgrown, hslot, heq⟩ :=
        drawText_plain hd x baseline text key size color
      refine ⟨e, _, _, hplain, hgrown, heq, paints_text ?_ _ _ _ _ _ _, .text⟩
      rw [resources_font, hslot]
  | line x₁ y₁ x₂ y₂ p =>
      refine ⟨d, _, _, hd, .refl d, rfl, ?_, .line⟩
      have hfirst : (Segment.moveAt (x₁, d.pageHeight - y₁)).begins = true := rfl
      exact paints_shape hfirst [.lineAt (x₂, d.pageHeight - y₂)] .stroke p.fill.unit p.stroke.unit
        p.lineWidth.toFloat32
  | rect r radius painting p =>
      refine ⟨d, _, _, hd, .refl d, rfl, ?_, .rect⟩
      obtain ⟨first, path, houtline, hfirst⟩ := outline_begins d.pageHeight r radius
      have hpaints : Paints d.resources _ _ :=
        paints_shape hfirst path painting p.fill.unit p.stroke.unit p.lineWidth.toFloat32
      rw [← houtline, outline_operations] at hpaints
      exact hpaints

/-- The slot of an image that loads. -/
theorem imageSlot_plain {d : Draft} (hd : d.Plain) {path : String} {image : PagedReport.Image}
    (hload : Image.load d.files path = .ok image) :
    ∃ index found e slot, d.imageSlot path = .ok (index, found, e) ∧ e.Plain ∧ Grown d e ∧
      e.images[index]? = some slot ∧ FileTree.pathNames slot.path = FileTree.pathNames path := by
  unfold imageSlot
  dsimp only
  split
  · next index slot hindex hslot =>
      obtain ⟨hlt, hpath, -⟩ := Array.findIdx?_eq_some_iff_getElem.mp hindex
      refine ⟨index, slot.image, d, d.images[index], rfl, hd, .refl d, ?_, by simpa using hpath⟩
      exact Array.getElem?_eq_getElem hlt
  · rw [hload]
    refine ⟨_, image, _, ⟨path, image⟩, rfl, ⟨hd.standard, ?_⟩, ⟨rfl, rfl, List.prefix_rfl, ?_⟩,
      Array.getElem?_push_size, rfl⟩
    · intro slot hslot
      rcases Array.mem_push.mp hslot with hold | rfl
      · exact hd.cached slot hold
      · exact hload
    · rw [Array.toList_push]
      exact List.prefix_append _ _

theorem image_block {d : Draft} (hd : d.Plain) {path : String} {image : PagedReport.Image}
    (hload : Image.load d.files path = .ok image) (place : Rect Float) :
    ∃ e block p, e.Plain ∧ Grown d e ∧ d.drawImage path place = .ok (e.add block) ∧
      Paints e.resources block p ∧ Shows d.files d.pageHeight (.image path place) p := by
  obtain ⟨index, found, e, slot, hslot, hplain, hgrown, hindex, hpath⟩ := imageSlot_plain hd hload
  have hfile : Image.load d.files slot.path = .ok slot.image := by
    rw [← hgrown.files]
    exact hplain.cached slot (Array.mem_of_getElem? hindex)
  have hname : e.resources.image (imageName index) = some slot := by rw [resources_image, hindex]
  refine ⟨e, _, _, hplain, hgrown, ?_, paints_image hname _ _ _ _, .image hpath hfile⟩
  rw [drawImage, hslot, ← hgrown.pageHeight]
  rfl

theorem imageSize_plain {d : Draft} (hd : d.Plain) {path : String} {image : PagedReport.Image}
    (hload : Image.load d.files path = .ok image) :
    ∃ pixels e, d.imageSize path = .ok (pixels, e) ∧ e.Plain ∧ Grown d e := by
  obtain ⟨index, found, e, slot, hslot, hplain, hgrown, -, -⟩ := imageSlot_plain hd hload
  refine ⟨(found.width, found.height), e, ?_, hplain, hgrown⟩
  rw [imageSize, hslot]
  rfl

/-! ## Pages -/

theorem forall₂_concat {α β : Type} {R : α → β → Prop} {xs : List α} {x : α} {zs : List β}
    (h : List.Forall₂ R (xs ++ [x]) zs) :
    ∃ ys y, zs = ys ++ [y] ∧ List.Forall₂ R xs ys ∧ R x y := by
  induction xs generalizing zs with
  | nil =>
      cases h with
      | cons hx hnil =>
          cases hnil
          exact ⟨[], _, rfl, .nil, hx⟩
  | cons a xs ih =>
      cases h with
      | cons ha hrest =>
          obtain ⟨ys, y, rfl, hxs, hx⟩ := ih hrest
          exact ⟨_ :: ys, y, rfl, .cons ha hxs, hx⟩

/-- A page is of the size asked for and its operations are blocks that each show one call. -/
def PageShows (d : Draft) (page : Page) (group : Size Float × List (Call Float)) : Prop :=
  page.width = group.1.width ∧ page.height = group.1.height ∧
    ∃ blocks : List (List Operation), page.operations.toList = blocks.flatten ∧
      List.Forall₂
        (fun block call ↦ ∃ p, Paints d.resources block p ∧ Shows d.files page.height call p)
        blocks group.2

theorem PageShows.grown {d e : Draft} (h : Grown d e) {page : Page}
    {group : Size Float × List (Call Float)} (hpage : PageShows d page group) :
    PageShows e page group := by
  obtain ⟨hwidth, hheight, blocks, hoperations, hblocks⟩ := hpage
  refine ⟨hwidth, hheight, blocks, hoperations, hblocks.imp ?_⟩
  rintro block call ⟨p, hpaints, hshows⟩
  exact ⟨p, hpaints.mono h.within, h.files ▸ hshows⟩

theorem PageShows.add {d : Draft} {page : Page} {size : Size Float} {calls : List (Call Float)}
    (h : PageShows d page (size, calls)) {block : List Operation} {call : Call Float} {p : Painted}
    (hpaints : Paints d.resources block p) (hshows : Shows d.files page.height call p) :
    PageShows d { page with operations := page.operations ++ block.toArray }
      (size, calls ++ [call]) := by
  obtain ⟨hwidth, hheight, blocks, hoperations, hblocks⟩ := h
  refine ⟨hwidth, hheight, blocks ++ [block], ?_, ?_⟩
  · simp [hoperations]
  · exact List.rel_append hblocks (.cons ⟨p, hpaints, hshows⟩ .nil)

/-- The calls of pages of sizes. -/
def ungrouped (groups : List (Size Float × List (Call Float))) : List (Call Float) :=
  groups.flatMap fun group ↦ .page group.1 :: group.2

/-- The pages of a draft show the calls that made it. -/
structure Faithful (d : Draft) (calls : List (Call Float)) : Prop where
  plain : d.Plain
  pages : ∃ groups, calls = ungrouped groups ∧
    (∀ group ∈ groups, ∀ call ∈ group.2, ∀ size, call ≠ .page size) ∧
    List.Forall₂ (PageShows d) d.pages.toList groups

namespace Faithful

variable {d e : Draft} {calls : List (Call Float)}

theorem grown (h : Faithful d calls) (hgrown : Grown d e) (hplain : e.Plain) :
    Faithful e calls := by
  obtain ⟨groups, hcalls, hplaces, hpages⟩ := h.pages
  refine ⟨hplain, groups, hcalls, hplaces, ?_⟩
  rw [hgrown.pages]
  exact hpages.imp fun page group hpage ↦ hpage.grown hgrown

theorem beginPage (h : Faithful d calls) (size : Size Float) :
    Faithful (Device.beginPage size d) (calls ++ [.page size]) := by
  obtain ⟨groups, hcalls, hplaces, hpages⟩ := h.pages
  refine ⟨⟨h.plain.standard, h.plain.cached⟩, groups ++ [(size, [])], ?_, ?_, ?_⟩
  · simp [ungrouped, hcalls]
  · intro group hgroup
    rcases List.mem_append.mp hgroup with hold | hnew
    · exact hplaces group hold
    · obtain rfl := List.mem_singleton.mp hnew
      nofun
  · have hnew : PageShows d ⟨size.width, size.height, #[]⟩ (size, []) := ⟨rfl, rfl, [], rfl, .nil⟩
    have hall := List.rel_append hpages (.cons hnew .nil)
    change List.Forall₂ (PageShows d) (d.pages.push ⟨size.width, size.height, #[]⟩).toList _
    rwa [Array.toList_push]

theorem block (h : Faithful d calls) (hgrown : Grown d e) (hplain : e.Plain)
    (hstarted : d.pages.toList ≠ []) {block : List Operation} {call : Call Float} {p : Painted}
    (hcall : ∀ size, call ≠ .page size) (hpaints : Paints e.resources block p)
    (hshows : Shows d.files d.pageHeight call p) : Faithful (e.add block) (calls ++ [call]) := by
  obtain ⟨-, groups, rfl, hplaces, hpages⟩ := h.grown hgrown hplain
  rw [← hgrown.pages] at hstarted
  -- operations go to the last page, so the call belongs to the last group
  obtain ⟨front, last, hlist⟩ := (List.eq_nil_or_concat' _).resolve_left hstarted
  rw [hlist] at hpages
  obtain ⟨firsts, group, rfl, hfront, hlast⟩ := forall₂_concat hpages
  have hheight : e.pageHeight = last.height := by
    rw [Draft.pageHeight, ← Array.getLast?_toList, hlist, List.getLast?_concat]
    rfl
  refine ⟨⟨hplain.standard, hplain.cached⟩, firsts ++ [(group.1, group.2 ++ [call])], ?_, ?_, ?_⟩
  · simp [ungrouped]
  · intro g hg c hc size
    rcases List.mem_append.mp hg with hold | hnew
    · exact hplaces g (List.mem_append_left _ hold) c hc size
    · obtain rfl := List.mem_singleton.mp hnew
      rcases List.mem_append.mp hc with hold | hnew
      · exact hplaces group (List.mem_append_right _ (List.mem_singleton_self _)) c hold size
      · obtain rfl := List.mem_singleton.mp hnew
        exact hcall size
  · rw [pages_add hlist]
    rw [← hgrown.pageHeight, hheight, ← hgrown.files] at hshows
    exact List.rel_append hfront (.cons (hlast.add hpaints hshows) .nil)

theorem serve (h : Faithful d calls) {r : Request Float}
    (hstarted : d.pages.toList ≠ [] ∨ ∃ size, r = .draw (.page size))
    (hload : ∀ path ∈ r.path?, ∃ image, Image.load d.files path = .ok image) :
    ∃ e, r.serve d = .ok e ∧ Faithful e (calls ++ r.call?.toList) ∧ e.files = d.files ∧
      e.pages.toList ≠ [] := by
  have started (hcall : ∀ size, r ≠ .draw (.page size)) : d.pages.toList ≠ [] := by
    rcases hstarted with hstarted | ⟨size, rfl⟩
    · exact hstarted
    · exact absurd rfl (hcall size)
  have keeps {e : Draft} {block : List Operation} (hgrown : Grown d e)
      (hpages : d.pages.toList ≠ []) : (e.add block).pages.toList ≠ [] := by
    rw [add, Array.toList_modify, hgrown.pages]
    simpa using hpages
  cases r with
  | draw call =>
      cases call with
      | page size =>
          refine ⟨_, rfl, h.beginPage size, rfl, ?_⟩
          change (d.pages.push _).toList ≠ []
          simp
      | mark m =>
          obtain ⟨e, block, p, hplain, hgrown, heq, hpaints, hshows⟩ := mark_block h.plain m
          have hcall : ∀ size, Call.mark m ≠ .page size := by simp
          have hpages := started (by simp)
          exact ⟨e.add block, congrArg Except.ok heq,
            h.block hgrown hplain hpages hcall hpaints hshows, hgrown.files, keeps hgrown hpages⟩
      | image path place =>
          obtain ⟨image, himage⟩ := hload path rfl
          obtain ⟨e, block, p, hplain, hgrown, heq, hpaints, hshows⟩ :=
            image_block h.plain himage place
          have hcall : ∀ size, Call.image path place ≠ .page size := by simp
          have hpages := started (by simp)
          exact ⟨e.add block, heq,
            h.block hgrown hplain hpages hcall hpaints hshows, hgrown.files, keeps hgrown hpages⟩
  | imageSize path =>
      obtain ⟨image, himage⟩ := hload path rfl
      obtain ⟨pixels, e, heq, hplain, hgrown⟩ := imageSize_plain h.plain himage
      refine ⟨e, ?_, ?_, hgrown.files, ?_⟩
      · change (d.imageSize path).map (·.2) = .ok e
        rw [heq]
        rfl
      · rw [Request.call?, Option.toList_none, List.append_nil]
        exact h.grown hgrown hplain
      · rw [hgrown.pages]
        exact started (by simp)

theorem serveAll {requests : List (Request Float)} (h : Faithful d calls)
    (hstarted : d.pages.toList ≠ [])
    (hload : ∀ r ∈ requests, ∀ path ∈ r.path?, ∃ image, Image.load d.files path = .ok image) :
    ∃ e, Request.serveAll requests d = .ok e ∧
      Faithful e (calls ++ requests.filterMap Request.call?) ∧ e.files = d.files := by
  induction requests generalizing d calls with
  | nil => exact ⟨d, rfl, by simpa using h, rfl⟩
  | cons r requests ih =>
      obtain ⟨e, hserve, hfaithful, hfiles, hpages⟩ :=
        h.serve (.inl hstarted) (hload r List.mem_cons_self)
      rw [← hfiles] at hload
      obtain ⟨f, hall, hrest, hfiles'⟩ :=
        ih hfaithful hpages fun r hr ↦ hload r (List.mem_cons_of_mem _ hr)
      refine ⟨f, ?_, ?_, hfiles'.trans hfiles⟩
      · rw [Request.serveAll, List.foldlM_cons, hserve]
        exact hall
      · rw [List.filterMap_eq_flatMap_toList] at hrest ⊢
        rwa [List.flatMap_cons, ← List.append_assoc]

end Faithful

end Draft

end Pdf

namespace Recorder

variable {K : Type} [Scalar K]

theorem serve_ok (r : Recorder K) {q : Request K}
    (hfiles : ∀ path ∈ q.path?, r.files.isFile path = true) :
    ∃ r', q.serve r = .ok r' ∧ r'.files = r.files ∧
      r'.calls.toList = r.calls.toList ++ q.call?.toList := by
  match q with
  | .draw (.page size) => exact ⟨_, rfl, rfl, Array.toList_push⟩
  | .draw (.mark m) => exact ⟨_, rfl, rfl, Array.toList_push⟩
  | .draw (.image path place) => exact ⟨_, rfl, rfl, Array.toList_push⟩
  | .imageSize path =>
      refine ⟨r, ?_, rfl, (List.append_nil _).symm⟩
      change (if r.files.isFile path then Except.ok ((100, 100), r)
        else .error (CanvasError.image path .fileMissing)).map (·.2) = .ok r
      rw [if_pos (hfiles path rfl)]
      rfl

theorem serveAll_ok {requests : List (Request K)} (r : Recorder K)
    (hfiles : ∀ q ∈ requests, ∀ path ∈ q.path?, r.files.isFile path = true) :
    ∃ r', Request.serveAll requests r = .ok r' ∧
      r'.calls.toList = r.calls.toList ++ requests.filterMap Request.call? := by
  induction requests generalizing r with
  | nil => exact ⟨r, rfl, by simp⟩
  | cons q requests ih =>
      obtain ⟨r', hserve, hsame, hcalls⟩ := r.serve_ok (hfiles q List.mem_cons_self)
      rw [← hsame] at hfiles
      obtain ⟨r'', hall, hrest⟩ := ih r' fun q hq ↦ hfiles q (List.mem_cons_of_mem _ hq)
      refine ⟨r'', ?_, ?_⟩
      · rw [Request.serveAll, List.foldlM_cons, hserve]
        exact hall
      · rw [hrest, hcalls, List.filterMap_eq_flatMap_toList, List.filterMap_eq_flatMap_toList,
          List.flatMap_cons, List.append_assoc]

end Recorder

namespace Pdf

/-! ## Refinement -/

/-- A page refines the calls for it. -/
structure PageRefines (d : Draft) (page : Page) (size : Size Float) (calls : List (Call Float)) :
    Prop where
  width : page.width = size.width
  height : page.height = size.height
  /-- Its operations paint exactly the calls, in order. -/
  painted : ∃ ps, interpret d.resources page.operations.toList = some ps ∧
    List.Forall₂ (Shows d.files page.height) calls ps
  /-- Each call has operations of its own that paint it the same from any graphics state. -/
  independent : ∃ blocks : List (List Operation), page.operations.toList = blocks.flatten ∧
    List.Forall₂ (fun block call ↦
      ∃ p, Paints d.resources block p ∧ Shows d.files page.height call p) blocks calls
  texts : Balanced Operation.isBeginText Operation.isEndText page.operations.toList
  states : Balanced Operation.isSave Operation.isRestore page.operations.toList

theorem Draft.PageShows.refines {d : Draft} {page : Page} {group : Size Float × List (Call Float)}
    (h : d.PageShows page group) : PageRefines d page group.1 group.2 := by
  obtain ⟨hwidth, hheight, blocks, hoperations, hblocks⟩ := h
  obtain ⟨ps, hpaints, hshows⟩ : ∃ ps, List.Forall₂ (Paints d.resources) blocks ps ∧
      List.Forall₂ (Shows d.files page.height) group.2 ps := by
    clear hoperations
    generalize group.2 = calls at hblocks ⊢
    induction hblocks with
    | nil => exact ⟨[], .nil, .nil⟩
    | cons hblock _ ih =>
        obtain ⟨p, hp, hs⟩ := hblock
        obtain ⟨ps, hps, hss⟩ := ih
        exact ⟨p :: ps, .cons hp hps, .cons hs hss⟩
  have hinterpret : interpret d.resources page.operations.toList = some ps := by
    rw [hoperations]
    exact interpret_blocks hpaints
  obtain ⟨htexts, hstates⟩ := balanced_of_interpret hinterpret
  exact ⟨hwidth, hheight, ⟨ps, hinterpret, hshows⟩, ⟨blocks, hoperations, hblocks⟩, htexts, hstates⟩

/-- The pages of a draft refine what a recorder records for the same requests. -/
theorem pages_refine_recorded {files : Files} (compress : Bool) {requests : List (Request Float)}
    (hpage : ∃ size, requests.head? = some (.draw (.page size)))
    (hload : ∀ r ∈ requests, ∀ path ∈ r.path?, ∃ image, Image.load files path = .ok image) :
    ∃ (d : Draft) (r : Recorder Float) (groups : List (Size Float × List (Call Float))),
      Request.serveAll requests ({ files, compress } : Draft) = .ok d ∧
        Request.serveAll requests ({ files } : Recorder Float) = .ok r ∧ d.files = files ∧
          r.calls.toList = requests.filterMap Request.call? ∧
            r.calls.toList = (groups.flatMap fun group ↦ .page group.1 :: group.2) ∧
              (∀ group ∈ groups, ∀ call ∈ group.2, ∀ size, call ≠ .page size) ∧
                List.Forall₂ (fun page group ↦ PageRefines d page group.1 group.2)
                  d.pages.toList groups := by
  obtain ⟨size, hhead⟩ := hpage
  obtain ⟨rest, rfl⟩ := List.head?_eq_some_iff.mp hhead
  have hplain : Draft.Plain ({ files, compress } : Draft) :=
    ⟨fun _ hslot ↦ absurd hslot (Array.not_mem_empty _),
      fun _ hslot ↦ absurd hslot (Array.not_mem_empty _)⟩
  have hblank : Draft.Faithful ({ files, compress } : Draft) [] := ⟨hplain, [], rfl, nofun, .nil⟩
  obtain ⟨d, hserve, hfaithful, hfiles, hpages⟩ :=
    hblank.serve (.inr ⟨size, rfl⟩) (hload _ List.mem_cons_self)
  have hrest : ∀ r ∈ rest, ∀ path ∈ r.path?, ∃ image, Image.load d.files path = .ok image := by
    intro r hr
    rw [hfiles]
    exact hload r (List.mem_cons_of_mem _ hr)
  obtain ⟨e, hall, ⟨-, groups, hcalls, hplaces, hgroups⟩, hfiles'⟩ :=
    hfaithful.serveAll hpages hrest
  have hreadable : ∀ q ∈ Request.draw (.page size) :: rest, ∀ path ∈ q.path?,
      files.isFile path = true := by
    intro q hq path hpath
    obtain ⟨image, himage⟩ := hload q hq path hpath
    unfold Image.load at himage
    unfold Files.isFile
    split at himage
    · cases himage
    · next hread => rw [hread]
  obtain ⟨r, hrecorded, hrecords⟩ := Recorder.serveAll_ok ({ files } : Recorder Float) hreadable
  refine ⟨e, r, groups, ?_, hrecorded, hfiles'.trans hfiles, hrecords, hrecords.trans hcalls,
    hplaces, hgroups.imp fun _ _ h ↦ h.refines⟩
  rw [Request.serveAll, List.foldlM_cons, hserve]
  exact hall

/-- The header of a gray JPEG file of one pixel. -/
def dot : ByteArray :=
  ⟨#[0xFF, 0xD8, 0xFF, 0xC0, 0x00, 0x08, 0x08, 0x00, 0x01, 0x00, 0x01, 0x01, 0xFF, 0xDA, 0x00,
    0x02]⟩

theorem load_dot (path : String) : ∃ image, Image.load (fun _ ↦ .ok dot) path = .ok image := by
  have hok : (Image.decode dot).isOk = true := by decide +kernel
  change ∃ image, Image.decode dot = .ok image
  cases hdecode : Image.decode dot with
  | ok image => exact ⟨image, rfl⟩
  | error e =>
      rw [hdecode] at hok
      cases hok

/-- Two pages: a text in a font without a name, a box with round corners, and an image twice. -/
def stationery : List (Request Float) :=
  [ .draw (.page ⟨612, 792⟩),
    .draw (.mark (.text 72 72 "Grüße" ⟨"garamond", .regular⟩ 11 .black)),
    .draw (.mark (.rect ⟨72, 90, 200, 40⟩ 6 .fillStroke ⟨.gray 240, .black, 0.5⟩)),
    .imageSize "dot.jpg",
    .draw (.page ⟨612, 792⟩),
    .draw (.image "./dot.jpg" ⟨72, 72, 10, 10⟩),
    .draw (.image "dot.jpg" ⟨92, 72, 10, 10⟩) ]

theorem pages_refine_recorded_stationery :
    (∃ size, stationery.head? = some (.draw (.page size))) ∧
      (∀ r ∈ stationery, ∀ path ∈ r.path?, ∃ image, Image.load (fun _ ↦ .ok dot) path = .ok image) ∧
      ∃ (d : Draft) (r : Recorder Float) (groups : List (Size Float × List (Call Float))),
        Request.serveAll stationery ({ files := fun _ ↦ .ok dot } : Draft) = .ok d ∧
          Request.serveAll stationery ({ files := fun _ ↦ .ok dot } : Recorder Float) = .ok r ∧
            r.calls.toList = (groups.flatMap fun group ↦ .page group.1 :: group.2) ∧
              List.Forall₂ (fun page group ↦ PageRefines d page group.1 group.2)
                d.pages.toList groups := by
  have hpage : ∃ size, stationery.head? = some (.draw (.page size)) := ⟨_, rfl⟩
  have hload : ∀ r ∈ stationery, ∀ path ∈ r.path?,
      ∃ image, Image.load (fun _ ↦ .ok dot) path = .ok image := fun _ _ path _ ↦ load_dot path
  obtain ⟨d, r, groups, hd, hr, -, -, hcalls, -, hpages⟩ := pages_refine_recorded false hpage hload
  exact ⟨hpage, hload, d, r, groups, hd, hr, hcalls, hpages⟩

end Pdf

end PagedReport
