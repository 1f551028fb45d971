import PagedReport.Proofs.Canvas.Twins
import PagedReport.Proofs.Layout.Success

/-!
# A report with and without its bands

Drawing a report is compared with drawing it without header and footer: if both succeed they have
drawn the same body on the same pages.
-/

namespace PagedReport

open Report Canvas

/-! ## Line feeds follow cells -/

theorem Shows.fed {steps : List (Step Float)} {text : List Char}
    (h : Shows Step.Measured steps text) : Fed false steps :=
  Fed.of_forall fun s hs ↦ (h.all s hs).ne

/-- A table that has columns. -/
def Report.Content.Columned : Content → Prop
  | .table t => t.columns ≠ []
  | _ => True

theorem tableHeader_fed (ctx : Context) {t : Table} (ht : t.columns ≠ []) :
    Fed false (Layout.tableHeader ctx t) := by
  unfold Layout.tableHeader
  rw [List.append_assoc]
  exact (use_shows _ _).fed.append (Fed.cells _ (.inr ht))

theorem tableRowOf_fed (ctx : Context) {t : Table} (ht : t.columns ≠ []) (index : Nat)
    (row : Value) : Fed false (Layout.tableRowOf ctx t index row) := by
  unfold Layout.tableRowOf
  refine (use_shows _ _).fed.append ?_
  cases row with
  | object record =>
      dsimp only
      rw [List.append_assoc]
      exact (Shows.option (fun _ ↦ by exact ⟨trivial, rfl⟩) _).fed.append (Fed.cells _ (.inr ht))
  | _ => trivial

theorem table_fed (ctx : Context) {t : Table} (ht : t.columns ≠ []) (spacing : Float) :
    Fed false (Layout.table ctx t spacing) := by
  have hrows : ∀ (rows : List Value) (f : Nat → Value → List (Step Float)),
      (∀ index row, Fed false (f index row)) → Fed false (rows.mapIdx f).flatten := by
    intro rows
    induction rows with
    | nil => exact fun _ _ ↦ trivial
    | cons row rows ih =>
        intro f hf
        rw [List.mapIdx_cons, List.flatten_cons]
        exact (hf 0 row).append (ih _ fun index ↦ hf (index + 1))
  unfold Layout.table
  refine (tableHeader_fed ctx ht).append ?_
  split
  · exact (hrows _ _ (tableRowOf_fed ctx ht)).append (space_shows spacing).fed
  · exact Fed.of_forall (by simp)
  · exact Fed.of_forall (by simp)

theorem element_fed (ctx : Context) (e : Element Content) (he : e.content.Columned) :
    Fed false (Layout.element ctx e) := by
  obtain ⟨condition, spacing, content⟩ := e
  cases content with
  | band b =>
      cases b with
      | image i => exact Fed.of_forall (by simp [Layout.element, Layout.bandElement, Layout.image])
      | text t => exact (text_shows ctx t spacing).fed
      | rule r => exact (rule_shows ctx r).fed
  | table t => exact table_fed ctx he spacing
  | list l => exact (bulletList_shows ctx l spacing).fed
  | keyValues l => exact (keyValues_shows ctx l spacing).fed
  | box b => exact (box_shows ctx b spacing).fed
  | pageBreak => exact Fed.of_forall (by simp [Layout.element])

/-- A report without its bands. -/
def Report.unbanded (r : Report) : Report := { r with header := none, footer := none }

namespace Session

variable {D Output : Type} [Device Float D Output] {R : D → D → Prop}

/-! ## Sections -/

theorem drawElements_twin (hR : Agreement R) {ctx : Context} {sectionName : String} {index : Nat}
    {elements : List (Element Content)} (helements : ∀ e ∈ elements, e.content.Columned)
    {c d c' d' : Canvas Float D} (h : Twin R c d)
    (hc : drawElements ctx sectionName index elements c = (c', .ok ()))
    (hd : drawElements ctx sectionName index elements d = (d', .ok ())) : Twin R c' d' := by
  induction elements generalizing index c d with
  | nil =>
      obtain ⟨rfl, -⟩ := Prod.mk.inj hc
      obtain ⟨rfl, -⟩ := Prod.mk.inj hd
      exact h
  | cons e elements ih =>
      rw [drawElements] at hc hd
      split at hc
      · cases hc
      · next hcheck =>
          split at hd
          · cases hd
          · next hcheck' =>
              have hfed := element_fed ctx e (helements e List.mem_cons_self)
              have hrun := h.run hR (element_shows ctx e).all hfed
                (fun hfresh ↦ absurd hfresh Bool.false_ne_true)
                (check_eq_ok.mp hcheck) (check_eq_ok.mp hcheck')
              exact ih (fun f hf ↦ helements f (List.mem_cons_of_mem e hf)) hrun hc hd

/-- Two sessions of one report that have come equally far. -/
structure TwinSession (R : D → D → Prop) (s t : Session D) : Prop where
  canvas : Twin R s.canvas t.canvas
  context : t.context = s.context
  started : t.started = s.started

theorem opened_twin (hR : Agreement R) {s t : Session D} (h : TwinSession R s t)
    {part : Section} (hs : (s.opened part).error = none) (ht : (t.opened part).error = none) :
    Twin R (s.opened part) (t.opened part) := by
  have hs' := (opened_draws s part h.canvas.sound).error_eq_none hs
  have ht' := (opened_draws t part h.canvas.sound_right).error_eq_none ht
  have hstarts : t.startsPage part = s.startsPage part := by rw [startsPage, startsPage, h.started]
  unfold opened
  rw [hstarts]
  split
  · exact h.canvas.addPage hR hs' ht'
  · exact h.canvas

theorem drawSection_twin (hR : Agreement R) {part : Section}
    (hpart : ∀ e ∈ part.elements, e.content.Columned) {s t s' t' : Session D}
    (h : TwinSession R s t) (hs : s.drawSection part = (s', .ok ()))
    (ht : t.drawSection part = (t', .ok ())) : TwinSession R s' t' := by
  obtain ⟨hopened, d, helements, hlast, rfl⟩ := drawSection_ok hs
  obtain ⟨hopened', d', helements', hlast', rfl⟩ := drawSection_ok ht
  have hpage := opened_twin hR h hopened hopened'
  rw [h.context] at helements'
  have hdrawn := drawElements_twin hR hpart hpage helements helements'
  refine ⟨?_, h.context, rfl⟩
  dsimp only
  split
  · next hafter =>
      exact hdrawn.addPage hR (addPage_error hdrawn.sound (hlast hafter))
        (addPage_error hdrawn.sound_right (hlast' hafter))
  · exact hdrawn

theorem drawSections_twin (hR : Agreement R) {parts : List Section}
    (hparts : ∀ part ∈ parts, ∀ e ∈ part.elements, e.content.Columned) {s t s' t' : Session D}
    (h : TwinSession R s t) (hs : drawSections parts s = (s', .ok ()))
    (ht : drawSections parts t = (t', .ok ())) : TwinSession R s' t' := by
  induction parts generalizing s t with
  | nil =>
      obtain ⟨rfl, -⟩ := Prod.mk.inj hs
      obtain ⟨rfl, -⟩ := Prod.mk.inj ht
      exact h
  | cons part parts ih =>
      rw [drawSections] at hs ht
      split at hs
      · cases hs
      · next hpart =>
          split at ht
          · cases ht
          · next hpart' =>
              have hfirst := drawSection_twin hR (hparts part List.mem_cons_self) h hpart hpart'
              exact ih (fun p hp ↦ hparts p (List.mem_cons_of_mem part hp)) hfirst hs ht

/-! ## Whole reports -/

/-- Bands are all that the canvas of a report has more than the one without them. -/
theorem start_unbanded (files : Files) (r : Report) (ctx : Context) (c : Canvas Float D) :
    ∃ decorator, (start files r ctx c).canvas =
      { (start files r.unbanded ctx c).canvas with decorator } := by
  unfold start setupSteps Layout.bands
  dsimp only
  split
  · exact ⟨_, rfl⟩
  · exact ⟨_, rfl⟩

theorem start_twin (hR : Agreement R) (files : Files) (r : Report) (ctx : Context) {device : D}
    (hdevice : R device device) (setup : PageSetup Float) :
    TwinSession R (start files r ctx (.new device setup))
      (start files r.unbanded ctx (.new device setup)) := by
  obtain ⟨hunused, -⟩ := start_unused files r ctx device setup
  obtain ⟨hunused', -⟩ := start_unused files r.unbanded ctx device setup
  obtain ⟨decorator, heq⟩ := start_unbanded files r ctx (.new device setup)
  have hfonts : R (start files r.unbanded ctx (.new device setup)).canvas.device
      (start files r.unbanded ctx (.new device setup)).canvas.device :=
    start_device (P := fun d ↦ R d d) hR.registerFont files r.unbanded ctx hdevice setup
  refine ⟨⟨hunused.sound, hunused'.sound.plain, ?_, ?_, ?_, ?_, ?_, ?_⟩, rfl, rfl⟩
  · rw [heq]; rfl
  · rw [heq]
  · rw [heq]
  · rw [heq]
  · rw [heq]; exact hfonts
  · rw [heq]; rfl

/-- If a report is drawn with its bands and without them, the body is the same. -/
theorem draw_twin (hR : Agreement R) (files : Files) {r : Report}
    (hr : ∀ part ∈ r.sections, ∀ e ∈ part.elements, e.content.Columned) (ctx : Context) {device : D}
    (hdevice : R device device) (setup : PageSetup Float) {c d : Canvas Float D}
    (hc : draw files r ctx (.new device setup) = (c, .ok ()))
    (hd : draw files r.unbanded ctx (.new device setup) = (d, .ok ())) :
    d.bodyCalls = c.bodyCalls ∧ d.pageCount = c.pageCount := by
  unfold draw at hc hd
  split at hc
  · cases hc
  · next s hsections =>
      split at hd
      · cases hd
      · next t hsections' =>
          obtain ⟨rfl, hclose⟩ := Prod.mk.inj hc
          obtain ⟨rfl, hclose'⟩ := Prod.mk.inj hd
          have htwin := drawSections_twin hR hr (start_twin hR files r ctx hdevice setup) hsections
            hsections'
          exact htwin.canvas.close hR (check_eq_ok.mp hclose) (check_eq_ok.mp hclose')

end Session

end PagedReport
