import Mathlib.Data.List.Induction
import PagedReport.Proofs.Template.Decoders

/-!
# What is left of a template

A template says what its pruned form says.  The lists of a report hold one image of every child
element that is read, in the order these are written.
-/

namespace PagedReport

namespace Template

open Report

/-! ## Values of runs -/

/-- A decoder has a value in some run. -/
def Yields {α : Type} (d : Decoder α) (a : α) : Prop := ∃ ws, (d.run ws).1 = .ok a

namespace Yields

variable {α β : Type}

theorem of_result {d : Decoder α} {a : α} (h : result d = .ok a) : Yields d a := ⟨[], h⟩

theorem result {ss : List Slot} {d d' : Decoder α} {a : α} (h : Yields d a)
    (hd : Decode ss d d') : result d' = .ok a := by
  obtain ⟨ws, hrun⟩ := h
  have hagree := hd ws []
  rw [hrun] at hagree
  generalize hr : (d'.run []).1 = r at hagree
  cases hagree
  exact hr

theorem eq_of_pure {a b : α} (h : Yields (pure a) b) : a = b := by
  obtain ⟨ws, h⟩ := h
  exact Except.ok.inj h

theorem bind {d : Decoder α} {f : α → Decoder β} {b : β} (h : Yields (d >>= f) b) :
    ∃ a, Yields d a ∧ Yields (f a) b := by
  obtain ⟨ws, h⟩ := h
  rw [run_bind] at h
  rcases hd : d.run ws with ⟨a | a, more⟩
  · rw [hd] at h
    cases h
  · rw [hd] at h
    exact ⟨a, ⟨ws, by rw [hd]⟩, more, h⟩

theorem returns {d : Decoder α} {g : α → β} {b : β} (h : Yields (d >>= fun a ↦ pure (g a)) b) :
    ∃ a, Yields d a ∧ g a = b := by
  obtain ⟨a, hd, ha⟩ := h.bind
  exact ⟨a, hd, ha.eq_of_pure⟩

theorem map {d : Decoder α} {g : α → β} {b : β} (h : Yields (g <$> d) b) :
    ∃ a, Yields d a ∧ g a = b := by
  rw [map_eq_pure_bind] at h
  exact h.returns

theorem mapM {f : α → Decoder β} {as : List α} {bs : List β} (h : Yields (as.mapM f) bs) :
    List.Forall₂ (fun a b ↦ Yields (f a) b) as bs := by
  induction as generalizing bs with
  | nil =>
      obtain rfl := h.eq_of_pure
      exact .nil
  | cons a as ih =>
      rw [List.mapM_cons] at h
      obtain ⟨b, hb, h⟩ := h.bind
      obtain ⟨bs, hbs, rfl⟩ := h.returns
      exact .cons hb (ih hbs)

end Yields

/-- The child elements with one tag of the last child element with another. -/
def lastChildren (e : Xml.Element) (block tag : String) : List Xml.Element :=
  (e.named block).getLast?.elim [] (·.named tag)

/-- If only blocks with one tag set a list, that list comes from the last of these. -/
theorem Yields.lastChildren {α β : Type} {step : α → Xml.Element → Decoder α}
    {image : Xml.Element → β → Prop} (view : α → List β) (block tag : String)
    (hblock : ∀ {a c a'}, c.name = block → Yields (step a c) a' →
      List.Forall₂ image (c.named tag) (view a'))
    (hother : ∀ {a c a'}, c.name ≠ block → Yields (step a c) a' → view a' = view a)
    {e : Xml.Element} {a a' : α} (hempty : view a = []) (h : Yields (e.elements.foldlM step a) a') :
    List.Forall₂ image (lastChildren e block tag) (view a') := by
  rw [Template.lastChildren, Xml.Element.named]
  generalize e.elements = cs at h
  -- From the end: a block there has set the list, and any other child element leaves it.
  induction cs using List.reverseRecOn generalizing a' with
  | nil =>
      obtain rfl := h.eq_of_pure
      rw [hempty]
      exact .nil
  | append_singleton cs c ih =>
      rw [List.foldlM_append] at h
      obtain ⟨b, hb, h⟩ := h.bind
      obtain ⟨b', hc, rfl⟩ := h.returns
      by_cases hname : c.name = block
      · simpa [hname] using hblock hname hc
      · rw [hother hname hc]
        simpa [hname] using ih hb

/-! ## Images -/

/-- An element that a child element is read to, of the kind that its tag says. -/
structure ImageOf {C : Type} (known? : Xml.Element → Option (Decoder (Element C)))
    (tag : C → String) (c : Xml.Element) (el : Element C) : Prop where
  read : ∃ d, known? c = some d ∧ result d = .ok el
  kind : tag el.content = c.name

namespace Knows

section

variable {α : Type} {site : Site} {known? : Xml.Element → Option (Decoder α)}

theorem recognised (hknown : Knows site known?) (e : Xml.Element) :
    site.recognised e = e.elements.filter fun c ↦ (known? c).isSome := by
  refine List.filter_congr fun c _ ↦ ?_
  cases hc : site.child? c.name with
  | none =>
      rw [hknown.unknown hc]
      rfl
  | some s =>
      obtain ⟨d, -, hd, -⟩ := hknown.known (Site.mem_children hc) rfl rfl rfl
      rw [hd]
      rfl

theorem decode (hknown : Knows site known?) {c : Xml.Element} {d : Decoder α}
    (hd : known? c = some d) : ∃ ss, Decode ss d d := by
  cases hc : site.child? c.name with
  | none =>
      rw [hknown.unknown hc] at hd
      cases hd
  | some s =>
      obtain ⟨d₁, d₂, h₁, h₂, hdecode⟩ := hknown.known (Site.mem_children hc) rfl rfl rfl
      obtain rfl := Option.some.inj (h₁.symm.trans hd)
      obtain rfl := Option.some.inj (h₂.symm.trans hd)
      exact ⟨_, hdecode⟩

end

theorem images {C : Type} {site : Site} {known? : Xml.Element → Option (Decoder (Element C))}
    {tag : C → String} (hknown : Knows site known?)
    (hkind : ∀ {c d el}, known? c = some d → Yields d el → tag el.content = c.name)
    {e : Xml.Element} {els : List (Element C)} (h : Yields (Template.elements known? e) els) :
    List.Forall₂ (ImageOf known? tag) (site.recognised e) els := by
  rw [hknown.recognised]
  have hruns := Yields.mapM h
  clear h
  generalize e.elements = cs at hruns
  induction cs generalizing els with
  | nil =>
      cases hruns
      exact .nil
  | cons c cs ih =>
      cases hc : known? c with
      | none =>
          rw [List.filterMap_cons_none hc] at hruns
          rw [List.filter_cons_of_neg (by simp [hc])]
          exact ih hruns
      | some d =>
          rw [List.filterMap_cons_some hc] at hruns
          rw [List.filter_cons_of_pos (by simp [hc])]
          obtain - | ⟨hel, hels⟩ := hruns
          obtain ⟨ss, hd⟩ := hknown.decode hc
          exact .cons ⟨⟨d, hc, Yields.result hel hd⟩, hkind hc hel⟩ (ih hels)

end Knows

theorem Decodes.images {α : Type} {site : Site} {f : Xml.Element → Decoder α}
    (hf : Decodes site f) {cs : List Xml.Element} {as : List α} (h : Yields (cs.mapM f) as) :
    List.Forall₂ (fun c a ↦ result (f c) = .ok a) cs as :=
  h.mapM.imp fun _ _ ha ↦ ha.result (hf rfl)

/-! ## Kinds -/

theorem element_tag {B C : Type} {e : Xml.Element} {d : Decoder B} {g : B → C} {tag : C → String}
    {name : String} {el : Element C} (hname : e.name = name) (hg : ∀ b, tag (g b) = name)
    (h : Yields (element e (g <$> d)) el) : tag el.content = e.name := by
  obtain ⟨_, -, h⟩ := h.bind
  obtain ⟨content, hcontent, rfl⟩ := h.returns
  obtain ⟨b, -, rfl⟩ := hcontent.map
  rw [hg, hname]

theorem bandElement_tag {c : Xml.Element} {d : Decoder (Element BandContent)}
    {el : Element BandContent} (hd : bandElement? c = some d) (h : Yields d el) :
    el.content.tag = c.name := by
  unfold bandElement? at hd
  split at hd
  case h_4 => cases hd
  all_goals
    next hname =>
      cases hd
      exact element_tag hname (fun _ ↦ rfl) h

theorem sectionElement_tag {c : Xml.Element} {d : Decoder (Element Content)}
    {el : Element Content} (hd : sectionElement? c = some d) (h : Yields d el) :
    el.content.tag = c.name := by
  unfold sectionElement? at hd
  split at hd
  case h_5 hname =>
    cases hd
    rw [← h.eq_of_pure, hname]
    rfl
  case h_6 =>
    obtain ⟨d', hd', rfl⟩ := Option.map_eq_some_iff.mp hd
    obtain ⟨el', hel', rfl⟩ := h.map
    exact bandElement_tag hd' hel'
  all_goals
    next hname =>
      cases hd
      exact element_tag hname (fun _ ↦ rfl) h

/-! ## Lists -/

theorem table_columns {e : Xml.Element} {t : Table} (h : Yields (table e) t) :
    List.Forall₂ (fun c col ↦ result (column c) = .ok col) (lastChildren e "columns" "column")
      t.columns := by
  obtain ⟨border, -, h⟩ := h.bind
  refine Yields.lastChildren Table.columns "columns" "column" ?_ ?_ rfl h
  · intro t c t' hname hstep
    unfold tablePart at hstep
    rw [hname] at hstep
    obtain ⟨columns, hcolumns, rfl⟩ := hstep.returns
    exact column_decodes.images hcolumns
  · intro t c t' hname hstep
    unfold tablePart at hstep
    split at hstep
    · obtain ⟨_, -, rfl⟩ := hstep.returns
      rfl
    · contradiction
    · rw [hstep.eq_of_pure]

theorem keyValues_entries {e : Xml.Element} {l : KeyValues} (h : Yields (keyValues e) l) :
    l.entries = (e.named "item").map entry := by
  obtain ⟨_, -, h⟩ := h.bind
  obtain ⟨_, -, h⟩ := h.bind
  obtain ⟨_, -, rfl⟩ := h.returns
  rfl

/-- What a block does to the lists of a report. -/
theorem block_lists {r r' : Report} {c : Xml.Element} (h : Yields (block r c) r') :
    (r'.fonts = if c.name = "fonts" then (c.named "font").map fontFile else r.fonts) ∧
      (if c.name = "styles" then Yields ((c.named "style").mapM style) r'.styles
        else r'.styles = r.styles) ∧
      if c.name = "sections" then Yields ((c.named "section").mapM sectionBlock) r'.sections
        else r'.sections = r.sections := by
  unfold block at h
  split at h
  case h_1 hname =>
    obtain rfl := h.eq_of_pure
    simp [hname]
  case h_2 hname =>
    obtain ⟨_, -, rfl⟩ := h.returns
    simp [hname]
  case h_3 hname =>
    obtain rfl := h.eq_of_pure
    simp [hname]
  case h_4 hname =>
    obtain ⟨styles, hstyles, rfl⟩ := h.returns
    simpa [hname] using hstyles
  case h_5 hname =>
    obtain ⟨_, -, rfl⟩ := h.returns
    simp [hname]
  case h_6 hname =>
    obtain ⟨_, -, rfl⟩ := h.returns
    simp [hname]
  case h_7 hname =>
    obtain ⟨sections, hsections, rfl⟩ := h.returns
    simpa [hname] using hsections
  case h_8 =>
    obtain rfl := h.eq_of_pure
    simp_all

theorem report_fonts {root : Xml.Element} {r : Report} (h : Yields (report root) r) :
    r.fonts = (lastChildren root "fonts" "font").map fontFile := by
  have himages : List.Forall₂ (fun c file ↦ fontFile c = file)
      (lastChildren root "fonts" "font") r.fonts := by
    refine Yields.lastChildren Report.fonts "fonts" "font" ?_ ?_ rfl h
    · intro r c r' hname hstep
      rw [(block_lists hstep).1, if_pos hname, List.forall₂_map_right_iff]
      exact List.forall₂_same.mpr fun _ _ ↦ rfl
    · intro r c r' hname hstep
      rw [(block_lists hstep).1, if_neg hname]
  rw [← List.forall₂_map_left_iff, List.forall₂_eq_eq_eq] at himages
  exact himages.symm

theorem report_styles {root : Xml.Element} {r : Report} (h : Yields (report root) r) :
    List.Forall₂ (fun c s ↦ result (style c) = .ok s) (lastChildren root "styles" "style")
      r.styles := by
  refine Yields.lastChildren Report.styles "styles" "style" ?_ ?_ rfl h
  · intro r c r' hname hstep
    obtain ⟨-, hstyles, -⟩ := block_lists hstep
    rw [if_pos hname] at hstyles
    exact style_decodes.images hstyles
  · intro r c r' hname hstep
    obtain ⟨-, hstyles, -⟩ := block_lists hstep
    rwa [if_neg hname] at hstyles

theorem report_sections {root : Xml.Element} {r : Report} (h : Yields (report root) r) :
    List.Forall₂ (fun c s ↦ result (sectionBlock c) = .ok s)
      (lastChildren root "sections" "section") r.sections := by
  refine Yields.lastChildren Report.sections "sections" "section" ?_ ?_ rfl h
  · intro r c r' hname hstep
    obtain ⟨-, -, hsections⟩ := block_lists hstep
    rw [if_pos hname] at hsections
    exact sectionBlock_decodes.images hsections
  · intro r c r' hname hstep
    obtain ⟨-, -, hsections⟩ := block_lists hstep
    rwa [if_neg hname] at hsections

/-! ## Pruned templates -/

/-- One value, or errors that differ in nothing but their places. -/
inductive SameResult {α : Type} : Except ValueError α → Except ValueError α → Prop
  | ok (a : α) : SameResult (.ok a) (.ok a)
  | error {x y : ValueError} : x.Same y → SameResult (.error x) (.error y)

theorem Decodes.sameResult {α : Type} {site : Site} {f : Xml.Element → Decoder α}
    (hf : Decodes site f) {e e' : Xml.Element} (h : outline site e = outline site e') :
    SameResult (result (f e)) (result (f e')) := by
  have hagree : Agree (slots site e) (result (f e)) (result (f e')) := hf h [] []
  revert hagree
  generalize result (f e) = r, result (f e') = r'
  rintro (⟨a, -⟩ | ⟨hsame, -, -⟩)
  · exact .ok a
  · exact .error hsame

/-- A report is what the pruned template says.  Every list in it has one image of each child element
that is read, in order: of the children of a section, band or key-value list, and of those of the
last block of columns, fonts, styles or sections. -/
theorem pruned_report (root : Xml.Element) :
    SameResult (result (report root)) (result (report (pruned .report root))) ∧
      (∀ e s, result (sectionBlock e) = .ok s →
        List.Forall₂ (ImageOf sectionElement? Content.tag) (Site.sectionBlock.recognised e)
          s.elements) ∧
      (∀ e b, result (band e) = .ok b →
        List.Forall₂ (ImageOf bandElement? BandContent.tag) (Site.band.recognised e) b.elements) ∧
      (∀ e t, result (table e) = .ok t →
        List.Forall₂ (fun c col ↦ result (column c) = .ok col)
          (lastChildren e "columns" "column") t.columns) ∧
      (∀ e l, result (keyValues e) = .ok l → l.entries = (e.named "item").map entry) ∧
      ∀ r, result (report root) = .ok r →
        r.fonts = (lastChildren root "fonts" "font").map fontFile ∧
          List.Forall₂ (fun c s ↦ result (style c) = .ok s) (lastChildren root "styles" "style")
            r.styles ∧
          List.Forall₂ (fun c s ↦ result (sectionBlock c) = .ok s)
            (lastChildren root "sections" "section") r.sections := by
  refine ⟨report_decodes.sameResult (outline_pruned .report root).symm, fun e s hs ↦ ?_,
    fun e b hb ↦ ?_, fun e t ht ↦ ?_, fun e l hl ↦ ?_, fun r hr ↦ ?_⟩
  · obtain ⟨_, -, h⟩ := (Yields.of_result hs).bind
    obtain ⟨_, -, h⟩ := h.bind
    obtain ⟨els, hels, rfl⟩ := h.returns
    exact sectionElement_knows.images sectionElement_tag hels
  · obtain ⟨_, -, h⟩ := (Yields.of_result hb).bind
    obtain ⟨els, hels, h⟩ := h.bind
    obtain ⟨_, -, rfl⟩ := h.returns
    exact bandElement_knows.images bandElement_tag hels
  · exact table_columns (.of_result ht)
  · exact keyValues_entries (.of_result hl)
  · exact ⟨report_fonts (.of_result hr), report_styles (.of_result hr),
      report_sections (.of_result hr)⟩

end Template

end PagedReport
