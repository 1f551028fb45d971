import PagedReport.Proofs.Canvas.Asides
import PagedReport.Proofs.Canvas.Pages

/-!
# What bands look like

The body shares its graphics state with the bands, and a band that does not set a font, a colour or
a line width of its own is drawn with what the body has left.  Nothing else of the body shows in
it: under one graphics state a band is the same on every page.
-/

namespace PagedReport

open Canvas

variable {K D Output : Type}

/-- Bands that only draw, of which the footer starts at a height of its own, and which ask for no
height of a cell but their own. -/
structure Decorator.Placed (d : Decorator K) : Prop where
  plain : d.Plain
  header_fed : Fed false d.header
  footer_fed : Fed false d.footer
  footer_start : d.footer = [] ∨ ∃ y rest, d.footer = .setY y :: rest

namespace Canvas

variable {R : D → D → Prop}

/-! ## One band -/

variable (R) in
/-- A canvas that comes of drawing on another. -/
structure Continues (b c : Canvas K D) : Prop where
  frame : c.frame = { b.frame with pageCount := c.pageCount }
  device : ∀ e, R b.device e → R c.device e

theorem Continues.decorator {b c : Canvas K D} (hc : Continues R b c) :
    c.decorator = b.decorator :=
  congrArg Frame.decorator hc.frame

variable [Device K D Output]

theorem asides_twin (hR : Agreement R) {b c d : Canvas K D} (hb : b.frame.Sound)
    (hdevice : R b.device b.device) (hc : Continues R b c) (hd : Continues R b d)
    (hx : d.x = c.x) (hy : d.y = c.y) (hg : d.graphics = c.graphics) : Twin R c.aside d.aside where
  sound := (aside_endless (hb.of_eq hc.frame).isOpen).sound
  plain := nofun
  frame := by
    have hframe : d.frame = { c.frame with pageCount := d.pageCount } := by rw [hd.frame, hc.frame]
    exact congrArg (fun f : Frame K ↦ { f with
      autoBreak := false, pageCount := 1, decorator := none, origin := .body }) hframe
  x := hx
  y := hy
  graphics := hg
  device := hc.device _ (hR.symm (hd.device _ hdevice))
  body := rfl

variable [Scalar K]

variable (R) in
/-- The calls of a band that is drawn once, completely, under a graphics state, on some page that
comes of drawing on a canvas. -/
def BandUnder (b : Canvas K D) (band : Origin) (g : Graphics K) (calls : List (Call K)) : Prop :=
  ∃ c : Canvas K D, Continues R b c ∧ c.pageCount ≠ 0 ∧ c.graphics = g ∧
    (band = .header → c.x = c.margins.left ∧ c.y = c.margins.top) ∧
    (c.drawBand band).error = none ∧
    (c.drawBand band).history.toList = c.history.toList ++ on band calls

variable {b c d : Canvas K D} {g : Graphics K} {band : Origin} {calls calls' : List (Call K)}

/-- Without bands nothing is drawn. -/
theorem BandUnder.eq_nil (h : BandUnder R b band g calls) (hnone : b.decorator = none) :
    calls = [] := by
  obtain ⟨c, hc, -, -, -, -, hcalls⟩ := h
  have hbands : c.decorator = none := hc.decorator.trans hnone
  rw [drawBand_of_nil (by simp [hbands]), List.self_eq_append_right] at hcalls
  exact List.map_eq_nil_iff.mp hcalls

/-- The calls of a band are those that its steps make aside. -/
theorem BandUnder.exists_aside (hb : b.frame.Sound) {bands : Decorator K}
    (hbands : b.decorator = some bands) (hband : band ≠ .body)
    (h : BandUnder R b band g calls) : ∃ c : Canvas K D, Continues R b c ∧ c.graphics = g ∧
      (band = .header → c.x = c.margins.left ∧ c.y = c.margins.top) ∧
      (c.aside.run (bandSteps bands band)).error = none ∧
      (c.aside.run (bandSteps bands band)).bodyCalls = calls := by
  obtain ⟨c, hc, hpage, hg, hhome, he, hcalls⟩ := h
  obtain ⟨herror, hhistory⟩ :=
    drawBand_aside (hb.of_eq hc.frame) hpage (hc.decorator.trans hbands) hband
  have hon : on band (c.aside.run (bandSteps bands band)).bodyCalls = on band calls :=
    List.append_cancel_left (hhistory.symm.trans hcalls)
  exact ⟨c, hc, hg, hhome, herror.symm.trans he,
    (List.map_inj_right fun _ _ hpair ↦ (Prod.mk.inj hpair).2).mp hon⟩

theorem Continues.setY (hc : Continues R b c) (y : K) : Continues R b (c.setY y) :=
  ⟨hc.frame, hc.device⟩

/-- Under one graphics state a band makes the same calls on every page. -/
theorem BandUnder.unique (hR : Agreement R) (hb : b.frame.Sound) (hdevice : R b.device b.device)
    (hplaced : ∀ bands, b.decorator = some bands → bands.Placed) (hband : band ≠ .body)
    (h : BandUnder R b band g calls) (h' : BandUnder R b band g calls') : calls = calls' := by
  obtain hnone | ⟨bands, hbands⟩ := Option.eq_none_or_eq_some b.decorator
  · rw [h.eq_nil hnone, h'.eq_nil hnone]
  obtain ⟨c, hc, rfl, hhome, he, rfl⟩ := h.exists_aside hb hbands hband
  obtain ⟨d, hd, hg, hhome', he', rfl⟩ := h'.exists_aside hb hbands hband
  obtain ⟨hplain, hfed, hfed', hstart⟩ := hplaced bands hbands
  have hmargins : d.margins = c.margins :=
    (congrArg Frame.margins hd.frame).trans (congrArg Frame.margins hc.frame).symm
  have hsize : d.pageSize = c.pageSize :=
    (congrArg Frame.pageSize hd.frame).trans (congrArg Frame.pageSize hc.frame).symm
  cases band with
  | body => exact absurd rfl hband
  | header =>
      -- a header starts at home
      obtain ⟨hx, hy⟩ := hhome rfl
      obtain ⟨hx', hy'⟩ := hhome' rfl
      have htwin : Twin R c.aside d.aside := asides_twin hR hb hdevice hc hd
        (by rw [hx, hx', hmargins]) (by rw [hy, hy', hmargins]) hg
      exact (htwin.run hR (fun s hs ↦ .inl (hplain.header s hs)) hfed nofun he he').body.symm
  | footer =>
      -- a footer goes to its place, wherever the body has ended
      change (c.aside.run bands.footer).error = none at he
      change (d.aside.run bands.footer).error = none at he'
      change (c.aside.run bands.footer).bodyCalls = (d.aside.run bands.footer).bodyCalls
      have hsteps := hplain.footer
      rcases hstart with hnil | ⟨y, rest, heq⟩
      · rw [hnil]; rfl
      · rw [heq] at he he' hsteps hfed' ⊢
        have htwin : Twin R (c.setY y).aside (d.setY y).aside :=
          asides_twin hR hb hdevice (hc.setY y) (hd.setY y) (congrArg Margins.left hmargins)
            (congrArg (fun size : Size K ↦ if 0 ≤ y then y else size.height + y) hsize) hg
        exact (htwin.run hR (fun s hs ↦ .inl (hsteps s (List.mem_cons_of_mem _ hs))) hfed'.2 nofun
          he he').body.symm

variable (R) in
/-- The bands look like this under each graphics state, wherever they are drawn. -/
def Looks (b : Canvas K D) (look : Origin → Graphics K → List (Call K)) : Prop :=
  ∀ band g calls, band ≠ .body → BandUnder R b band g calls → look band g = calls

/-- So what bands look like is a function of the graphics state. -/
theorem exists_look (hR : Agreement R) (hb : b.frame.Sound) (hdevice : R b.device b.device)
    (hplaced : ∀ bands, b.decorator = some bands → bands.Placed) :
    ∃ look : Origin → Graphics K → List (Call K), Looks R b look := by
  have hlook : ∀ band g, ∃ look, ∀ calls, band ≠ .body → BandUnder R b band g calls →
      look = calls := by
    intro band g
    by_cases h : ∃ calls, BandUnder R b band g calls
    · obtain ⟨calls, hcalls⟩ := h
      exact ⟨calls, fun _ hband hcalls' ↦ hcalls.unique hR hb hdevice hplaced hband hcalls'⟩
    · exact ⟨[], fun calls _ hcalls ↦ absurd ⟨calls, hcalls⟩ h⟩
  exact ⟨fun band g ↦ (hlook band g).choose, fun band g ↦ (hlook band g).choose_spec⟩

/-- A band that is drawn on a begun page is drawn under the graphics state of the canvas. -/
theorem Continues.hook_under (hb : b.frame.Sound) (hc : Continues R b c) (hpage : c.pageCount ≠ 0)
    (hband : band ≠ .body)
    (hhome : band = .header → c.x = c.margins.left ∧ c.y = c.margins.top)
    (he : (hook band c).error = none) :
    ∃ calls, BandDrawn band calls c (hook band c) ∧ BandUnder R b band c.graphics calls := by
  have hsound := hb.of_eq hc.frame
  have hpages : 0 < c.pageCount := Nat.pos_of_ne_zero hpage
  obtain ⟨calls, hdrawn⟩ := hook_drawn hsound hpages band hband
  have hhistory := hdrawn.history
  rw [hook_eq_drawBand hsound hpages hband] at he hhistory
  exact ⟨calls, hdrawn, c, hc, hpage, rfl, hhome, he, hhistory⟩

/-! ## Starting a page -/

theorem Continues.turned (hR : Agreement R) (hb : b.frame.Sound) (hc : Continues R b c) :
    Continues R b c.turned := by
  have hsound := hb.of_eq hc.frame
  obtain ⟨hframe, -⟩ := turned_frame hsound
  have hpages : c.turned.pageCount = c.pageCount + 1 := congrArg Frame.pageCount hframe
  refine ⟨?_, fun e he ↦ hR.page _ (ended_device hR hsound (hc.device e he))⟩
  rw [hframe, hpages, hc.frame]

theorem Continues.addPage (hR : Agreement R) (hb : b.frame.Sound) (hc : Continues R b c)
    (he : c.error = none) : Continues R b c.addPage := by
  have hsound := hb.of_eq hc.frame
  obtain ⟨footer, header, hstarted⟩ := addPage_started hsound he
  have hframe : c.addPage.frame = { c.frame with pageCount := c.pageCount + 1 } := hstarted.frame
  have hpages : c.addPage.pageCount = c.pageCount + 1 := congrArg Frame.pageCount hframe
  refine ⟨?_, fun e hbe ↦ addPage_device hR hsound he (hc.device e hbe)⟩
  rw [hframe, hpages, hc.frame]

theorem Continues.ended_under (hb : b.frame.Sound) (hc : Continues R b c)
    (he : c.ended.error = none) : ∃ footer, BandDrawn .footer footer c c.ended ∧
      if c.pageCount = 0 then footer = [] else BandUnder R b .footer c.graphics footer := by
  unfold ended at he ⊢
  by_cases hzero : c.pageCount = 0
  · rw [if_neg (Nat.not_lt.mpr (Nat.le_of_eq hzero))]
    exact ⟨[], ⟨rfl, by simp, fun _ ↦ List.not_mem_nil⟩, by rw [if_pos hzero]⟩
  · rw [if_pos (Nat.pos_of_ne_zero hzero)] at he ⊢
    simp only [if_neg hzero]
    exact hc.hook_under hb hzero (by decide) nofun he

/-- A page that is started shows both bands as the graphics state makes them. -/
theorem Continues.addPage_under (hR : Agreement R) (hb : b.frame.Sound) (hc : Continues R b c)
    (he : c.addPage.error = none) : ∃ footer header,
      c.addPage.history.toList = c.history.toList ++ on .footer footer ++
        (.body, .page c.frame.deviceSize) :: on .header header ∧
      (if c.pageCount = 0 then footer = [] else BandUnder R b .footer c.graphics footer) ∧
      BandUnder R b .header c.graphics header ∧
      (∀ size, .page size ∉ footer) ∧ ∀ size, .page size ∉ header := by
  have hsound := hb.of_eq hc.frame
  have hturned := hc.turned hR hb
  obtain ⟨hframe, hturnedSound⟩ := turned_frame hsound
  have hpages : c.turned.pageCount = c.pageCount + 1 := congrArg Frame.pageCount hframe
  have heq : c.addPage = { hook .header c.turned with graphics := c.graphics }.home :=
    addPageWith_eq hsound (addPage_error hsound he)
  rw [heq] at he ⊢
  have hheaderError : (hook .header c.turned).error = none := he
  have hturnedError : c.turned.error = none := hook_sticky hturnedSound hheaderError
  obtain ⟨footer, hfooter, hfooterUnder⟩ := hc.ended_under hb hturnedError
  obtain ⟨header, hheader, hheaderUnder⟩ :=
    hturned.hook_under hb (by omega) (by decide) (fun _ ↦ ⟨rfl, rfl⟩) hheaderError
  refine ⟨footer, header, ?_, hfooterUnder, hheaderUnder, hfooter.no_page, hheader.no_page⟩
  have horigin : c.ended.origin = .body :=
    (congrArg Frame.origin hfooter.frame).trans hsound.origin
  have hhistory : c.turned.history.toList =
      c.history.toList ++ on .footer footer ++ [(.body, .page c.frame.deviceSize)] := by
    rw [← hfooter.history, ← hfooter.frame]
    simp [Canvas.turned, putPage, note, home, horigin, Frame.deviceSize, Canvas.frame]
  exact hheader.history.trans (by simp [hhistory])

end Canvas

end PagedReport
