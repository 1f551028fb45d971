import PagedReport.Proofs.Canvas.BandLooks
import PagedReport.Proofs.Canvas.Flows

/-!
# Pages under graphics states

Which graphics state a page is started in is known from the steps before it.  Its header looks as
that state makes it, and its footer as the state makes it in which the next page is started.
-/

namespace PagedReport

open Canvas

variable {K D Output : Type}

namespace Canvas

variable {R : D → D → Prop} {b c d : Canvas K D} {look : Origin → Graphics K → List (Call K)}
  {starts : List (Graphics K)} {pages : List (DrawnPage K)} {last : DrawnPage K}

variable (R) in
/-- A canvas that comes of drawing on `b`, with complete pages and one that is being drawn.  Every
header looks as the graphics state makes it in which its page was started, and every footer as that
makes it in which the next one was. -/
structure Banded (b : Canvas K D) (look : Origin → Graphics K → List (Call K))
    (starts : List (Graphics K)) (pages : List (DrawnPage K)) (last : DrawnPage K)
    (c : Canvas K D) : Prop where
  continues : Continues R b c
  history : c.history.toList = pages.flatMap DrawnPage.calls ++ last.top
  pageCount : c.pageCount = pages.length + 1
  headers : (pages ++ [last]).map (·.header) = starts.map (look .header)
  footers : pages.map (·.footer) = starts.tail.map (look .footer)
  no_page : ∀ p ∈ pages ++ [last], ∀ size, .page size ∉ p.header ++ p.body ++ p.footer

namespace Banded

theorem begun (h : Banded R b look starts pages last c) : c.pageCount ≠ 0 := by
  rw [h.pageCount]
  omega

theorem pen (h : Banded R b look starts pages last c) (graphics : Graphics K)
    (warnings : Array Warning) :
    Banded R b look starts pages last { c with graphics, warnings } :=
  ⟨⟨h.continues.frame, h.continues.device⟩, h.history, h.pageCount, h.headers, h.footers,
    h.no_page⟩

theorem onPage (h : Banded R b look starts pages last c) (hpage : OnPage R c d) :
    ∃ last', Banded R b look starts pages last' d := by
  obtain ⟨calls, hcalls, hnone⟩ := hpage.history
  have hpages : d.pageCount = c.pageCount := congrArg Frame.pageCount hpage.frame
  refine ⟨{ last with body := last.body ++ calls }, ⟨?_, ?_⟩, ?_, ?_, ?_, h.footers, ?_⟩
  · rw [hpage.frame, h.continues.frame, hpages]
  · exact fun e he ↦ hpage.device e (h.continues.device e he)
  · rw [hcalls, h.history]
    simp [DrawnPage.top, DrawnPage.start, on]
  · exact hpages.trans h.pageCount
  · rw [← h.headers, List.map_append, List.map_append]
    rfl
  · intro p hp size hsize
    rcases List.mem_append.mp hp with hp | hp
    · exact h.no_page p (List.mem_append_left _ hp) size hsize
    · obtain rfl := List.mem_singleton.mp hp
      have hlast := h.no_page last (by simp) size
      simp only [List.mem_append, not_or] at hsize hlast
      rcases hsize with (hsize | hsize | hsize) | hsize
      · exact hlast.1.1 hsize
      · exact hlast.1.2 hsize
      · exact hnone size hsize
      · exact hlast.2 hsize

/-! ## Page after page -/

theorem footers_concat (h : Banded R b look starts pages last c) (g : Graphics K) :
    (pages ++ [{ last with footer := look .footer g }]).map DrawnPage.footer =
      (starts.tail ++ [g]).map (look .footer) := by
  rw [List.map_append, List.map_append, h.footers]
  rfl

theorem no_page_concat (h : Banded R b look starts pages last c) {footer : List (Call K)}
    (hfooter : ∀ size, .page size ∉ footer) :
    ∀ p ∈ pages ++ [{ last with footer }], ∀ size, .page size ∉ p.header ++ p.body ++ p.footer := by
  intro p hp size hsize
  rcases List.mem_append.mp hp with hp | hp
  · exact h.no_page p (List.mem_append_left _ hp) size hsize
  · obtain rfl := List.mem_singleton.mp hp
    rcases List.mem_append.mp hsize with hsize | hsize
    · exact h.no_page last (by simp) size (List.mem_append_left _ hsize)
    · exact hfooter size hsize

theorem tail_concat (h : Banded R b look starts pages last c) (g : Graphics K) :
    (starts ++ [g]).tail = starts.tail ++ [g] := by
  refine List.tail_append_of_ne_nil ?_
  rintro rfl
  have hheaders := congrArg List.length h.headers
  simp at hheaders

variable [Scalar K] [Device K D Output]

theorem addPage (hR : Agreement R) (hb : b.frame.Sound) (hlook : Looks R b look)
    (h : Banded R b look starts pages last c) (he : c.addPage.error = none) :
    ∃ pages' last', Banded R b look (starts ++ [c.graphics]) pages' last' c.addPage := by
  have hsound := hb.of_eq h.continues.frame
  obtain ⟨_, _, hstarted⟩ := addPage_started hsound (addPage_error hsound he)
  have hpages : c.addPage.pageCount = c.pageCount + 1 := congrArg Frame.pageCount hstarted.frame
  obtain ⟨footer, header, hhistory, hfooter, hheader, hnone, hnone'⟩ :=
    h.continues.addPage_under hR hb he
  rw [if_neg h.begun] at hfooter
  obtain rfl := hlook _ _ _ (by decide) hfooter
  obtain rfl := hlook _ _ _ (by decide) hheader
  refine ⟨pages ++ [{ last with footer := look .footer c.graphics }],
    ⟨c.frame.deviceSize, look .header c.graphics, [], []⟩,
    h.continues.addPage hR hb (addPage_error hsound he), ?_, ?_, ?_, ?_, ?_⟩
  · rw [hhistory, h.history]
    simp [DrawnPage.calls, DrawnPage.top, DrawnPage.start]
  · rw [hpages, h.pageCount, List.length_append]
    rfl
  · have hheaders := h.headers
    simp only [List.map_append, List.map_cons, List.map_nil] at hheaders ⊢
    rw [hheaders]
  · rw [h.tail_concat, h.footers_concat]
  · intro p hp size hsize
    rcases List.mem_append.mp hp with hp | hp
    · exact h.no_page_concat hnone p hp size hsize
    · obtain rfl := List.mem_singleton.mp hp
      simp only [List.append_nil] at hsize
      exact hnone' size hsize

/-- The first page. -/
theorem first (hR : Agreement R) (hb : b.frame.Sound) (hlook : Looks R b look)
    (hhistory : b.history = #[]) (hzero : b.pageCount = 0) (he : b.addPage.error = none) :
    ∃ last, Banded R b look [b.graphics] [] last b.addPage := by
  have hself : Continues R b b := ⟨rfl, fun _ ↦ id⟩
  obtain ⟨_, _, hstarted⟩ := addPage_started hb (addPage_error hb he)
  have hpages : b.addPage.pageCount = b.pageCount + 1 := congrArg Frame.pageCount hstarted.frame
  obtain ⟨footer, header, hcalls, hfooter, hheader, -, hnone⟩ := hself.addPage_under hR hb he
  rw [if_pos hzero] at hfooter
  obtain rfl := hfooter
  obtain rfl := hlook _ _ _ (by decide) hheader
  refine ⟨⟨b.frame.deviceSize, look .header b.graphics, [], []⟩,
    hself.addPage hR hb (addPage_error hb he), ?_, ?_, rfl, rfl, ?_⟩
  · rw [hcalls, hhistory]
    simp [DrawnPage.top, DrawnPage.start]
  · rw [hpages, hzero]
    rfl
  · intro p hp size hsize
    obtain rfl := List.mem_singleton.mp hp
    simp only [List.append_nil] at hsize
    exact hnone size hsize

/-- Pages that are started on the way start in the one graphics state there is. -/
theorem flows (hR : Agreement R) (hb : b.frame.Sound) (hlook : Looks R b look)
    (h : Banded R b look starts pages last c) (hflows : Flows R c d) (hd : d.error = none) :
    d.graphics = c.graphics ∧ ∃ n pages' last', d.pageCount = c.pageCount + n ∧
      Banded R b look (starts ++ List.replicate n c.graphics) pages' last' d := by
  -- no page takes the graphics state along, so the state of the start is that of every page
  induction hflows with
  | refl => exact ⟨rfl, 0, pages, last, rfl, by simpa using h⟩
  | @onPage d e _ hpage ih =>
      obtain ⟨hgraphics, n, pages', last', hpages, hbanded⟩ := ih (hpage.error hd)
      obtain ⟨last'', hbanded'⟩ := hbanded.onPage hpage
      exact ⟨hpage.graphics.trans hgraphics, n, pages', last'',
        (congrArg Frame.pageCount hpage.frame).trans hpages, hbanded'⟩
  | @page d _ ih =>
      have he : d.error = none := by
        cases hfailure : d.error with
        | none => rfl
        | some failure => simp [Canvas.addPage, addPageWith, hfailure] at hd
      obtain ⟨hgraphics, n, pages', last', hpages, hbanded⟩ := ih he
      have hsound := hb.of_eq hbanded.continues.frame
      obtain ⟨pages'', last'', hbanded'⟩ := hbanded.addPage hR hb hlook hd
      obtain ⟨_, _, hstarted⟩ := addPage_started hsound he
      have hnext : d.addPage.pageCount = d.pageCount + 1 := congrArg Frame.pageCount hstarted.frame
      obtain ⟨-, -, hkept⟩ := addPage_home hsound he
      refine ⟨hkept.trans hgraphics, n + 1, pages'', last'', by omega, ?_⟩
      rw [hgraphics] at hbanded'
      rw [List.replicate_succ', ← List.append_assoc]
      exact hbanded'

end Banded

/-! ## Steps and runs -/

/-- The graphics states in which the pages start that steps start, one after another. -/
def pageStarts [Scalar K] [Device K D Output] : List (Step K) → Canvas K D → List (Graphics K)
  | [], _ => []
  | s :: rest, c =>
    List.replicate ((c.step s).pageCount - c.pageCount) c.graphics ++ pageStarts rest (c.step s)

variable [Scalar K] [Device K D Output]

theorem pageStarts_append (steps steps' : List (Step K)) (c : Canvas K D) :
    pageStarts (steps ++ steps') c = pageStarts steps c ++ pageStarts steps' (c.run steps) := by
  induction steps generalizing c with
  | nil => rfl
  | cons s steps ih =>
      rw [List.cons_append, pageStarts, ih, pageStarts, List.append_assoc]
      rfl

theorem Continues.restyled (hR : Agreement R) (hdevice : R b.device b.device)
    (hc : Continues R b c) : c.restyled = b.restyled := by
  have hfont : c.hasFont = b.hasFont := by
    funext key
    rw [hasFont, hasFont, hR.hasFont (hc.device _ hdevice)]
  have hchoice : c.chooseFont = b.chooseFont := by
    funext family style
    simp only [chooseFont, hfont]
  funext g s
  cases s with
  | setFont => simp only [Canvas.restyled, hchoice]
  | _ => rfl

theorem Banded.step (hR : Agreement R) (hb : b.frame.Sound) (hdevice : R b.device b.device)
    (hlook : Looks R b look) (h : Banded R b look starts pages last c) {s : Step K} (hs : s.InFlow)
    (he : (c.step s).error = none) :
    (c.step s).graphics = b.restyled c.graphics s ∧ ∃ pages' last',
      Banded R b look (starts ++ pageStarts [s] c) pages' last' (c.step s) := by
  have hsound := hb.of_eq h.continues.frame
  have hc : Begun c := ⟨hsound, h.begun, (step_prints hs hsound).error_eq_none he⟩
  rw [← h.continues.restyled hR hdevice, pageStarts, pageStarts, List.append_nil]
  rcases step_flows hR hc hs he with ⟨hflows, hkept⟩ | ⟨warnings, heq⟩
  · obtain ⟨hgraphics, n, pages', last', hpages, hbanded⟩ := h.flows hR hb hlook hflows he
    refine ⟨hgraphics.trans hkept.symm, pages', last', ?_⟩
    rwa [hpages, Nat.add_sub_cancel_left]
  · rw [heq]
    refine ⟨rfl, pages, last, ?_⟩
    simpa using h.pen _ warnings

/-- Along a run of the body every page that is started is started in the graphics state that the
steps before it have made of the first one. -/
theorem Banded.run (hR : Agreement R) (hb : b.frame.Sound) (hdevice : R b.device b.device)
    (hlook : Looks R b look) (h : Banded R b look starts pages last c) {steps : List (Step K)}
    (hsteps : ∀ s ∈ steps, s.InFlow) (he : (c.run steps).error = none) :
    (c.run steps).graphics = steps.foldl b.restyled c.graphics ∧ ∃ pages' last',
      Banded R b look (starts ++ pageStarts steps c) pages' last' (c.run steps) := by
  induction steps generalizing c starts pages last with
  | nil => exact ⟨rfl, pages, last, (List.append_nil starts).symm ▸ h⟩
  | cons s steps ih =>
      have hs := hsteps s List.mem_cons_self
      have hrest : ∀ t ∈ steps, t.InFlow := fun t ht ↦ hsteps t (List.mem_cons_of_mem s ht)
      have hsound := hb.of_eq h.continues.frame
      obtain ⟨calls, hdraws, -⟩ := step_prints hs hsound
      have hstep : (c.step s).error = none :=
        (run_prints hrest (hdraws.sound hsound)).error_eq_none he
      obtain ⟨hgraphics, pages', last', hbanded⟩ := h.step hR hb hdevice hlook hs hstep
      obtain ⟨hlast, hpages⟩ := ih hbanded hrest he
      refine ⟨?_, ?_⟩
      · rw [List.foldl_cons, ← hgraphics]
        exact hlast
      · rw [← List.singleton_append, pageStarts_append, ← List.append_assoc]
        exact hpages

/-- Closing a document draws the last footer in the graphics state at its end. -/
theorem Banded.close (hb : b.frame.Sound) (hlook : Looks R b look)
    (h : Banded R b look starts pages last c) (he : c.close.error = none) :
    ∃ pages' : List (DrawnPage K), c.close.history.toList = pages'.flatMap DrawnPage.calls ∧
      pages'.length = c.close.pageCount ∧
      (∀ p ∈ pages', ∀ size, .page size ∉ p.header ++ p.body ++ p.footer) ∧
      pages'.map DrawnPage.header = starts.map (look .header) ∧
      pages'.map DrawnPage.footer = (starts.tail ++ [c.graphics]).map (look .footer) := by
  have hsound := hb.of_eq h.continues.frame
  have hpaged : c.paged = c := by rw [paged, if_neg h.begun]
  have heq := close_eq hsound
  rw [hpaged] at heq
  rw [heq] at he ⊢
  have hband : Origin.footer ≠ .body := by decide
  have hheader : Origin.footer ≠ .header := by decide
  obtain ⟨footer, hdrawn, hunder⟩ := h.continues.hook_under hb h.begun hband (absurd · hheader) he
  obtain rfl := hlook _ _ _ hband hunder
  have hpages : (hook .footer c).pageCount = c.pageCount := congrArg Frame.pageCount hdrawn.frame
  refine ⟨pages ++ [{ last with footer := look .footer c.graphics }], ?_, ?_,
    h.no_page_concat hdrawn.no_page, ?_, h.footers_concat c.graphics⟩
  · refine hdrawn.history.trans ?_
    rw [h.history]
    simp [DrawnPage.calls, DrawnPage.top, DrawnPage.start]
  · change _ = (hook .footer c).pageCount
    rw [hpages, h.pageCount, List.length_append]
    rfl
  · rw [← h.headers, List.map_append, List.map_append]
    rfl

end Canvas

end PagedReport
