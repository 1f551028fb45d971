import PagedReport.Proofs.Canvas.Bands

/-!
# Where drawing cannot fail

Only images and closed documents make drawing fail.  Steps that load no image keep an open canvas
free of errors, through all pages they start, if the bands load no image either.
-/

namespace PagedReport

variable {K D Output : Type}

/-- A decorator whose steps draw without loading images. -/
structure Decorator.Safe (d : Decorator K) : Prop where
  header : ∀ s ∈ d.header, s.Safe
  footer : ∀ s ∈ d.footer, s.Safe

namespace Canvas

/-- An open canvas without an error, with bands that cannot cause one. -/
structure Sane (c : Canvas K D) : Prop where
  error : c.error = none
  isOpen : c.closed = false
  safe : ∀ d, c.decorator = some d → d.Safe

variable [Device K D Output] {hook' : Origin → Canvas K D → Canvas K D}

theorem puts_sane (ms : List (Mark K)) {c : Canvas K D} (hc : c.Sane) : (c.puts ms).Sane := by
  rw [puts_eq]
  exact ⟨hc.error, hc.isOpen, hc.safe⟩

variable [Scalar K]

section

variable (hhook : ∀ band c, Sane c → Sane (hook' band c))

include hhook

theorem addPageWith_sane {c : Canvas K D} (hc : c.Sane) : (addPageWith hook' c).Sane := by
  have hfooter : (if 0 < c.pageCount then hook' .footer c else c).Sane := by
    split
    · exact hhook .footer c hc
    · exact hc
  unfold addPageWith
  rw [hc.error, hc.isOpen]
  generalize (if 0 < c.pageCount then hook' .footer c else c) = d at hfooter
  have hheader := hhook .header { d.putPage.home with graphics := c.graphics }
    ⟨hfooter.error, hfooter.isOpen, hfooter.safe⟩
  exact ⟨hheader.error, hheader.isOpen, hheader.safe⟩

theorem prepareWith_sane {c : Canvas K D} (hc : c.Sane) :
    (prepareWith hook' c).1.Sane ∧ (prepareWith hook' c).2 = true := by
  have hready : (if c.pageCount = 0 then addPageWith hook' c else c).Sane := by
    split
    · exact addPageWith_sane hhook hc
    · exact hc
  unfold prepareWith
  rw [hc.error, hc.isOpen]
  exact ⟨hready, Option.isNone_iff_eq_none.mpr hready.error⟩

theorem prepare_sane {c : Canvas K D} (hc : c.Sane) (f : Canvas K D → Canvas K D)
    (hf : ∀ d, Sane d → Sane (f d)) :
    Sane (if (prepareWith hook' c).2 then f (prepareWith hook' c).1
      else (prepareWith hook' c).1) := by
  obtain ⟨hready, hpossible⟩ := prepareWith_sane hhook hc
  rw [if_pos hpossible]
  exact hf _ hready

theorem drawCellWith_sane (cell : Cell K) (justify : Bool) {c : Canvas K D} (hc : c.Sane) :
    (drawCellWith hook' cell justify c).Sane := by
  have hturn : (turnWith hook' cell.height c).Sane := by
    unfold turnWith
    split
    · have hpage := addPageWith_sane hhook hc
      exact ⟨hpage.error, hpage.isOpen, hpage.safe⟩
    · exact hc
  rw [drawCellWith_eq]
  generalize turnWith hook' cell.height c = d at hturn
  have hputs := puts_sane (d.cellMarks cell justify (d.widthOf cell)) hturn
  dsimp only [advance]
  split <;> exact ⟨hputs.error, hputs.isOpen, hputs.safe⟩

theorem drawRows_sane (cell : Cell K) (width x : K) (first : Bool) (lines : List WrappedLine)
    {c : Canvas K D} (hc : c.Sane) : (drawRows hook' cell width x first lines c).Sane := by
  induction lines generalizing first c with
  | nil => exact hc
  | cons line lines ih =>
      exact ih false (drawCellWith_sane hhook _ _ ⟨hc.error, hc.isOpen, hc.safe⟩)

theorem multiCellWith_sane (cell : Cell K) {c : Canvas K D} (hc : c.Sane) :
    (multiCellWith hook' cell c).Sane := by
  obtain ⟨hready, hpossible⟩ := prepareWith_sane hhook hc
  unfold multiCellWith
  dsimp only
  rw [if_pos hpossible]
  have hrows := fun width x lines ↦ drawRows_sane hhook cell width x true lines hready
  exact ⟨(hrows _ _ _).error, (hrows _ _ _).isOpen, (hrows _ _ _).safe⟩

theorem stepWith_sane {s : Step K} (hs : s.Safe) {c : Canvas K D} (hc : c.Sane) :
    (stepWith hook' s c).Sane := by
  cases s with
  | setMargins | setAutoBreak | setInfo | decorate | undecorate | registerFont | addPage | close
  | image | imageExtent | flowImage => exact hs.elim
  | setFont family style size =>
      dsimp only [stepWith, setFont]
      split <;> exact ⟨hc.error, hc.isOpen, hc.safe⟩
  | setTextColor | setFillColor | setDrawColor | setLineWidth | setX | setY | lineFeed | warn =>
      exact ⟨hc.error, hc.isOpen, hc.safe⟩
  | cell cell =>
      exact prepare_sane hhook hc _ fun d hd ↦ drawCellWith_sane hhook cell false hd
  | multiCell cell => exact multiCellWith_sane hhook cell hc
  | line => exact prepare_sane hhook hc _ fun d hd ↦ puts_sane [_] hd
  | rect => exact prepare_sane hhook hc _ fun d hd ↦ puts_sane [_] hd

theorem foldl_sane {steps : List (Step K)} (hsteps : ∀ s ∈ steps, s.Safe) {c : Canvas K D}
    (hc : c.Sane) : (steps.foldl (fun c s ↦ stepWith hook' s c) c).Sane := by
  induction steps generalizing c with
  | nil => exact hc
  | cons s steps ih =>
      exact ih (fun t ht ↦ hsteps t (List.mem_cons_of_mem s ht))
        (stepWith_sane hhook (hsteps s List.mem_cons_self) hc)

end

theorem hookAt_sane (depth : Nat) (band : Origin) {c : Canvas K D} (hc : c.Sane) :
    (hookAt depth band c).Sane := by
  -- a band that is drawn in a band is one level deeper
  induction depth generalizing band c with
  | zero => exact hc
  | succ depth ih =>
      rw [hookAt]
      split
      · exact hc
      · next d hd =>
          have hsafe := bandSteps_forall (hc.safe d hd).header (hc.safe d hd).footer band
          have hsteps := foldl_sane (fun band c hc ↦ ih band hc) hsafe
            (c := { c with origin := band }) ⟨hc.error, hc.isOpen, hc.safe⟩
          exact ⟨hsteps.error, hsteps.isOpen, hsteps.safe⟩

theorem hook_sane (band : Origin) (c : Canvas K D) (hc : c.Sane) : (hook band c).Sane :=
  hookAt_sane _ band hc

theorem close_error {c : Canvas K D} (hc : c.Sane) : c.close.error = none := by
  unfold close closeWith
  rw [hc.isOpen]
  refine (hook_sane .footer _ ?_).error
  split
  · exact addPageWith_sane hook_sane hc
  · exact hc

end Canvas

end PagedReport
