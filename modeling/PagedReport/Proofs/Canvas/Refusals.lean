import PagedReport.Proofs.Canvas.Bands
import PagedReport.Proofs.Canvas.Courses
import PagedReport.Proofs.Canvas.Frozen

/-!
# The first refusal

A device may refuse to measure or to place an image, and an image may be empty.  To say which of
these happen in a run, and in which order, the run is made on a device that answers for another one
and takes note where that would refuse.  Up to the first note both runs are the same; from there on
the canvas of the device that refuses has the error that was noted first.
-/

namespace PagedReport

variable {K D Output : Type}

/-- A device that never refuses, and what the device it answers for refused. -/
structure Noting (D : Type) where
  device : D
  refused : List CanvasError := []

namespace Noting

def refuse (e : CanvasError) (n : Noting D) : Noting D := { n with refused := n.refused ++ [e] }

variable [Device K D Output]

instance : Device K (Noting D) Output where
  registerFont key data n :=
    (Device.registerFont key data n.device).map fun device ↦ { n with device }
  hasFont n := Device.hasFont n.device
  textWidth n := Device.textWidth n.device
  imageSize path n :=
    match Device.imageSize path n.device with
    | .error e => .ok ((1, 1), n.refuse e)
    | .ok (pixels, device) =>
      if pixels.1 = 0 ∨ pixels.2 = 0 then
        .ok ((1, 1), { n with device }.refuse (.image path .noPixels))
      else .ok (pixels, { n with device })
  beginPage size n := { n with device := Device.beginPage size n.device }
  mark m n := { n with device := Device.mark m n.device }
  image path place n :=
    match Device.image path place n.device with
    | .error e => .ok (n.refuse e)
    | .ok device => .ok { n with device }
  finish info sink n :=
    (Device.finish info sink n.device).map fun (output, device) ↦ (output, { n with device })

/-! ## Notes stay -/

theorem refused_meet {demand : Demand K} {n m : Noting D} (h : demand.meet n = .ok m) :
    n.refused <+: m.refused := by
  cases demand with
  | registerFont key data =>
      change (Device.registerFont key data n.device).map (fun device ↦ { n with device }) =
        .ok m at h
      cases hfont : Device.registerFont key data n.device with
      | error e => rw [hfont] at h; cases h
      | ok device => rw [hfont] at h; exact Except.ok.inj h ▸ List.prefix_rfl
  | imageSize path =>
      change ((Device.imageSize path n).map (·.2)) = .ok m at h
      simp only [Device.imageSize] at h
      split at h
      · exact Except.ok.inj h ▸ List.prefix_append _ _
      · split at h
        · exact Except.ok.inj h ▸ List.prefix_append _ _
        · exact Except.ok.inj h ▸ List.prefix_rfl
  | draw call =>
      cases call with
      | page size => exact Except.ok.inj h ▸ List.prefix_rfl
      | mark m => exact Except.ok.inj h ▸ List.prefix_rfl
      | image path place =>
          change Device.image path place n = .ok m at h
          simp only [Device.image] at h
          split at h
          · exact Except.ok.inj h ▸ List.prefix_append _ _
          · exact Except.ok.inj h ▸ List.prefix_rfl

theorem refused_meetAll {demands : List (Demand K)} {n m : Noting D}
    (h : Demand.meetAll demands n = .ok m) : n.refused <+: m.refused := by
  induction demands generalizing n with
  | nil => exact Except.ok.inj h ▸ List.prefix_rfl
  | cons demand demands ih =>
      obtain ⟨k, hfirst, hrest⟩ := Demand.meetAll_append.mp (List.singleton_append ▸ h)
      rw [Demand.meetAll_singleton] at hfirst
      exact (refused_meet hfirst).trans (ih hrest)

end Noting

namespace Canvas

/-! ## Canvases side by side -/

/-- The same canvas on a device that has noted nothing. -/
def noting (c : Canvas K D) : Canvas K (Noting D) :=
  { c with device := ⟨c.device, []⟩ }

/-- An open canvas without an error, with bands that only draw. -/
structure Calm (c : Canvas K D) : Prop where
  error : c.error = none
  isOpen : c.closed = false
  plain : ∀ d, c.decorator = some d → d.Plain

/-- The canvas has the error that was noted first. -/
def Broken (c : Canvas K D) (n : Canvas K (Noting D)) : Prop :=
  ∃ e, c.error = some e ∧ n.device.refused.head? = some e

/-- Two runs are the same, or the first has ended with what the second noted first. -/
def Follows (c : Canvas K D) (n : Canvas K (Noting D)) : Prop :=
  (n = c.noting ∧ c.Calm) ∨ Broken c n

namespace Follows

variable {c d : Canvas K D} {n m : Canvas K (Noting D)}

theorem along (hc : c.Calm) : Follows c c.noting := .inl ⟨rfl, hc⟩

/-- Both runs go on without their devices. -/
theorem adjust (h : Follows c n) (hdm : n = c.noting → c.Calm → m = d.noting ∧ d.Calm)
    (hd : d.error = c.error) (hm : m.device = n.device) : Follows d m := by
  rcases h with ⟨hn, hcalm⟩ | ⟨e, he, hrefused⟩
  · exact .inl (hdm hn hcalm)
  · exact .inr ⟨e, hd.trans he, by rw [hm]; exact hrefused⟩

end Follows

/-- Two runs after an image was measured or placed: both have the extent, or the first has
failed. -/
inductive Measured : Canvas K D × Option (K × K) → Canvas K (Noting D) × Option (K × K) → Prop
  | along {d : Canvas K D} (hd : d.Calm) (extent : K × K) :
      Measured (d, some extent) (d.noting, some extent)
  | broken {d : Canvas K D} {m : Canvas K (Noting D)} (h : Broken d m)
      (extent : Option (K × K)) : Measured (d, none) (m, extent)

theorem Measured.follows {p : Canvas K D × Option (K × K)}
    {q : Canvas K (Noting D) × Option (K × K)} (h : Measured p q) : Follows p.1 q.1 := by
  cases h with
  | along hd extent => exact .along hd
  | broken h extent => exact .inr h

theorem broken_fail {c : Canvas K D} {n : Canvas K (Noting D)} {e : CanvasError} (hc : c.Calm)
    (hn : n.device.refused = [e]) :
    Broken (c.fail e) n := by
  refine ⟨e, ?_, by rw [hn]; rfl⟩
  unfold fail
  rw [hc.error]

variable [Device K D Output]

/-! ## Drawing without loading -/

theorem noting_puts (ms : List (Mark K)) (c : Canvas K D) :
    c.noting.puts ms = (c.puts ms).noting := by
  induction ms generalizing c with
  | nil => rfl
  | cons m ms ih => exact ih (c.put m)

theorem Calm.puts {c : Canvas K D} (hc : c.Calm) (ms : List (Mark K)) : (c.puts ms).Calm := by
  rw [puts_eq]
  exact ⟨hc.error, hc.isOpen, hc.plain⟩

variable [Scalar K]

theorem noting_cellMarks (cell : Cell K) (justify : Bool) (width : K) (c : Canvas K D) :
    c.noting.cellMarks cell justify width = c.cellMarks cell justify width := by
  have hbox : c.noting.boxMarks cell width = c.boxMarks cell width := rfl
  rw [cellMarks, hbox, noting_puts]
  rfl

theorem noting_advance (cell : Cell K) (width : K) (c : Canvas K D) :
    c.noting.advance cell width = (c.advance cell width).noting := by
  unfold advance
  cases cell.advance <;> rfl

theorem noting_setFont (family style : String) (size : K) (c : Canvas K D) :
    c.noting.setFont family style size = (c.setFont family style size).noting := by
  have hchoice : c.noting.chooseFont family style = c.chooseFont family style := rfl
  simp only [setFont, hchoice]
  cases (c.chooseFont family style).2 <;> rfl

section advance

omit [Device K D Output]

variable (cell : Cell K) (width : K) (c : Canvas K D)

theorem advance_error : (c.advance cell width).error = c.error := by
  unfold advance
  cases cell.advance <;> rfl

theorem advance_calm {c : Canvas K D} (hc : c.Calm) : (c.advance cell width).Calm := by
  unfold advance
  cases cell.advance <;> exact ⟨hc.error, hc.isOpen, hc.plain⟩

end advance

/-! ## Following -/

variable {c d : Canvas K D} {n m : Canvas K (Noting D)}

theorem Broken.andThen (h : Broken c n) (hd : ∀ e, c.error = some e → d.error = some e)
    (hm : Reaches n m) : Broken d m := by
  obtain ⟨e, he, hrefused⟩ := h
  obtain ⟨demands, hcourse⟩ := hm
  refine ⟨e, hd e he, ?_⟩
  obtain ⟨rest, hrest⟩ := Noting.refused_meetAll hcourse.meets
  rw [← hrest, List.head?_append, hrefused, Option.some_or]

namespace Follows

/-- After an error one run only has to keep it, and the other what it noted. -/
theorem andThen (h : Follows c n) (halong : n = c.noting → c.Calm → Follows d m)
    (hd : ∀ e, c.error = some e → d.error = some e) (hm : Reaches n m) : Follows d m := by
  rcases h with ⟨hn, hcalm⟩ | hbroken
  · exact halong hn hcalm
  · exact .inr (hbroken.andThen hd hm)

theorem put (h : Follows c n) (hpage : 0 < n.pageCount) {shape shape' : Mark K}
    (hshape : n = c.noting → shape' = shape) (hfont : shape'.font? = none) :
    Follows (c.put shape) (n.put shape') := by
  refine h.andThen (fun heq hc ↦ ?_) (fun _ ↦ id) (.put hfont hpage)
  rw [hshape heq, heq]
  exact along (hc.puts [shape])

end Follows

/-! ## Images -/

theorem Measured.measure (path : String) (width height : K) (hc : c.Calm) :
    Measured (Canvas.measure path width height c) (Canvas.measure path width height c.noting) := by
  have hnoting : Device.imageSize path c.noting.device =
      match Device.imageSize path c.device with
      | .error e => .ok ((1, 1), c.noting.device.refuse e)
      | .ok (pixels, device) =>
        if pixels.1 = 0 ∨ pixels.2 = 0 then
          .ok ((1, 1), (Noting.mk device []).refuse (.image path .noPixels))
        else .ok (pixels, ⟨device, []⟩) := rfl
  unfold Canvas.measure
  rw [hnoting]
  cases Device.imageSize path c.device with
  | error e => exact .broken (broken_fail hc rfl) _
  | ok answer =>
      obtain ⟨pixels, device⟩ := answer
      have hloaded : Calm { c with device } := ⟨hc.error, hc.isOpen, hc.plain⟩
      by_cases hpixels : pixels.1 = 0 ∨ pixels.2 = 0
      · simp only [if_pos hpixels]
        exact .broken (broken_fail hloaded rfl) _
      · simp only [if_neg hpixels]
        exact .along hloaded _

namespace Measured

variable {p : Canvas K D × Option (K × K)} {q : Canvas K (Noting D) × Option (K × K)}

theorem place (h : Measured p q) (hpage : q.2.isSome → 0 < q.1.pageCount) (path : String)
    (x y : K) :
    Measured (Canvas.place path x y p) (Canvas.place path x y q) := by
  cases h with
  | @along d hd extent =>
      obtain ⟨w, h⟩ := extent
      have hnoting : Device.image path (d.noting.inPoints x y w h) d.noting.device =
          match Device.image path (d.inPoints x y w h) d.device with
          | .error e => .ok (d.noting.device.refuse e)
          | .ok device => .ok ⟨device, []⟩ := rfl
      simp only [Canvas.place, hnoting]
      cases Device.image path (d.inPoints x y w h) d.device with
      | error e => exact .broken (broken_fail hd rfl) _
      | ok device =>
          have hplaced : Calm ({ d with device }.note (.image path (d.inPoints x y w h))) :=
            ⟨hd.error, hd.isOpen, hd.plain⟩
          exact .along hplaced (w, h)
  | @broken d m h extent =>
      exact .broken (h.andThen (fun _ ↦ id) (.place path x y hpage)) _

theorem flowEnd (h : Measured p q) (y spacing : K) :
    Follows (Canvas.flowEnd y spacing p) (Canvas.flowEnd y spacing q) := by
  cases h with
  | @along d hd extent =>
      refine .inl ⟨?_, ?_⟩
      · unfold Canvas.flowEnd
        dsimp only
        split <;> split <;> rfl
      · unfold Canvas.flowEnd
        dsimp only
        split <;> split <;> exact ⟨hd.error, hd.isOpen, hd.plain⟩
  | @broken d m h extent =>
      have hdevice : (Canvas.flowEnd y spacing (m, extent)).device = m.device := by
        unfold Canvas.flowEnd
        cases extent with
        | none => rfl
        | some extent => dsimp only; split <;> split <;> rfl
      obtain ⟨e, he, hrefused⟩ := h
      exact .inr ⟨e, he, by rw [hdevice]; exact hrefused⟩

end Measured

namespace Follows

section

variable {hook₁ : Origin → Canvas K D → Canvas K D}
  {hook₂ : Origin → Canvas K (Noting D) → Canvas K (Noting D)}
  (hhook : ∀ band {c : Canvas K D} {n : Canvas K (Noting D)}, Follows c n →
    Follows (hook₁ band c) (hook₂ band n))
  (hreaches : ∀ band n, Reaches n (hook₂ band n))

include hhook hreaches

/-! ### Pages -/

theorem addPage (h : Follows c n) : Follows (addPageWith hook₁ c) (addPageWith hook₂ n) := by
  refine h.andThen ?_ (fun e he ↦ by simp [addPageWith, he]) (.addPage hreaches n)
  rintro rfl hc
  -- either band may break one run: after each the two only follow one another
  have hended : Follows (if 0 < c.pageCount then hook₁ .footer c else c)
      (if 0 < c.noting.pageCount then hook₂ .footer c.noting else c.noting) := by
    change Follows _ (if 0 < c.pageCount then _ else _)
    split
    · exact hhook .footer (along hc)
    · exact along hc
  have hopen : c.noting.closed = false := hc.isOpen
  have herror : c.noting.error = none := hc.error
  unfold addPageWith
  simp only [hc.error, hc.isOpen, hopen, herror, Option.isSome_none, Bool.false_eq_true, if_false]
  generalize (if 0 < c.pageCount then hook₁ .footer c else c) = d at hended
  generalize (if 0 < c.noting.pageCount then hook₂ .footer c.noting else c.noting) = m at hended
  have hhome : Follows d.putPage.home m.putPage.home := by
    refine hended.andThen ?_ (fun e he ↦ he) ((Reaches.putPage m).andThen (home_kept _))
    rintro rfl hd
    exact .inl ⟨rfl, hd.error, hd.isOpen, hd.plain⟩
  have hturned : Follows { d.putPage.home with graphics := c.graphics }
      { m.putPage.home with graphics := c.noting.graphics } :=
    hhome.adjust (fun heq hd ↦ ⟨by rw [heq]; rfl, hd.error, hd.isOpen, hd.plain⟩) rfl rfl
  refine (hhook .header hturned).adjust (fun heq hd ↦ ⟨?_, hd.error, hd.isOpen, hd.plain⟩) rfl rfl
  rw [heq]
  rfl

theorem prepare (h : Follows c n) :
    Follows (prepareWith hook₁ c).1 (prepareWith hook₂ n).1 := by
  refine h.andThen ?_ (fun e he ↦ (prepareWith_draws hook₁ c).error_eq_some he)
    (.prepare hreaches n)
  rintro rfl hc
  have hopen : c.noting.closed = false := hc.isOpen
  have herror : c.noting.error = none := hc.error
  unfold prepareWith
  simp only [hc.error, hc.isOpen, hopen, herror, Option.isSome_none, Bool.false_eq_true, if_false]
  change Follows _ (if c.pageCount = 0 then _ else _)
  split
  · exact addPage hhook hreaches (along hc)
  · exact along hc

theorem prepared (h : Follows c n) (f : Canvas K D → Canvas K D)
    (g : Canvas K (Noting D) → Canvas K (Noting D))
    (hfg : ∀ {c : Canvas K D} {n : Canvas K (Noting D)}, Follows c n → 0 < n.pageCount →
      Follows (f c) (g n))
    (hg : ∀ n, 0 < n.pageCount → Reaches n (g n)) :
    Follows
      (if (prepareWith hook₁ c).2 then f (prepareWith hook₁ c).1 else (prepareWith hook₁ c).1)
      (if (prepareWith hook₂ n).2 then g (prepareWith hook₂ n).1
        else (prepareWith hook₂ n).1) := by
  have hprepare := prepare hhook hreaches h
  rcases id hprepare with ⟨heq, hc⟩ | ⟨e, he, hrefused⟩
  · have herror : (prepareWith hook₂ n).1.error = none := by rw [heq]; exact hc.error
    have hpossible := prepareWith_possible hook₂ n herror
    rw [if_pos (prepareWith_possible hook₁ c hc.error), if_pos hpossible]
    exact hfg hprepare (Reaches.prepare_pageCount hreaches hpossible)
  · have himpossible : (prepareWith hook₁ c).2 ≠ true := by
      intro hpossible
      rw [prepareWith_error hook₁ c hpossible] at he
      cases he
    rw [if_neg himpossible]
    refine .inr (Broken.andThen ⟨e, he, hrefused⟩ (fun _ ↦ id) ?_)
    split
    · next hpossible => exact hg _ (Reaches.prepare_pageCount hreaches hpossible)
    · exact .refl _

/-! ### Cells -/

theorem drawCell (h : Follows c n) (hpage : 0 < n.pageCount) (cell : Cell K) (justify : Bool) :
    Follows (drawCellWith hook₁ cell justify c) (drawCellWith hook₂ cell justify n) := by
  obtain ⟨calls, hdraws, -⟩ := drawCellWith_prints hook₁ cell justify c
  refine h.andThen ?_ (fun e he ↦ hdraws.error_eq_some he) (.drawCell hreaches cell justify hpage)
  rintro rfl hc
  have hturn : Follows (turnWith hook₁ cell.height c) (turnWith hook₂ cell.height c.noting) := by
    unfold turnWith
    change Follows _ (if c.breaksPage cell.height then _ else _)
    split
    · refine (addPage hhook hreaches (along hc)).adjust
        (fun heq hd ↦ ⟨?_, hd.error, hd.isOpen, hd.plain⟩) rfl rfl
      rw [heq]
      rfl
    · exact along hc
  have hturned := (Reaches.turn hreaches cell.height c.noting).onPage hpage
  rw [drawCellWith_eq, drawCellWith_eq]
  generalize turnWith hook₁ cell.height c = d at hturn
  generalize turnWith hook₂ cell.height c.noting = m at hturn hturned
  refine hturn.andThen ?_ (fun e he ↦ ?_) ?_
  · rintro rfl hd
    refine .inl ⟨?_, advance_calm cell _ (hd.puts _)⟩
    change (d.noting.puts (d.noting.cellMarks cell justify (d.widthOf cell))).advance cell
      (d.widthOf cell) = _
    rw [noting_cellMarks, noting_puts, noting_advance]
  · rw [advance_error, puts_error]
    exact he
  · exact (Reaches.cellMarks cell justify _ hturned).andThen (advance_kept ..)

theorem drawRows (h : Follows c n) (hpage : 0 < n.pageCount) (cell : Cell K) (width x : K)
    (first : Bool) (lines : List WrappedLine) :
    Follows (Canvas.drawRows hook₁ cell width x first lines c)
      (Canvas.drawRows hook₂ cell width x first lines n) := by
  induction lines generalizing first c n with
  | nil => exact h
  | cons line lines ih =>
      have hmoved : Follows { c with x } { n with x } :=
        h.adjust (fun heq hc ↦ ⟨by rw [heq]; rfl, hc.error, hc.isOpen, hc.plain⟩) rfl rfl
      have hrow := fun row justify ↦ Reaches.drawRow hreaches x row justify hpage
      exact ih (drawCell hhook hreaches hmoved hpage _ _) ((hrow _ _).onPage hpage) false

theorem multiCell (h : Follows c n) (cell : Cell K) :
    Follows (multiCellWith hook₁ cell c) (multiCellWith hook₂ cell n) := by
  let lines {D' : Type} [Device K D' Output] (d : Canvas K D') : List WrappedLine :=
    Wrap.lines (d.widthOf cell - 2 * d.cellMargin) (fun cs ↦ d.stringWidth (String.ofList cs))
      cell.text.toList
  let filled (d : Canvas K D) : Canvas K D :=
    Canvas.drawRows hook₁ cell (d.widthOf cell) d.x true (lines d) d
  let filled' (m : Canvas K (Noting D)) : Canvas K (Noting D) :=
    Canvas.drawRows hook₂ cell (m.widthOf cell) m.x true (lines m) m
  refine prepared hhook hreaches h (fun d ↦ { filled d with x := (filled d).margins.left })
    (fun m ↦ { filled' m with x := (filled' m).margins.left }) (fun {c n} h hpage ↦ ?_)
      fun m hpage ↦ (Reaches.drawRows hreaches cell _ _ _ _ hpage).andThen
        ⟨rfl, rfl, rfl, rfl, .of_eq rfl rfl⟩
  obtain ⟨calls, hdraws, -⟩ :=
    drawRows_prints hook₁ cell (c.widthOf cell) c.x true (lines c) c
  refine h.andThen ?_ (fun e he ↦ hdraws.error_eq_some he)
    ((Reaches.drawRows hreaches cell _ _ _ _ hpage).andThen
        ⟨rfl, rfl, rfl, rfl, .of_eq rfl rfl⟩)
  rintro rfl hc
  refine (drawRows hhook hreaches (along hc) hpage cell (c.widthOf cell) c.x true (lines c)).adjust
    (fun heq hd ↦ ⟨?_, hd.error, hd.isOpen, hd.plain⟩) rfl rfl
  exact congrArg (fun m : Canvas K (Noting D) ↦ { m with x := m.margins.left }) heq

/-! ### Images -/

theorem imageExtent (h : Follows c n) (path : String) (width height : K) :
    Measured (imageExtentWith hook₁ path width height c)
      (imageExtentWith hook₂ path width height n) := by
  rcases prepare hhook hreaches h with ⟨heq, hc⟩ | hbroken
  · have herror : (prepareWith hook₂ n).1.error = none := by rw [heq]; exact hc.error
    rw [imageExtentWith_eq, imageExtentWith_eq, if_pos (prepareWith_possible hook₁ c hc.error),
      if_pos (prepareWith_possible hook₂ n herror), heq]
    exact .measure path width height hc
  · have himpossible : (prepareWith hook₁ c).2 ≠ true := by
      intro hpossible
      obtain ⟨e, he, -⟩ := hbroken
      rw [prepareWith_error hook₁ c hpossible] at he
      cases he
    rw [imageExtentWith_eq, imageExtentWith_eq, if_neg himpossible]
    split
    · exact .broken (hbroken.andThen (fun _ ↦ id) (.measure path width height _)) _
    · exact .broken hbroken _

theorem image (h : Follows c n) (path : String) (x y width height : K) :
    Measured (imageWith hook₁ path x y width height c)
      (imageWith hook₂ path x y width height n) := by
  rw [imageWith_eq, imageWith_eq]
  exact (imageExtent hhook hreaches h path width height).place
    (Reaches.imageExtent_pageCount hreaches path width height n) path x y

theorem flowImage (h : Follows c n) (path : String) (align : Option Align)
    (x y width height spacing : K) :
    Follows (flowImageWith hook₁ path align x y width height spacing c)
      (flowImageWith hook₂ path align x y width height spacing n) := by
  obtain ⟨calls, hdraws, -⟩ := flowImageWith_prints hook₁ path align x y width height spacing c
  refine h.andThen ?_ (fun e he ↦ hdraws.error_eq_some he)
    (.flowImage hreaches path align x y width height spacing n)
  rintro rfl hc
  have hstart : Measured (flowStart hook₁ path align width height c)
      (flowStart hook₂ path align width height c.noting) := by
    unfold flowStart
    split
    · exact imageExtent hhook hreaches (along hc) path width height
    · exact .along hc _
  rw [flowImageWith_eq, flowImageWith_eq]
  generalize flowStart hook₁ path align width height c = p at hstart
  generalize flowStart hook₂ path align width height c.noting = q at hstart
  cases hstart with
  | along hd extent =>
      exact (image hhook hreaches (along hd) path _ _ width height).flowEnd _ spacing
  | @broken d m hbroken answer =>
      -- the run that notes has an extent all the same and goes on to place the image
      refine .inr (hbroken.andThen (fun _ ↦ id) ?_)
      cases answer with
      | none => exact .refl _
      | some extent =>
          exact (Reaches.image hreaches path _ _ width height m).trans (.flowEnd _ spacing _)

/-! ### Steps -/

theorem step {s : Step K} (hs : s.Plain) (h : Follows c n) :
    Follows (stepWith hook₁ s c) (stepWith hook₂ s n) := by
  obtain ⟨calls, hdraws, -⟩ := stepWith_prints hook₁ hs c
  refine h.andThen ?_ (fun e he ↦ hdraws.error_eq_some he) (.step hreaches s n)
  rintro rfl hc
  cases s with
  | setMargins | setAutoBreak | setInfo | decorate | undecorate | registerFont | addPage | close =>
      exact hs.elim
  | setFont family style size =>
      refine .inl ⟨noting_setFont family style size c, ?_⟩
      dsimp only [stepWith, setFont]
      split <;> exact ⟨hc.error, hc.isOpen, hc.plain⟩
  | setTextColor | setFillColor | setDrawColor | setLineWidth | setX | setY | lineFeed | warn =>
      exact .inl ⟨rfl, hc.error, hc.isOpen, hc.plain⟩
  | cell cell =>
      exact prepared hhook hreaches (along hc) _ _
        (fun h hpage ↦ drawCell hhook hreaches h hpage cell false)
        fun n ↦ .drawCell hreaches cell false
  | multiCell cell => exact multiCell hhook hreaches (along hc) cell
  | line x₁ y₁ x₂ y₂ =>
      let shape {D : Type} (c : Canvas K D) : Mark K :=
        .line (x₁ * c.scale) (y₁ * c.scale) (x₂ * c.scale) (y₂ * c.scale) c.paint
      exact prepared hhook hreaches (along hc) (fun c ↦ c.put (shape c)) (fun n ↦ n.put (shape n))
        (fun h hpage ↦ h.put hpage (fun heq ↦ by rw [heq]; rfl) rfl) fun n ↦ .put rfl
  | rect x y width height radius painting =>
      let shape {D : Type} (c : Canvas K D) : Mark K :=
        .rect (c.inPoints x y width height) (Scalar.larger radius 0 * c.scale) painting c.paint
      exact prepared hhook hreaches (along hc) (fun c ↦ c.put (shape c)) (fun n ↦ n.put (shape n))
        (fun h hpage ↦ h.put hpage (fun heq ↦ by rw [heq]; rfl) rfl) fun n ↦ .put rfl
  | image path x y width height =>
      exact (image hhook hreaches (along hc) path x y width height).follows
  | imageExtent path width height =>
      exact (imageExtent hhook hreaches (along hc) path width height).follows
  | flowImage path align x y width height spacing =>
      exact flowImage hhook hreaches (along hc) path align x y width height spacing

theorem steps {steps : List (Step K)} (hsteps : ∀ s ∈ steps, s.Plain) (h : Follows c n) :
    Follows (steps.foldl (fun c s ↦ stepWith hook₁ s c) c)
      (steps.foldl (fun n s ↦ stepWith hook₂ s n) n) := by
  induction steps generalizing c n with
  | nil => exact h
  | cons s steps ih =>
      exact ih (fun t ht ↦ hsteps t (List.mem_cons_of_mem s ht))
        (step hhook hreaches (hsteps s List.mem_cons_self) h)

end

theorem hookAt (depth : Nat) (band : Origin) (h : Follows c n) :
    Follows (Canvas.hookAt depth band c) (Canvas.hookAt depth band n) := by
  induction depth generalizing band c n with
  | zero => exact h
  | succ depth ih =>
      refine h.andThen ?_ (fun e he ↦ ?_) (.hookAt _ band n)
      · rintro rfl hc
        cases hdecorator : c.decorator with
        | none =>
            have hnone : c.noting.decorator = none := hdecorator
            rw [Canvas.hookAt, Canvas.hookAt, hdecorator, hnone]
            exact along hc
        | some d =>
            have hsome : c.noting.decorator = some d := hdecorator
            have hplain := hc.plain d hdecorator
            rw [hookAt_of_some hdecorator, hookAt_of_some hsome]
            have hband : Follows { c with origin := band } { c.noting with origin := band } :=
              .inl ⟨rfl, hc.error, hc.isOpen, hc.plain⟩
            refine (steps (fun band _ _ h ↦ ih band h) (.hookAt depth)
              (bandSteps_forall hplain.header hplain.footer band) hband).adjust
                (fun heq hd ↦ ⟨?_, hd.error, hd.isOpen, hd.plain⟩) rfl rfl
            exact congrArg (fun m : Canvas K (Noting D) ↦ { m with origin := .body }) heq
      · exact (hookAt_failed (depth + 1) band c (by rw [he]; rfl)).2.trans he

theorem hook (band : Origin) (h : Follows c n) :
    Follows (Canvas.hook band c) (Canvas.hook band n) := by
  refine h.andThen ?_ (fun e he ↦ (hookAt_failed _ band c (by rw [he]; rfl)).2.trans he)
    (.hookAt _ band n)
  rintro rfl hc
  exact hookAt _ band (along hc)

theorem close (h : Follows c n) :
    n.close = c.close.noting ∧ c.close.error = none ∨ Broken c.close n.close := by
  rcases h with ⟨rfl, hc⟩ | hbroken
  · have hpaged : Follows (if c.pageCount = 0 then addPageWith Canvas.hook c else c)
        (if c.pageCount = 0 then addPageWith Canvas.hook c.noting else c.noting) := by
      split
      · exact addPage (fun band _ _ h ↦ hook band h) (fun band n ↦ .hookAt _ band n) (along hc)
      · exact along hc
    have hopen : c.noting.closed = false := hc.isOpen
    unfold Canvas.close closeWith
    rw [hc.isOpen, hopen]
    rcases hook .footer hpaged with ⟨heq, hd⟩ | hbroken
    · exact .inl ⟨congrArg (fun m : Canvas K (Noting D) ↦ { m with closed := true }) heq, hd.error⟩
    · exact .inr hbroken
  · refine .inr (hbroken.andThen (fun e he ↦ ?_) (.close (fun band n ↦ .hookAt _ band n) n))
    exact (close_frozen (.inl (by rw [he]; rfl))).2.trans he

theorem run {steps : List (Step K)} (hsteps : ∀ s ∈ steps, s.InFlow) (h : Follows c n) :
    Follows (c.run steps) (n.run steps) := by
  induction steps generalizing c n with
  | nil => exact h
  | cons s steps ih =>
      refine ih (fun t ht ↦ hsteps t (List.mem_cons_of_mem s ht)) ?_
      rcases hsteps s List.mem_cons_self with hs | rfl
      · exact step (fun band _ _ h ↦ hook band h) (fun band n ↦ .hookAt _ band n) hs h
      · exact addPage (fun band _ _ h ↦ hook band h) (fun band n ↦ .hookAt _ band n) h

end Follows

end Canvas

end PagedReport
