import PagedReport.Canvas.Recorder
import PagedReport.Proofs.Canvas.Twins

/-!
# Recorded drawing

The history of a canvas on a recorder is what the recorder was asked to draw, and layout does not
see what that was.
-/

namespace PagedReport

variable {K : Type}

namespace Canvas

/-- The recorder has recorded the history of the canvas. -/
def Recorded (c : Canvas K (Recorder K)) : Prop :=
  c.device.calls.toList = c.history.toList.map (·.2)

theorem Recorded.note {c : Canvas K (Recorder K)} (h : c.Recorded) {device : Recorder K}
    (call : Call K) (hdevice : device = c.device.put call) :
    ({ c with device }.note call).Recorded := by
  have hcalls : c.device.calls.toList = c.history.toList.map (·.2) := h
  simp [Recorded, Canvas.note, hdevice, Recorder.put, hcalls]

theorem Recorded.fail {c : Canvas K (Recorder K)} (h : c.Recorded) (e : CanvasError) :
    (c.fail e).Recorded := by
  unfold Canvas.fail
  split <;> exact h

end Canvas

variable [Scalar K]

/-- Recorders of the same files and fonts. -/
def Recorder.Agrees (r s : Recorder K) : Prop := r.files = s.files ∧ r.fonts = s.fonts

theorem Recorder.imageSize_ok {path : String} {r r' : Recorder K} {pixels : Nat × Nat}
    (h : Device.imageSize path r = .ok (pixels, r')) : pixels = (100, 100) ∧ r' = r := by
  change (if r.files.isFile path then .ok ((100, 100), r)
    else .error (CanvasError.image path .fileMissing)) = Except.ok (pixels, r') at h
  split at h
  · obtain ⟨rfl, rfl⟩ := Prod.mk.inj (Except.ok.inj h)
    exact ⟨rfl, rfl⟩
  · cases h

theorem Recorder.registerFont_calls {r r' : Recorder K} {key : FontKey} {data : ByteArray}
    (hr : r.calls = #[]) (h : Device.registerFont key data r = .ok r') : r'.calls = #[] := by
  change (if data.isEmpty then .error (CanvasError.font key.family .noData)
    else .ok { r with fonts := key :: r.fonts }) = Except.ok r' at h
  split at h
  · cases h
  · exact Except.ok.inj h ▸ hr

theorem Recorder.agreement : Agreement (Agrees (K := K)) where
  symm h := ⟨h.1.symm, h.2.symm⟩
  hasFont h key := congrArg (·.contains key) h.2
  textWidth _ _ _ _ := rfl
  pixels _ hp hq := (imageSize_ok hp).1.trans (imageSize_ok hq).1.symm
  registerFont _ _ := ⟨rfl, rfl⟩
  page _ h := h
  mark _ h := h
  load h hload := (imageSize_ok hload).2 ▸ h
  image h himage := Except.ok.inj himage ▸ h

namespace Canvas.Recorded

variable {c d : Canvas K (Recorder K)}

/-- Drawing is recorded if starting a page is. -/
theorem of_draws {hook' : Origin → Canvas K (Recorder K) → Canvas K (Recorder K)}
    {calls : List (Call K)} (h : Draws hook' c calls d)
    (hpage : ∀ {calls : List (Call K)} {e : Canvas K (Recorder K)}, Draws hook' c calls e →
      e.pageCount = 0 ∨ e.origin = .body → e.Recorded → (addPageWith hook' e).Recorded)
    (hc : c.Recorded) : d.Recorded := by
  induction h with
  | refl => exact hc
  | pen _ _ _ _ _ _ ih => exact ih
  | load _ hload ih => exact (Recorder.imageSize_ok hload).2 ▸ ih
  | mark m _ ih => exact ih.note (.mark m) rfl
  | image _ himage ih => exact ih.note _ (Except.ok.inj himage).symm
  | fail e _ ih => exact ih.fail e
  | page h hstart ih => exact hpage h hstart ih

theorem hook (hc : c.Recorded) (hsound : c.frame.Sound) (hpage : 0 < c.pageCount) {band : Origin}
    (hband : band ≠ .body) : (Canvas.hook band c).Recorded := by
  obtain ⟨depth, calls, d, hdraws, heq⟩ := hook_draws hsound band
  rw [heq]
  change d.Recorded
  refine of_draws hdraws ?_ hc
  -- a band starts no page
  intro calls e hdraws hstart _
  obtain ⟨hframe, -⟩ := hdraws.in_band hband hpage
  have hcount : e.pageCount = c.pageCount := congrArg Frame.pageCount hframe
  have horigin : e.origin = band := congrArg Frame.origin hframe
  rcases hstart with hzero | hbody
  · omega
  · exact absurd (horigin.symm.trans hbody) hband

theorem addPage (hc : c.Recorded) (hsound : c.frame.Sound) : c.addPage.Recorded := by
  cases he : c.error with
  | some e => rwa [Canvas.addPage, addPageWith, he]
  | none =>
      have hended : c.ended.Recorded := by
        unfold ended
        split
        · next hpage => exact hc.hook hsound hpage (by decide)
        · exact hc
      have hturned : c.turned.Recorded := hended.note (.page _) rfl
      obtain ⟨hframe, hsound'⟩ := turned_frame hsound
      have hpages : c.turned.pageCount = c.pageCount + 1 := congrArg Frame.pageCount hframe
      rw [Canvas.addPage, addPageWith_eq hsound he]
      exact hturned.hook hsound' (by omega) (by decide)

theorem draws (hc : c.Recorded) {calls : List (Call K)} (h : Draws Canvas.hook c calls d)
    (hsound : c.frame.Sound) : d.Recorded :=
  of_draws h (fun hdraws _ he ↦ he.addPage (hdraws.sound hsound)) hc

theorem close (hc : c.Recorded) (hsound : c.frame.Sound) (he : c.close.error = none) :
    c.close.Recorded := by
  have hpaged := (paged_draws c).sound hsound
  rw [close_eq hsound] at he ⊢
  exact (hc.draws (paged_draws c) hsound).hook hpaged
    (paged_pageCount hsound (hook_sticky hpaged he)) (by decide)

end Canvas.Recorded

end PagedReport
