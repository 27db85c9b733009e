/-
# Ece391.Adventure.Fence — what the calls into `modex.c` never touch.

The build buffer lies between two rows of guard bytes, `MEM_FENCE_MAGIC` each.  An access outside the
buffer proper makes a call fail in this model, so that a list of calls has a run at all says that no byte
outside is read or written; the fence is then as `set_mode_X` left it.

The calls come in any order.  The window may jump anywhere, and a line may be asked for that is not in it.
-/
import Ece391.Adventure.Scroll

open Ece391.Lib

namespace Ece391.Adventure

/-- The offset is on the memory fence. -/
def OnFence (o : Int) : Prop :=
  0 ≤ o ∧ o < memFenceWidth ∨
    buildBufSize + memFenceWidth ≤ o ∧ o < buildBufSize + 2 * memFenceWidth

theorem not_has_of_onFence {o : Int} (h : OnFence o) : ¬buildSpan.Has o := by
  rw [ModeX.buildSpan_has_iff]
  change 0 ≤ o ∧ o < 256 ∨ 78241 + 256 ≤ o ∧ o < 78241 + 2 * 256 at h
  omega

/-! ## What is asked for -/

/-- **`c.Asked`** — the window goes to coordinates from 0 to 1024, some line is drawn, or the screen is
shown. -/
def Call.Asked : Call → Prop
  | .setViewWindow x y => (0 ≤ x ∧ x ≤ 1024) ∧ 0 ≤ y ∧ y ≤ 1024
  | .drawHorizLine _ _ | .drawVertLine _ _ | .showScreen => True

/-! ## What holds at all times -/

/-- **`s.Guarded`** — the fence stands, every pixel of the window has its byte between the two fences, and
no two pixels share one. -/
structure ModeX.Guarded (s : ModeX) : Prop where
  fence : ∀ o, OnFence o → s.build o = memFenceMagic
  stored : ∀ x y, s.InWindow x y → buildSpan.Has (s.pixelOff x y)
  distinct : ∀ x y x' y', s.InWindow x y → s.InWindow x' y' → s.pixelOff x y = s.pixelOff x' y' →
    x = x' ∧ y = y'

/-- **`s.Keeps s'`** — every pixel in both windows has its value. -/
def ModeX.Keeps (s s' : ModeX) : Prop :=
  ∀ x y, s.InWindow x y → s'.InWindow x y → s'.build (s'.pixelOff x y) = s.build (s.pixelOff x y)

section Calls

variable {s s' : ModeX} {c : Call} {o : Int}

/-- Moving the window. -/
theorem setViewWindow_outside {x y : Int} (h : setViewWindow s x y = some s') (ho : ¬buildSpan.Has o) :
    s'.build o = s.build o := by
  unfold setViewWindow at h
  dsimp only at h
  split at h
  case isTrue =>
      obtain rfl := Option.some.inj h
      rfl
  split at h
  case isTrue =>
      obtain rfl := Option.some.inj h
      rfl
  case isFalse =>
      obtain ⟨build, hbuild, rfl⟩ := Option.map_eq_some_iff.mp h
      exact copyEach_outside hbuild ho

/-- Drawing a row. -/
theorem drawHorizLine_outside {horizLineFn : Int → Int → Line} {y ret : Int}
    (h : drawHorizLine horizLineFn s y = some (ret, s')) (ho : ¬buildSpan.Has o) :
    s'.build o = s.build o := by
  unfold drawHorizLine at h
  split at h
  case isTrue =>
      obtain ⟨-, rfl⟩ := Prod.mk.inj (Option.some.inj h)
      rfl
  case isFalse =>
      obtain ⟨build, hbuild, hs'⟩ := Option.map_eq_some_iff.mp h
      obtain ⟨-, rfl⟩ := Prod.mk.inj hs'
      have hloop := drawRow_eq (horizLineFn s.showX (y + s.showY))
        (s.img3 + (y + s.showY) * scrollXWidth) s.showX scrollXDim.toNat 0 s.build
      rw [Int.natCast_zero, Int.add_zero, Int.add_right_comm, hbuild] at hloop
      exact writeEach_outside hloop.symm ho

/-- Drawing a column. -/
theorem drawVertLine_outside {vertLineFn : Int → Int → Line} {x ret : Int}
    (h : drawVertLine vertLineFn s x = some (ret, s')) (ho : ¬buildSpan.Has o) :
    s'.build o = s.build o := by
  unfold drawVertLine at h
  split at h
  case isTrue =>
      obtain ⟨-, rfl⟩ := Prod.mk.inj (Option.some.inj h)
      rfl
  case isFalse =>
      obtain ⟨build, hbuild, hs'⟩ := Option.map_eq_some_iff.mp h
      obtain ⟨-, rfl⟩ := Prod.mk.inj hs'
      have hloop := drawColumn_eq (vertLineFn (x + s.showX) s.showY) (3 - (x + s.showX) % 4)
        (s.img3 + (x + s.showX) / 4 + s.showY * scrollXWidth) scrollYDim.toNat 0 s.build
      rw [Int.natCast_zero, Int.zero_mul, Int.add_zero, hbuild] at hloop
      exact writeEach_outside hloop.symm ho

/-- No call changes a byte outside the buffer. -/
theorem Calls.outside (h : Calls s c s') (ho : ¬buildSpan.Has o) : s'.build o = s.build o := by
  cases c with
  | setViewWindow x y => exact setViewWindow_outside h ho
  | drawHorizLine horizLineFn y =>
      obtain ⟨ret, h⟩ := h
      exact drawHorizLine_outside h ho
  | drawVertLine vertLineFn x =>
      obtain ⟨ret, h⟩ := h
      exact drawVertLine_outside h ho
  | showScreen =>
      unfold Calls showScreen at h
      dsimp only at h
      obtain ⟨video, -, rfl⟩ := Option.map_eq_some_iff.mp h
      rfl

/-- Every call succeeds on a window that fits. -/
theorem ModeX.Fits.calls (h : s.Fits) (hpage : s.OnPage) (c : Call) : ∃ s', Calls s c s' := by
  cases c with
  | setViewWindow x y =>
      obtain ⟨s', hs', -⟩ := setViewWindow_spec h x y
      exact ⟨s', hs'⟩
  | drawHorizLine horizLineFn y =>
      obtain ⟨ret, build, hs', -⟩ := drawHorizLine_spec horizLineFn h y
      exact ⟨_, ret, hs'⟩
  | drawVertLine vertLineFn x =>
      obtain ⟨ret, build, hs', -⟩ := drawVertLine_spec vertLineFn h x
      exact ⟨_, ret, hs'⟩
  | showScreen =>
      obtain ⟨s', hs', -⟩ := showScreen_spec h hpage.swap.2
      exact ⟨s', hs'⟩

/-- The invariant of the calls. -/
structure ModeX.Sane (s : ModeX) : Prop where
  fits : s.Fits
  page : s.OnPage
  fence : ∀ o, OnFence o → s.build o = memFenceMagic

theorem ModeX.Sane.step (h : s.Sane) (hcall : Calls s c s') : s'.Sane where
  fits := (hcall.fits ⟨h.fits, h.page⟩).1
  page := (hcall.fits ⟨h.fits, h.page⟩).2
  fence o ho := (hcall.outside (not_has_of_onFence ho)).trans (h.fence o ho)

theorem setModeX_sane (build : Int → UInt8) : (setModeX build).Sane where
  fits := (setModeX_fits build).1
  page := (setModeX_fits build).2
  fence _ ho := if_pos ho

theorem ModeX.Sane.guarded (h : s.Sane) : s.Guarded where
  fence := h.fence
  stored _ _ hw := h.fits.has hw
  distinct _ _ _ _ hw hw' heq := ModeX.pixelOff_inj hw hw' heq

theorem ModeX.Sane.keeps (h : s.Sane) {x y : Int} (hcall : Calls s (.setViewWindow x y) s') :
    s.Keeps s' := by
  obtain ⟨s1, hs1, -, -, -, hkept⟩ := setViewWindow_spec h.fits x y
  obtain rfl := Option.some.inj (hs1.symm.trans hcall)
  exact hkept

end Calls

/-! ## The main result -/

/-- **The window moves, the picture and the fence stay.**  From the state `set_mode_X` leaves, the calls
never access a byte outside the buffer; at all times the fence stands and the pixels of the window are in
bytes of their own between the fences; and a move of the window changes no pixel that stays visible. -/
theorem window_keeps_picture_and_fence (build : Int → UInt8) {calls : List Call}
    (hcalls : ∀ c ∈ calls, c.Asked) :
    (∃ s, Run Calls (setModeX build) calls s) ∧
      AllStates Calls ModeX.Guarded (setModeX build) calls ∧
      AllSteps Calls (fun s c => ∀ x y s', c = .setViewWindow x y → Calls s c s' → s.Keeps s')
        (setModeX build) calls := by
  have hsane : ∀ {before : List Call} {s : ModeX}, Run Calls (setModeX build) before s → s.Sane :=
    fun hrun => hrun.invariant (setModeX_sane build) fun _ _ _ h hcall => h.step hcall
  refine ⟨?_, ?_, ?_⟩
  · refine exists_run (I := ModeX.Sane) (P := Call.Asked) (fun s c h _ => ?_) (setModeX_sane build) hcalls
    obtain ⟨s', hcall⟩ := h.fits.calls h.page c
    exact ⟨s', hcall, h.step hcall⟩
  · intro before after s _ hrun
    exact (hsane hrun).guarded
  · rintro before c after s - hrun x y s' rfl hcall
    exact (hsane hrun).keeps hcall

/-- To the far corner, a row there, a row below the window, and back by less than a window. -/
theorem far_corner_keeps :
    let calls := [Call.setViewWindow 1024 1024, .drawHorizLine (fun _ _ _ => 7) 181,
      .drawHorizLine (fun _ _ _ => 7) 400, .setViewWindow 801 900]
    (∃ s, Run Calls (setModeX fun _ => 0) calls s) ∧
      AllStates Calls ModeX.Guarded (setModeX fun _ => 0) calls ∧
      AllSteps Calls (fun s c => ∀ x y s', c = .setViewWindow x y → Calls s c s' → s.Keeps s')
        (setModeX fun _ => 0) calls := by
  intro calls
  apply window_keeps_picture_and_fence
  intro c hc
  rcases List.mem_cons.mp hc with rfl | hc
  · exact ⟨by decide, by decide⟩
  rcases List.mem_cons.mp hc with rfl | hc
  · trivial
  rcases List.mem_cons.mp hc with rfl | hc
  · trivial
  obtain rfl := List.mem_singleton.mp hc
  exact ⟨by decide, by decide⟩

end Ece391.Adventure
