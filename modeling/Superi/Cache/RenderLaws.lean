import Superi.Cache.Render

/-!
# RenderLaws — when background rendering is single flight

The active keys are the keys of the calls that hold one, as long as no refused submission removes a
key that was reserved again: its own guard has released the key before, so the second removal is
harmless only while nobody took the key in between.
-/

namespace Superi
namespace Cache

open Core Result

namespace RenderSystem

/-- The call `index` answers for `frameKey`. -/
def Holds (system : RenderSystem) (index : Nat) (frameKey : FrameCacheKey) : Prop :=
  ∃ call, system.calls[index]? = some call ∧ call.phase.holds = true ∧ call.frameKey = frameKey

/-- Every active key is held by one call, and no other key is held. -/
structure Exclusive (system : RenderSystem) : Prop where
  unique : ∀ {index other : Nat} {frameKey : FrameCacheKey},
    system.Holds index frameKey → system.Holds other frameKey → index = other
  active : ∀ frameKey : FrameCacheKey,
    frameKey ∈ system.queue.active ↔ ∃ index, system.Holds index frameKey

/-! ## What one step changes -/

section Steps

variable {system : RenderSystem} {index other : Nat} {call : RenderCall} {phase next : RenderPhase}
  {frameKey : FrameCacheKey}

theorem callAt_eq_some :
    system.callAt index phase = some call ↔ system.calls[index]? = some call ∧ call.phase = phase := by
  simp [callAt, Option.filter_eq_some_iff]

@[simp] theorem removeKey_holds (removed : FrameCacheKey) :
    (system.removeKey removed).Holds index frameKey ↔ system.Holds index frameKey := Iff.rfl

@[simp] theorem mem_removeKey {removed : FrameCacheKey} :
    frameKey ∈ (system.removeKey removed).queue.active ↔
      removed ≠ frameKey ∧ frameKey ∈ system.queue.active := by
  simp [removeKey, BackgroundRenderQueue.remove, Std.ExtTreeMap.mem_erase]

/-- Moving a call to another phase changes what that call holds, and nothing else. -/
theorem setPhase_holds (h : system.calls[index]? = some call) :
    (system.setPhase index call next).Holds other frameKey ↔
      if other = index then next.holds = true ∧ call.frameKey = frameKey
      else system.Holds other frameKey := by
  obtain ⟨hlength, -⟩ := List.getElem?_eq_some_iff.1 h
  by_cases hsame : other = index
  · subst hsame
    simp [Holds, setPhase, hlength]
  · simp [Holds, setPhase, hsame, List.getElem?_set_ne (Ne.symm hsame)]

theorem holds_of_callAt (h : system.callAt index phase = some call) (hphase : phase.holds = true) :
    system.Holds index call.frameKey := by
  obtain ⟨hcall, rfl⟩ := callAt_eq_some.1 h
  exact ⟨call, hcall, hphase, rfl⟩

theorem not_holds_of_callAt (h : system.callAt index phase = some call)
    (hphase : phase.holds = false) : ¬ system.Holds index frameKey := by
  obtain ⟨hcall, rfl⟩ := callAt_eq_some.1 h
  rintro ⟨call', hcall', hholds, -⟩
  rw [hcall] at hcall'
  cases hcall'
  simp [hphase] at hholds

/-- A reservation appends a call that holds its key. -/
theorem holds_append (cancellation : JobCancellationToken) (reserved : FrameCacheKey)
    (queue : BackgroundRenderQueue) :
    Holds ⟨queue, system.calls ++ [⟨reserved, cancellation, .reserved⟩]⟩ index frameKey ↔
      system.Holds index frameKey ∨ index = system.calls.length ∧ reserved = frameKey := by
  rcases Nat.lt_trichotomy index system.calls.length with hlt | rfl | hgt
  · simp [Holds, List.getElem?_append_left hlt, Nat.ne_of_lt hlt]
  · simp [Holds, RenderPhase.holds]
  · have hnone : system.calls[index]? = none := List.getElem?_eq_none (Nat.le_of_lt hgt)
    have hnone' : (system.calls ++ [⟨reserved, cancellation, .reserved⟩])[index]? = none :=
      List.getElem?_eq_none (by rw [List.length_append]; exact hgt)
    simp only [Holds]
    rw [hnone, hnone']
    simp [Nat.ne_of_gt hgt]

end Steps

/-! ## The invariant -/

namespace Exclusive

variable {system system' : RenderSystem} {index : Nat} {call : RenderCall}
  {phase next : RenderPhase}

theorem new : Exclusive RenderSystem.new where
  unique := by
    rintro index other frameKey ⟨call, hcall, -⟩
    simp [RenderSystem.new] at hcall
  active frameKey := by
    simp [RenderSystem.new, BackgroundRenderQueue.new, Holds]

/-- A reserved key was free, so its new call is the only holder. -/
theorem reserve (h : system.Exclusive) {frameKey : FrameCacheKey}
    (cancellation : JobCancellationToken) (hfree : frameKey ∉ system.queue.active) :
    Exclusive ⟨{ system.queue with active := system.queue.active.insert frameKey cancellation },
      system.calls ++ [⟨frameKey, cancellation, .reserved⟩]⟩ := by
  have hunheld : ∀ index, ¬ system.Holds index frameKey :=
    fun index hindex => hfree ((h.active frameKey).2 ⟨index, hindex⟩)
  constructor
  · intro index other key hindex hother
    rw [holds_append] at hindex hother
    rcases hindex with hindex | ⟨rfl, rfl⟩
    · rcases hother with hother | ⟨rfl, rfl⟩
      · exact h.unique hindex hother
      · exact absurd hindex (hunheld index)
    · rcases hother with hother | ⟨rfl, -⟩
      · exact absurd hother (hunheld other)
      · rfl
  · intro key
    simp only [Std.ExtTreeMap.mem_insert, Std.LawfulEqCmp.compare_eq_iff_eq, h.active, holds_append]
    constructor
    · rintro (rfl | ⟨index, hindex⟩)
      · exact ⟨_, .inr ⟨rfl, rfl⟩⟩
      · exact ⟨index, .inl hindex⟩
    · rintro ⟨index, hindex | ⟨-, rfl⟩⟩
      · exact .inr ⟨index, hindex⟩
      · exact .inl rfl

/-- A call that keeps its key leaves every holder in place. -/
theorem keep (h : system.Exclusive) (hcall : system.callAt index phase = some call)
    (hphase : phase.holds = true) (hnext : next.holds = true) :
    (system.setPhase index call next).Exclusive := by
  have hsame : ∀ other frameKey, (system.setPhase index call next).Holds other frameKey ↔
      system.Holds other frameKey := by
    intro other frameKey
    have hindex := holds_of_callAt hcall hphase
    rw [setPhase_holds (callAt_eq_some.1 hcall).1]
    split
    case isTrue heq =>
        subst heq
        obtain ⟨call', hcall', hholds, hkey⟩ := hindex
        rw [(callAt_eq_some.1 hcall).1] at hcall'
        cases hcall'
        simp [Holds, (callAt_eq_some.1 hcall).1, hholds, hnext]
    case isFalse => rfl
  constructor
  · intro first second frameKey hfirst hsecond
    exact h.unique ((hsame ..).1 hfirst) ((hsame ..).1 hsecond)
  · intro frameKey
    simp only [hsame]
    exact h.active frameKey

/-- A call that gives its key up, as the key is removed, leaves the other holders in place.  It is
harmless to remove the key when nobody else holds it. -/
theorem release (h : system.Exclusive) (hcall : system.callAt index phase = some call)
    (hnext : next.holds = false)
    (halone : ∀ other, system.Holds other call.frameKey → other = index) :
    ((system.setPhase index call next).removeKey call.frameKey).Exclusive := by
  have hothers : ∀ other frameKey, (system.setPhase index call next).Holds other frameKey ↔
      other ≠ index ∧ system.Holds other frameKey := by
    intro other frameKey
    rw [setPhase_holds (callAt_eq_some.1 hcall).1]
    split
    case isTrue heq => simp [heq, hnext]
    case isFalse hne => simp [hne]
  constructor
  · intro first second frameKey hfirst hsecond
    rw [removeKey_holds, hothers] at hfirst hsecond
    exact h.unique hfirst.2 hsecond.2
  · intro frameKey
    rw [mem_removeKey]
    simp only [removeKey_holds, hothers]
    constructor
    · rintro ⟨hne, hactive⟩
      obtain ⟨other, hother⟩ := (h.active frameKey).1 hactive
      refine ⟨other, ?_, hother⟩
      rintro rfl
      -- the call that moves holds no key but its own
      obtain ⟨call', hcall', -, hkey⟩ := hother
      rw [(callAt_eq_some.1 hcall).1] at hcall'
      cases hcall'
      exact hne hkey
    · rintro ⟨other, hne, hother⟩
      refine ⟨?_, (h.active frameKey).2 ⟨other, hother⟩⟩
      rintro rfl
      exact hne (halone other hother)

/-- Every access keeps the keys exclusive, when a clean-up is undisturbed. -/
theorem step (h : system.Exclusive) {action : RenderAction} (hstep : system.step action = some system')
    (hundisturbed : system.Undisturbed action) : system'.Exclusive := by
  cases action with
  | submit frameKey cancellation =>
      simp only [RenderSystem.step, BackgroundRenderQueue.reserve] at hstep
      by_cases hactive : frameKey ∈ system.queue.active
      · simp [rejectIf, hactive] at hstep
        exact hstep ▸ h
      · simp [rejectIf, hactive] at hstep
        exact hstep ▸ h.reserve cancellation hactive
  | accept index =>
      simp only [RenderSystem.step, Option.bind_eq_bind, Option.bind_eq_some_iff] at hstep
      obtain ⟨call, hcall, hsystem⟩ := hstep
      cases hsystem
      exact h.keep hcall rfl rfl
  | refuse index =>
      simp only [RenderSystem.step, Option.bind_eq_bind, Option.bind_eq_some_iff] at hstep
      obtain ⟨call, hcall, hsystem⟩ := hstep
      cases hsystem
      exact h.release hcall rfl fun other hother =>
        h.unique hother (holds_of_callAt hcall rfl)
  | cleanUp index =>
      simp only [RenderSystem.step, Option.bind_eq_bind, Option.bind_eq_some_iff] at hstep
      obtain ⟨call, hcall, hsystem⟩ := hstep
      cases hsystem
      -- nobody holds the key, so the second removal finds nothing
      refine h.release hcall rfl fun other hother => ?_
      obtain ⟨call', hcall', hholds, hkey⟩ := hother
      exact absurd hkey (hundisturbed call (callAt_eq_some.1 hcall).1 call'
        (List.mem_of_getElem? hcall') hholds)
  | finish index =>
      simp only [RenderSystem.step, Option.bind_eq_bind, Option.bind_eq_some_iff] at hstep
      obtain ⟨call, hcall, hsystem⟩ := hstep
      cases hsystem
      exact h.release hcall rfl fun other hother =>
        h.unique hother (holds_of_callAt hcall rfl)
  | cancelTask index =>
      simp only [RenderSystem.step, Option.bind_eq_bind, Option.bind_eq_some_iff] at hstep
      obtain ⟨call, -, hsystem⟩ := hstep
      cases hsystem
      exact ⟨h.unique, h.active⟩
  | cancelFrame frameKey =>
      simp only [RenderSystem.step, Option.some.injEq] at hstep
      subst hstep
      have hactive : (system.queue.cancelFrame frameKey).1.active = system.queue.active := by
        simp only [BackgroundRenderQueue.cancelFrame]
        split
        · rfl
        · rfl
      exact ⟨h.unique, fun key => hactive ▸ h.active key⟩

/-- An exclusive system renders each key in single flight. -/
theorem singleFlight (h : system.Exclusive) : system.SingleFlight where
  unique := by
    intro index other call call' hcall hcall' hphase hphase' hkey
    exact h.unique ⟨call, hcall, by rw [hphase]; rfl, rfl⟩
      ⟨call', hcall', by rw [hphase']; rfl, hkey.symm⟩
  active frameKey := by
    rw [h.active]
    constructor
    · rintro ⟨index, call, hcall, hholds, hkey⟩
      exact ⟨call, List.mem_of_getElem? hcall, hholds, hkey⟩
    · rintro ⟨call, hmem, hholds, hkey⟩
      obtain ⟨index, hcall⟩ := List.mem_iff_getElem?.1 hmem
      exact ⟨index, call, hcall, hholds, hkey⟩

end Exclusive

/-! ## Disturbed clean-ups -/

/-- A clean-up of a key that was reserved again leaves a held key that is not active. -/
theorem SingleFlight.undisturbed {system system' : RenderSystem} {action : RenderAction}
    (hstep : system.step action = some system') (h : system'.SingleFlight) :
    system.Undisturbed action := by
  cases action with
  | cleanUp index =>
      simp only [RenderSystem.step, Option.bind_eq_bind, Option.bind_eq_some_iff] at hstep
      obtain ⟨call, hcall, hsystem⟩ := hstep
      cases hsystem
      intro refused hrefused other hmem hholds hkey
      rw [(callAt_eq_some.1 hcall).1] at hrefused
      cases hrefused
      obtain ⟨position, hother⟩ := List.mem_iff_getElem?.1 hmem
      -- the call that holds the key is not the refused one, so the step leaves it in place
      have hne : position ≠ index := by
        rintro rfl
        exact not_holds_of_callAt hcall rfl ⟨other, hother, hholds, hkey⟩
      have hstill : (system.setPhase index call .ended).Holds position call.frameKey := by
        rw [setPhase_holds (callAt_eq_some.1 hcall).1, if_neg hne]
        exact ⟨other, hother, hholds, hkey⟩
      obtain ⟨other', hother', hholds', hkey'⟩ := hstill
      have hactive := (h.active call.frameKey).2
        ⟨other', List.mem_of_getElem? hother', hholds', hkey'⟩
      exact absurd rfl (mem_removeKey.1 hactive).1
  | submit | accept | refuse | finish | cancelTask | cancelFrame => trivial

/-- Every state of a run is single flight exactly when no refused submission cleans up a key that
was reserved again. -/
theorem render_single_flight {actions : List RenderAction} {system : RenderSystem}
    (hrun : run actions = some system) :
    (∀ before after reached, actions = before ++ after → run before = some reached →
        reached.SingleFlight) ↔
      Machine.EveryStep step Undisturbed .new actions := by
  constructor
  · intro hflight before action after reached hactions hbefore
    -- the step itself is part of the run, so it leads somewhere
    rw [hactions] at hrun
    obtain ⟨next, hstep, -⟩ := Machine.step_of_run hrun hbefore
    have hnext : run (before ++ [action]) = some next := by
      rw [run, Machine.run_concat, hbefore]
      exact hstep
    have hsplit : actions = (before ++ [action]) ++ after := by simp [hactions]
    exact (hflight _ after next hsplit hnext).undisturbed hstep
  · intro hundisturbed before after reached hactions hbefore
    rw [hactions] at hundisturbed
    exact (Machine.invariant_of_run (fun h hcondition hstep => h.step hstep hcondition)
      Exclusive.new hbefore hundisturbed.left).singleFlight

/-- Between the drop of a refused task and the clean-up of its submission, a second submission of
the key is accepted; the clean-up removes its key, and a third is accepted beside it. -/
def twiceAccepted (frameKey : FrameCacheKey) : List RenderAction :=
  [.submit frameKey ⟨0⟩, .refuse 0, .submit frameKey ⟨1⟩, .accept 1, .cleanUp 0,
    .submit frameKey ⟨2⟩, .accept 2]

theorem not_single_flight : ¬ ∀ actions system, run actions = some system →
    system.SingleFlight := by
  intro hflight
  obtain ⟨system, hrun⟩ : ∃ system, run (twiceAccepted ⟨0⟩) = some system :=
    Option.isSome_iff_exists.1 (by decide)
  have hcalls : (run (twiceAccepted ⟨0⟩)).map calls =
      some [⟨⟨0⟩, ⟨0⟩, .ended⟩, ⟨⟨0⟩, ⟨1⟩, .accepted⟩, ⟨⟨0⟩, ⟨2⟩, .accepted⟩] := by decide
  rw [hrun] at hcalls
  have hcalls : system.calls =
    [⟨⟨0⟩, ⟨0⟩, .ended⟩, ⟨⟨0⟩, ⟨1⟩, .accepted⟩, ⟨⟨0⟩, ⟨2⟩, .accepted⟩] := Option.some.inj hcalls
  have hsame := @SingleFlight.unique _ (hflight _ _ hrun) 1 2 ⟨⟨0⟩, ⟨1⟩, .accepted⟩
    ⟨⟨0⟩, ⟨2⟩, .accepted⟩ (by rw [hcalls]; rfl) (by rw [hcalls]; rfl) rfl rfl rfl
  exact absurd hsame (by decide)

/-- Two submissions of one key, one after the other. -/
theorem render_single_flight_sequence :
    (run [.submit ⟨0⟩ ⟨0⟩, .accept 0, .finish 0, .submit ⟨0⟩ ⟨1⟩]).isSome = true ∧
      ∀ before after reached,
        [RenderAction.submit ⟨0⟩ ⟨0⟩, .accept 0, .finish 0, .submit ⟨0⟩ ⟨1⟩] = before ++ after →
        run before = some reached → reached.SingleFlight := by
  have hsome : (run
    [.submit ⟨0⟩ ⟨0⟩, .accept 0, .finish 0, .submit ⟨0⟩ ⟨1⟩]).isSome = true := by decide
  obtain ⟨system, hrun⟩ := Option.isSome_iff_exists.1 hsome
  refine ⟨hsome, (render_single_flight hrun).2 ?_⟩
  intro before action after reached hactions _
  -- none of the four accesses is a clean-up
  have hmem : action ∈ [RenderAction.submit ⟨0⟩ ⟨0⟩, .accept 0, .finish 0, .submit ⟨0⟩ ⟨1⟩] := by
    rw [hactions]
    simp
  simp only [List.mem_cons, List.not_mem_nil, or_false] at hmem
  rcases hmem with rfl | rfl | rfl | rfl
  all_goals trivial

end RenderSystem

end Cache
end Superi
