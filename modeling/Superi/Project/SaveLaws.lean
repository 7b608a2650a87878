import Superi.Project.Save

/-!
# SaveLaws — when publication is a compare-and-swap

Replacing publications of one destination exclude each other through its writer lock, and a
no-clobber publication never replaces anything.  But a no-clobber publication takes no lock: between
the validation of a replacing publication that expects absence and its rename, the hard link of
another writer may take the name.  Every run without such a link is exact.
-/

namespace Superi
namespace Project

open Core Result

/-! ## Plans -/

/-- What is found at a destination is what a plan expects there. -/
def DestinationExpectation.Matches : DestinationExpectation → Option Entry → Prop
  | .absent, none => True
  | .existing expected, some (.file generation) => expected = generation
  | _, _ => False

theorem DestinationExpectation.Matches.unique {expectation : DestinationExpectation}
    {entry other : Option Entry} (h : expectation.Matches entry) (h' : expectation.Matches other) :
    entry = other := by
  cases expectation with
  | absent =>
      cases entry with
      | some => cases h
      | none =>
          cases other with
          | some => cases h'
          | none => rfl
  | existing expected =>
      match entry, other, h, h' with
      | some (.file _), some (.file _), h, h' =>
          cases h
          cases h'
          rfl
  | unobservable => cases h

section Plan

variable {normalizeDestination : PathBuf → Except Error PathBuf}
  {load : ProjectFileGeneration → Except Error Unit} {disk : Disk} {database : ProjectDatabase}
  {command : ProjectSaveCommand} {plan : SavePlan}

theorem expectDestination_matches {destination : PathBuf} {aliasesActive : Bool}
    {expectation : DestinationExpectation}
    (h : expectDestination load disk destination aliasesActive (disk.entries destination) =
      .ok expectation) :
    expectation = .unobservable ∨ expectation.Matches (disk.entries destination) := by
  cases hentry : disk.entries destination with
  | none =>
      rw [hentry] at h
      cases h
      exact .inr trivial
  | some entry =>
      rw [hentry] at h
      cases entry with
      | other resolves =>
          simp only [expectDestination] at h
          split at h
          · cases h
            exact .inl rfl
          · cases h
      | file generation =>
          simp only [expectDestination] at h
          split at h
          case isTrue =>
              simp only [observeProjectFileGeneration, hentry, Except.ok.injEq] at h
              cases h
              exact .inr rfl
          case isFalse =>
              simp only [bind_eq_ok, pure_eq_ok] at h
              obtain ⟨_, _, rfl⟩ := h
              exact .inr rfl

/-- A plan expects what it found, and a no-clobber plan found nothing. -/
theorem planCommand_eq_ok
    (h : planCommand normalizeDestination load disk database command = .ok plan) :
    (plan.destinationExpectation = .unobservable ∨
        plan.destinationExpectation.Matches (disk.entries plan.destination)) ∧
      (plan.publicationMode = .requireAbsent → plan.destinationExpectation = .absent) := by
  simp only [planCommand, bind_eq_ok, rejectIf_eq_ok, pure_eq_ok] at h
  obtain ⟨⟨requested, collision⟩, _, destination, _, aliasesActive, _, _, _, _, _, _, _, _, hfree,
    expectation, hexpectation, activeGeneration, _, rfl⟩ := h
  refine ⟨expectDestination_matches hexpectation, fun hmode => ?_⟩
  -- a no-clobber plan was refused unless the name was free
  have hcollision : (if command.operation = .saveAs ∧ aliasesActive = true then
      ProjectDestinationCollision.replaceExisting else collision) = .requireAbsent := by
    revert hmode
    generalize (if command.operation = .saveAs ∧ aliasesActive = true then
      ProjectDestinationCollision.replaceExisting else collision) = effective
    cases effective with
    | requireAbsent => exact fun _ => rfl
    | replaceExisting => exact fun hmode => by cases hmode
  have hnone : destinationMetadata disk destination = none := by
    cases hmetadata : destinationMetadata disk destination with
    | none => rfl
    | some entry => exact absurd ⟨hcollision, by rw [hmetadata]; rfl⟩ hfree
  rw [hnone] at hexpectation
  cases hexpectation
  rfl

end Plan

/-- A commit that was validated found what its plan expects. -/
theorem validateCommit_matches {disk : Disk} {plan : SavePlan}
    (h : validateCommit disk plan = .ok ()) :
    plan.destinationExpectation.Matches (disk.entries plan.destination) := by
  simp only [validateCommit, bind_eq_ok] at h
  obtain ⟨observed, hobserved, _, _, hexpectation⟩ := h
  simp only [validateDestinationExpectation, rejectIf_eq_ok, Bool.not_eq_false] at hexpectation
  cases hentry : disk.entries plan.destination with
  | none =>
      simp only [observeCommitDestination, hentry, Except.ok.injEq] at hobserved
      subst hobserved
      cases hplan : plan.destinationExpectation with
      | absent => trivial
      | existing expected => simp [hplan] at hexpectation
      | unobservable => simp [hplan] at hexpectation
  | some entry =>
      cases entry with
      | other resolves => simp [observeCommitDestination, hentry] at hobserved
      | file generation =>
          simp only [observeCommitDestination, hentry, Except.ok.injEq] at hobserved
          subst hobserved
          cases hplan : plan.destinationExpectation with
          | absent => simp [hplan] at hexpectation
          | existing expected =>
              simp only [hplan, decide_eq_true_eq] at hexpectation
              exact hexpectation
          | unobservable => simp [hplan] at hexpectation

/-! ## Phases -/

/-- The plan under way. -/
def SavePhase.plan : SavePhase → Option SavePlan
  | .idle => none
  | .planned plan | .prepared plan _ | .locked plan _ | .validated plan _ | .published plan =>
      some plan

/-- The destination whose writer lock is held. -/
def SavePhase.held : SavePhase → Option PathBuf
  | .idle | .planned _ | .prepared _ _ => none
  | .locked plan _ | .validated plan _ => some plan.destination
  | .published plan =>
      if plan.publicationMode = .replaceExisting then some plan.destination else none

namespace SaveSystem

section Access

variable (system : SaveSystem) (writer other : Nat) (phase : SavePhase)

@[simp] theorem setPhase_disk : (system.setPhase writer phase).disk = system.disk := rfl

@[simp] theorem setPhase_phase :
    (system.setPhase writer phase).phase other = if other = writer then phase else system.phase other := by
  by_cases h : other = writer
  · subst h
    simp [SaveSystem.phase, setPhase]
  · simp [SaveSystem.phase, setPhase, h]

@[simp] theorem setPhase_database :
    (system.setPhase writer phase).database other = system.database other := by
  by_cases h : other = writer
  · subst h
    simp [database, setPhase]
  · simp [database, setPhase, h]

variable (destination : PathBuf)

@[simp] theorem unlock_entries : (system.unlock destination).disk.entries = system.disk.entries := rfl

@[simp] theorem unlock_locks : (system.unlock destination).disk.locks =
    Function.update system.disk.locks destination none := rfl

@[simp] theorem unlock_phase : (system.unlock destination).phase other = system.phase other := rfl

@[simp] theorem unlock_database :
    (system.unlock destination).database other = system.database other := rfl

variable (plan : SavePlan) (candidate : ProjectFileGeneration)

@[simp] theorem publish_entries : (system.publish writer plan candidate).disk.entries =
    Function.update system.disk.entries plan.destination (some (.file candidate)) := rfl

@[simp] theorem publish_locks :
    (system.publish writer plan candidate).disk.locks = system.disk.locks := rfl

@[simp] theorem publish_phase : (system.publish writer plan candidate).phase other =
    if other = writer then .published plan else system.phase other := by
  by_cases h : other = writer
  · subst h
    simp [SaveSystem.phase, publish]
  · simp [SaveSystem.phase, publish, h]

theorem publish_database_self : (system.publish writer plan candidate).database writer =
    acceptPublication (system.database writer) plan candidate := by
  simp [database, publish]

theorem publish_database_other {other : Nat} (h : other ≠ writer) :
    (system.publish writer plan candidate).database other = system.database other := by
  simp [database, publish, h]

end Access

/-! ## What a step can do -/

section Steps

variable (normalizeDestination : PathBuf → Except Error PathBuf)
  (load : ProjectFileGeneration → Except Error Unit)

/-- The steps of a system, with what each finds. -/
inductive StepCase (system : SaveSystem) : SaveAction → SaveSystem → Prop
  | planned (writer : Nat) (command : ProjectSaveCommand) (plan : SavePlan)
      (h : planCommand normalizeDestination load system.disk (system.database writer) command =
        .ok plan) :
      StepCase system (.plan writer command) (system.setPhase writer (.planned plan))
  | unplanned (writer : Nat) (command : ProjectSaveCommand) :
      StepCase system (.plan writer command) system
  | prepared (writer : Nat) (plan : SavePlan) (candidate : ProjectFileGeneration)
      (hphase : system.phase writer = .planned plan) :
      StepCase system (.prepare writer candidate)
        (system.setPhase writer (.prepared plan candidate))
  | locked (writer : Nat) (plan : SavePlan) (candidate : ProjectFileGeneration)
      (hphase : system.phase writer = .prepared plan candidate)
      (hmode : plan.publicationMode = .replaceExisting)
      (hfree : system.disk.locks plan.destination = none) :
      StepCase system (.lock writer) ({ system with disk := { system.disk with
        locks := Function.update system.disk.locks plan.destination (some writer) } }.setPhase writer
          (.locked plan candidate))
  | lockRefused (writer : Nat) : StepCase system (.lock writer) (system.setPhase writer .idle)
  | validated (writer : Nat) (plan : SavePlan) (candidate : ProjectFileGeneration)
      (hphase : system.phase writer = .locked plan candidate)
      (hcommit : validateCommit system.disk plan = .ok ()) :
      StepCase system (.validate writer) (system.setPhase writer (.validated plan candidate))
  | invalidated (writer : Nat) (plan : SavePlan) (candidate : ProjectFileGeneration)
      (hphase : system.phase writer = .locked plan candidate) :
      StepCase system (.validate writer) ((system.unlock plan.destination).setPhase writer .idle)
  | renamed (writer : Nat) (plan : SavePlan) (candidate : ProjectFileGeneration)
      (hphase : system.phase writer = .validated plan candidate) :
      StepCase system (.rename writer) (system.publish writer plan candidate)
  | linked (writer : Nat) (plan : SavePlan) (candidate : ProjectFileGeneration)
      (hphase : system.phase writer = .prepared plan candidate)
      (hmode : plan.publicationMode = .requireAbsent)
      (hnone : system.disk.entries plan.destination = none) :
      StepCase system (.hardLink writer) (system.publish writer plan candidate)
  | linkRefused (writer : Nat) : StepCase system (.hardLink writer) (system.setPhase writer .idle)
  | failed (writer : Nat) : StepCase system (.fail writer) (system.setPhase writer .idle)
  | failedLocked (writer : Nat) (plan : SavePlan)
      (hheld : (system.phase writer).held = some plan.destination) :
      StepCase system (.fail writer) ((system.unlock plan.destination).setPhase writer .idle)
  | released (writer : Nat) : StepCase system (.release writer) (system.setPhase writer .idle)
  | releasedLock (writer : Nat) (plan : SavePlan)
      (hheld : (system.phase writer).held = some plan.destination) :
      StepCase system (.release writer) ((system.unlock plan.destination).setPhase writer .idle)

variable {normalizeDestination load}

theorem step_cases {system system' : SaveSystem} {action : SaveAction}
    (hstep : system.step normalizeDestination load action = some system') :
    StepCase normalizeDestination load system action system' := by
  cases action with
  | plan writer command =>
      simp only [step] at hstep
      split at hstep
      case h_2 => cases hstep
      case h_1 =>
      split at hstep
      case h_1 plan hplan =>
          cases hstep
          exact .planned writer command plan hplan
      case h_2 =>
          cases hstep
          exact .unplanned writer command
  | prepare writer candidate =>
      simp only [step] at hstep
      split at hstep
      case h_2 => cases hstep
      case h_1 plan hphase =>
          cases hstep
          exact .prepared writer plan candidate hphase
  | lock writer =>
      simp only [step] at hstep
      split at hstep
      case h_2 => cases hstep
      case h_1 plan candidate hphase =>
      split at hstep
      case isFalse => cases hstep
      case isTrue hmode =>
      split at hstep
      case h_1 =>
          cases hstep
          exact .lockRefused writer
      case h_2 hfree =>
          cases hstep
          exact .locked writer plan candidate hphase hmode hfree
  | validate writer =>
      simp only [step] at hstep
      split at hstep
      case h_2 => cases hstep
      case h_1 plan candidate hphase =>
      split at hstep
      case h_1 hcommit =>
          cases hstep
          exact .validated writer plan candidate hphase hcommit
      case h_2 =>
          cases hstep
          exact .invalidated writer plan candidate hphase
  | rename writer =>
      simp only [step] at hstep
      split at hstep
      case h_2 => cases hstep
      case h_1 plan candidate hphase =>
          cases hstep
          exact .renamed writer plan candidate hphase
  | hardLink writer =>
      simp only [step] at hstep
      split at hstep
      case h_2 => cases hstep
      case h_1 plan candidate hphase =>
      split at hstep
      case isFalse => cases hstep
      case isTrue hmode =>
      split at hstep
      case h_1 =>
          cases hstep
          exact .linkRefused writer
      case h_2 hnone =>
          cases hstep
          exact .linked writer plan candidate hphase hmode hnone
  | fail writer =>
      simp only [step] at hstep
      split at hstep
      case h_1 | h_2 =>
          cases hstep
          exact .failed writer
      case h_3 plan candidate hphase =>
          cases hstep
          exact .failedLocked writer plan (by rw [hphase]; rfl)
      case h_4 plan candidate hphase =>
          cases hstep
          exact .failedLocked writer plan (by rw [hphase]; rfl)
      case h_5 | h_6 => cases hstep
  | release writer =>
      simp only [step] at hstep
      split at hstep
      case h_2 => cases hstep
      case h_1 plan hphase =>
      split at hstep
      case isTrue hmode =>
          cases hstep
          exact .releasedLock writer plan (by rw [hphase]; exact if_pos hmode)
      case isFalse =>
          cases hstep
          exact .released writer

end Steps

/-! ## The invariant -/

/-- Locks are held by who thinks so, and what was validated still stands. -/
structure Guarded (system : SaveSystem) : Prop where
  owned : ∀ {writer : Nat} {destination : PathBuf},
    (system.phase writer).held = some destination → system.disk.locks destination = some writer
  free : ∀ {writer : Nat} {plan : SavePlan}, (system.phase writer).plan = some plan →
    plan.publicationMode = .requireAbsent → plan.destinationExpectation = .absent
  replacing : ∀ {writer : Nat} {plan : SavePlan} {candidate : ProjectFileGeneration},
    (system.phase writer = .locked plan candidate ∨ system.phase writer = .validated plan candidate) →
    plan.publicationMode = .replaceExisting
  checked : ∀ {writer : Nat} {plan : SavePlan} {candidate : ProjectFileGeneration},
    system.phase writer = .validated plan candidate →
    plan.destinationExpectation.Matches (system.disk.entries plan.destination)

/-- No hard link takes a name that a replacing publication has found free and is about to replace.
-/
def Undisturbed (system : SaveSystem) : SaveAction → Prop
  | .hardLink writer => ∀ {plan : SavePlan} {candidate : ProjectFileGeneration},
      system.phase writer = .prepared plan candidate → plan.publicationMode = .requireAbsent →
      ∀ {other : Nat} {plan' : SavePlan} {candidate' : ProjectFileGeneration},
        system.phase other = .validated plan' candidate' →
        plan'.destinationExpectation = .absent → plan'.destination ≠ plan.destination
  | _ => True

namespace Guarded

variable {system : SaveSystem} {writer : Nat} {phase : SavePhase}

theorem start (entries : PathBuf → Option Entry) (databases : Nat → ProjectDatabase) :
    Guarded (SaveSystem.start entries databases) where
  owned h := by cases h
  free h := by cases h
  replacing h := by rcases h with h | h <;> cases h
  checked h := by cases h

/-- Two writers never hold the lock of one destination. -/
theorem exclusive (h : system.Guarded) {other : Nat} {destination : PathBuf}
    (hheld : (system.phase writer).held = some destination)
    (hother : (system.phase other).held = some destination) : writer = other := by
  have howned := (h.owned hheld).symm.trans (h.owned hother)
  exact Option.some.inj howned

/-- A writer moves on to a phase that holds no more than before and promises nothing new. -/
theorem setPhase (h : system.Guarded)
    (hheld : phase.held = none ∨ phase.held = (system.phase writer).held)
    (hplan : ∀ plan, phase.plan = some plan → plan.publicationMode = .requireAbsent →
      plan.destinationExpectation = .absent)
    (hreplacing : ∀ plan candidate, phase = .locked plan candidate ∨ phase = .validated plan candidate →
      plan.publicationMode = .replaceExisting)
    (hchecked : ∀ plan candidate, phase = .validated plan candidate →
      plan.destinationExpectation.Matches (system.disk.entries plan.destination)) :
    (system.setPhase writer phase).Guarded where
  owned := by
    intro other destination hother
    rw [setPhase_phase] at hother
    split at hother
    case isTrue heq =>
        subst heq
        rcases hheld with hnone | hsame
        · rw [hnone] at hother
          cases hother
        · exact h.owned (hsame ▸ hother)
    case isFalse => exact h.owned hother
  free := by
    intro other plan hother
    rw [setPhase_phase] at hother
    split at hother
    case isTrue => exact hplan plan hother
    case isFalse => exact h.free hother
  replacing := by
    intro other plan candidate hother
    rw [setPhase_phase] at hother
    split at hother
    case isTrue => exact hreplacing plan candidate hother
    case isFalse => exact h.replacing hother
  checked := by
    intro other plan candidate hother
    rw [setPhase_phase] at hother
    split at hother
    case isTrue => exact hchecked plan candidate hother
    case isFalse => exact h.checked hother

/-- A writer without a command under way holds nothing. -/
theorem setIdle (h : system.Guarded) : (system.setPhase writer .idle).Guarded :=
  h.setPhase (.inl rfl) (fun _ hplan => nomatch hplan)
    (fun _ _ hphase => by rcases hphase with hphase | hphase <;> cases hphase)
    (fun _ _ hphase => nomatch hphase)

/-- A writer gives up the lock it holds. -/
theorem unlockIdle (h : system.Guarded) {destination : PathBuf}
    (hheld : (system.phase writer).held = some destination) :
    ((system.unlock destination).setPhase writer .idle).Guarded where
  owned := by
    intro other path hother
    rw [setPhase_phase] at hother
    split at hother
    case isTrue => cases hother
    case isFalse hne =>
        have howned := h.owned hother
        have hpath : path ≠ destination := by
          rintro rfl
          exact hne (h.exclusive hother hheld)
        simpa [hpath] using howned
  free := by
    intro other plan hother
    rw [setPhase_phase] at hother
    split at hother
    case isTrue => cases hother
    case isFalse => exact h.free hother
  replacing := by
    intro other plan candidate hother
    rw [setPhase_phase] at hother
    split at hother
    case isTrue => rcases hother with hother | hother <;> cases hother
    case isFalse => exact h.replacing hother
  checked := by
    intro other plan candidate hother
    rw [setPhase_phase] at hother
    split at hother
    case isTrue => cases hother
    case isFalse => exact h.checked hother

/-- A writer takes a free lock. -/
theorem lock (h : system.Guarded) {plan : SavePlan} {candidate : ProjectFileGeneration}
    (hmode : plan.publicationMode = .replaceExisting)
    (hfree : system.disk.locks plan.destination = none) :
    ({ system with
      disk := { system.disk with
        locks := Function.update system.disk.locks plan.destination (some writer) } }.setPhase writer
          (.locked plan candidate)).Guarded where
  owned := by
    intro other path hother
    rw [setPhase_phase] at hother
    split at hother
    case isTrue heq =>
        cases hother
        simp [heq]
    case isFalse hne =>
        have howned : system.disk.locks path = some other := h.owned hother
        have hpath : path ≠ plan.destination := by
          rintro rfl
          rw [hfree] at howned
          cases howned
        simpa [hpath] using howned
  free := by
    intro other plan' hother hmode'
    rw [setPhase_phase] at hother
    split at hother
    case isTrue =>
        cases hother
        rw [hmode] at hmode'
        cases hmode'
    case isFalse => exact h.free hother hmode'
  replacing := by
    intro other plan' candidate' hother
    rw [setPhase_phase] at hother
    split at hother
    case isTrue =>
        rcases hother with hother | hother
        · cases hother
          exact hmode
        · cases hother
    case isFalse => exact h.replacing hother
  checked := by
    intro other plan' candidate' hother
    rw [setPhase_phase] at hother
    split at hother
    case isTrue => cases hother
    case isFalse => exact h.checked hother

/-- A publication leaves what the others have validated in place, unless it takes the name of one
of them. -/
theorem publish (h : system.Guarded) {plan : SavePlan} {candidate : ProjectFileGeneration}
    (hplan : (system.phase writer).plan = some plan)
    (hheld : plan.publicationMode = .replaceExisting →
      (system.phase writer).held = some plan.destination)
    (hothers : ∀ other plan' candidate', other ≠ writer →
      system.phase other = .validated plan' candidate' → plan'.destination ≠ plan.destination) :
    (system.publish writer plan candidate).Guarded where
  owned := by
    intro other path hother
    rw [publish_phase] at hother
    split at hother
    case isTrue heq =>
        simp only [SavePhase.held, Option.ite_none_right_eq_some] at hother
        obtain ⟨hmode, hdestination⟩ := hother
        cases hdestination
        subst heq
        exact h.owned (hheld hmode)
    case isFalse => exact h.owned hother
  free := by
    intro other plan' hother
    rw [publish_phase] at hother
    split at hother
    case isTrue heq =>
        cases hother
        exact h.free hplan
    case isFalse => exact h.free hother
  replacing := by
    intro other plan' candidate' hother
    rw [publish_phase] at hother
    split at hother
    case isTrue => rcases hother with hother | hother <;> cases hother
    case isFalse => exact h.replacing hother
  checked := by
    intro other plan' candidate' hother
    rw [publish_phase] at hother
    split at hother
    case isTrue => cases hother
    case isFalse hne =>
        rw [publish_entries, Function.update_of_ne (hothers other plan' candidate' hne hother)]
        exact h.checked hother

variable {system' : SaveSystem} {normalizeDestination : PathBuf → Except Error PathBuf}
  {load : ProjectFileGeneration → Except Error Unit}

/-- Every step keeps the system guarded, when a hard link is undisturbed. -/
theorem step (h : system.Guarded) {action : SaveAction} (hundisturbed : system.Undisturbed action)
    (hstep : StepCase normalizeDestination load system action system') : system'.Guarded := by
  cases hstep with
  | planned writer command plan hplan =>
      refine h.setPhase (.inl rfl) ?_ (fun _ _ hphase => by rcases hphase with hp | hp <;> cases hp)
        (fun _ _ hphase => nomatch hphase)
      intro _ hsome hmode
      cases hsome
      exact (planCommand_eq_ok hplan).2 hmode
  | prepared writer plan candidate hphase =>
      refine h.setPhase (.inl rfl) ?_ (fun _ _ hphase => by rcases hphase with hp | hp <;> cases hp)
        (fun _ _ hphase => nomatch hphase)
      intro _ hsome hmode
      cases hsome
      exact h.free (by rw [hphase]; rfl) hmode
  | locked writer plan candidate _ hmode hfree => exact h.lock hmode hfree
  | validated writer plan candidate hphase hcommit =>
      have hmode := h.replacing (.inl hphase)
      refine h.setPhase (.inr (by rw [hphase]; rfl)) ?_ ?_ ?_
      · intro _ hsome hmode'
        cases hsome
        rw [hmode] at hmode'
        cases hmode'
      · intro _ _ hvalidated
        rcases hvalidated with hvalidated | hvalidated
        · cases hvalidated
        · cases hvalidated
          exact hmode
      · intro _ _ hvalidated
        cases hvalidated
        exact validateCommit_matches hcommit
  | renamed writer plan candidate hphase =>
      have hheld : (system.phase writer).held = some plan.destination := by rw [hphase]; rfl
      refine h.publish (by rw [hphase]; rfl) (fun _ => hheld) ?_
      -- another validated writer holds another lock
      intro other plan' candidate' hne hother hsame
      have hother : (system.phase other).held = some plan.destination := by
        rw [hother]
        exact congrArg some hsame
      exact hne (h.exclusive hother hheld)
  | linked writer plan candidate hphase hmode hnone =>
      refine h.publish (by rw [hphase]; rfl) (fun hreplace => ?_) ?_
      · rw [hmode] at hreplace
        cases hreplace
      · intro other plan' candidate' _ hother hsame
        -- who validated this free name expects absence
        have hmatches := h.checked hother
        rw [hsame, hnone] at hmatches
        cases hexpectation : plan'.destinationExpectation with
        | absent => exact hundisturbed hphase hmode hother hexpectation hsame
        | existing => simp [hexpectation, DestinationExpectation.Matches] at hmatches
        | unobservable => simp [hexpectation, DestinationExpectation.Matches] at hmatches
  | invalidated writer plan candidate hphase => exact h.unlockIdle (by rw [hphase]; rfl)
  | failedLocked writer plan hheld | releasedLock writer plan hheld => exact h.unlockIdle hheld
  | lockRefused | linkRefused | failed | released => exact h.setIdle
  | unplanned => exact h

end Guarded

/-! ## Compare and swap -/

/-- The step publishes `plan`: it replaces exactly what the plan expects, and touches no other
destination and no other authority. -/
structure Publishes (reached next : SaveSystem) (writer : Nat) (plan : SavePlan)
    (candidate : ProjectFileGeneration) : Prop where
  expected : plan.destinationExpectation.Matches (reached.disk.entries plan.destination)
  entries : next.disk.entries =
    Function.update reached.disk.entries plan.destination (some (.file candidate))
  accepted : next.database writer = acceptPublication (reached.database writer) plan candidate
  others : ∀ other, other ≠ writer → next.database other = reached.database other

/-- The step leaves every destination and every authority as it is. -/
structure Keeps (reached next : SaveSystem) : Prop where
  entries : next.disk.entries = reached.disk.entries
  databases : ∀ writer, next.database writer = reached.database writer

/-- What each step may do to the files and the authorities. -/
def CompareAndSwap (reached next : SaveSystem) : SaveAction → Prop
  | .rename writer => ∃ plan candidate, (reached.phase writer).plan = some plan ∧
      Publishes reached next writer plan candidate
  | .hardLink writer => Keeps reached next ∨ ∃ plan candidate,
      (reached.phase writer).plan = some plan ∧ Publishes reached next writer plan candidate
  | .plan _ _ | .prepare _ _ | .lock _ | .validate _ | .fail _ | .release _ => Keeps reached next

theorem publishes_publish {system : SaveSystem} {writer : Nat} {plan : SavePlan}
    {candidate : ProjectFileGeneration}
    (h : plan.destinationExpectation.Matches (system.disk.entries plan.destination)) :
    Publishes system (system.publish writer plan candidate) writer plan candidate where
  expected := h
  entries := rfl
  accepted := publish_database_self ..
  others _ hne := publish_database_other _ _ _ _ hne

theorem keeps_setPhase (system : SaveSystem) (writer : Nat) (phase : SavePhase) :
    Keeps system (system.setPhase writer phase) := ⟨rfl, fun _ => setPhase_database ..⟩

theorem keeps_unlockIdle (system : SaveSystem) (writer : Nat) (destination : PathBuf) :
    Keeps system ((system.unlock destination).setPhase writer .idle) :=
  ⟨rfl, fun _ => setPhase_database ..⟩

section Runs

variable {normalizeDestination : PathBuf → Except Error PathBuf}
  {load : ProjectFileGeneration → Except Error Unit} {system system' : SaveSystem}

/-- A guarded step is a compare-and-swap, or changes nothing. -/
theorem Guarded.compareAndSwap (h : system.Guarded) {action : SaveAction}
    (hstep : StepCase normalizeDestination load system action system') :
    CompareAndSwap system system' action := by
  cases hstep with
  | renamed writer plan candidate hphase =>
      exact ⟨plan, candidate, by rw [hphase]; rfl, publishes_publish (h.checked hphase)⟩
  | linked writer plan candidate hphase hmode hnone =>
      have hplan : (system.phase writer).plan = some plan := by rw [hphase]; rfl
      refine .inr ⟨plan, candidate, hplan, publishes_publish ?_⟩
      rw [h.free hplan hmode, hnone]
      trivial
  | linkRefused => exact .inl (keeps_setPhase ..)
  | unplanned => exact ⟨rfl, fun _ => rfl⟩
  | locked => exact ⟨rfl, fun _ => setPhase_database ..⟩
  | planned | prepared | validated | lockRefused | failed | released => exact keeps_setPhase ..
  | invalidated | failedLocked | releasedLock => exact keeps_unlockIdle ..

/-- A plan under way was under way before, or was just made. -/
theorem plan_of_step {action : SaveAction} {writer : Nat} {plan : SavePlan}
    (hstep : StepCase normalizeDestination load system action system')
    (hplan : (system'.phase writer).plan = some plan) :
    (system.phase writer).plan = some plan ∨ ∃ command, action = .plan writer command ∧
      planCommand normalizeDestination load system.disk (system.database writer) command =
        .ok plan := by
  -- the writer that steps keeps its plan or gives it up
  have hkept : ∀ {mover : Nat} {phase : SavePhase} {moved : SaveSystem},
      (∀ other, moved.phase other = system.phase other) →
      (phase.plan = none ∨ phase.plan = (system.phase mover).plan) →
      ((moved.setPhase mover phase).phase writer).plan = some plan →
      (system.phase writer).plan = some plan := by
    intro mover phase moved hmoved hphase hafter
    rw [setPhase_phase] at hafter
    split at hafter
    case isTrue heq =>
        subst heq
        rcases hphase with hnone | hsame
        · rw [hnone] at hafter
          cases hafter
        · rw [← hsame]
          exact hafter
    case isFalse => rwa [hmoved] at hafter
  cases hstep with
  | planned mover command made hmade =>
      rw [setPhase_phase] at hplan
      split at hplan
      case isTrue heq =>
          cases hplan
          subst heq
          exact .inr ⟨command, rfl, hmade⟩
      case isFalse => exact .inl hplan
  | unplanned => exact .inl hplan
  | prepared mover made candidate hphase =>
      exact .inl (hkept (fun _ => rfl) (.inr (by rw [hphase]; rfl)) hplan)
  | locked mover made candidate hphase =>
      exact .inl (hkept (fun _ => rfl) (.inr (by rw [hphase]; rfl)) hplan)
  | validated mover made candidate hphase =>
      exact .inl (hkept (fun _ => rfl) (.inr (by rw [hphase]; rfl)) hplan)
  | lockRefused | linkRefused | failed | released | invalidated | failedLocked | releasedLock =>
      exact .inl (hkept (fun _ => rfl) (.inl rfl) hplan)
  | renamed mover made candidate hphase | linked mover made candidate hphase =>
      rw [publish_phase] at hplan
      split at hplan
      case isTrue heq =>
          subst heq
          rw [hphase]
          exact .inl hplan
      case isFalse => exact .inl hplan

/-- Every plan under way was made in this run, from the destination found then. -/
theorem plan_of_run {entries : PathBuf → Option Entry} {databases : Nat → ProjectDatabase}
    {actions : List SaveAction}
    (hrun : Machine.run (step normalizeDestination load) (start entries databases) actions =
      some system) {writer : Nat} {plan : SavePlan}
    (hplan : (system.phase writer).plan = some plan) :
    ∃ front seen command, front ++ [.plan writer command] <+: actions ∧
      Machine.run (step normalizeDestination load) (start entries databases) front = some seen ∧
      planCommand normalizeDestination load seen.disk (seen.database writer) command = .ok plan := by
  induction actions using List.reverseRecOn generalizing system with
  | nil =>
      cases hrun
      cases hplan
  | append_singleton front action ih =>
      rw [Machine.run_concat] at hrun
      obtain ⟨reached, hreached, hstep⟩ := Option.bind_eq_some_iff.1 hrun
      rcases plan_of_step (step_cases hstep) hplan with hplan | ⟨command, rfl, hmade⟩
      · obtain ⟨earlier, seen, command, hfront, hseen⟩ := ih hreached hplan
        exact ⟨earlier, seen, command, hfront.trans (List.prefix_append ..), hseen⟩
      · exact ⟨front, reached, command, List.prefix_refl _, hreached, hmade⟩

/-- A publishing writer saw what it replaces when it made its plan. -/
def Saw (normalizeDestination : PathBuf → Except Error PathBuf)
    (load : ProjectFileGeneration → Except Error Unit) (first : SaveSystem)
    (before : List SaveAction) (reached : SaveSystem) (writer : Nat) (plan : SavePlan) : Prop :=
  ∃ front seen command, front ++ [.plan writer command] <+: before ∧
    Machine.run (step normalizeDestination load) first front = some seen ∧
    planCommand normalizeDestination load seen.disk (seen.database writer) command = .ok plan ∧
    seen.disk.entries plan.destination = reached.disk.entries plan.destination

/-- Publication is a compare-and-swap in every run in which no hard link takes a name between the
validation and the rename of a publication that expects it free: every rename and every link that
succeeds replaces exactly what its plan expects and its writer saw, and no other step changes a
destination or an active project. -/
theorem publication_compare_and_swap {entries : PathBuf → Option Entry}
    {databases : Nat → ProjectDatabase} {actions before after : List SaveAction} {action : SaveAction}
    {reached next : SaveSystem}
    (hundisturbed : Machine.EveryStep (step normalizeDestination load) Undisturbed
      (start entries databases) actions)
    (hactions : actions = before ++ action :: after)
    (hreached : Machine.run (step normalizeDestination load) (start entries databases) before =
      some reached)
    (hnext : reached.step normalizeDestination load action = some next) :
    CompareAndSwap reached next action ∧
      ∀ writer plan candidate, (reached.phase writer).plan = some plan →
        Publishes reached next writer plan candidate →
        Saw normalizeDestination load (start entries databases) before reached writer plan := by
  have hguarded : reached.Guarded := by
    rw [hactions] at hundisturbed
    exact Machine.invariant_of_run
      (fun h hcondition hstep => h.step hcondition (step_cases hstep))
      (Guarded.start entries databases) hreached hundisturbed.left
  refine ⟨hguarded.compareAndSwap (step_cases hnext), ?_⟩
  intro writer plan candidate hplan hpublishes
  obtain ⟨front, seen, command, hfront, hseen, hmade⟩ := plan_of_run hreached hplan
  refine ⟨front, seen, command, hfront, hseen, hmade, ?_⟩
  rcases (planCommand_eq_ok hmade).1 with hunobservable | hmatches
  · -- nothing matches an expectation that could not be observed
    have hexpected := hpublishes.expected
    rw [hunobservable] at hexpected
    exact hexpected.elim
  · exact hmatches.unique hpublishes.expected

end Runs

/-! ## A lost publication -/

/-- Writers without a project of their own, on an empty directory. -/
def emptySystem : SaveSystem := start (fun _ => none) fun _ => ⟨.memory, true⟩

def generationOf (inode : Nat) : ProjectFileGeneration := ⟨0, 0, none, 0, inode, 0o600⟩

/-- A save-as finds its name free and validates it under its lock; a backup takes the name. -/
def raced : List SaveAction :=
  [.plan 0 (.saveAs "film.superi" .replaceExisting), .plan 1 (.backup "film.superi"),
    .prepare 0 (generationOf 1), .prepare 1 (generationOf 2), .lock 0, .validate 0, .hardLink 1]

/-- What a writer expects at its destination, and what is there. -/
def expectationOf (system : SaveSystem) (writer : Nat) :
    Option (DestinationExpectation × Option Entry) :=
  (system.phase writer).plan.map fun plan =>
    (plan.destinationExpectation, system.disk.entries plan.destination)

/-- The rename that follows overwrites the backup, which its writer never saw. -/
theorem not_compare_and_swap :
    ¬ ∀ (entries : PathBuf → Option Entry) (databases : Nat → ProjectDatabase)
        (before : List SaveAction) (action : SaveAction) (reached next : SaveSystem),
      Machine.run (step .ok fun _ => .ok ()) (start entries databases) before = some reached →
      reached.step .ok (fun _ => .ok ()) action = some next →
      CompareAndSwap reached next action := by
  intro hclaim
  obtain ⟨reached, hreached⟩ : ∃ reached,
      Machine.run (step .ok fun _ => .ok ()) emptySystem raced = some reached :=
    Option.isSome_iff_exists.1 (by decide +kernel)
  obtain ⟨next, hnext⟩ : ∃ next, reached.step .ok (fun _ => .ok ()) (.rename 0) = some next := by
    have hrename : ((Machine.run (step .ok fun _ => .ok ()) emptySystem raced).bind
      (step .ok (fun _ => .ok ()) · (.rename 0))).isSome = true := by decide +kernel
    rw [hreached] at hrename
    exact Option.isSome_iff_exists.1 hrename
  have hexpectation : (Machine.run (step .ok fun _ => .ok ()) emptySystem raced).bind
      (expectationOf · 0) = some (.absent, some (.file (generationOf 2))) := by decide +kernel
  rw [hreached] at hexpectation
  obtain ⟨plan, candidate, hplan, hpublishes⟩ := hclaim _ _ _ _ _ _ hreached hnext
  simp only [expectationOf, Option.bind_some, hplan, Option.map_some, Option.some.injEq,
    Prod.mk.injEq] at hexpectation
  have hexpected := hpublishes.expected
  rw [hexpectation.1, hexpectation.2] at hexpected
  exact hexpected

/-- Two save-as commands of one destination: the second waits for its turn and replaces the first.
-/
def inTurn : List SaveAction :=
  [.plan 0 (.saveAs "film.superi" .replaceExisting), .prepare 0 (generationOf 1), .lock 0,
    .validate 0, .rename 0, .release 0, .plan 1 (.saveAs "film.superi" .replaceExisting),
    .prepare 1 (generationOf 2), .lock 1, .validate 1]

theorem publication_compare_and_swap_inTurn :
    ∃ reached next, Machine.run (step .ok fun _ => .ok ()) emptySystem inTurn = some reached ∧
      reached.step .ok (fun _ => .ok ()) (.rename 1) = some next ∧
      expectationOf reached 1 =
        some (.existing (generationOf 1), some (.file (generationOf 1))) ∧
      CompareAndSwap reached next (.rename 1) := by
  obtain ⟨reached, hreached⟩ : ∃ reached,
      Machine.run (step .ok fun _ => .ok ()) emptySystem inTurn = some reached :=
    Option.isSome_iff_exists.1 (by decide +kernel)
  obtain ⟨next, hnext⟩ : ∃ next, reached.step .ok (fun _ => .ok ()) (.rename 1) = some next := by
    have hrename : ((Machine.run (step .ok fun _ => .ok ()) emptySystem inTurn).bind
      (step .ok (fun _ => .ok ()) · (.rename 1))).isSome = true := by decide +kernel
    rw [hreached] at hrename
    exact Option.isSome_iff_exists.1 hrename
  have hexpectation : (Machine.run (step .ok fun _ => .ok ()) emptySystem inTurn).bind
      (expectationOf · 1) = some (.existing (generationOf 1), some (.file (generationOf 1))) := by
    decide +kernel
  rw [hreached] at hexpectation
  have hundisturbed : Machine.EveryStep (step .ok fun _ => .ok ()) Undisturbed emptySystem
      (inTurn ++ [.rename 1]) := by
    intro before action after _ hactions _
    have hmem : action ∈ inTurn ++ [.rename 1] := by
      rw [hactions]
      simp
    -- the run has no hard link
    cases action with
    | hardLink writer => simp [inTurn] at hmem
    | plan | prepare | lock | validate | rename | fail | release => trivial
  exact ⟨reached, next, hreached, hnext, hexpectation,
    (publication_compare_and_swap hundisturbed rfl hreached hnext).1⟩

end SaveSystem

end Project
end Superi
