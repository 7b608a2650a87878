import Superi.Engine.HistoryLaws
import Superi.Lib.History

/-!
# HistoryExact — undo and redo are exact

A document with its history is a zipper of authored states.  A change records a new present, undo
steps back and redo steps forward, so as many redos as undos end where they began.
-/

namespace Superi
namespace Engine

open Core Result Project

variable {ν σ μ π ρ : Type}

namespace ProjectCommandHistory

/-! ## Plain calls -/

/-- A plain call at the current revision. -/
def undoNow (ρ : Type) (revision : Nat) : HistoryCall ν σ μ π ρ := .execute ⟨revision, .undo⟩

def redoNow (ρ : Type) (revision : Nat) : HistoryCall ν σ μ π ρ := .execute ⟨revision, .redo⟩

/-- As many undo calls as asked for, each at the revision the one before it leaves. -/
def undosFrom (ρ : Type) (revision count : Nat) : List (HistoryCall ν σ μ π ρ) :=
  (List.range count).map fun made => undoNow ρ (revision + made)

def redosFrom (ρ : Type) (revision count : Nat) : List (HistoryCall ν σ μ π ρ) :=
  (List.range count).map fun made => redoNow ρ (revision + made)

theorem undosFrom_succ (revision count : Nat) :
    (undosFrom ρ revision (count + 1) : List (HistoryCall ν σ μ π ρ)) =
      undoNow ρ revision :: undosFrom ρ (revision + 1) count := by
  simp [undosFrom, List.range_succ_eq_map, Function.comp_def, Nat.add_assoc, Nat.add_comm 1]

theorem redosFrom_succ (revision count : Nat) :
    (redosFrom ρ revision (count + 1) : List (HistoryCall ν σ μ π ρ)) =
      redoNow ρ revision :: redosFrom ρ (revision + 1) count := by
  simp [redosFrom, List.range_succ_eq_map, Function.comp_def, Nat.add_assoc, Nat.add_comm 1]

/-! ## The zipper of authored states -/

section States

variable [BEq (ProjectState ν σ μ π)]

/-- The authored states undo leads back to, the published one, and those redo leads on to. -/
def states (owner : ProjectCommandHistory ν σ μ π) : Zipper (ProjectState ν σ μ π) where
  past := owner.history.undo.map fun entry => entry.before.state
  present := owner.document.state
  future := owner.history.redo.map fun entry => entry.after.state

variable {sha256 : List UInt8 → Sha256Digest}
  {contentHash : ProjectSnapshot ν σ μ π → Except Error Sha256Digest}
  {owner owner' : ProjectCommandHistory ν σ μ π}

theorem Undone.states_back (h : Undone owner owner') (hcoherent : owner.Coherent) :
    owner.states.back = some owner'.states := by
  obtain ⟨entry, rest, hundo, hhistory, hstate⟩ := h.history
  have hpast := hcoherent.past
  rw [hundo] at hpast
  simp only [states, Zipper.back, hundo, List.map_cons, hhistory, hstate, hpast.1]

theorem Redone.states_forward (h : Redone owner owner') (hcoherent : owner.Coherent) :
    owner.states.forward = some owner'.states := by
  obtain ⟨entry, rest, hredo, hhistory, hstate⟩ := h.history
  have hfuture := hcoherent.future
  rw [hredo] at hfuture
  simp only [states, Zipper.forward, hredo, List.map_cons, hhistory, hstate, hfuture.1]

theorem Changed.states_record (h : Changed owner owner') (hcoherent : owner.Coherent) :
    owner'.states = owner.states.record owner.history.capacity owner'.document.state := by
  obtain ⟨before, after, kind, hhistory, hbefore, -⟩ := h.history
  have hundo := SnapshotHistory.record_undo
    (Nat.le_trans (Nat.le_add_right _ _) hcoherent.bounded) before after kind
  have hredo : owner'.history.redo = [] := by rw [hhistory]; rfl
  rw [← hhistory] at hundo
  simp only [states, Zipper.record, hundo, hredo, List.map_take, List.map_cons, List.map_nil,
    hbefore]

variable [PartialEquivBEq (ProjectState ν σ μ π)]

/-- Calls that succeed make one move of the states each. -/
theorem runAll_times {kind : CallKind}
    {move : Zipper (ProjectState ν σ μ π) → Option (Zipper (ProjectState ν σ μ π))}
    (hmove : ∀ {owner owner' : ProjectCommandHistory ν σ μ π}, Effect owner owner' kind →
      owner.Coherent → move owner.states = some owner'.states)
    {calls : List (HistoryCall ν σ μ π ρ)} (hcoherent : owner.Coherent)
    (hkind : ∀ call ∈ calls, call.kind = kind)
    (h : owner.runAll sha256 contentHash calls = some owner') :
    owner.states.times move calls.length = some owner'.states ∧ owner'.Coherent := by
  induction calls generalizing owner with
  | nil =>
      cases h
      exact ⟨rfl, hcoherent⟩
  | cons call rest ih =>
      simp only [runAll] at h
      split at h
      case h_1 => cases h
      case h_2 next hcall =>
      have hcases := run_cases hcoherent hcall
      rw [hkind call List.mem_cons_self] at hcases
      rcases hcases with ⟨_, hfailed, _⟩ | ⟨_, heffect, _⟩
      · cases hfailed
      · obtain ⟨hmoves, hlast⟩ := ih (heffect.coherent hcoherent)
          (fun other hmem => hkind other (List.mem_cons_of_mem _ hmem)) h
        refine ⟨?_, hlast⟩
        rw [List.length_cons, Zipper.times, hmove heffect hcoherent]
        exact hmoves

/-! ## When undo and redo succeed -/

theorem requireRevision_self (revision : Nat) : requireRevision revision revision = .ok () := by
  simp [requireRevision, rejectIf_eq_ok]

/-- Undo succeeds exactly when a change is retained and the revision has room. -/
theorem undoNow_succeeds (hcoherent : owner.Coherent) :
    (∃ owner', owner.run sha256 contentHash (undoNow ρ owner.document.revision) = (owner', .ok ())) ↔
      owner.history.undo ≠ [] ∧ owner.document.revision < Project.maxCounter := by
  constructor
  · rintro ⟨owner', h⟩
    rcases run_cases hcoherent h with ⟨_, hfailed, _⟩ | ⟨_, heffect, _⟩
    · cases hfailed
    · obtain ⟨entry, rest, hundo, -⟩ := Undone.history heffect
      exact ⟨hundo ▸ List.cons_ne_nil _ _, Undone.room heffect⟩
  · rintro ⟨hundo, hroom⟩
    have hpast := hcoherent.past
    simp only [run, undoNow, execute, requireRevision_self]
    unfold ProjectCommandHistory.undo
    split
    case h_1 hnil => exact absurd hnil hundo
    case h_2 entry rest hentry =>
        rw [hentry] at hpast
        have hproject : entry.before.projectId = owner.document.projectId := hpast.projectId
        rw [ProjectDocument.restoreSnapshot_eq_ok hproject hpast.differ hroom]
        exact ⟨_, rfl⟩

/-- Redo succeeds exactly when an undone change is retained and the revision has room. -/
theorem redoNow_succeeds (hcoherent : owner.Coherent) :
    (∃ owner', owner.run sha256 contentHash (redoNow ρ owner.document.revision) = (owner', .ok ())) ↔
      owner.history.redo ≠ [] ∧ owner.document.revision < Project.maxCounter := by
  constructor
  · rintro ⟨owner', h⟩
    rcases run_cases hcoherent h with ⟨_, hfailed, _⟩ | ⟨_, heffect, _⟩
    · cases hfailed
    · obtain ⟨entry, rest, hredo, -⟩ := Redone.history heffect
      exact ⟨hredo ▸ List.cons_ne_nil _ _, Redone.room heffect⟩
  · rintro ⟨hredo, hroom⟩
    have hfuture := hcoherent.future
    simp only [run, redoNow, execute, requireRevision_self]
    unfold ProjectCommandHistory.redo
    split
    case h_1 hnil => exact absurd hnil hredo
    case h_2 entry rest hentry =>
        rw [hentry] at hfuture
        have hproject : entry.after.projectId = owner.document.projectId := hfuture.projectId
        rw [ProjectDocument.restoreSnapshot_eq_ok hproject hfuture.differ hroom]
        exact ⟨_, rfl⟩

theorem undosFrom_succeed {count : Nat} (hcoherent : owner.Coherent)
    (hcount : count ≤ owner.history.undo.length)
    (hroom : owner.document.revision + count ≤ Project.maxCounter) :
    ∃ owner', owner.runAll sha256 contentHash (undosFrom ρ owner.document.revision count) =
        some owner' ∧ owner'.Coherent ∧ owner'.document.revision = owner.document.revision + count ∧
      owner'.history.redo.length = owner.history.redo.length + count := by
  induction count generalizing owner with
  | zero => exact ⟨owner, rfl, hcoherent, rfl, rfl⟩
  | succ count ih =>
      obtain ⟨next, hnext⟩ : ∃ next, owner.run sha256 contentHash
          (undoNow ρ owner.document.revision) = (next, .ok ()) :=
        (undoNow_succeeds hcoherent).2 ⟨List.ne_nil_of_length_pos (by omega), by omega⟩
      rcases run_cases hcoherent hnext with ⟨_, hfailed, _⟩ | ⟨_, heffect, _⟩
      · cases hfailed
      · obtain ⟨entry, rest, hundo, hhistory, -⟩ := Undone.history heffect
        have hrevision := Undone.revision heffect
        have hundoLength : next.history.undo.length + 1 = owner.history.undo.length := by
          rw [hhistory, hundo]
          rfl
        have hredoLength : next.history.redo.length = owner.history.redo.length + 1 := by
          rw [hhistory]
          rfl
        obtain ⟨last, hlast, hlastCoherent, hlastRevision, hlastRedo⟩ :=
          ih (heffect.coherent hcoherent) (by omega) (by omega)
        refine ⟨last, ?_, hlastCoherent, by omega, by omega⟩
        rw [hrevision] at hlast
        rw [undosFrom_succ]
        simp only [runAll, hnext]
        exact hlast

theorem redosFrom_succeed {count : Nat} (hcoherent : owner.Coherent)
    (hcount : count ≤ owner.history.redo.length)
    (hroom : owner.document.revision + count ≤ Project.maxCounter) :
    ∃ owner', owner.runAll sha256 contentHash (redosFrom ρ owner.document.revision count) =
        some owner' := by
  induction count generalizing owner with
  | zero => exact ⟨owner, rfl⟩
  | succ count ih =>
      obtain ⟨next, hnext⟩ : ∃ next, owner.run sha256 contentHash
          (redoNow ρ owner.document.revision) = (next, .ok ()) :=
        (redoNow_succeeds hcoherent).2 ⟨List.ne_nil_of_length_pos (by omega), by omega⟩
      rcases run_cases hcoherent hnext with ⟨_, hfailed, _⟩ | ⟨_, heffect, _⟩
      · cases hfailed
      · obtain ⟨entry, rest, hredo, hhistory, -⟩ := Redone.history heffect
        have hrevision := Redone.revision heffect
        have hredoLength : next.history.redo.length + 1 = owner.history.redo.length := by
          rw [hhistory, hredo]
          rfl
        obtain ⟨last, hlast⟩ := ih (heffect.coherent hcoherent) (by omega) (by omega)
        refine ⟨last, ?_⟩
        rw [hrevision] at hlast
        rw [redosFrom_succ]
        simp only [runAll, hnext]
        exact hlast

end States

/-! ## Exact undo and redo -/

section Exact

variable [BEq (ProjectState ν σ μ π)]

/-- Undo and redo are exact at `owner`, for every call that can be made there. -/
structure UndoRedoExact (sha256 : List UInt8 → Sha256Digest)
    (contentHash : ProjectSnapshot ν σ μ π → Except Error Sha256Digest)
    (owner : ProjectCommandHistory ν σ μ π) : Prop where
  /-- The undo side never exceeds its bound. -/
  bounded : owner.history.undo.length ≤ owner.history.capacity
  /-- A failing call leaves document, history and command log unchanged. -/
  failureKeeps : ∀ {ρ : Type} (call : HistoryCall ν σ μ π ρ) (error : Error),
    (owner.run sha256 contentHash call).2 = .error error →
      (owner.run sha256 contentHash call).1 = owner
  /-- A new change clears exactly the redo side, and the undo side keeps its newest entries. -/
  changeRecords : ∀ {ρ : Type} (edit : HistoryCall ν σ μ π ρ) (changed : ProjectCommandHistory ν σ μ π),
    edit.kind = .edit → owner.run sha256 contentHash edit = (changed, .ok ()) →
    (changed.document.state == owner.document.state) = false →
      changed.history.redo = [] ∧ changed.document.revision = owner.document.revision + 1 ∧
        ∃ entry, entry.before.state = owner.document.state ∧
          entry.after.state = changed.document.state ∧
          changed.history.undo = (entry :: owner.history.undo).take owner.history.capacity
  /-- An edit that leaves the authored state equal publishes and records nothing. -/
  equalEditKeeps : ∀ {ρ : Type} (edit : HistoryCall ν σ μ π ρ) (kept : ProjectCommandHistory ν σ μ π),
    edit.kind = .edit → owner.run sha256 contentHash edit = (kept, .ok ()) →
    (kept.document.state == owner.document.state) = true →
      kept.history = owner.history ∧ kept.document.state = owner.document.state ∧
        kept.document.revision = owner.document.revision
  /-- Undo directly after a change restores the state before it, under a larger revision. -/
  undoRestores : ∀ {ρ ρ' : Type} (edit : HistoryCall ν σ μ π ρ) (undo : HistoryCall ν σ μ π ρ')
      (changed undone : ProjectCommandHistory ν σ μ π),
    edit.kind = .edit → owner.run sha256 contentHash edit = (changed, .ok ()) →
    (changed.document.state == owner.document.state) = false →
    undo.kind = .undo → changed.run sha256 contentHash undo = (undone, .ok ()) →
      undone.document.state = owner.document.state ∧
        changed.document.revision < undone.document.revision ∧
        LogKept sha256 changed undone undo
  /-- Undo directly after a change succeeds exactly when the revision is not exhausted. -/
  undoSucceeds : ∀ {ρ ρ' : Type} (edit : HistoryCall ν σ μ π ρ)
      (changed : ProjectCommandHistory ν σ μ π),
    edit.kind = .edit → owner.run sha256 contentHash edit = (changed, .ok ()) →
    (changed.document.state == owner.document.state) = false →
      ((∃ undone, changed.run sha256 contentHash (undoNow ρ' changed.document.revision) =
        (undone, .ok ())) ↔ changed.document.revision < Project.maxCounter)
  /-- As many redos as undos restore the state they started from, and both sides with it. -/
  redosRestore : ∀ {ρ ρ' : Type} (undos : List (HistoryCall ν σ μ π ρ))
      (redos : List (HistoryCall ν σ μ π ρ')) (undone redone : ProjectCommandHistory ν σ μ π),
    (∀ call ∈ undos, call.kind = .undo) → (∀ call ∈ redos, call.kind = .redo) →
    undos.length = redos.length → owner.runAll sha256 contentHash undos = some undone →
    undone.runAll sha256 contentHash redos = some redone → redone.states = owner.states
  /-- They all succeed while changes are retained and the revision has room for them. -/
  redosSucceed : ∀ {ρ ρ' : Type} (count : Nat), count ≤ owner.history.undo.length →
    owner.document.revision + 2 * count ≤ Project.maxCounter →
      ∃ undone redone,
        owner.runAll sha256 contentHash (undosFrom ρ owner.document.revision count) = some undone ∧
        undone.runAll sha256 contentHash (redosFrom ρ' (owner.document.revision + count) count) =
          some redone

variable {sha256 : List UInt8 → Sha256Digest}
  {contentHash : ProjectSnapshot ν σ μ π → Except Error Sha256Digest}
  {owner owner' : ProjectCommandHistory ν σ μ π}

theorem Reachable.coherent [PartialEquivBEq (ProjectState ν σ μ π)]
    (h : Reachable sha256 contentHash owner) : owner.Coherent := by
  induction h with
  | new document => exact ⟨Nat.zero_le _, trivial, trivial⟩
  | @withCapacity document capacity _ h =>
      simp only [ProjectCommandHistory.withCapacity] at h
      split at h
      case isTrue => cases h
      case isFalse =>
      split at h
      case isTrue => cases h
      case isFalse =>
          cases h
          exact ⟨Nat.zero_le _, trivial, trivial⟩
  | @run owner _ _ call ih =>
      cases hrun : owner.run sha256 contentHash call with
      | mk owner₁ result =>
          rcases run_cases ih hrun with ⟨_, _, rfl⟩ | ⟨_, heffect, _⟩
          · exact ih
          · exact heffect.coherent ih

/-- A successful edit that leaves a different state recorded a change. -/
theorem changed_of_edit [EquivBEq (ProjectState ν σ μ π)] {edit : HistoryCall ν σ μ π ρ}
    (hcoherent : owner.Coherent) (hkind : edit.kind = .edit)
    (h : owner.run sha256 contentHash edit = (owner', .ok ()))
    (hdiffer : (owner'.document.state == owner.document.state) = false) :
    Changed owner owner' ∧ owner'.Coherent := by
  have hcases := run_cases hcoherent h
  rw [hkind] at hcases
  rcases hcases with ⟨_, hfailed, _⟩ | ⟨_, heffect, _⟩
  · cases hfailed
  · refine ⟨?_, heffect.coherent hcoherent⟩
    rcases heffect with hsame | hchanged
    · rw [hsame.state, BEq.rfl] at hdiffer
      cases hdiffer
    · exact hchanged

/-- Undo and redo are exact in every history a document can get into. -/
theorem undo_redo_exact [EquivBEq (ProjectState ν σ μ π)]
    (h : Reachable sha256 contentHash owner) : UndoRedoExact sha256 contentHash owner := by
  have hcoherent := h.coherent
  constructor
  case bounded => exact Nat.le_trans (Nat.le_add_right _ _) hcoherent.bounded
  case failureKeeps =>
      intro ρ call error hfailed
      rcases run_cases hcoherent (Prod.eta (owner.run sha256 contentHash call)).symm with
        ⟨_, _, hsame⟩ | ⟨hok, _⟩
      · exact hsame
      · rw [hok] at hfailed
        cases hfailed
  case changeRecords =>
      intro ρ edit changed hkind hrun hdiffer
      have hchanged := (changed_of_edit hcoherent hkind hrun hdiffer).1
      obtain ⟨before, after, kind, hhistory, hbefore, hafter⟩ := hchanged.history
      refine ⟨by rw [hhistory]; rfl, hchanged.revision, ⟨before, after, kind⟩, hbefore, hafter, ?_⟩
      rw [hhistory]
      exact SnapshotHistory.record_undo
        (Nat.le_trans (Nat.le_add_right _ _) hcoherent.bounded) before after kind
  case equalEditKeeps =>
      intro ρ edit kept hkind hrun hequal
      have hcases := run_cases hcoherent hrun
      rw [hkind] at hcases
      rcases hcases with ⟨_, hfailed, _⟩ | ⟨_, hsame | hchanged, _⟩
      · cases hfailed
      · exact ⟨hsame.history, hsame.state, hsame.revision⟩
      · rw [hchanged.differ] at hequal
        cases hequal
  case undoRestores =>
      intro ρ ρ' edit undo changed undone hkind hrun hdiffer hundoKind hundo
      obtain ⟨hchanged, hcoherent'⟩ := changed_of_edit hcoherent hkind hrun hdiffer
      have hcases := run_cases hcoherent' hundo
      rw [hundoKind] at hcases
      rcases hcases with ⟨_, hfailed, _⟩ | ⟨_, heffect, hlog⟩
      · cases hfailed
      · refine ⟨?_, ?_, hlog⟩
        · have hback := Undone.states_back heffect hcoherent'
          rw [hchanged.states_record hcoherent] at hback
          obtain ⟨capacity, hcapacity⟩ :=
            Nat.exists_eq_succ_of_ne_zero (Nat.ne_of_gt owner.history.capacityPos)
          rw [hcapacity, Zipper.back_record] at hback
          exact (congrArg Zipper.present (Option.some.inj hback)).symm
        · rw [Undone.revision heffect]
          exact Nat.lt_succ_self _
  case undoSucceeds =>
      intro ρ ρ' edit changed hkind hrun hdiffer
      obtain ⟨hchanged, hcoherent'⟩ := changed_of_edit hcoherent hkind hrun hdiffer
      obtain ⟨before, after, kind, hhistory, -⟩ := hchanged.history
      have hundo : changed.history.undo ≠ [] := by
        rw [hhistory]
        exact List.cons_ne_nil _ _
      rw [undoNow_succeeds hcoherent']
      exact and_iff_right hundo
  case redosRestore =>
      intro ρ ρ' undos redos undone redone hundoKinds hredoKinds hlength hundos hredos
      obtain ⟨hbacks, hcoherent'⟩ := runAll_times
        (fun {before after} (heffect : Effect before after .undo) => Undone.states_back heffect)
        hcoherent hundoKinds hundos
      obtain ⟨hforwards, -⟩ := runAll_times
        (fun {before after} (heffect : Effect before after .redo) => Redone.states_forward heffect)
        hcoherent' hredoKinds hredos
      have hrestored := Zipper.times_of_times Zipper.forward_eq_some_of_back hbacks
      rw [hlength, hforwards] at hrestored
      exact Option.some.inj hrestored
  case redosSucceed =>
      intro ρ ρ' count hcount hroom
      obtain ⟨undone, hundos, hcoherent', hrevision, hredo⟩ :=
        undosFrom_succeed hcoherent hcount (by omega)
      have havailable : count ≤ undone.history.redo.length := by omega
      obtain ⟨redone, hredos⟩ := redosFrom_succeed hcoherent' havailable (by omega)
      rw [hrevision] at hredos
      exact ⟨undone, redone, hundos, hredos⟩

end Exact

/-! ## A project that runs out of revisions -/

section Sample

open Graph Editorial

inductive SampleSettings
  | plain
  | tinted
  deriving DecidableEq

abbrev SampleState := ProjectState Unit SampleSettings Unit Unit

/-- The states of the sample differ in their settings alone. -/
instance : BEq SampleState := ⟨fun left right => decide (left.settings = right.settings)⟩

theorem sampleState_beq {left right : SampleState} :
    (left == right) = true ↔ left.settings = right.settings := decide_eq_true_iff

instance : EquivBEq SampleState where
  rfl := sampleState_beq.2 rfl
  symm h := sampleState_beq.2 (sampleState_beq.1 h).symm
  trans h h' := sampleState_beq.2 ((sampleState_beq.1 h).trans (sampleState_beq.1 h'))

def sampleTimeline : Timeline :=
  .new ⟨1⟩ "sequence" (.integer 24 Timebase.pos_24 Timebase.fits_24)
    (.zero (.integer 24 Timebase.pos_24 Timebase.fits_24)) []

def sampleProject : EditorialProject where
  id := ⟨2⟩
  name := "film"
  revision := 0
  mediaReferences := ∅
  mediaLibrary := ⟨∅, ∅⟩
  timelines := (∅ : Std.ExtTreeMap TimelineId Timeline).insert ⟨1⟩ sampleTimeline

def sampleState : SampleState where
  editorialProject := sampleProject
  rootTimelineId := ⟨1⟩
  settings := .plain
  graphs := (∅ : Std.ExtTreeMap GraphId (ProjectGraph Unit)).insert ⟨3⟩
    (.timeline ⟨⟨2⟩, ⟨1⟩, 0, .new ⟨3⟩⟩)
  clipMixState := ⟨0, ∅⟩
  extensionRecords := ∅

theorem sampleState_valid : sampleState.Valid := by
  obtain ⟨⟨⟩, h⟩ := exists_ok_of_isSome
    (show (sampleState.validate "edit_document").toOption.isSome = true by decide +kernel)
  exact h

theorem tintedState_valid : { sampleState with settings := .tinted : SampleState }.Valid := by
  obtain ⟨⟨⟩, h⟩ := exists_ok_of_isSome (show ({ sampleState with settings := .tinted : SampleState
    }.validate "edit_document").toOption.isSome = true by decide +kernel)
  exact h

/-- The sample document as it is opened at `revision`. -/
def sampleDocument (revision : Nat) : ProjectDocument Unit SampleSettings Unit Unit :=
  ⟨revision, sampleState, .new, sampleState_valid⟩

/-- Change the settings. -/
def tint (revision : Nat) : HistoryCall Unit SampleSettings Unit Unit Unit :=
  .executeSettingsTransaction ⟨revision, fun _ => .ok .tinted⟩

theorem sampleCapacity_pos : 0 < 64 := by decide

/-- The tinted document, which keeps its predecessor for undo. -/
def tinted (revision : Nat) : ProjectCommandHistory Unit SampleSettings Unit Unit where
  document := ⟨revision + 1, { sampleState with settings := .tinted }, .new, tintedState_valid⟩
  history := {
    capacity := 64
    undo := [⟨⟨revision, sampleState, .new, sampleState_valid⟩,
      ⟨revision + 1, { sampleState with settings := .tinted }, .new, tintedState_valid⟩,
      .projectSettings⟩]
    redo := []
    capacityPos := sampleCapacity_pos }

theorem tint_run {revision : Nat} (h : revision < Project.maxCounter) :
    (new (sampleDocument revision)).run (fun _ => 0) (fun _ => .ok 0) (tint revision) =
      (tinted revision, .ok ()) := by
  have htransaction : (new (sampleDocument revision)).executeSettingsTransaction
      ⟨revision, fun _ => .ok .tinted⟩ = (tinted revision, .ok (tinted revision).document.snapshot) :=
    @executeSettingsTransaction_eq_ok _ _ _ _ _ (new (sampleDocument revision))
      (fun _ => .ok .tinted) .tinted rfl tintedState_valid rfl h
  simp only [run, tint, htransaction]
  rfl

/-- An undo directly after a change need not restore anything: at the last revision it fails. -/
theorem not_undo_after_change :
    ¬ ∀ owner changed : ProjectCommandHistory Unit SampleSettings Unit Unit,
      Reachable (fun _ => 0) (fun _ => .ok 0) owner →
      ∀ edit : HistoryCall Unit SampleSettings Unit Unit Unit, edit.kind = .edit →
        owner.run (fun _ => 0) (fun _ => .ok 0) edit = (changed, .ok ()) →
        (changed.document.state == owner.document.state) = false →
        ∃ undone, changed.run (fun _ => 0) (fun _ => .ok 0)
            (undoNow Unit changed.document.revision) = (undone, .ok ()) ∧
          undone.document.state = owner.document.state := by
  intro hclaim
  have hroom : 18446744073709551614 < Project.maxCounter := by decide
  have hreachable : Reachable (fun _ => 0) (fun _ => .ok 0)
    (new (sampleDocument 18446744073709551614)) := .new _
  have htint := tint_run hroom
  obtain ⟨undone, hundone, -⟩ := hclaim _ _ hreachable (tint 18446744073709551614) rfl htint rfl
  have hcoherent : (tinted 18446744073709551614).Coherent := by
    have hnext := (Reachable.run hreachable (tint 18446744073709551614)).coherent
    rwa [htint] at hnext
  have hfull := ((undoNow_succeeds hcoherent).1 ⟨undone, hundone⟩).2
  exact absurd hfull (by decide)

/-- The sample document, one change after it was opened. -/
theorem undo_redo_exact_tinted :
    Reachable (fun _ => 0) (fun _ => .ok 0) (tinted 0) ∧
      UndoRedoExact (fun _ => 0) (fun _ => .ok 0) (tinted 0) := by
  have hreachable : Reachable (fun _ => 0) (fun _ => .ok 0) (tinted 0) := by
    have hopened : Reachable (fun _ => 0) (fun _ => .ok 0) (new (sampleDocument 0)) := .new _
    have hnext := hopened.run (tint 0)
    rwa [tint_run (by decide)] at hnext
  exact ⟨hreachable, undo_redo_exact hreachable⟩

end Sample

end ProjectCommandHistory

end Engine
end Superi
