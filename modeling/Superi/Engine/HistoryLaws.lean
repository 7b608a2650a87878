import Superi.Engine.History
import Superi.Project.DocumentLaws

/-!
# HistoryLaws — what a call does to a document and its history

The retained changes lead from state to state up to the one the document publishes, and on to the
states that were undone.  Every call either fails and changes nothing, or publishes and records
nothing, one change, one undo or one redo, and the retained changes stay joined.
-/

namespace Superi
namespace Engine

open Core Result Project

variable {ν σ μ π ρ : Type}

/-! ## Chains of retained changes -/

section Chains

variable [BEq (ProjectState ν σ μ π)]

/-- A retained change leads to a different state of the same project. -/
structure HistoryEntry.Proper {M : Type} (entry : HistoryEntry (ProjectSnapshot ν σ μ π) M) :
    Prop where
  project : entry.after.projectId = entry.before.projectId
  differ : (entry.after.state == entry.before.state) = false

/-- The changes, newest first, lead up to `present`. -/
def PastOf {M : Type} : ProjectState ν σ μ π → List (HistoryEntry (ProjectSnapshot ν σ μ π) M) → Prop
  | _, [] => True
  | present, entry :: rest =>
      entry.after.state = present ∧ entry.Proper ∧ PastOf entry.before.state rest

/-- The undone changes, the next one first, lead on from `present`. -/
def FutureOf {M : Type} : ProjectState ν σ μ π → List (HistoryEntry (ProjectSnapshot ν σ μ π) M) → Prop
  | _, [] => True
  | present, entry :: rest =>
      entry.before.state = present ∧ entry.Proper ∧ FutureOf entry.after.state rest

theorem PastOf.take {M : Type} {present : ProjectState ν σ μ π}
    {entries : List (HistoryEntry (ProjectSnapshot ν σ μ π) M)} (h : PastOf present entries)
    (count : Nat) : PastOf present (entries.take count) := by
  induction entries generalizing present count with
  | nil => simpa using h
  | cons entry rest ih =>
      cases count with
      | zero => trivial
      | succ count => exact ⟨h.1, h.2.1, ih h.2.2 count⟩

theorem FutureOf.projectId {M : Type} {present : ProjectState ν σ μ π}
    {entry : HistoryEntry (ProjectSnapshot ν σ μ π) M}
    {rest : List (HistoryEntry (ProjectSnapshot ν σ μ π) M)}
    (h : FutureOf present (entry :: rest)) : entry.after.projectId = present.projectId :=
  h.2.1.project.trans (congrArg ProjectState.projectId h.1)

theorem PastOf.projectId {M : Type} {present : ProjectState ν σ μ π}
    {entry : HistoryEntry (ProjectSnapshot ν σ μ π) M}
    {rest : List (HistoryEntry (ProjectSnapshot ν σ μ π) M)}
    (h : PastOf present (entry :: rest)) : entry.before.projectId = present.projectId :=
  h.2.1.project.symm.trans (congrArg ProjectState.projectId h.1)

/-- The state to go back to is never the one already published. -/
theorem PastOf.differ [PartialEquivBEq (ProjectState ν σ μ π)] {M : Type}
    {present : ProjectState ν σ μ π} {entry : HistoryEntry (ProjectSnapshot ν σ μ π) M}
    {rest : List (HistoryEntry (ProjectSnapshot ν σ μ π) M)}
    (h : PastOf present (entry :: rest)) : (entry.before.state == present) = false := by
  rw [BEq.comm, ← h.1]
  exact h.2.1.differ

theorem FutureOf.differ {M : Type} {present : ProjectState ν σ μ π}
    {entry : HistoryEntry (ProjectSnapshot ν σ μ π) M}
    {rest : List (HistoryEntry (ProjectSnapshot ν σ μ π) M)}
    (h : FutureOf present (entry :: rest)) : (entry.after.state == present) = false := by
  rw [← h.1]
  exact h.2.1.differ

/-- The retained changes join the states around the published one, within the bound. -/
structure ProjectCommandHistory.Coherent (owner : ProjectCommandHistory ν σ μ π) : Prop where
  bounded : owner.history.undo.length + owner.history.redo.length ≤ owner.history.capacity
  past : PastOf owner.document.state owner.history.undo
  future : FutureOf owner.document.state owner.history.redo

end Chains

/-- A full side loses its oldest entry, so the newest ones are kept. -/
theorem SnapshotHistory.record_undo {S M : Type} {history : SnapshotHistory S M}
    (h : history.undo.length ≤ history.capacity) (before after : S) (metadata : M) :
    (history.record before after metadata).undo =
      (⟨before, after, metadata⟩ :: history.undo).take history.capacity := by
  obtain ⟨capacity, hcapacity⟩ := Nat.exists_eq_succ_of_ne_zero (Nat.ne_of_gt history.capacityPos)
  rw [hcapacity] at h ⊢
  rw [List.take_succ_cons]
  simp only [record, hcapacity]
  split
  case isTrue hfull => rw [List.dropLast_eq_take, hfull, Nat.succ_sub_one]
  case isFalse hroom => rw [List.take_of_length_le (by omega)]

/-! ## Calls -/

/-- What a call asks for. -/
inductive CallKind
  | edit
  | undo
  | redo
  | inspect
  | recover
  deriving DecidableEq, Repr

def ProjectHistoryAction.callKind : ProjectHistoryAction ν σ μ π ρ → CallKind
  | .apply _ => .edit
  | .undo => .undo
  | .redo => .redo

/-- One call of the owner. -/
inductive HistoryCall (ν σ μ π ρ : Type)
  | execute (command : ProjectHistoryCommand ν σ μ π ρ)
  | executeRecorded (recorded : RecordedProjectCommand ν σ μ π ρ) (commandSequence : Nat)
  | executeSettingsTransaction (transaction : ProjectSettingsTransaction σ)
  | restoreRecovery (expectedRevision : Nat) (target : ProjectSnapshot ν σ μ π)

def HistoryCall.kind : HistoryCall ν σ μ π ρ → CallKind
  | .execute command => command.action.callKind
  | .executeRecorded recorded _ =>
      (recorded.command.map fun command => command.action.callKind).getD .inspect
  | .executeSettingsTransaction _ => .edit
  | .restoreRecovery _ _ => .recover

namespace ProjectCommandHistory

section Runs

variable [BEq (ProjectState ν σ μ π)] (sha256 : List UInt8 → Sha256Digest)
  (contentHash : ProjectSnapshot ν σ μ π → Except Error Sha256Digest)

/-- Make one call, and keep whether it succeeded. -/
def run (owner : ProjectCommandHistory ν σ μ π) :
    HistoryCall ν σ μ π ρ → ProjectCommandHistory ν σ μ π × Except Error Unit
  | .execute command => ((owner.execute command).1, (owner.execute command).2.map fun _ => ())
  | .executeRecorded recorded commandSequence =>
      ((owner.executeRecorded sha256 contentHash recorded commandSequence).1,
        (owner.executeRecorded sha256 contentHash recorded commandSequence).2.map fun _ => ())
  | .executeSettingsTransaction transaction =>
      ((owner.executeSettingsTransaction transaction).1,
        (owner.executeSettingsTransaction transaction).2.map fun _ => ())
  | .restoreRecovery expectedRevision target =>
      match owner.prepareRecoveryRestore expectedRevision target with
      | .error error => (owner, .error error)
      | .ok candidate =>
          -- a recovered state that is already published is not committed
          if candidate.revision ≠ owner.document.revision then
            (owner.commitRecoveryRestore candidate, .ok ())
          else (owner, .ok ())

/-- Make several calls, as long as they succeed. -/
def runAll (owner : ProjectCommandHistory ν σ μ π) :
    List (HistoryCall ν σ μ π ρ) → Option (ProjectCommandHistory ν σ μ π)
  | [] => some owner
  | call :: rest =>
      match owner.run sha256 contentHash call with
      | (_, .error _) => none
      | (owner', .ok ()) => owner'.runAll rest

/-- The histories a document can get into, through calls that succeed or fail. -/
inductive Reachable : ProjectCommandHistory ν σ μ π → Prop
  | new (document : ProjectDocument ν σ μ π) : Reachable (.new document)
  | withCapacity {document : ProjectDocument ν σ μ π} {capacity : Nat}
      {owner : ProjectCommandHistory ν σ μ π} (h : withCapacity document capacity = .ok owner) :
      Reachable owner
  | run {owner : ProjectCommandHistory ν σ μ π} {ρ : Type} (h : Reachable owner)
      (call : HistoryCall ν σ μ π ρ) : Reachable (owner.run sha256 contentHash call).1

end Runs

/-! ## Effects -/

section Effects

/-- Nothing was published, and nothing recorded. -/
structure Same (owner owner' : ProjectCommandHistory ν σ μ π) : Prop where
  history : owner'.history = owner.history
  state : owner'.document.state = owner.document.state
  revision : owner'.document.revision = owner.document.revision

/-- A different state was published, and the change recorded. -/
structure Changed [BEq (ProjectState ν σ μ π)] (owner owner' : ProjectCommandHistory ν σ μ π) :
    Prop where
  history : ∃ before after kind, owner'.history = owner.history.record before after kind ∧
    before.state = owner.document.state ∧ after.state = owner'.document.state
  revision : owner'.document.revision = owner.document.revision + 1
  differ : (owner'.document.state == owner.document.state) = false
  project : owner'.document.projectId = owner.document.projectId

/-- The newest change was taken back. -/
structure Undone (owner owner' : ProjectCommandHistory ν σ μ π) : Prop where
  history : ∃ entry rest, owner.history.undo = entry :: rest ∧
    owner'.history = { owner.history with undo := rest, redo := entry :: owner.history.redo } ∧
    owner'.document.state = entry.before.state
  revision : owner'.document.revision = owner.document.revision + 1
  room : owner.document.revision < Project.maxCounter

/-- The newest undone change was made again. -/
structure Redone (owner owner' : ProjectCommandHistory ν σ μ π) : Prop where
  history : ∃ entry rest, owner.history.redo = entry :: rest ∧
    owner'.history = { owner.history with redo := rest, undo := entry :: owner.history.undo } ∧
    owner'.document.state = entry.after.state
  revision : owner'.document.revision = owner.document.revision + 1
  room : owner.document.revision < Project.maxCounter

/-- What a successful call does to the document and the two sides. -/
def Effect [BEq (ProjectState ν σ μ π)] (owner owner' : ProjectCommandHistory ν σ μ π) :
    CallKind → Prop
  | .edit => Same owner owner' ∨ Changed owner owner'
  | .undo => Undone owner owner'
  | .redo => Redone owner owner'
  | .inspect => Same owner owner'
  | .recover => Same owner owner' ∨ owner'.history = .new owner.history.capacity owner.capacityPos

/-- What a successful call does to the command log: a recorded command appends its record, no other
call touches it. -/
def LogKept (sha256 : List UInt8 → Sha256Digest) (owner owner' : ProjectCommandHistory ν σ μ π) :
    HistoryCall ν σ μ π ρ → Prop
  | .executeRecorded recorded commandSequence =>
      ∃ beforeHash afterHash changed record, owner.document.commandLog.append sha256 recorded.record
        commandSequence owner.document.revision owner'.document.revision beforeHash afterHash changed =
          (owner'.document.commandLog, .ok record)
  | .execute _ | .executeSettingsTransaction _ | .restoreRecovery _ _ =>
      owner'.document.commandLog = owner.document.commandLog

end Effects

/-! ## What each call does -/

section Calls

variable [BEq (ProjectState ν σ μ π)] {owner owner' : ProjectCommandHistory ν σ μ π}
  {expectedRevision : Nat}

/-- Every mutation that reaches its edit ends as the edit does. -/
theorem wrappedEdit_cases {document document' : ProjectDocument ν σ μ π}
    {result : Except Error (ProjectHistoryActionResult ρ)} (edit : DraftEdit ν σ μ π ρ)
    (wrap : ρ → ProjectHistoryActionResult ρ)
    (h : (match document.edit expectedRevision edit with
      | (document, .error error) => (document, .error error)
      | (document, .ok (_, reported)) => (document, .ok (wrap reported))) = (document', result)) :
    (∃ error, result = .error error ∧ document' = document) ∨
      (∃ action, result = .ok action) ∧ (document' = document ∨ Published document document') := by
  split at h
  case h_1 edited error hrun =>
      cases h
      rcases ProjectDocument.edit_cases hrun with ⟨_, _, hsame⟩ | ⟨_, hok, _⟩
      · exact .inl ⟨error, rfl, hsame⟩
      · cases hok
  case h_2 edited snapshot reported hrun =>
      cases h
      rcases ProjectDocument.edit_cases hrun with ⟨_, hfailed, _⟩ | ⟨_, _, hdocument⟩
      · cases hfailed
      · exact .inr ⟨⟨_, rfl⟩, hdocument⟩

theorem executeMutation_cases {document document' : ProjectDocument ν σ μ π}
    {mutation : ProjectMutation ν σ μ π ρ} {result : Except Error (ProjectHistoryActionResult ρ)}
    (h : executeMutation document expectedRevision mutation = (document', result)) :
    (∃ error, result = .error error ∧ document' = document) ∨
      (∃ action, result = .ok action) ∧ (document' = document ∨ Published document document') := by
  cases mutation with
  | compound transaction => exact wrappedEdit_cases transaction .appliedCompound h
  | media kind preview command =>
      simp only [executeMutation] at h
      split at h
      case h_1 error _ =>
          cases h
          exact .inl ⟨error, rfl, rfl⟩
      case h_2 _ =>
      split at h
      case h_1 error _ =>
          cases h
          exact .inl ⟨error, rfl, rfl⟩
      case h_2 reported _ =>
          cases h
          exact .inr ⟨⟨_, rfl⟩, .inl rfl⟩
      case h_3 _ => exact wrappedEdit_cases command (.applied kind) h
  | extension kind command =>
      simp only [executeMutation] at h
      split at h
      case h_1 error _ =>
          cases h
          exact .inl ⟨error, rfl, rfl⟩
      case h_2 _ => exact wrappedEdit_cases command (.appliedExtension kind) h

/-- Recording a published change, or nothing. -/
theorem effect_of_published {document : ProjectDocument ν σ μ π} {kind : ProjectMutationKind}
    (h : document = owner.document ∨ Published owner.document document) :
    Effect owner ⟨document, if document.snapshot.revision ≠ owner.document.snapshot.revision then
      owner.history.record owner.document.snapshot document.snapshot kind else owner.history⟩ .edit := by
  rcases h with rfl | h
  · refine .inl ⟨?_, rfl, rfl⟩
    rw [if_neg]
    exact fun hne => hne rfl
  · have hne : document.snapshot.revision ≠ owner.document.snapshot.revision := by
      simp only [ProjectDocument.snapshot, h.revision]
      exact Nat.succ_ne_self _
    rw [if_pos hne]
    exact .inr {
      history := ⟨_, _, _, rfl, rfl, rfl⟩
      revision := h.revision
      differ := h.state
      project := h.project }

theorem commandLog_of_published {document document' : ProjectDocument ν σ μ π}
    (h : document' = document ∨ Published document document') :
    document'.commandLog = document.commandLog := by
  rcases h with rfl | h
  · rfl
  · exact h.commandLog

theorem apply_cases {mutation : ProjectMutation ν σ μ π ρ}
    {result : Except Error (ProjectHistoryOutcome ν σ μ π ρ)}
    (h : owner.apply expectedRevision mutation = (owner', result)) :
    (∃ error, result = .error error ∧ owner' = owner) ∨
      (∃ outcome, result = .ok outcome) ∧ Effect owner owner' .edit ∧
        owner'.document.commandLog = owner.document.commandLog := by
  simp only [ProjectCommandHistory.apply] at h
  split at h
  case h_1 document error hmutation =>
      cases h
      rcases executeMutation_cases hmutation with ⟨_, _, rfl⟩ | ⟨⟨_, hok⟩, _⟩
      · exact .inl ⟨error, rfl, rfl⟩
      · cases hok
  case h_2 document action hmutation =>
      cases h
      rcases executeMutation_cases hmutation with ⟨_, hfailed, _⟩ | ⟨_, hdocument⟩
      · cases hfailed
      · refine .inr ⟨⟨_, rfl⟩, ?_, commandLog_of_published hdocument⟩
        simpa only [decide_eq_true_eq] using effect_of_published hdocument

/-- Settings that differ are published and recorded whenever the revision has room. -/
theorem executeSettingsTransaction_eq_ok {apply : σ → Except Error σ} {settings : σ}
    (hrun : apply owner.document.state.settings = .ok settings)
    (hvalid : { owner.document.state with settings }.Valid)
    (hstate : ({ owner.document.state with settings } == owner.document.state) = false)
    (hroom : owner.document.revision < Project.maxCounter) :
    owner.executeSettingsTransaction ⟨owner.document.revision, apply⟩ =
      (⟨{ owner.document with revision := owner.document.revision + 1,
                              state := { owner.document.state with settings }, valid := hvalid },
        owner.history.record owner.document.snapshot ⟨owner.document.revision + 1,
          { owner.document.state with settings }, owner.document.commandLog, hvalid⟩
          .projectSettings⟩,
        .ok ⟨owner.document.revision + 1, { owner.document.state with settings },
          owner.document.commandLog, hvalid⟩) := by
  have hrecorded : owner.document.revision + 1 ≠ owner.document.revision := Nat.succ_ne_self _
  simp only [ProjectCommandHistory.executeSettingsTransaction,
    ProjectDocument.executeSettingsTransaction_eq_ok hrun hvalid hstate hroom]
  rw [if_pos]
  exact hrecorded

theorem executeSettingsTransaction_cases {transaction : ProjectSettingsTransaction σ}
    {result : Except Error (ProjectSnapshot ν σ μ π)}
    (h : owner.executeSettingsTransaction transaction = (owner', result)) :
    (∃ error, result = .error error ∧ owner' = owner) ∨
      (∃ snapshot, result = .ok snapshot) ∧ Effect owner owner' .edit ∧
        owner'.document.commandLog = owner.document.commandLog := by
  simp only [ProjectCommandHistory.executeSettingsTransaction] at h
  split at h
  case h_1 document error htransaction =>
      cases h
      rcases ProjectDocument.executeSettingsTransaction_cases htransaction with
        ⟨_, _, rfl⟩ | ⟨hok, _⟩
      · exact .inl ⟨error, rfl, rfl⟩
      · cases hok
  case h_2 document after htransaction =>
      cases h
      rcases ProjectDocument.executeSettingsTransaction_cases htransaction with
        ⟨_, hfailed, _⟩ | ⟨hok, hdocument⟩
      · cases hfailed
      · cases hok
        exact .inr ⟨⟨_, rfl⟩, effect_of_published hdocument, commandLog_of_published hdocument⟩

/-- An effect does not depend on the command log it ends with. -/
theorem Effect.withLog {kind : CallKind} (h : Effect owner owner' kind)
    (commandLog : ProjectCommandLog) :
    Effect owner { owner' with document := { owner'.document with commandLog } } kind := by
  cases kind with
  | edit =>
      rcases h with h | h
      · exact .inl ⟨h.history, h.state, h.revision⟩
      · exact .inr ⟨h.history, h.revision, h.differ, h.project⟩
  | undo => exact ⟨h.history, h.revision, h.room⟩
  | redo => exact ⟨h.history, h.revision, h.room⟩
  | inspect => exact ⟨h.history, h.state, h.revision⟩
  | recover =>
      rcases h with h | h
      · exact .inl ⟨h.history, h.state, h.revision⟩
      · exact .inr h

theorem redo_cases (hcoherent : owner.Coherent)
    {result : Except Error (ProjectHistoryOutcome ν σ μ π ρ)}
    (h : owner.redo expectedRevision = (owner', result)) :
    (∃ error, result = .error error ∧ owner' = owner) ∨
      (∃ outcome, result = .ok outcome) ∧ Effect owner owner' .redo ∧
        owner'.document.commandLog = owner.document.commandLog := by
  unfold ProjectCommandHistory.redo at h
  split at h
  case h_1 _ =>
      cases h
      exact .inl ⟨_, rfl, rfl⟩
  case h_2 entry rest hredo =>
  have hfuture := hcoherent.future
  rw [hredo] at hfuture
  split at h
  case h_1 document error hrestore =>
      cases h
      rcases ProjectDocument.restoreSnapshot_cases hrestore with ⟨_, _, rfl⟩ | ⟨⟨_, hok⟩, _⟩
      · exact .inl ⟨error, rfl, rfl⟩
      · cases hok
  case h_2 document snapshot hrestore =>
      cases h
      rcases ProjectDocument.restoreSnapshot_cases hrestore with
        ⟨_, hfailed, _⟩ | ⟨_, _, _, ⟨hsame, _⟩ | ⟨_, hroom, rfl⟩⟩
      · cases hfailed
      · exact absurd hsame (Bool.eq_false_iff.1 hfuture.differ)
      · refine .inr ⟨⟨_, rfl⟩, ⟨⟨entry, rest, hredo, ?_, rfl⟩, rfl, hroom⟩, rfl⟩
        simp [SnapshotHistory.commitRedo, hredo]

variable [PartialEquivBEq (ProjectState ν σ μ π)]

theorem undo_cases (hcoherent : owner.Coherent)
    {result : Except Error (ProjectHistoryOutcome ν σ μ π ρ)}
    (h : owner.undo expectedRevision = (owner', result)) :
    (∃ error, result = .error error ∧ owner' = owner) ∨
      (∃ outcome, result = .ok outcome) ∧ Effect owner owner' .undo ∧
        owner'.document.commandLog = owner.document.commandLog := by
  unfold ProjectCommandHistory.undo at h
  split at h
  case h_1 _ =>
      cases h
      exact .inl ⟨_, rfl, rfl⟩
  case h_2 entry rest hundo =>
  have hpast := hcoherent.past
  rw [hundo] at hpast
  split at h
  case h_1 document error hrestore =>
      cases h
      rcases ProjectDocument.restoreSnapshot_cases hrestore with ⟨_, _, rfl⟩ | ⟨⟨_, hok⟩, _⟩
      · exact .inl ⟨error, rfl, rfl⟩
      · cases hok
  case h_2 document snapshot hrestore =>
      cases h
      rcases ProjectDocument.restoreSnapshot_cases hrestore with
        ⟨_, hfailed, _⟩ | ⟨_, _, _, ⟨hsame, _⟩ | ⟨_, hroom, rfl⟩⟩
      · cases hfailed
      · exact absurd hsame (Bool.eq_false_iff.1 hpast.differ)
      · refine .inr ⟨⟨_, rfl⟩, ⟨⟨entry, rest, hundo, ?_, rfl⟩, rfl, hroom⟩, rfl⟩
        simp [SnapshotHistory.commitUndo, hundo]

theorem execute_cases (hcoherent : owner.Coherent) {command : ProjectHistoryCommand ν σ μ π ρ}
    {result : Except Error (ProjectHistoryOutcome ν σ μ π ρ)}
    (h : owner.execute command = (owner', result)) :
    (∃ error, result = .error error ∧ owner' = owner) ∨
      (∃ outcome, result = .ok outcome) ∧ Effect owner owner' command.action.callKind ∧
        owner'.document.commandLog = owner.document.commandLog := by
  unfold ProjectCommandHistory.execute at h
  split at h
  case h_1 error _ =>
      cases h
      exact .inl ⟨error, rfl, rfl⟩
  case h_2 _ =>
  cases haction : command.action with
  | apply mutation =>
      rw [haction] at h
      exact apply_cases h
  | undo =>
      rw [haction] at h
      exact undo_cases hcoherent h
  | redo =>
      rw [haction] at h
      exact redo_cases hcoherent h

theorem executeInner_cases (hcoherent : owner.Coherent)
    {recorded : RecordedProjectCommand ν σ μ π ρ} (commandSequence : Nat)
    {result : Except Error (ProjectHistoryOutcome ν σ μ π ρ)}
    (h : owner.executeInner recorded = (owner', result)) :
    (∃ error, result = .error error ∧ owner' = owner) ∨
      (∃ outcome, result = .ok outcome) ∧
        Effect owner owner' (HistoryCall.executeRecorded recorded commandSequence).kind ∧
        owner'.document.commandLog = owner.document.commandLog := by
  unfold ProjectCommandHistory.executeInner at h
  split at h
  case h_1 command hcommand =>
      simp only [HistoryCall.kind, hcommand]
      exact execute_cases hcoherent h
  case h_2 hcommand =>
  simp only [HistoryCall.kind, hcommand]
  split at h
  case h_1 error _ =>
      cases h
      exact .inl ⟨error, rfl, rfl⟩
  case h_2 _ =>
      cases h
      exact .inr ⟨⟨_, rfl⟩, ⟨rfl, rfl, rfl⟩, rfl⟩

theorem executeRecorded_cases (hcoherent : owner.Coherent) {sha256 : List UInt8 → Sha256Digest}
    {contentHash : ProjectSnapshot ν σ μ π → Except Error Sha256Digest}
    {recorded : RecordedProjectCommand ν σ μ π ρ} {commandSequence : Nat}
    {result : Except Error (ProjectHistoryOutcome ν σ μ π ρ)}
    (h : owner.executeRecorded sha256 contentHash recorded commandSequence = (owner', result)) :
    (∃ error, result = .error error ∧ owner' = owner) ∨
      (∃ outcome, result = .ok outcome) ∧
        Effect owner owner' (HistoryCall.executeRecorded recorded commandSequence).kind ∧
        LogKept sha256 owner owner' (.executeRecorded recorded commandSequence) := by
  simp only [ProjectCommandHistory.executeRecorded] at h
  split at h
  case h_1 error _ =>
      cases h
      exact .inl ⟨error, rfl, rfl⟩
  case h_2 beforeHash _ =>
  split at h
  case h_1 candidate error _ =>
      cases h
      exact .inl ⟨error, rfl, rfl⟩
  case h_2 candidate outcome hinner =>
  split at h
  case h_1 error _ =>
      cases h
      exact .inl ⟨error, rfl, rfl⟩
  case h_2 afterHash _ =>
  split at h
  case h_1 document error _ =>
      cases h
      exact .inl ⟨error, rfl, rfl⟩
  case h_2 document record happend =>
      cases h
      rcases executeInner_cases hcoherent commandSequence hinner with
        ⟨_, hfailed, _⟩ | ⟨_, heffect, hlog⟩
      · cases hfailed
      · rcases ProjectDocument.appendCommandRecord_cases happend with
          ⟨_, hfailed, _⟩ | ⟨_, commandLog, _, rfl, hlogged⟩
        · cases hfailed
        · refine .inr ⟨⟨_, rfl⟩, heffect.withLog commandLog, ?_⟩
          rw [hlog] at hlogged
          exact ⟨beforeHash, afterHash, _, _, hlogged⟩

end Calls

/-! ## Every call -/

section EveryCall

variable [BEq (ProjectState ν σ μ π)] [PartialEquivBEq (ProjectState ν σ μ π)]
  {sha256 : List UInt8 → Sha256Digest}
  {contentHash : ProjectSnapshot ν σ μ π → Except Error Sha256Digest}
  {owner owner' : ProjectCommandHistory ν σ μ π}

omit [PartialEquivBEq (ProjectState ν σ μ π)] in
/-- A recovery replaces the document and starts an empty history. -/
theorem prepareRecoveryRestore_eq_ok {expectedRevision : Nat} {target : ProjectSnapshot ν σ μ π}
    {candidate : ProjectDocument ν σ μ π}
    (h : owner.prepareRecoveryRestore expectedRevision target = .ok candidate) :
    candidate.commandLog = owner.document.commandLog := by
  simp only [prepareRecoveryRestore, bind_eq_ok] at h
  obtain ⟨_, _, hrestore⟩ := h
  split at hrestore
  case h_1 => cases hrestore
  case h_2 document snapshot hdocument =>
      cases hrestore
      rcases ProjectDocument.restoreSnapshot_cases hdocument with
        ⟨_, hfailed, _⟩ | ⟨_, _, _, ⟨_, rfl⟩ | ⟨_, _, rfl⟩⟩
      · cases hfailed
      · rfl
      · rfl

/-- A call fails and changes nothing, or has the effect of its kind. -/
theorem run_cases (hcoherent : owner.Coherent) {call : HistoryCall ν σ μ π ρ}
    {result : Except Error Unit} (h : owner.run sha256 contentHash call = (owner', result)) :
    (∃ error, result = .error error ∧ owner' = owner) ∨
      result = .ok () ∧ Effect owner owner' call.kind ∧ LogKept sha256 owner owner' call := by
  cases call with
  | execute command =>
      cases hexecute : owner.execute command with
      | mk owner₁ inner =>
          simp only [run, hexecute] at h
          cases h
          rcases execute_cases hcoherent hexecute with
            ⟨error, rfl, hsame⟩ | ⟨⟨outcome, rfl⟩, heffect, hlog⟩
          · exact .inl ⟨error, rfl, hsame⟩
          · exact .inr ⟨rfl, heffect, hlog⟩
  | executeRecorded recorded commandSequence =>
      cases hexecute : owner.executeRecorded sha256 contentHash recorded commandSequence with
      | mk owner₁ inner =>
          simp only [run, hexecute] at h
          cases h
          rcases executeRecorded_cases hcoherent hexecute with
            ⟨error, rfl, hsame⟩ | ⟨⟨outcome, rfl⟩, heffect, hlog⟩
          · exact .inl ⟨error, rfl, hsame⟩
          · exact .inr ⟨rfl, heffect, hlog⟩
  | executeSettingsTransaction transaction =>
      cases hexecute : owner.executeSettingsTransaction transaction with
      | mk owner₁ inner =>
          simp only [run, hexecute] at h
          cases h
          rcases executeSettingsTransaction_cases hexecute with
            ⟨error, rfl, hsame⟩ | ⟨⟨snapshot, rfl⟩, heffect, hlog⟩
          · exact .inl ⟨error, rfl, hsame⟩
          · exact .inr ⟨rfl, heffect, hlog⟩
  | restoreRecovery expectedRevision target =>
      simp only [run] at h
      split at h
      case h_1 error _ =>
          cases h
          exact .inl ⟨error, rfl, rfl⟩
      case h_2 candidate hprepare =>
          split at h
          case isTrue =>
              cases h
              exact .inr ⟨rfl, .inr rfl, prepareRecoveryRestore_eq_ok hprepare⟩
          case isFalse =>
              cases h
              exact .inr ⟨rfl, .inl ⟨rfl, rfl, rfl⟩, rfl⟩

omit [PartialEquivBEq (ProjectState ν σ μ π)] in
/-- Every effect keeps the retained changes joined. -/
theorem Effect.coherent {kind : CallKind} (h : Effect owner owner' kind)
    (hcoherent : owner.Coherent) : owner'.Coherent := by
  have hsame : Same owner owner' → owner'.Coherent := by
    intro hsame
    obtain ⟨hhistory, hstate, -⟩ := hsame
    exact ⟨hhistory ▸ hcoherent.bounded, by rw [hhistory, hstate]; exact hcoherent.past,
      by rw [hhistory, hstate]; exact hcoherent.future⟩
  cases kind with
  | edit =>
      rcases h with h | h
      · exact hsame h
      · obtain ⟨before, after, kind, hhistory, hbefore, hafter⟩ := h.history
        have hundo := SnapshotHistory.record_undo
          (Nat.le_trans (Nat.le_add_right _ _) hcoherent.bounded) before after kind
        have hpast : PastOf owner'.document.state (⟨before, after, kind⟩ :: owner.history.undo) := by
          refine ⟨hafter, ⟨?_, ?_⟩, ?_⟩
          · show after.state.projectId = before.state.projectId
            rw [hbefore, hafter]
            exact h.project
          · rw [hbefore, hafter]
            exact h.differ
          · rw [hbefore]
            exact hcoherent.past
        rw [← hhistory] at hundo
        have hcapacity : owner'.history.capacity = owner.history.capacity := by rw [hhistory]; rfl
        constructor
        · have hredo : owner'.history.redo = [] := by rw [hhistory]; rfl
          rw [hundo, hcapacity, hredo]
          exact List.length_take_le _ _
        · rw [hundo]
          exact hpast.take _
        · rw [hhistory]
          trivial
  | undo =>
      obtain ⟨entry, rest, hundo, hhistory, hstate⟩ := h.history
      have hpast := hcoherent.past
      have hbounded := hcoherent.bounded
      rw [hundo] at hpast hbounded
      constructor
      · rw [hhistory]
        simp only [List.length_cons] at hbounded ⊢
        omega
      · rw [hhistory, hstate]
        exact hpast.2.2
      · rw [hhistory, hstate]
        refine ⟨rfl, hpast.2.1, ?_⟩
        rw [hpast.1]
        exact hcoherent.future
  | redo =>
      obtain ⟨entry, rest, hredo, hhistory, hstate⟩ := h.history
      have hfuture := hcoherent.future
      have hbounded := hcoherent.bounded
      rw [hredo] at hfuture hbounded
      constructor
      · rw [hhistory]
        simp only [List.length_cons] at hbounded ⊢
        omega
      · rw [hhistory, hstate]
        refine ⟨rfl, hfuture.2.1, ?_⟩
        rw [hfuture.1]
        exact hcoherent.past
      · rw [hhistory, hstate]
        exact hfuture.2.2
  | inspect => exact hsame h
  | recover =>
      rcases h with h | h
      · exact hsame h
      · exact ⟨by rw [h]; exact Nat.zero_le _, by rw [h]; trivial, by rw [h]; trivial⟩

end EveryCall

end ProjectCommandHistory

end Engine
end Superi
