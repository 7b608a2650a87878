import Superi.Project.Document

/-!
# History — bounded undo and redo of authored project state

The history owns the document.  Every change of the authored state is retained with the snapshots
before and after it; undo and redo restore these through the document, under a fresh revision.  Each
method returns the owner as it leaves it, also when it fails.
-/

namespace Superi
namespace Engine

open Core Result Project

namespace History

def historyError (category : ErrorCategory) (recoverability : Recoverability)
    (operation message : String) : Error :=
  (Error.new category recoverability message).withContext ⟨"superi-engine.history", operation⟩

def historyConflict (operation message : String) : Error :=
  historyError .conflict .userCorrectable operation message

end History

open History

/-! ## Two bounded stacks -/

/-- One retained change. -/
structure HistoryEntry (S M : Type) where
  before : S
  after : S
  metadata : M

/-- Bounded storage of changes.  Both sides are kept newest first. -/
structure SnapshotHistory (S M : Type) where
  capacity : Nat
  undo : List (HistoryEntry S M)
  redo : List (HistoryEntry S M)
  capacityPos : 0 < capacity

namespace SnapshotHistory

variable {S M : Type}

def new (capacity : Nat) (h : 0 < capacity) : SnapshotHistory S M := ⟨capacity, [], [], h⟩

def undoDepth (history : SnapshotHistory S M) : Nat := history.undo.length

def redoDepth (history : SnapshotHistory S M) : Nat := history.redo.length

def nextUndo (history : SnapshotHistory S M) : Option M := history.undo.head?.map (·.metadata)

def nextRedo (history : SnapshotHistory S M) : Option M := history.redo.head?.map (·.metadata)

/-- Retain one change; a full side loses its oldest entry. -/
def record (history : SnapshotHistory S M) (before after : S) (metadata : M) :
    SnapshotHistory S M :=
  let undo := if history.undo.length = history.capacity then history.undo.dropLast
    else history.undo
  { history with redo := [], undo := ⟨before, after, metadata⟩ :: undo }

/-- Move the newest undo entry to the redo side.  That the inspected entry is still there, which the
source asserts, is an argument. -/
def commitUndo (history : SnapshotHistory S M) (h : history.undo ≠ []) : SnapshotHistory S M :=
  { history with undo := history.undo.tail, redo := history.undo.head h :: history.redo }

def commitRedo (history : SnapshotHistory S M) (h : history.redo ≠ []) : SnapshotHistory S M :=
  { history with redo := history.redo.tail, undo := history.redo.head h :: history.undo }

end SnapshotHistory

/-! ## Commands -/

/-- Classification of one authored mutation. -/
inductive ProjectMutationKind
  | projectSettings
  | compound
  | setMediaPath
  | markMediaMissing
  | considerMediaRelink
  | upsertExtension
  | removeExtension
  | setExtensionLifecycle
  | setExtensionCapabilities
  | recordExtensionFailure
  | clearExtensionFailure
  | extensionState
  deriving DecidableEq, Repr

variable {ν σ μ π ρ : Type}

/-- One authored mutation, by the edit it makes of a draft.  A media command looks at the published
reference first and returns at once when it would leave it as it is. -/
inductive ProjectMutation (ν σ μ π ρ : Type)
  | compound (transaction : DraftEdit ν σ μ π ρ)
  | media (kind : ProjectMutationKind) (preview : ProjectState ν σ μ π → Except Error (Option ρ))
      (command : DraftEdit ν σ μ π ρ)
  | extension (kind : ProjectMutationKind) (command : DraftEdit ν σ μ π ρ)

def ProjectMutation.kind : ProjectMutation ν σ μ π ρ → ProjectMutationKind
  | .compound _ => .compound
  | .media kind _ _ => kind
  | .extension kind _ => kind

inductive ProjectHistoryAction (ν σ μ π ρ : Type)
  | apply (mutation : ProjectMutation ν σ μ π ρ)
  | undo
  | redo

structure ProjectHistoryCommand (ν σ μ π ρ : Type) where
  expectedRevision : Nat
  action : ProjectHistoryAction ν σ μ π ρ

/-- The kind of record that documents an action. -/
def ProjectHistoryAction.recordKind : ProjectHistoryAction ν σ μ π ρ → ProjectCommandRecordKind
  | .apply _ => .apply
  | .undo => .undo
  | .redo => .redo

/-- A command, or an inspection, with the evidence of its request. -/
structure RecordedProjectCommand (ν σ μ π ρ : Type) where
  command : Option (ProjectHistoryCommand ν σ μ π ρ)
  record : ProjectCommandRecordDraft
  fenced : ∀ inner ∈ command, inner.expectedRevision = record.expectedProjectRevision
  documented : record.commandKind =
    (command.map fun inner => inner.action.recordKind).getD .inspect

/-! ## Results -/

inductive ProjectHistoryActionResult (ρ : Type)
  | appliedCompound (actions : ρ)
  | applied (mutation : ProjectMutationKind) (mediaResult : ρ)
  | appliedExtension (mutation : ProjectMutationKind) (extensionResult : ρ)
  | undone (mutation : ProjectMutationKind)
  | redone (mutation : ProjectMutationKind)

/-- The public state of a history. -/
structure ProjectHistoryState (ν σ μ π : Type) where
  snapshot : ProjectSnapshot ν σ μ π
  capacity : Nat
  undoDepth : Nat
  redoDepth : Nat
  nextUndo : Option ProjectMutationKind
  nextRedo : Option ProjectMutationKind

structure ProjectHistoryOutcome (ν σ μ π ρ : Type) where
  state : ProjectHistoryState ν σ μ π
  actionResult : Option (ProjectHistoryActionResult ρ)
  authoredStateChanged : Bool
  commandRecord : Option ProjectCommandRecord

/-! ## The owner -/

/-- The exclusive owner of one document and its session history. -/
structure ProjectCommandHistory (ν σ μ π : Type) where
  document : ProjectDocument ν σ μ π
  history : SnapshotHistory (ProjectSnapshot ν σ μ π) ProjectMutationKind

def defaultProjectHistoryCapacity : Nat := 64
def maxProjectHistoryCapacity : Nat := 4096

def requireRevision (expectedRevision actualRevision : Nat) : Except Error Unit :=
  rejectIf (expectedRevision ≠ actualRevision)
    ((historyConflict "execute_project_history" "project history command revision is stale").withContext
      ⟨"superi-engine.history", "execute_project_history"⟩)

namespace ProjectCommandHistory

theorem capacityPos (self : ProjectCommandHistory ν σ μ π) : 0 < self.history.capacity :=
  self.history.capacityPos

/-- History with the default capacity. -/
def new (document : ProjectDocument ν σ μ π) : ProjectCommandHistory ν σ μ π :=
  ⟨document, .new defaultProjectHistoryCapacity (by decide)⟩

/-- History with an explicit capacity. -/
def withCapacity (document : ProjectDocument ν σ μ π) (capacity : Nat) :
    Except Error (ProjectCommandHistory ν σ μ π) :=
  if h : capacity = 0 then
    .error (historyError .invalidInput .userCorrectable "create_project_history"
      "project history capacity must be greater than zero")
  else if maxProjectHistoryCapacity < capacity then
    .error (historyError .resourceExhausted .userCorrectable "create_project_history"
      "project history capacity exceeds the supported bound")
  else
    .ok ⟨document, .new capacity (Nat.pos_of_ne_zero h)⟩

def state (self : ProjectCommandHistory ν σ μ π) : ProjectHistoryState ν σ μ π where
  snapshot := self.document.snapshot
  capacity := self.history.capacity
  undoDepth := self.history.undoDepth
  redoDepth := self.history.redoDepth
  nextUndo := self.history.nextUndo
  nextRedo := self.history.nextRedo

def inspect (self : ProjectCommandHistory ν σ μ π) : ProjectHistoryOutcome ν σ μ π ρ where
  state := self.state
  actionResult := none
  authoredStateChanged := false
  commandRecord := none

variable [BEq (ProjectState ν σ μ π)]

/-- Execute one mutation through the document. -/
def executeMutation (document : ProjectDocument ν σ μ π) (expectedRevision : Nat) :
    ProjectMutation ν σ μ π ρ →
      ProjectDocument ν σ μ π × Except Error (ProjectHistoryActionResult ρ)
  | .compound transaction =>
      match document.edit expectedRevision transaction with
      | (document, .error error) => (document, .error error)
      | (document, .ok (_, actions)) => (document, .ok (.appliedCompound actions))
  | .media kind preview command =>
      match document.checkRevision "execute_media_command" expectedRevision with
      | .error error => (document, .error error)
      | .ok () =>
          match preview document.state with
          | .error error => (document, .error error)
          | .ok (some result) => (document, .ok (.applied kind result))
          | .ok none =>
              match document.edit expectedRevision command with
              | (document, .error error) => (document, .error error)
              | (document, .ok (_, result)) => (document, .ok (.applied kind result))
  | .extension kind command =>
      match document.checkRevision "execute_extension_command" expectedRevision with
      | .error error => (document, .error error)
      | .ok () =>
          match document.edit expectedRevision command with
          | (document, .error error) => (document, .error error)
          | (document, .ok (_, result)) => (document, .ok (.appliedExtension kind result))

/-- Apply a mutation, and retain it when it published a new revision. -/
def apply (self : ProjectCommandHistory ν σ μ π) (expectedRevision : Nat)
    (mutation : ProjectMutation ν σ μ π ρ) :
    ProjectCommandHistory ν σ μ π × Except Error (ProjectHistoryOutcome ν σ μ π ρ) :=
  let before := self.document.snapshot
  match executeMutation self.document expectedRevision mutation with
  | (document, .error error) => ({ self with document }, .error error)
  | (document, .ok actionResult) =>
      let after := document.snapshot
      let authoredStateChanged := decide (after.revision ≠ before.revision)
      let self' : ProjectCommandHistory ν σ μ π :=
        { document
          history := if authoredStateChanged then self.history.record before after mutation.kind
            else self.history }
      (self', .ok { state := self'.state, actionResult := some actionResult,
                    authoredStateChanged, commandRecord := none })

/-- Restore the state before the newest retained change. -/
def undo (self : ProjectCommandHistory ν σ μ π) (expectedRevision : Nat) :
    ProjectCommandHistory ν σ μ π × Except Error (ProjectHistoryOutcome ν σ μ π ρ) :=
  match hundo : self.history.undo with
  | [] => (self, .error (historyConflict "undo_project_history"
      "no project mutation is available to undo"))
  | entry :: _ =>
      match self.document.restoreSnapshot expectedRevision entry.before with
      | (document, .error error) => ({ self with document }, .error error)
      | (document, .ok _) =>
          let self' : ProjectCommandHistory ν σ μ π :=
            { document
              history := self.history.commitUndo (by
                rw [hundo]
                exact List.cons_ne_nil _ _) }
          (self', .ok { state := self'.state, actionResult := some (.undone entry.metadata),
                        authoredStateChanged := true, commandRecord := none })

/-- Restore the state after the newest undone change. -/
def redo (self : ProjectCommandHistory ν σ μ π) (expectedRevision : Nat) :
    ProjectCommandHistory ν σ μ π × Except Error (ProjectHistoryOutcome ν σ μ π ρ) :=
  match hredo : self.history.redo with
  | [] => (self, .error (historyConflict "redo_project_history"
      "no project mutation is available to redo"))
  | entry :: _ =>
      match self.document.restoreSnapshot expectedRevision entry.after with
      | (document, .error error) => ({ self with document }, .error error)
      | (document, .ok _) =>
          let self' : ProjectCommandHistory ν σ μ π :=
            { document
              history := self.history.commitRedo (by
                rw [hredo]
                exact List.cons_ne_nil _ _) }
          (self', .ok { state := self'.state, actionResult := some (.redone entry.metadata),
                        authoredStateChanged := true, commandRecord := none })

/-- Execute one revision-fenced command. -/
def execute (self : ProjectCommandHistory ν σ μ π) (command : ProjectHistoryCommand ν σ μ π ρ) :
    ProjectCommandHistory ν σ μ π × Except Error (ProjectHistoryOutcome ν σ μ π ρ) :=
  match requireRevision command.expectedRevision self.document.revision with
  | .error error => (self, .error error)
  | .ok () =>
      match command.action with
      | .apply mutation => self.apply command.expectedRevision mutation
      | .undo => self.undo command.expectedRevision
      | .redo => self.redo command.expectedRevision

/-- Execute one settings transaction through the same document and history. -/
def executeSettingsTransaction (self : ProjectCommandHistory ν σ μ π)
    (transaction : ProjectSettingsTransaction σ) :
    ProjectCommandHistory ν σ μ π × Except Error (ProjectSnapshot ν σ μ π) :=
  let before := self.document.snapshot
  match self.document.executeSettingsTransaction transaction with
  | (document, .error error) => ({ self with document }, .error error)
  | (document, .ok (after, ())) =>
      ({ document
         history := if after.revision ≠ before.revision then
             self.history.record before after .projectSettings
           else self.history }, .ok after)

/-- Restore a recovered snapshot on a copy of the document. -/
def prepareRecoveryRestore (self : ProjectCommandHistory ν σ μ π) (expectedRevision : Nat)
    (target : ProjectSnapshot ν σ μ π) : Except Error (ProjectDocument ν σ μ π) := do
  requireRevision expectedRevision self.document.revision
  match self.document.restoreSnapshot expectedRevision target with
  | (_, .error error) => .error error
  | (candidate, .ok _) => return candidate

/-- Take a recovered document over, with an empty history. -/
def commitRecoveryRestore (self : ProjectCommandHistory ν σ μ π)
    (document : ProjectDocument ν σ μ π) : ProjectCommandHistory ν σ μ π where
  document := document
  history := .new self.history.capacity self.capacityPos

section Recorded

variable (sha256 : List UInt8 → Sha256Digest)
  (contentHash : ProjectSnapshot ν σ μ π → Except Error Sha256Digest)

/-- The command, or the inspection, of a recorded command, on the candidate. -/
def executeInner (candidate : ProjectCommandHistory ν σ μ π)
    (recorded : RecordedProjectCommand ν σ μ π ρ) :
    ProjectCommandHistory ν σ μ π × Except Error (ProjectHistoryOutcome ν σ μ π ρ) :=
  match recorded.command with
  | some command => candidate.execute command
  | none =>
      match requireRevision recorded.record.expectedProjectRevision candidate.document.revision with
      | .error error => (candidate, .error error)
      | .ok () => (candidate, .ok candidate.inspect)

/-- Execute one command on a copy, record it there, and take the copy over when all succeeded. -/
def executeRecorded (self : ProjectCommandHistory ν σ μ π)
    (recorded : RecordedProjectCommand ν σ μ π ρ) (commandSequence : Nat) :
    ProjectCommandHistory ν σ μ π × Except Error (ProjectHistoryOutcome ν σ μ π ρ) :=
  let before := self.document.snapshot
  match contentHash before with
  | .error error => (self, .error error)
  | .ok beforeHash =>
      match self.executeInner recorded with
      | (_, .error error) => (self, .error error)
      | (candidate, .ok outcome) =>
          let after := candidate.document.snapshot
          match contentHash after with
          | .error error => (self, .error error)
          | .ok afterHash =>
              match candidate.document.appendCommandRecord sha256 recorded.record commandSequence
                before.revision after.revision beforeHash afterHash outcome.authoredStateChanged with
              | (_, .error error) => (self, .error error)
              | (document, .ok commandRecord) =>
                  let candidate := { candidate with document }
                  (candidate, .ok { outcome with state := candidate.state,
                                                 commandRecord := some commandRecord })

end Recorded

end ProjectCommandHistory

end Engine
end Superi
