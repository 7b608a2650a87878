import Mathlib
import Std.Data.ExtTreeMap
import Superi.Core.Diagnostics
import Superi.Core.Ids
import Superi.Lib.Decimal
import Superi.Lib.Keyed

/-!
# Recovery — discovery and dismissal of autosaves

A controller lists the autosaves of one project directory.  Discovery removes the tombstones it
finds, loads every managed file and publishes what it saw as one catalog; dismissal renames a file
to its tombstone, removes that and takes the file out of the catalog.

Every step of the filesystem may fail, and what a file loads to is an input.  A path is the name of
a file in the project directory; names that are not text are skipped and left out.
-/

namespace Superi
namespace Project

open Core

/-! ## Names -/

structure ProjectRecoveryCandidateId where
  generation : Nat
  positive : 0 < generation
  fits : generation < 18446744073709551616
  deriving Repr

theorem ProjectRecoveryCandidateId.fields_injective : Function.Injective fun x : ProjectRecoveryCandidateId =>
    x.generation := by
  rintro ⟨⟩ ⟨⟩ h
  simpa using h

instance : DecidableEq ProjectRecoveryCandidateId := ProjectRecoveryCandidateId.fields_injective.decidableEq

namespace ProjectRecoveryCandidateId

instance : Ord ProjectRecoveryCandidateId := ⟨compareOn generation⟩

instance : Std.TransOrd ProjectRecoveryCandidateId :=
  inferInstanceAs (Std.TransCmp (compareOn generation))

instance : Std.LawfulEqOrd ProjectRecoveryCandidateId :=
  Keyed.lawfulEqCmp_compareOn fun a b hgeneration => by
    cases a
    cases b
    simp_all

end ProjectRecoveryCandidateId

/-- A number of 20 digits between two texts. -/
def fileName (opening closing : List Char) (generation : Nat) : String :=
  String.ofList (opening ++ Decimal.padded 20 generation ++ closing)

def parseFileName (opening closing : List Char) (name : String) :
    Option ProjectRecoveryCandidateId := do
  let rest ← name.toList.dropPrefix? opening
  let digits ← rest.dropSuffix? closing
  if digits.length = 20 ∧ Decimal.IsDigits digits then
    if h : 0 < Decimal.value digits ∧ Decimal.value digits < 18446744073709551616 then
      if fileName opening closing (Decimal.value digits) = name then
        some ⟨Decimal.value digits, h.1, h.2⟩
      else none
    else none
  else none

def artifactFileName (id : ProjectRecoveryCandidateId) : String :=
  fileName "autosave-g".toList ".superi".toList id.generation

def parseArtifactFileName : String → Option ProjectRecoveryCandidateId :=
  parseFileName "autosave-g".toList ".superi".toList

def tombstoneFileName (id : ProjectRecoveryCandidateId) : String :=
  fileName ".autosave-dismissed-g".toList ".superi".toList id.generation

def parseTombstoneFileName : String → Option ProjectRecoveryCandidateId :=
  parseFileName ".autosave-dismissed-g".toList ".superi".toList

/-! ## The directory -/

structure FileIdentity where
  length : Nat
  modified : Option Nat
  device : Nat
  inode : Nat
  deriving DecidableEq, Repr

/-- What a name stands for: a regular file, or something else. -/
inductive DirectoryEntry
  | file (identity : FileIdentity)
  | other
  deriving DecidableEq, Repr

abbrev Directory := Std.ExtTreeMap String DirectoryEntry

inductive IoErrorKind
  | notFound
  | permissionDenied
  | alreadyExists
  | outOfMemory
  | unsupported
  | other
  deriving DecidableEq, Repr

structure IoError where
  kind : IoErrorKind
  text : String
  deriving DecidableEq, Repr

namespace Directory

variable (directory : Directory)

/-- `symlink_metadata`, which may fail. -/
def inspect (fault : Option IoError) (name : String) : Except IoError DirectoryEntry :=
  match fault, directory[name]? with
  | some error, _ => .error error
  | none, some entry => .ok entry
  | none, none => .error ⟨.notFound, "entity not found"⟩

def rename (fault : Option IoError) (source target : String) : Except IoError Directory :=
  match fault, directory[source]? with
  | some error, _ => .error error
  | none, some entry => .ok ((directory.erase source).insert target entry)
  | none, none => .error ⟨.notFound, "entity not found"⟩

def removeFile (fault : Option IoError) (name : String) : Except IoError Directory :=
  match fault with
  | some error => .error error
  | none => .ok (directory.erase name)

end Directory

/-! ## Errors -/

/-- An error, and the texts of what it was raised from. -/
structure RecoveryError where
  error : Error
  sources : List String
  deriving DecidableEq, Repr

def recoveryContext (operation : String) : ErrorContext := ⟨"superi-project.recovery", operation⟩

def recoveryError (category : ErrorCategory) (recoverability : Recoverability)
    (operation message : String) : RecoveryError :=
  ⟨(Error.new category recoverability message).withContext (recoveryContext operation), []⟩

def filesystemError (source : IoError) (operation : String) : RecoveryError :=
  let (category, recoverability, message) : ErrorCategory × Recoverability × String :=
    match source.kind with
    | .notFound => (.notFound, .userCorrectable, "project recovery path does not exist")
    | .permissionDenied =>
        (.permissionDenied, .userCorrectable, "project recovery path is not accessible")
    | .alreadyExists => (.conflict, .retryable, "project recovery path changed concurrently")
    | .outOfMemory => (.resourceExhausted, .userCorrectable,
        "project recovery filesystem resource limit was reached")
    | .unsupported => (.unsupported, .userCorrectable,
        "filesystem does not support required recovery durability behavior")
    | .other => (.unavailable, .retryable, "project recovery filesystem operation failed")
  { recoveryError category recoverability operation message with sources := [source.text] }

/-- A step of the filesystem as a step of the controller. -/
def io {α : Type} (operation : String) (result : Except IoError α) : Except RecoveryError α :=
  result.mapError (filesystemError · operation)

/-! ## Findings -/

inductive ProjectRecoveryNextAction
  | retryDiscovery
  | continueWithOtherCandidate
  | correctRecoveryStore
  | restartApplication
  deriving DecidableEq, Repr

structure ProjectRecoveryFinding where
  candidateId : ProjectRecoveryCandidateId
  diagnostic : FailureDiagnostic
  /-- The text of the error that was wrapped, and the texts behind it. -/
  source : String × List ErrorContext
  sources : List String
  nextAction : ProjectRecoveryNextAction
  deriving DecidableEq, Repr

def wrappedFinding (id : ProjectRecoveryCandidateId) (source : RecoveryError)
    (recoverability : Recoverability) (message operation : String)
    (nextAction : ProjectRecoveryNextAction) : ProjectRecoveryFinding where
  candidateId := id
  diagnostic := .fromError ((Error.new source.error.category recoverability message).withContext
    (recoveryContext operation))
  source := (source.error.message, source.error.contexts)
  sources := source.sources
  nextAction := nextAction

def findingFromError (id : ProjectRecoveryCandidateId) (source : RecoveryError) :
    ProjectRecoveryFinding :=
  let recoverability : Recoverability :=
    match source.error.category, source.error.recoverability with
    | _, .terminal => .terminal
    | _, .retryable => .retryable
    | _, .degraded | .corruptData, _ => .degraded
    | _, _ => .userCorrectable
  wrappedFinding id source recoverability "project recovery candidate could not be used safely"
    "inspect_candidate" (match recoverability with
      | .retryable => .retryDiscovery
      | .degraded => .continueWithOtherCandidate
      | .userCorrectable => .correctRecoveryStore
      | .terminal => .restartApplication)

def dismissalCleanupFinding (id : ProjectRecoveryCandidateId) (source : RecoveryError) :
    ProjectRecoveryFinding :=
  wrappedFinding id source .degraded
    "project recovery candidate is dismissed but storage cleanup remains pending"
    "cleanup_dismissed_candidate" .continueWithOtherCandidate

/-! ## The controller -/

structure ProjectRecoveryCandidate where
  id : ProjectRecoveryCandidateId
  projectRevision : Nat
  deriving DecidableEq, Repr

structure ProjectRecoveryCatalog where
  revision : Nat
  projectId : ProjectId
  candidates : List ProjectRecoveryCandidate
  findings : List ProjectRecoveryFinding
  deriving DecidableEq, Repr

structure ManagedRecoveryEntry where
  path : String
  identity : FileIdentity
  deriving DecidableEq, Repr

abbrev ManagedEntries := Std.ExtTreeMap ProjectRecoveryCandidateId ManagedRecoveryEntry

structure ProjectRecoveryController where
  projectId : ProjectId
  catalog : ProjectRecoveryCatalog
  entries : ManagedEntries

namespace ProjectRecoveryController

def new (projectId : ProjectId) : ProjectRecoveryController where
  projectId := projectId
  catalog := { revision := 0, projectId, candidates := [], findings := [] }
  entries := ∅

variable (controller : ProjectRecoveryController)

def exhausted : RecoveryError :=
  recoveryError .resourceExhausted .terminal "advance_catalog_revision"
    "project recovery catalog revision is exhausted"

/-- The revision after this one. -/
def nextRevision : Except RecoveryError Nat :=
  if controller.catalog.revision = 18446744073709551615 then .error exhausted
  else .ok (controller.catalog.revision + 1)

/-- What is published differs from what was published before. -/
def changes (candidates : List ProjectRecoveryCandidate) (findings : List ProjectRecoveryFinding)
    (entries : ManagedEntries) : Bool :=
  controller.catalog.candidates != candidates || controller.catalog.findings != findings ||
    controller.entries != entries

/-- The revision of what is published. -/
def publishedRevision (candidates : List ProjectRecoveryCandidate)
    (findings : List ProjectRecoveryFinding) (entries : ManagedEntries) :
    Except RecoveryError Nat :=
  if controller.changes candidates findings entries then controller.nextRevision
  else .ok controller.catalog.revision

def publishCatalog (candidates : List ProjectRecoveryCandidate)
    (findings : List ProjectRecoveryFinding) (entries : ManagedEntries) :
    Except RecoveryError ProjectRecoveryController := do
  let revision ← controller.publishedRevision candidates findings entries
  pure { controller with
    catalog := { revision, projectId := controller.projectId, candidates, findings }
    entries }

/-! ## Discovery -/

/-- The project a file loads to. -/
structure LoadedProject where
  projectId : ProjectId
  revision : Nat

/-- How the steps of a discovery end: the directory itself, and each name in it. -/
structure DiscoverAnswers where
  inspectDirectory : Except IoError Bool
  scan : Option IoError
  readEntry : Option IoError
  inspect : String → Option IoError
  remove : String → Option IoError
  sync : String → Option IoError
  load : String → Except RecoveryError LoadedProject

/-- The directory while it is scanned, and what was found so far. -/
structure Scan where
  directory : Directory
  candidates : List ProjectRecoveryCandidate
  findings : List ProjectRecoveryFinding
  entries : ManagedEntries

variable (answers : DiscoverAnswers) (name : String) (id : ProjectRecoveryCandidateId)
  (scan : Scan)

/-- A tombstone is removed. -/
def cleanTombstone : Scan :=
  match scan.directory.removeFile (answers.remove name) name with
  | .error source => { scan with findings := scan.findings ++
      [dismissalCleanupFinding id (filesystemError source "cleanup_dismissal_tombstone")] }
  | .ok directory =>
      match answers.sync name with
      | some source => { scan with
          directory
          findings := scan.findings ++
            [dismissalCleanupFinding id (filesystemError source "sync_tombstone_cleanup")] }
      | none => { scan with directory }

def visitTombstone : Except RecoveryError Scan := do
  match ← io "inspect_dismissal_tombstone" (scan.directory.inspect (answers.inspect name) name) with
  | .file _ => pure (cleanTombstone answers name id scan)
  | .other => pure { scan with findings := scan.findings ++
      [findingFromError id (recoveryError .conflict .userCorrectable "inspect_dismissal_tombstone"
        "project recovery dismissal tombstone is not a regular file")] }

/-- A managed file is loaded. -/
def loadArtifact (identity : FileIdentity) : Scan :=
  let scan := { scan with entries := scan.entries.insert id ⟨name, identity⟩ }
  match answers.load name with
  | .ok loaded =>
      if loaded.projectId = controller.projectId then
        { scan with candidates := scan.candidates ++ [⟨id, loaded.revision⟩] }
      else
        let error := recoveryError .conflict .userCorrectable "validate_candidate_project"
          "recovery candidate belongs to another project"
        { scan with findings := scan.findings ++ [findingFromError id { error with
            error := error.error.withContext (recoveryContext "validate_candidate_project") }] }
  | .error error => { scan with findings := scan.findings ++ [findingFromError id error] }

def visitArtifact : Except RecoveryError Scan := do
  match ← io "inspect_recovery_candidate" (scan.directory.inspect (answers.inspect name) name) with
  | .file identity => pure (controller.loadArtifact answers name id scan identity)
  | .other => pure { scan with findings := scan.findings ++
      [findingFromError id (recoveryError .conflict .userCorrectable "inspect_recovery_candidate"
        "managed recovery candidate is not a regular file")] }

/-- One pass of the loop of `discover`. -/
def visit : Except RecoveryError Scan :=
  match parseTombstoneFileName name with
  | some id => visitTombstone answers name id scan
  | none =>
      match parseArtifactFileName name with
      | some id => controller.visitArtifact answers name id scan
      | none => pure scan

/-- The loop of `discover`: how it ended, and the scan at its end. -/
def visitAll (scan : Scan) : List String → Except RecoveryError Unit × Scan
  | [] => (.ok (), scan)
  | name :: names =>
      match controller.visit answers name scan with
      | .ok next => visitAll next names
      | .error error => (.error error, scan)

/-- What a call answers, and the controller and the directory after it. -/
abbrev Answer := Except RecoveryError Unit × ProjectRecoveryController × Directory

/-- Publish, or stay as before. -/
def finish (directory : Directory) (published : Except RecoveryError ProjectRecoveryController) :
    Answer :=
  match published with
  | .ok next => (.ok (), next, directory)
  | .error error => (.error error, controller, directory)

/-- The directory is there and is read. -/
def discoverEntries (directory : Directory) : Answer :=
  match controller.visitAll answers ⟨directory, [], [], ∅⟩ directory.keys with
  | (.ok (), scan) => controller.finish scan.directory (controller.publishCatalog
      (scan.candidates.insertionSort fun left right => left.id.generation ≤ right.id.generation)
      (scan.findings.insertionSort fun left right =>
        left.candidateId.generation ≤ right.candidateId.generation) scan.entries)
  | (.error error, scan) => (.error error, controller, scan.directory)

def discover (directory : Directory) : Answer :=
  match answers.inspectDirectory, answers.scan, answers.readEntry with
  | .error source, _, _ =>
      if source.kind = .notFound then
        controller.finish directory (controller.publishCatalog [] [] ∅)
      else (.error (filesystemError source "inspect_project_directory"), controller, directory)
  | .ok false, _, _ =>
      let error := recoveryError .conflict .userCorrectable "validate_project_directory"
        "project recovery namespace must be a real directory"
      (.error { error with
        error := error.error.withContext (recoveryContext "validate_project_directory") },
        controller, directory)
  | .ok true, some source, _ =>
      (.error (filesystemError source "scan_project_directory"), controller, directory)
  | .ok true, none, some source =>
      (.error (filesystemError source "read_project_directory_entry"), controller, directory)
  | .ok true, none, none => controller.discoverEntries answers directory

/-! ## Dismissal -/

/-- How the steps of a dismissal end. -/
structure DismissAnswers where
  reinspect : Option IoError
  reserve : Option IoError
  rename : Option IoError
  syncTransition : Option IoError
  remove : Option IoError
  syncCleanup : Option IoError

def requireCatalogRevision (expectedRevision : Nat) : Except RecoveryError Unit :=
  if expectedRevision = controller.catalog.revision then .ok ()
  else
    let error := recoveryError .conflict .userCorrectable "validate_catalog_revision"
      "project recovery catalog revision is stale"
    .error { error with
      error := error.error.withContext (recoveryContext "validate_catalog_revision") }

def revalidatedEntry (directory : Directory) (fault : Option IoError) :
    Except RecoveryError ManagedRecoveryEntry := do
  let entry ← Result.okOr controller.entries[id]? (recoveryError .notFound .userCorrectable
    "resolve_candidate" "project recovery candidate was not found in the current catalog")
  Result.rejectIf (entry.path ≠ artifactFileName id) (recoveryError .internal .terminal
    "resolve_candidate" "project recovery catalog path invariant failed")
  match ← io "reinspect_candidate" (directory.inspect fault entry.path) with
  | .other => .error (recoveryError .conflict .userCorrectable "reinspect_candidate"
      "project recovery candidate is no longer a regular file")
  | .file identity => do
      Result.rejectIf (identity ≠ entry.identity) (recoveryError .conflict .retryable
        "reinspect_candidate"
        "project recovery candidate changed; discover again before continuing")
      pure entry

/-- The tombstone must not be there. -/
def reserveTombstone (directory : Directory) (fault : Option IoError) :
    Except RecoveryError Unit :=
  match directory.inspect fault (tombstoneFileName id) with
  | .ok _ =>
      let error := recoveryError .conflict .retryable "reserve_dismissal_tombstone"
        "project recovery dismissal tombstone already exists; discover again"
      .error { error with
        error := error.error.withContext (recoveryContext "reserve_dismissal_tombstone") }
  | .error source =>
      if source.kind = .notFound then .ok ()
      else .error (filesystemError source "reserve_dismissal_tombstone")

/-- What `dismiss` checks before it changes anything. -/
def checkDismissal (expectedRevision : Nat) (directory : Directory) (answers : DismissAnswers) :
    Except RecoveryError (Nat × ManagedRecoveryEntry) := do
  controller.requireCatalogRevision expectedRevision
  let nextRevision ← controller.nextRevision
  let entry ← controller.revalidatedEntry id directory answers.reinspect
  reserveTombstone id directory answers.reserve
  pure (nextRevision, entry)

/-- The tombstone of a dismissal is removed. -/
def cleanDismissal (directory : Directory) (answers : DismissAnswers) :
    Option ProjectRecoveryFinding × Directory :=
  match directory.removeFile answers.remove (tombstoneFileName id) with
  | .error source => (some (dismissalCleanupFinding id
      (filesystemError source "cleanup_dismissal_tombstone")), directory)
  | .ok directory => (answers.syncCleanup.map fun source => dismissalCleanupFinding id
      (filesystemError source "sync_dismissal_cleanup"), directory)

/-- The catalog without the candidate. -/
def withdraw (revision : Nat) (cleanupFinding : Option ProjectRecoveryFinding) :
    ProjectRecoveryController :=
  let findings := controller.catalog.findings.filter (·.candidateId ≠ id)
  { controller with
    entries := controller.entries.erase id
    catalog := { controller.catalog with
      revision
      candidates := controller.catalog.candidates.filter (·.id ≠ id)
      findings := match cleanupFinding with
        | some finding => (findings ++ [finding]).insertionSort fun left right =>
            left.candidateId.generation ≤ right.candidateId.generation
        | none => findings } }

/-- The file has become a tombstone. -/
def completeDismissal (revision : Nat) (directory : Directory) (answers : DismissAnswers) :
    Answer :=
  match answers.syncTransition with
  | some source =>
      let error := filesystemError source "sync_dismissal_transition"
      (.error { error with error := error.error.withContext (recoveryContext "dismiss_candidate") },
        controller, directory)
  | none =>
      let (cleanupFinding, directory) := cleanDismissal id directory answers
      (.ok (), controller.withdraw id revision cleanupFinding, directory)

def dismiss (expectedRevision : Nat) (answers : DismissAnswers) (directory : Directory) : Answer :=
  match controller.checkDismissal id expectedRevision directory answers with
  | .error error => (.error error, controller, directory)
  | .ok (revision, entry) =>
      match io "publish_dismissal_tombstone"
        (directory.rename answers.rename entry.path (tombstoneFileName id)) with
      | .error error => (.error error, controller, directory)
      | .ok directory => controller.completeDismissal id revision directory answers

end ProjectRecoveryController

/-! ## Runs -/

/-- A controller and its directory, with the names that something else changed and the dismissals
that failed after they had renamed their file, since the catalog was published last; and the
candidates that were dismissed and that nothing else brought back. -/
structure RecoverySession where
  controller : ProjectRecoveryController
  directory : Directory
  changedOutside : List String
  interrupted : List ProjectRecoveryCandidateId
  dismissed : List ProjectRecoveryCandidateId

inductive RecoveryCall
  | discover (answers : ProjectRecoveryController.DiscoverAnswers)
  | dismiss (expectedRevision : Nat) (id : ProjectRecoveryCandidateId)
      (answers : ProjectRecoveryController.DismissAnswers)

inductive RecoveryAction
  | call (made : RecoveryCall)
  | outside (name : String) (entry : Option DirectoryEntry)

namespace RecoverySession

def start (projectId : ProjectId) (directory : Directory) : RecoverySession :=
  ⟨.new projectId, directory, [], [], []⟩

variable (session : RecoverySession)

def answer : RecoveryCall → ProjectRecoveryController.Answer
  | .discover answers => session.controller.discover answers session.directory
  | .dismiss expectedRevision id answers =>
      session.controller.dismiss id expectedRevision answers session.directory

def afterDiscover (answer : ProjectRecoveryController.Answer) : RecoverySession :=
  match answer with
  | (.ok (), controller, directory) => { session with
      controller, directory, changedOutside := [], interrupted := [] }
  | (.error _, controller, directory) => { session with controller, directory }

def afterDismiss (id : ProjectRecoveryCandidateId) (answer : ProjectRecoveryController.Answer) :
    RecoverySession :=
  match answer with
  | (.ok (), controller, directory) => { session with
      controller, directory, dismissed := id :: session.dismissed }
  | (.error _, controller, directory) => { session with
      controller, directory
      interrupted := if directory = session.directory then session.interrupted
        else id :: session.interrupted }

def call : RecoveryCall → RecoverySession
  | .discover answers => session.afterDiscover (session.answer (.discover answers))
  | .dismiss expectedRevision id answers =>
      session.afterDismiss id (session.answer (.dismiss expectedRevision id answers))

/-- Something else writes or removes a name. -/
def outside (name : String) (entry : Option DirectoryEntry) : RecoverySession :=
  { session with
    directory := match entry with
      | some entry => session.directory.insert name entry
      | none => session.directory.erase name
    changedOutside := name :: session.changedOutside
    dismissed := session.dismissed.filter (artifactFileName · ≠ name) }

def step (session : RecoverySession) : RecoveryAction → RecoverySession
  | .call made => session.call made
  | .outside name entry => session.outside name entry

def run : RecoverySession → List RecoveryAction → RecoverySession := List.foldl step

end RecoverySession

end Project
end Superi
