import Mathlib
import Superi.Lib.Machine
import Superi.Project.CommandLog

/-!
# Save — atomic publication of project files

A save command is planned against the destination it finds, builds its candidate beside it, and
publishes the candidate with one rename or one hard link.  A replacing publication holds the writer
lock of its destination, observes it once more and checks what the plan expects; a no-clobber
publication relies on the hard link, which fails when the name is taken.

Candidate names carry a marker, the process and a counter; they are kept apart from destinations
here, and a candidate is the file it becomes.  Any number of writers take these steps in any order.
-/

namespace Superi
namespace Project

open Core Result

abbrev PathBuf := String

namespace Save

def projectError (category : ErrorCategory) (recoverability : Recoverability)
    (operation message : String) : Error :=
  (Error.new category recoverability message).withContext ⟨"superi-project.save", operation⟩

/-- Two frames of one operation, as the source pushes them around a path. -/
def pathError (category : ErrorCategory) (operation message : String) : Error :=
  (projectError category .userCorrectable operation message).withContext
    ⟨"superi-project.save", operation⟩

def conflict (operation message : String) : Error := pathError .conflict operation message

def ioNotFound (operation : String) : Error :=
  projectError .notFound .userCorrectable operation "project save path does not exist"

end Save

open Save

/-! ## The filesystem -/

/-- What identifies one generation of a project file. -/
structure ProjectFileGeneration where
  digest : Sha256Digest
  length : Nat
  modified : Option Nat
  device : Nat
  inode : Nat
  mode : Nat
  deriving DecidableEq, Repr

/-- Equality up to the permission mode. -/
def ProjectFileGeneration.sameActiveContent (left right : ProjectFileGeneration) : Bool :=
  left.digest == right.digest && left.length == right.length && left.modified == right.modified &&
    (left.device == right.device && left.inode == right.inode)

/-- What a name of a directory stands for: a regular file, or something else, which may resolve to a
file. -/
inductive Entry
  | file (generation : ProjectFileGeneration)
  | other (resolves : Option (Nat × Nat))
  deriving DecidableEq, Repr

/-- The device and inode behind a name. -/
def Entry.identity : Entry → Option (Nat × Nat)
  | .file generation => some (generation.device, generation.inode)
  | .other resolves => resolves

/-- The directory entries, and the owner of each destination's writer lock. -/
structure Disk where
  entries : PathBuf → Option Entry
  locks : PathBuf → Option Nat

def Disk.publish (disk : Disk) (destination : PathBuf) (candidate : ProjectFileGeneration) : Disk :=
  { disk with entries := Function.update disk.entries destination (some (.file candidate)) }

/-- Observe the generation of a regular file. -/
def observeProjectFileGeneration (disk : Disk) (path : PathBuf) (operation : String) :
    Except Error ProjectFileGeneration :=
  match disk.entries path with
  | some (.file generation) => .ok generation
  | some (.other _) =>
      .error (pathError .invalidInput operation "project path must name a real regular file")
  | none => .error (ioNotFound operation)

/-! ## Commands and plans -/

inductive ProjectDestinationCollision
  | requireAbsent
  | replaceExisting
  deriving DecidableEq, Repr

inductive ProjectSaveOperation
  | save
  | saveAs
  | saveCopy
  | backup
  deriving DecidableEq, Repr

inductive ProjectSaveCommand
  | save
  | saveAs (destination : PathBuf) (collision : ProjectDestinationCollision)
  | saveCopy (destination : PathBuf) (collision : ProjectDestinationCollision)
  | backup (destination : PathBuf)
  deriving DecidableEq, Repr

def ProjectSaveCommand.operation : ProjectSaveCommand → ProjectSaveOperation
  | .save => .save
  | .saveAs _ _ => .saveAs
  | .saveCopy _ _ => .saveCopy
  | .backup _ => .backup

inductive PublicationMode
  | replaceExisting
  | requireAbsent
  deriving DecidableEq, Repr

inductive DestinationExpectation
  | absent
  | existing (generation : ProjectFileGeneration)
  | unobservable
  deriving DecidableEq, Repr

structure SavePlan where
  operation : ProjectSaveOperation
  destination : PathBuf
  publicationMode : PublicationMode
  rebind : Bool
  aliasesActive : Bool
  replacedExisting : Bool
  destinationExpectation : DestinationExpectation
  activeGeneration : Option ProjectFileGeneration
  deriving DecidableEq, Repr

inductive ProjectDatabaseStorage
  | file (activePath : PathBuf) (generation : ProjectFileGeneration)
  | memory
  deriving DecidableEq, Repr

/-- One authority over a project database. -/
structure ProjectDatabase where
  storage : ProjectDatabaseStorage
  writable : Bool
  deriving DecidableEq, Repr

namespace ProjectDatabase

def activePath (database : ProjectDatabase) : Option PathBuf :=
  match database.storage with
  | .file activePath _ => some activePath
  | .memory => none

def activeGeneration (database : ProjectDatabase) : Option ProjectFileGeneration :=
  match database.storage with
  | .file _ generation => some generation
  | .memory => none

/-- The source allows this for file-backed storage only; a plan that aliases the active path has
one. -/
def acceptSavedGeneration (database : ProjectDatabase) (generation : ProjectFileGeneration) :
    ProjectDatabase :=
  match database.storage with
  | .file activePath _ => { database with storage := .file activePath generation }
  | .memory => database

def rebindAfterSaveAs (_ : ProjectDatabase) (activePath : PathBuf)
    (generation : ProjectFileGeneration) : ProjectDatabase where
  storage := .file activePath generation
  writable := true

end ProjectDatabase

/-! ## Planning -/

/-- Whether a destination names the active file, by name or through another directory entry. -/
def pathsAlias (disk : Disk) (active destination : PathBuf) : Except Error Bool :=
  if active = destination then .ok true
  else
    match disk.entries destination with
    | none => .ok false
    | some entry =>
        match disk.entries active, entry.identity with
        | some activeEntry, some identity =>
            match activeEntry.identity with
            | some activeIdentity => .ok (decide (activeIdentity = identity))
            | none => .error (ioNotFound "resolve_active_identity")
        | none, _ => .error (ioNotFound "resolve_active_identity")
        | some _, none => .error (ioNotFound "resolve_destination_identity")

/-- Whether a destination names the file of this authority. -/
def aliasesActivePath (disk : Disk) (database : ProjectDatabase) (destination : PathBuf) :
    Except Error Bool :=
  match database.activePath with
  | some active => pathsAlias disk active destination
  | none => .ok false

def destinationMetadata (disk : Disk) (path : PathBuf) : Option Entry := disk.entries path

/-- The destination a command asks for, and what it may collide with. -/
def requestedDestination (database : ProjectDatabase) :
    ProjectSaveCommand → Except Error (PathBuf × ProjectDestinationCollision)
  | .save => do
      rejectIf (database.writable = false) (projectError .permissionDenied .userCorrectable
        "save_project" "active project was opened without write authority")
      let destination ← okOr database.activePath (projectError .conflict .userCorrectable
        "save_project" "in-memory project has no active path; use save-as")
      return (destination, .replaceExisting)
  | .saveAs destination collision => .ok (destination, collision)
  | .saveCopy destination collision => .ok (destination, collision)
  | .backup destination => .ok (destination, .requireAbsent)

section Plan

variable (normalizeDestination : PathBuf → Except Error PathBuf)
  (load : ProjectFileGeneration → Except Error Unit)

/-- What the commit has to find at the destination. -/
def expectDestination (disk : Disk) (destination : PathBuf) (aliasesActive : Bool) :
    Option Entry → Except Error DestinationExpectation
  | none => .ok .absent
  | some (.file generation) =>
      if aliasesActive then
        match observeProjectFileGeneration disk destination "observe_active_destination" with
        | .ok generation => .ok (.existing generation)
        | .error _ => .ok .unobservable
      else do
        load generation
        return .existing generation
  | some (.other _) =>
      if aliasesActive then .ok .unobservable
      else .error (pathError .invalidInput "validate_destination_type"
        "replace-existing destination must be a regular project file")

/-- The generation this authority accepted, when the destination is its own file. -/
def planActiveGeneration (database : ProjectDatabase) (aliasesActive : Bool) :
    Except Error (Option ProjectFileGeneration) :=
  if aliasesActive then
    (okOr database.activeGeneration (projectError .internal .terminal "plan_active_generation"
      "active file-backed project did not retain a file generation")).map some
  else .ok none

/-- Plan a command against the destination as it is found. -/
def planCommand (disk : Disk) (database : ProjectDatabase) (command : ProjectSaveCommand) :
    Except Error SavePlan := do
  let operation := command.operation
  let (requested, collision) ← requestedDestination database command
  let destination ← normalizeDestination requested
  let aliasesActive ← aliasesActivePath disk database destination
  rejectIf ((operation = .saveCopy ∨ operation = .backup) ∧ aliasesActive = true)
    (conflict "validate_destination_identity"
      "copy or backup destination aliases the active project")
  rejectIf (operation = .saveAs ∧ aliasesActive = true ∧ database.writable = false)
    (projectError .permissionDenied .userCorrectable "save_as_project"
      "save-as to the read-only active project is not permitted")
  rejectIf (operation = .saveAs ∧ aliasesActive = true ∧ database.activePath ≠ some destination)
    (conflict "validate_save_as_active_alias"
      "save-as destination aliases the active project through another directory entry")
  let collision := if operation = .saveAs ∧ aliasesActive = true then .replaceExisting
    else collision
  let metadata := destinationMetadata disk destination
  rejectIf (collision = .requireAbsent ∧ metadata.isSome = true)
    (conflict "validate_destination_collision" "project destination already exists")
  let destinationExpectation ← expectDestination load disk destination aliasesActive metadata
  let activeGeneration ← planActiveGeneration database aliasesActive
  let publicationMode := match collision with
    | .requireAbsent => .requireAbsent
    | .replaceExisting => .replaceExisting
  return {
    operation, destination, publicationMode
    rebind := decide (operation = .saveAs) && !aliasesActive
    aliasesActive
    replacedExisting := metadata.isSome
    destinationExpectation, activeGeneration }

end Plan

/-! ## Publication -/

def activeChanged (plan : SavePlan) : Error :=
  match plan.activeGeneration with
  | some _ => projectError .conflict .userCorrectable "validate_active_generation"
      "active project changed since this authority accepted it"
  | none => projectError .conflict .retryable "validate_destination_commit_generation"
      "project destination changed while the save candidate was prepared"

/-- Observe the destination under its lock. -/
def observeCommitDestination (disk : Disk) (plan : SavePlan) :
    Except Error (Option ProjectFileGeneration) :=
  match disk.entries plan.destination with
  | none => .ok none
  | some (.file generation) => .ok (some generation)
  | some (.other _) => .error (activeChanged plan)

def validateActiveGeneration (plan : SavePlan) (observed : Option ProjectFileGeneration) :
    Except Error Unit :=
  match plan.activeGeneration with
  | none => .ok ()
  | some expected =>
      rejectIf ((observed.map fun generation => generation.sameActiveContent expected).getD false =
        false) (activeChanged plan)

def validateDestinationExpectation (plan : SavePlan) (observed : Option ProjectFileGeneration) :
    Except Error Unit :=
  let unchanged := match plan.destinationExpectation, observed with
    | .absent, none => true
    | .existing expected, some observed => decide (expected = observed)
    | .unobservable, _ => false
    | _, _ => false
  rejectIf (unchanged = false)
    (projectError .conflict .retryable "validate_destination_commit_generation"
      "project destination changed while the save candidate was prepared")

/-- The checks of a replacing publication between its lock and its rename. -/
def validateCommit (disk : Disk) (plan : SavePlan) : Except Error Unit := do
  let observed ← observeCommitDestination disk plan
  validateActiveGeneration plan observed
  validateDestinationExpectation plan observed

/-- What a publication does to the authority that made it. -/
def acceptPublication (database : ProjectDatabase) (plan : SavePlan)
    (candidate : ProjectFileGeneration) : ProjectDatabase :=
  if plan.rebind then database.rebindAfterSaveAs plan.destination candidate
  else if plan.aliasesActive then database.acceptSavedGeneration candidate
  else database

/-! ## Writers -/

/-- Where one save command stands. -/
inductive SavePhase
  | idle
  | planned (plan : SavePlan)
  | prepared (plan : SavePlan) (candidate : ProjectFileGeneration)
  | locked (plan : SavePlan) (candidate : ProjectFileGeneration)
  | validated (plan : SavePlan) (candidate : ProjectFileGeneration)
  | published (plan : SavePlan)
  deriving DecidableEq, Repr

structure Writer where
  database : ProjectDatabase
  phase : SavePhase
  deriving DecidableEq, Repr

structure SaveSystem where
  disk : Disk
  writers : Nat → Writer

/-- One atomic step of the writer `writer`. -/
inductive SaveAction
  /-- observe the destination and plan a command -/
  | plan (writer : Nat) (command : ProjectSaveCommand)
  /-- build and sync the candidate -/
  | prepare (writer : Nat) (candidate : ProjectFileGeneration)
  /-- try the writer lock of a replacing publication -/
  | lock (writer : Nat)
  /-- observe and validate under the lock -/
  | validate (writer : Nat)
  /-- replace the destination -/
  | rename (writer : Nat)
  /-- publish under a name that must be free -/
  | hardLink (writer : Nat)
  /-- fail at any point before the publication -/
  | fail (writer : Nat)
  /-- release the lock of a finished publication -/
  | release (writer : Nat)
  deriving DecidableEq, Repr

namespace SaveSystem

/-- Any files and any authorities, with no command under way. -/
def start (entries : PathBuf → Option Entry) (databases : Nat → ProjectDatabase) : SaveSystem where
  disk := ⟨entries, fun _ => none⟩
  writers := fun writer => ⟨databases writer, .idle⟩

def phase (system : SaveSystem) (writer : Nat) : SavePhase := (system.writers writer).phase

def database (system : SaveSystem) (writer : Nat) : ProjectDatabase :=
  (system.writers writer).database

def setPhase (system : SaveSystem) (writer : Nat) (phase : SavePhase) : SaveSystem :=
  { system with
    writers := Function.update system.writers writer { system.writers writer with phase } }

/-- The writer drops the lock it holds on `destination`. -/
def unlock (system : SaveSystem) (destination : PathBuf) : SaveSystem :=
  { system with
    disk := { system.disk with locks := Function.update system.disk.locks destination none } }

/-- The rename or link succeeded: the candidate owns the name, and the authority accepts it. -/
def publish (system : SaveSystem) (writer : Nat) (plan : SavePlan)
    (candidate : ProjectFileGeneration) : SaveSystem where
  disk := system.disk.publish plan.destination candidate
  writers := Function.update system.writers writer
    ⟨acceptPublication (system.database writer) plan candidate, .published plan⟩

section Step

variable (normalizeDestination : PathBuf → Except Error PathBuf)
  (load : ProjectFileGeneration → Except Error Unit)

/-- One step, where the writer stands at that point. -/
def step (system : SaveSystem) : SaveAction → Option SaveSystem
  | .plan writer command =>
      match system.phase writer with
      | .idle =>
          match planCommand normalizeDestination load system.disk (system.database writer)
            command with
          | .ok plan => some (system.setPhase writer (.planned plan))
          | .error _ => some system
      | _ => none
  | .prepare writer candidate =>
      match system.phase writer with
      | .planned plan => some (system.setPhase writer (.prepared plan candidate))
      | _ => none
  | .lock writer =>
      match system.phase writer with
      | .prepared plan candidate =>
          if plan.publicationMode = .replaceExisting then
            match system.disk.locks plan.destination with
            | some _ => some (system.setPhase writer .idle)
            | none =>
                let disk := { system.disk with
                  locks := Function.update system.disk.locks plan.destination (some writer) }
                some ({ system with disk }.setPhase writer (.locked plan candidate))
          else none
      | _ => none
  | .validate writer =>
      match system.phase writer with
      | .locked plan candidate =>
          match validateCommit system.disk plan with
          | .ok () => some (system.setPhase writer (.validated plan candidate))
          | .error _ => some ((system.unlock plan.destination).setPhase writer .idle)
      | _ => none
  | .rename writer =>
      match system.phase writer with
      | .validated plan candidate => some (system.publish writer plan candidate)
      | _ => none
  | .hardLink writer =>
      match system.phase writer with
      | .prepared plan candidate =>
          if plan.publicationMode = .requireAbsent then
            match system.disk.entries plan.destination with
            | some _ => some (system.setPhase writer .idle)
            | none => some (system.publish writer plan candidate)
          else none
      | _ => none
  | .fail writer =>
      match system.phase writer with
      | .planned _ | .prepared _ _ => some (system.setPhase writer .idle)
      | .locked plan _ | .validated plan _ =>
          some ((system.unlock plan.destination).setPhase writer .idle)
      | .idle | .published _ => none
  | .release writer =>
      match system.phase writer with
      | .published plan =>
          if plan.publicationMode = .replaceExisting then
            some ((system.unlock plan.destination).setPhase writer .idle)
          else some (system.setPhase writer .idle)
      | _ => none

end Step

end SaveSystem

end Project
end Superi
