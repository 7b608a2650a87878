import Superi.Core.Error
import Superi.Core.Int128
import Superi.Graph.Node
import Superi.Graph.VersionText
import Superi.Timeline.Media

/-!
# CommandLog — bounded records of executed commands

Every command executed through the stable surface appends one record.  The log keeps the newest
records within a count and a byte bound, and lives beside the authored state, not in it.

A stored log is untrusted: its sequences and totals take every 64-bit value, and the whole log is
validated again when it is read.  The checks are computed in the source's own arithmetic, where an
unchecked step that overflows has no outcome.  The JSON reader and writer are parameters; versions
inside a log are stored as their text.
-/

namespace Superi
namespace Project

open Core Result Graph

/-- The largest value of a 64-bit counter. -/
def maxCounter : Nat := 18446744073709551615

/-- A 256-bit digest. -/
abbrev Sha256Digest := BitVec 256

def maxProjectCommandLogRecords : Nat := 4096
def maxProjectCommandLogBytes : Nat := 64 * 1024 * 1024
def maxRetainedProjectCommandBytes : Nat := 1024 * 1024
def recordAccountingOverheadBytes : Nat := 512
def maxTransactionIdBytes : Nat := 256
def maxMethodBytes : Nat := 256

namespace CommandLog

def commandLogError (category : ErrorCategory) (recoverability : Recoverability)
    (operation message : String) : Error :=
  (Error.new category recoverability message).withContext ⟨"superi-project.command-log", operation⟩

def invalidLog (operation message : String) : Error :=
  commandLogError .corruptData .userCorrectable operation message

def validateLabel (operation value : String) (maxBytes : Nat) : Except Error Unit :=
  rejectIf (value.isEmpty = true ∨ maxBytes < value.utf8ByteSize ∨ 
      value.toList.any Editorial.isControl = true)
    ((invalidLog operation "project command record label is invalid").withContext
      ⟨"superi-project.command-log", operation⟩)

def saturatingAdd (left right : Nat) : Nat := min maxCounter (left + right)

end CommandLog

open CommandLog

/-! ## Records -/

inductive ProjectCommandRecordKind
  | apply
  | undo
  | redo
  | inspect
  deriving DecidableEq, Repr

/-- Validated request evidence prepared before dispatch. -/
structure ProjectCommandRecordDraft where
  transactionId : String
  method : String
  requestSchemaVersion : SemanticVersion
  commandKind : ProjectCommandRecordKind
  expectedProjectRevision : Nat
  requestByteLength : Nat
  requestSha256 : Sha256Digest
  replayRequest : Option (List UInt8)
  deriving DecidableEq

/-- One successfully executed command. -/
structure ProjectCommandRecord where
  sequence : Nat
  commandSequence : Nat
  transactionId : String
  method : String
  requestSchemaVersion : SemanticVersion
  commandKind : ProjectCommandRecordKind
  expectedProjectRevision : Nat
  requestByteLength : Nat
  requestSha256 : Sha256Digest
  replayRequest : Option (List UInt8)
  beforeProjectRevision : Nat
  afterProjectRevision : Nat
  beforeSemanticHash : Sha256Digest
  afterSemanticHash : Sha256Digest
  authoredStateChanged : Bool
  deriving DecidableEq

section Digest

variable (sha256 : List UInt8 → Sha256Digest)

namespace ProjectCommandRecord

def accountedBytes (record : ProjectCommandRecord) : Nat :=
  saturatingAdd (saturatingAdd (saturatingAdd recordAccountingOverheadBytes
    record.transactionId.utf8ByteSize) record.method.utf8ByteSize)
    ((record.replayRequest.map List.length).getD 0)

def validate (record : ProjectCommandRecord) (operation : String) : Except Error Unit := do
  rejectIf (record.sequence = 0 ∨ record.commandSequence = 0)
    (invalidLog operation "command record sequences must be nonzero")
  validateLabel operation record.transactionId maxTransactionIdBytes
  validateLabel operation record.method maxMethodBytes
  rejectIf (record.expectedProjectRevision ≠ record.beforeProjectRevision)
    (invalidLog operation "command record revision fence does not match its before revision")
  rejectIf (record.authoredStateChanged = false ∧
      (record.beforeProjectRevision ≠ record.afterProjectRevision ∨
        record.beforeSemanticHash ≠ record.afterSemanticHash))
    (invalidLog operation "unchanged command record contains changed authored evidence")
  rejectIf (record.authoredStateChanged = true ∧
      record.afterProjectRevision ≤ record.beforeProjectRevision)
    (invalidLog operation "changed command record does not advance the authored revision")
  match record.replayRequest with
  | some request =>
      rejectIf (maxRetainedProjectCommandBytes < request.length ∨
          request.length ≠ record.requestByteLength ∨ sha256 request ≠ record.requestSha256)
        (invalidLog operation "retained command request evidence is inconsistent")
  | none =>
      rejectIf (record.requestByteLength ≤ maxRetainedProjectCommandBytes)
        (invalidLog operation "digest-only command request did not exceed the replay byte bound")

end ProjectCommandRecord

/-! ## The log -/

/-- The retained records, oldest first. -/
structure ProjectCommandLog where
  nextSequence : Nat
  retainedBytes : Nat
  records : List ProjectCommandRecord
  deriving DecidableEq

namespace ProjectCommandLog

def new : ProjectCommandLog := ⟨1, 0, []⟩

/-- Drop the oldest records until both bounds hold. -/
def retain (retainedBytes : Nat) : List ProjectCommandRecord → Nat × List ProjectCommandRecord
  -- the source's `expect`: a log over a positive bound contains a record
  | [] => (retainedBytes, [])
  | removed :: rest =>
      if maxProjectCommandLogRecords < (removed :: rest).length ∨
          maxProjectCommandLogBytes < retainedBytes then
        retain (retainedBytes - removed.accountedBytes) rest
      else (retainedBytes, removed :: rest)

/-- Append one execution and retain the newest records.  A failure after the sequence was advanced
leaves it advanced. -/
def append (log : ProjectCommandLog) (draft : ProjectCommandRecordDraft) (commandSequence : Nat)
    (beforeProjectRevision afterProjectRevision : Nat)
    (beforeSemanticHash afterSemanticHash : Sha256Digest) (authoredStateChanged : Bool) :
    ProjectCommandLog × Except Error ProjectCommandRecord :=
  if maxCounter ≤ log.nextSequence then
    (log, .error (commandLogError .resourceExhausted .terminal "append_command_record"
      "project command-log sequence is exhausted"))
  else
    let record : ProjectCommandRecord := {
      sequence := log.nextSequence
      commandSequence
      transactionId := draft.transactionId
      method := draft.method
      requestSchemaVersion := draft.requestSchemaVersion
      commandKind := draft.commandKind
      expectedProjectRevision := draft.expectedProjectRevision
      requestByteLength := draft.requestByteLength
      requestSha256 := draft.requestSha256
      replayRequest := draft.replayRequest
      beforeProjectRevision, afterProjectRevision, beforeSemanticHash, afterSemanticHash
      authoredStateChanged }
    match record.validate sha256 "append_command_record" with
    | .error error => (log, .error error)
    | .ok () =>
        let advanced := { log with nextSequence := log.nextSequence + 1 }
        if maxCounter < log.retainedBytes + record.accountedBytes then
          (advanced, .error (commandLogError .resourceExhausted .terminal "append_command_record"
            "project command-log byte accounting is exhausted"))
        else
          let kept := retain (log.retainedBytes + record.accountedBytes) (log.records ++ [record])
          ({ advanced with retainedBytes := kept.1, records := kept.2 }, .ok record)

end ProjectCommandLog

end Digest

def checkedAdd (left right : Nat) : Option Nat :=
  if left + right ≤ maxCounter then some (left + right) else none

/-- `prior + 1` on a 64-bit sequence. -/
def addOne (prior : Nat) : Machine Nat :=
  if prior + 1 ≤ maxCounter then pure (prior + 1) else ExceptT.mk none

/-! ## Values of their machine types -/

/-- The counters of a record are 64-bit. -/
structure ProjectCommandRecord.Representable (record : ProjectCommandRecord) : Prop where
  sequence : record.sequence ≤ maxCounter
  commandSequence : record.commandSequence ≤ maxCounter
  expectedProjectRevision : record.expectedProjectRevision ≤ maxCounter
  requestByteLength : record.requestByteLength ≤ maxCounter
  beforeProjectRevision : record.beforeProjectRevision ≤ maxCounter
  afterProjectRevision : record.afterProjectRevision ≤ maxCounter

structure ProjectCommandLog.Representable (log : ProjectCommandLog) : Prop where
  nextSequence : log.nextSequence ≤ maxCounter
  retainedBytes : log.retainedBytes ≤ maxCounter
  records : ∀ record ∈ log.records, record.Representable

/-! ## The JSON reader and writer -/

/-- Strict JSON of a log, given how the versions in it are printed and read. -/
structure SerdeJson where
  toVec : (SemanticVersion → String) → ProjectCommandLog → Except String (List UInt8)
  fromSlice : (String → Option SemanticVersion) → List UInt8 → Except String ProjectCommandLog

/-- `SemanticVersion::from_str`, as a reader of fields. -/
def readVersion (text : String) : Option SemanticVersion :=
  (SemanticVersion.parse text.toList).toOption

/-- Derived readers and writers agree on a log when the versions in it are read back. -/
def SerdeJson.RoundTrips (json : SerdeJson) (log : ProjectCommandLog) : Prop :=
  (∀ record ∈ log.records, readVersion record.requestSchemaVersion.display =
    some record.requestSchemaVersion) →
  ∃ bytes, json.toVec SemanticVersion.display log = .ok bytes ∧
    json.fromSlice readVersion bytes = .ok log

namespace ProjectCommandLog

section Digest

variable (sha256 : List UInt8 → Sha256Digest)

/-! ## Validation -/

/-- A record follows the one before it. -/
def validateSequence (operation : String) (prior : Option Nat) (record : ProjectCommandRecord) :
    Machine Unit :=
  match prior with
  | none => pure ()
  | some prior => do
      let expected ← addOne prior
      Machine.lift (rejectIf (record.sequence ≠ expected)
        (invalidLog operation "project command record sequences are not contiguous"))

/-- The records in order, with the sequence before them and the bytes so far. -/
def validateRecords (operation : String) :
    Option Nat → Nat → List ProjectCommandRecord → Machine (Option Nat × Nat)
  | prior, bytes, [] => pure (prior, bytes)
  | prior, bytes, record :: rest => do
      Machine.lift (record.validate sha256 operation)
      validateSequence operation prior record
      let bytes ← Machine.lift (okOr (checkedAdd bytes record.accountedBytes)
        (invalidLog operation "command log byte accounting overflowed"))
      validateRecords operation (some record.sequence) bytes rest

/-- Whether the next sequence follows the latest record. -/
def validateNext (operation : String) (log : ProjectCommandLog) (latest : Option Nat) :
    Except Error Unit :=
  match latest with
  | some latest => rejectIf (checkedAdd latest 1 ≠ some log.nextSequence)
      (invalidLog operation "project command log next sequence is inconsistent")
  | none => rejectIf (log.nextSequence ≠ 1)
      (invalidLog operation "empty project command log has allocated sequence state")

def validate (log : ProjectCommandLog) (operation : String) : Machine Unit := do
  Machine.lift (rejectIf (log.nextSequence = 0 ∨ maxProjectCommandLogRecords < log.records.length)
    (invalidLog operation "project command log bounds are invalid"))
  let (latest, bytes) ← validateRecords sha256 operation none 0 log.records
  Machine.lift (rejectIf (bytes ≠ log.retainedBytes ∨ maxProjectCommandLogBytes < bytes)
    (invalidLog operation "project command log retained byte accounting is inconsistent"))
  Machine.lift (validateNext operation log latest)

/-! ## Storage -/

variable (json : SerdeJson)

def encode (log : ProjectCommandLog) : Machine (List UInt8) := do
  log.validate sha256 "encode_command_log"
  Machine.lift (match json.toVec SemanticVersion.display log with
    | .ok bytes => .ok bytes
    | .error _ => .error (commandLogError .internal .terminal "encode_command_log"
        "project command log could not be encoded"))

def decode (bytes : List UInt8) : Machine ProjectCommandLog := do
  let log ← Machine.lift (match json.fromSlice readVersion bytes with
    | .ok log => .ok log
    | .error _ => .error (invalidLog "decode_command_log"
        "project command log is not valid strict JSON"))
  log.validate sha256 "decode_command_log"
  pure log

end Digest

end ProjectCommandLog

end Project
end Superi
