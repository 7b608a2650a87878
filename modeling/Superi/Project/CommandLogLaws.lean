import Mathlib
import Superi.Project.CommandLog

/-!
# CommandLogLaws — which stored logs are accepted

Validation accepts exactly the logs that appending can leave: valid records with consecutive
sequences that end just below the next one, their exact total, and both bounds.  On the way it
computes the successor of every record's sequence but the last, and the largest sequence has none.
-/

namespace Superi
namespace Project

open Core Result CommandLog

variable {sha256 : List UInt8 → Sha256Digest} {operation : String}

/-! ## Records -/

namespace ProjectCommandRecord

variable {record : ProjectCommandRecord}

/-- A record passes its own checks, whichever operation asks. -/
def Valid (sha256 : List UInt8 → Sha256Digest) (record : ProjectCommandRecord) : Prop :=
  ∀ operation, record.validate sha256 operation = .ok ()

theorem valid_of_validate (h : record.validate sha256 operation = .ok ()) :
    record.Valid sha256 := by
  intro operation'
  simp only [validate, validateLabel, bind_eq_ok, rejectIf_eq_ok] at h ⊢
  obtain ⟨⟨⟩, hsequence, ⟨⟩, hid, ⟨⟩, hmethod, ⟨⟩, hfence, ⟨⟩, hsame, ⟨⟩, hadvanced, hrequest⟩ := h
  refine ⟨(), hsequence, (), hid, (), hmethod, (), hfence, (), hsame, (), hadvanced, ?_⟩
  split at hrequest <;> exact rejectIf_eq_ok.2 (rejectIf_eq_ok.1 hrequest)

/-- Labels and retained requests are short. -/
theorem accountedBytes_le (h : record.Valid sha256) : record.accountedBytes ≤ 1049600 := by
  have hvalid := h ""
  simp only [validate, validateLabel, bind_eq_ok, rejectIf_eq_ok] at hvalid
  obtain ⟨⟨⟩, -, ⟨⟩, hid, ⟨⟩, hmethod, ⟨⟩, -, ⟨⟩, -, ⟨⟩, -, hrequest⟩ := hvalid
  simp only [not_or, not_lt, maxTransactionIdBytes, maxMethodBytes] at hid hmethod
  have hlength : (record.replayRequest.map List.length).getD 0 ≤ 1048576 := by
    cases hreplay : record.replayRequest with
    | none => exact Nat.zero_le _
    | some request =>
        rw [hreplay] at hrequest
        simp only [rejectIf_eq_ok, not_or, not_lt] at hrequest
        exact hrequest.1
  simp only [accountedBytes, saturatingAdd, recordAccountingOverheadBytes]
  omega

end ProjectCommandRecord

namespace ProjectCommandLog

/-- The bytes of some records. -/
def totalBytes (records : List ProjectCommandRecord) : Nat :=
  (records.map ProjectCommandRecord.accountedBytes).sum

@[simp] theorem totalBytes_cons (record : ProjectCommandRecord)
    (records : List ProjectCommandRecord) :
    totalBytes (record :: records) = record.accountedBytes + totalBytes records := rfl

/-! ## Validation -/

/-- Every record follows the one before it, the first of them a given sequence. -/
def Follows : Option Nat → List ProjectCommandRecord → Prop
  | _, [] => True
  | prior, record :: rest =>
      (∀ before ∈ prior, record.sequence = before + 1) ∧ Follows (some record.sequence) rest

/-- The sequence of the latest record, or the given one before it. -/
def latestOr : Option Nat → List ProjectCommandRecord → Option Nat
  | prior, [] => prior
  | _, record :: rest => latestOr (some record.sequence) rest

theorem addOne_eq_ok {prior next : Nat} :
    (addOne prior).run = some (.ok next) ↔ prior + 1 = next ∧ next ≤ maxCounter := by
  unfold addOne
  split
  · rename_i hfits
    simp only [ExceptT.run_pure, Option.pure_def, Option.some.injEq, Except.ok.injEq]
    exact ⟨fun heq => ⟨heq, heq ▸ hfits⟩, fun h => h.1⟩
  · rename_i hover
    refine ⟨nofun, ?_⟩
    rintro ⟨rfl, hfits⟩
    exact absurd hfits hover

theorem checkedAdd_eq_some {left right sum : Nat} :
    checkedAdd left right = some sum ↔ left + right = sum ∧ sum ≤ maxCounter := by
  unfold checkedAdd
  split
  · rename_i hfits
    rw [Option.some.injEq]
    exact ⟨fun heq => ⟨heq, heq ▸ hfits⟩, fun h => h.1⟩
  · rename_i hover
    refine ⟨nofun, ?_⟩
    rintro ⟨rfl, hfits⟩
    exact absurd hfits hover

theorem validateSequence_eq_ok {prior : Option Nat} {record : ProjectCommandRecord}
    (hfits : record.sequence ≤ maxCounter) :
    (validateSequence operation prior record).run = some (.ok ()) ↔
      ∀ before ∈ prior, record.sequence = before + 1 := by
  cases prior with
  | none => exact ⟨fun _ => nofun, fun _ => rfl⟩
  | some prior =>
      simp only [validateSequence, Machine.run_bind_eq_ok, addOne_eq_ok, Machine.run_lift_eq_ok,
        rejectIf_eq_ok, not_not, Option.mem_some_iff, forall_eq']
      constructor
      · rintro ⟨_, ⟨rfl, -⟩, heq⟩
        exact heq
      · intro heq
        exact ⟨_, ⟨rfl, heq ▸ hfits⟩, heq⟩

/-- Acceptance of the records: each is valid and follows the one before, and the bytes are added
up. -/
theorem validateRecords_eq_ok {records : List ProjectCommandRecord} {prior latest : Option Nat}
    {bytes total : Nat} (hfits : ∀ record ∈ records, record.Representable)
    (hbytes : bytes ≤ maxCounter) :
    (validateRecords sha256 operation prior bytes records).run = some (.ok (latest, total)) ↔
      (∀ record ∈ records, record.Valid sha256) ∧ Follows prior records ∧
        latest = latestOr prior records ∧ total = bytes + totalBytes records ∧
        total ≤ maxCounter := by
  induction records generalizing prior bytes with
  | nil =>
      simp only [validateRecords, ExceptT.run_pure, Option.pure_def, Option.some.injEq,
        Except.ok.injEq, Prod.mk.injEq, Follows, latestOr]
      constructor
      · rintro ⟨rfl, rfl⟩
        exact ⟨nofun, trivial, rfl, rfl, hbytes⟩
      · rintro ⟨-, -, rfl, rfl, -⟩
        exact ⟨rfl, rfl⟩
  | cons record rest ih =>
      obtain ⟨hrecord, hrest⟩ := List.forall_mem_cons.1 hfits
      simp only [validateRecords, Machine.run_bind_eq_ok, Machine.run_lift_eq_ok, okOr_eq_ok,
        validateSequence_eq_ok hrecord.sequence, checkedAdd_eq_some, List.forall_mem_cons, Follows,
        latestOr, totalBytes_cons]
      constructor
      · rintro ⟨⟨⟩, hvalid, ⟨⟩, hfollows, _, ⟨rfl, hsum⟩, hlater⟩
        obtain ⟨hvalids, hlater, hlatest, htotal, hle⟩ := (ih hrest hsum).1 hlater
        exact ⟨⟨ProjectCommandRecord.valid_of_validate hvalid, hvalids⟩, ⟨hfollows, hlater⟩,
          hlatest, htotal.trans (Nat.add_assoc _ _ _), hle⟩
      · rintro ⟨⟨hvalid, hvalids⟩, ⟨hfollows, hlater⟩, hlatest, htotal, hle⟩
        have hsum : bytes + record.accountedBytes ≤ maxCounter := by omega
        exact ⟨(), hvalid operation, (), hfollows, _, ⟨rfl, hsum⟩, (ih hrest hsum).2
          ⟨hvalids, hlater, hlatest, htotal.trans (Nat.add_assoc _ _ _).symm, hle⟩⟩

/-- The sequences of the records are consecutive. -/
def Contiguous (records : List ProjectCommandRecord) : Prop :=
  records.IsChain fun earlier later => later.sequence = earlier.sequence + 1

/-- Both bounds hold. -/
def Fits (records : List ProjectCommandRecord) : Prop :=
  records.length ≤ maxProjectCommandLogRecords ∧ totalBytes records ≤ maxProjectCommandLogBytes

instance (records : List ProjectCommandRecord) : Decidable (Fits records) :=
  inferInstanceAs (Decidable (_ ∧ _))

/-- The sequence of the latest record, zero if there is none. -/
def latestSequence (records : List ProjectCommandRecord) : Nat :=
  (records.getLast?.map ProjectCommandRecord.sequence).getD 0

/-- What appending keeps: valid records with consecutive sequences that end just below the next
one, within both bounds, and their exact total. -/
structure Sound (sha256 : List UInt8 → Sha256Digest) (log : ProjectCommandLog) : Prop where
  valid : ∀ record ∈ log.records, record.Valid sha256
  contiguous : Contiguous log.records
  next : log.nextSequence = latestSequence log.records + 1
  bytes : log.retainedBytes = totalBytes log.records
  within : Fits log.records

variable {log : ProjectCommandLog}

theorem follows_iff {prior : Option Nat} {records : List ProjectCommandRecord} :
    Follows prior records ↔
      (∀ first ∈ records.head?, ∀ before ∈ prior, first.sequence = before + 1) ∧
        Contiguous records := by
  induction records generalizing prior with
  | nil => exact ⟨fun _ => ⟨nofun, .nil⟩, fun _ => trivial⟩
  | cons record rest ih =>
      have hcons : Contiguous (record :: rest) ↔
          (∀ first ∈ rest.head?, first.sequence = record.sequence + 1) ∧ Contiguous rest :=
        List.isChain_cons
      rw [Follows, ih, hcons]
      simp only [List.head?_cons, Option.mem_some_iff, forall_eq']

theorem latestOr_eq {prior : Option Nat} {records : List ProjectCommandRecord} :
    latestOr prior records = (records.getLast?.map ProjectCommandRecord.sequence).or prior := by
  induction records generalizing prior with
  | nil => rfl
  | cons record rest ih =>
      rw [latestOr, ih, List.getLast?_cons]
      cases rest.getLast? <;> rfl

theorem follows_none {records : List ProjectCommandRecord} :
    Follows none records ↔ Contiguous records :=
  follows_iff.trans (and_iff_right fun _ _ => nofun)

theorem Fits.total_le {records : List ProjectCommandRecord} (h : Fits records) :
    totalBytes records ≤ maxCounter :=
  Nat.le_trans h.2 (by decide)

/-- Validation accepts exactly the sound logs. -/
theorem validate_eq_ok (hlog : log.Representable) :
    (log.validate sha256 operation).run = some (.ok ()) ↔ log.Sound sha256 := by
  simp only [validate, Machine.run_bind_eq_ok, Machine.run_lift_eq_ok, rejectIf_eq_ok, not_or,
    Prod.exists, validateRecords_eq_ok hlog.records (Nat.zero_le _), Nat.zero_add, not_lt,
    ne_eq, not_not]
  have hnext : ∀ latest, validateNext operation log latest = .ok () ↔
      log.nextSequence = latest.getD 0 + 1 := by
    intro latest
    cases latest with
    | none => simp [validateNext, rejectIf_eq_ok]
    | some latest =>
        simp only [validateNext, rejectIf_eq_ok, not_not, ne_eq, checkedAdd_eq_some,
          Option.getD_some]
        exact ⟨fun h => h.1.symm, fun h => ⟨h.symm, hlog.nextSequence⟩⟩
  simp only [hnext]
  constructor
  · rintro ⟨⟨⟩, ⟨-, hcount⟩, _, _, ⟨hvalid, hfollows, rfl, rfl, -⟩, ⟨⟩, ⟨hbytes, hmost⟩, hlatest⟩
    rw [latestOr_eq, Option.or_none] at hlatest
    exact ⟨hvalid, follows_none.1 hfollows, hlatest, hbytes.symm, hcount, hmost⟩
  · intro h
    refine ⟨(), ⟨?_, h.within.1⟩, _, _, ⟨h.valid, follows_none.2 h.contiguous, rfl, rfl,
      h.within.total_le⟩, (), ⟨h.bytes.symm, h.within.2⟩, ?_⟩
    · rw [h.next]
      exact Nat.succ_ne_zero _
    · rw [latestOr_eq, Option.or_none]
      exact h.next

variable {json : SerdeJson} {bytes : List UInt8}

theorem decode_of_read (hread : json.fromSlice readVersion bytes = .ok log) :
    decode sha256 json bytes = log.validate sha256 "decode_command_log" >>= fun _ => pure log := by
  rw [decode, hread]
  rfl

theorem readVersion_display {version : Graph.SemanticVersion} (h : version.Valid) :
    readVersion version.display = some version := by
  rw [readVersion, Graph.SemanticVersion.parse_display h]
  rfl

/-- The bytes of an ASCII text. -/
def asciiBytes (text : String) : List UInt8 := text.toList.map fun c => c.toNat.toUInt8

/-- Strict JSON on one text, whose versions are `1.0.0`, and on the log it stands for. -/
def jsonOf (text : String) (log : Graph.SemanticVersion → ProjectCommandLog) : SerdeJson where
  toVec display found :=
    if found = log (.new 1 0 0) ∧ display (.new 1 0 0) = "1.0.0" then .ok (asciiBytes text)
    else .error "unsupported log"
  fromSlice read bytes :=
    if bytes = asciiBytes text then okOr ((read "1.0.0").map log) "invalid version"
    else .error "expected value"

theorem readVersion_one : readVersion "1.0.0" = some (.new 1 0 0) := by
  have hvalid : (Graph.SemanticVersion.new 1 0 0).Valid :=
    ⟨by decide, by decide, by decide, nofun, nofun⟩
  have hdisplay : (Graph.SemanticVersion.new 1 0 0).display = "1.0.0" := by decide
  rw [← hdisplay]
  exact readVersion_display hvalid

def hashText : String := "[" ++ String.intercalate "," (List.replicate 32 "0") ++ "]"

/-- An inspection whose request was too large to be retained. -/
def inspection (sequence : Nat) (version : Graph.SemanticVersion) : ProjectCommandRecord where
  sequence := sequence
  commandSequence := 1
  transactionId := "t"
  method := "m"
  requestSchemaVersion := version
  commandKind := .inspect
  expectedProjectRevision := 0
  requestByteLength := 1048577
  requestSha256 := 0
  replayRequest := none
  beforeProjectRevision := 0
  afterProjectRevision := 0
  beforeSemanticHash := 0
  afterSemanticHash := 0
  authoredStateChanged := false

def inspectionText (sequence : Nat) : String :=
  "\x7b\"sequence\":" ++ sequence.repr ++
    ",\"command_sequence\":1,\"transaction_id\":\"t\",\"method\":\"m\"," ++
    "\"request_schema_version\":\"1.0.0\",\"command_kind\":\"inspect\"," ++
    "\"expected_project_revision\":0,\"request_byte_length\":1048577,\"request_sha256\":" ++
    hashText ++ ",\"replay_request\":null,\"before_project_revision\":0," ++
    "\"after_project_revision\":0,\"before_semantic_hash\":" ++ hashText ++
    ",\"after_semantic_hash\":" ++ hashText ++ ",\"authored_state_changed\":false\x7d"

end ProjectCommandLog

end Project
end Superi
