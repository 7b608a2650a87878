import Superi.Lib.History
import Superi.Lib.Machine
import Superi.Project.CommandLogLaws

/-!
# CommandLogRetention — what a command log retains

Appending keeps the longest part of the history that fits both bounds, with exact totals.  Such a
log passes its own validation, so what is stored of it is read back.
-/

namespace Superi
namespace Project

open Core Result CommandLog

variable {sha256 : List UInt8 → Sha256Digest}

namespace ProjectCommandLog

variable {log : ProjectCommandLog} {json : SerdeJson}

/-! ## Appending -/

theorem retain_eq (records : List ProjectCommandRecord) :
    retain (totalBytes records) records =
      (totalBytes (Retention.shrink Fits records), Retention.shrink Fits records) := by
  induction records with
  | nil => rfl
  | cons oldest rest ih =>
      rw [retain, Retention.shrink]
      by_cases hfits : Fits (oldest :: rest)
      · rw [if_pos hfits, if_neg (by simpa only [Fits, not_or, not_lt] using hfits)]
      · rw [if_neg hfits, if_pos (by simpa only [Fits, not_and_or, not_le] using hfits),
          totalBytes_cons, Nat.add_sub_cancel_left, ih]

/-- What callers append: values of their machine types. -/
structure AppendCall where
  draft : ProjectCommandRecordDraft
  commandSequence : Nat
  beforeProjectRevision : Nat
  afterProjectRevision : Nat
  beforeSemanticHash : Sha256Digest
  afterSemanticHash : Sha256Digest
  authoredStateChanged : Bool
  version : draft.requestSchemaVersion.Valid
  expected : draft.expectedProjectRevision ≤ maxCounter
  length : draft.requestByteLength ≤ maxCounter
  command : commandSequence ≤ maxCounter
  before : beforeProjectRevision ≤ maxCounter
  after : afterProjectRevision ≤ maxCounter

def appendCall (sha256 : List UInt8 → Sha256Digest) (log : ProjectCommandLog) (call : AppendCall) :
    ProjectCommandLog × Except Error ProjectCommandRecord :=
  log.append sha256 call.draft call.commandSequence call.beforeProjectRevision
    call.afterProjectRevision call.beforeSemanticHash call.afterSemanticHash
    call.authoredStateChanged

/-- The records of the calls that succeeded. -/
def appended (answers : List (Except Error ProjectCommandRecord)) : List ProjectCommandRecord :=
  answers.filterMap Except.toOption

/-- A log and all that was ever appended to it. -/
structure Retains (sha256 : List UInt8 → Sha256Digest) (log : ProjectCommandLog)
    (history : List ProjectCommandRecord) : Prop where
  sound : log.Sound sha256
  longest : Retention.Longest Fits history log.records
  representable : log.Representable
  versions : ∀ record ∈ log.records, record.requestSchemaVersion.Valid

theorem retains_new : Retains sha256 new [] where
  sound := ⟨nofun, .nil, rfl, rfl, by decide⟩
  longest := Retention.longest_shrink (by decide) []
  representable := ⟨by decide, by decide, nofun⟩
  versions := nofun

theorem Fits.init {records : List ProjectCommandRecord} {newest : ProjectCommandRecord}
    (h : Fits (records ++ [newest])) : Fits records := by
  obtain ⟨hcount, hbytes⟩ := h
  refine ⟨Nat.le_trans (by simp) hcount, Nat.le_trans ?_ hbytes⟩
  rw [totalBytes, totalBytes, List.map_append, List.sum_append]
  exact Nat.le_add_right _ _

/-- A valid record fits alone. -/
theorem fits_singleton {record : ProjectCommandRecord} (h : record.Valid sha256) :
    Fits [record] := by
  have hle := ProjectCommandRecord.accountedBytes_le h
  refine ⟨show 1 ≤ maxProjectCommandLogRecords by decide, ?_⟩
  rw [totalBytes_cons]
  exact Nat.le_trans hle (by decide)

/-- The record a call appends. -/
def newRecord (log : ProjectCommandLog) (call : AppendCall) : ProjectCommandRecord where
  sequence := log.nextSequence
  commandSequence := call.commandSequence
  transactionId := call.draft.transactionId
  method := call.draft.method
  requestSchemaVersion := call.draft.requestSchemaVersion
  commandKind := call.draft.commandKind
  expectedProjectRevision := call.draft.expectedProjectRevision
  requestByteLength := call.draft.requestByteLength
  requestSha256 := call.draft.requestSha256
  replayRequest := call.draft.replayRequest
  beforeProjectRevision := call.beforeProjectRevision
  afterProjectRevision := call.afterProjectRevision
  beforeSemanticHash := call.beforeSemanticHash
  afterSemanticHash := call.afterSemanticHash
  authoredStateChanged := call.authoredStateChanged

/-- Consecutive records and the one that takes the next sequence. -/
theorem Sound.contiguous_concat (h : log.Sound sha256) {record : ProjectCommandRecord}
    (hrecord : record.sequence = log.nextSequence) : Contiguous (log.records ++ [record]) := by
  refine List.isChain_append.2 ⟨h.contiguous, .singleton _, ?_⟩
  rintro last hlast _ ⟨⟩
  rw [hrecord, h.next, latestSequence, Option.mem_def.1 hlast]
  rfl

/-- What a call that succeeds leaves. -/
def afterAppend (log : ProjectCommandLog) (record : ProjectCommandRecord) : ProjectCommandLog :=
  let kept := retain (log.retainedBytes + record.accountedBytes) (log.records ++ [record])
  ⟨log.nextSequence + 1, kept.1, kept.2⟩

theorem totalBytes_concat (records : List ProjectCommandRecord) (record : ProjectCommandRecord) :
    totalBytes (records ++ [record]) = totalBytes records + record.accountedBytes := by
  simp [totalBytes]

theorem Sound.afterAppend_eq (h : log.Sound sha256) (record : ProjectCommandRecord) :
    afterAppend log record = ⟨log.nextSequence + 1,
      totalBytes (Retention.shrink Fits (log.records ++ [record])),
      Retention.shrink Fits (log.records ++ [record])⟩ := by
  rw [afterAppend, h.bytes, ← totalBytes_concat, retain_eq]

/-- A call either fails and changes nothing, or appends the new record to the history. -/
theorem appendCall_eq (call : AppendCall) :
    appendCall sha256 log call =
      if maxCounter ≤ log.nextSequence then
        (log, .error (commandLogError .resourceExhausted .terminal "append_command_record"
          "project command-log sequence is exhausted"))
      else match (newRecord log call).validate sha256 "append_command_record" with
        | .error error => (log, .error error)
        | .ok () =>
            if maxCounter < log.retainedBytes + (newRecord log call).accountedBytes then
              ({ log with nextSequence := log.nextSequence + 1 },
                .error (commandLogError .resourceExhausted .terminal "append_command_record"
                  "project command-log byte accounting is exhausted"))
            else (afterAppend log (newRecord log call), .ok (newRecord log call)) :=
  rfl

theorem Retains.appendCall {history : List ProjectCommandRecord} (h : Retains sha256 log history)
    (call : AppendCall) :
    (∃ error, appendCall sha256 log call = (log, .error error)) ∨
      (appendCall sha256 log call = (afterAppend log (newRecord log call),
          .ok (newRecord log call)) ∧
        log.nextSequence < maxCounter ∧ (newRecord log call).Valid sha256) := by
  rw [appendCall_eq]
  split
  · exact .inl ⟨_, rfl⟩
  · rename_i hnext
    split
    · exact .inl ⟨_, rfl⟩
    · rename_i hvalidate
      have hvalid := ProjectCommandRecord.valid_of_validate hvalidate
      -- the total stays far below the largest counter
      have hroom : ¬ maxCounter < log.retainedBytes + (newRecord log call).accountedBytes := by
        have hle := ProjectCommandRecord.accountedBytes_le hvalid
        have htotal := h.sound.within.2
        rw [← h.sound.bytes] at htotal
        simp only [maxProjectCommandLogBytes] at htotal
        simp only [maxCounter]
        omega
      rw [if_neg hroom]
      exact .inr ⟨rfl, Nat.lt_of_not_le hnext, hvalid⟩

theorem newRecord_representable (hlog : log.Representable) (call : AppendCall) :
    (newRecord log call).Representable :=
  ⟨hlog.nextSequence, call.command, call.expected, call.length, call.before, call.after⟩

/-- An appended record keeps the log sound and its records the longest fitting part of the
history. -/
theorem Retains.afterAppend {history : List ProjectCommandRecord} (h : Retains sha256 log history)
    {call : AppendCall} (hnext : log.nextSequence < maxCounter)
    (hvalid : (newRecord log call).Valid sha256) :
    Retains sha256 (afterAppend log (newRecord log call)) (history ++ [newRecord log call]) := by
  rw [h.sound.afterAppend_eq]
  generalize hrecord : newRecord log call = record at hvalid ⊢
  have hlongest : Retention.Longest Fits (log.records ++ [record])
      (Retention.shrink Fits (log.records ++ [record])) :=
    Retention.longest_shrink (by decide) _
  generalize Retention.shrink Fits (log.records ++ [record]) = kept at hlongest ⊢
  have hmem : ∀ kept' ∈ kept, kept' ∈ log.records ∨ kept' = record := fun kept' hkept =>
    (List.mem_append.1 (hlongest.suffix.mem hkept)).imp_right List.mem_singleton.1
  -- the new record fits alone, so it is kept
  have hlast : latestSequence kept = record.sequence := by
    have hsome := hlongest.most [record] ⟨log.records, rfl⟩ (fits_singleton hvalid)
    rcases List.suffix_concat_iff.1 hlongest.suffix with rfl | ⟨front, rfl, -⟩
    · cases hsome
    · rw [latestSequence, List.getLast?_concat]
      rfl
  have hsequence : record.sequence = log.nextSequence := by rw [← hrecord]; rfl
  refine ⟨⟨fun kept' hkept => ?_, ?_, ?_, rfl, hlongest.within⟩,
    h.longest.concat (fun _ _ => Fits.init) hlongest,
    ⟨hnext, hlongest.within.total_le, fun kept' hkept => ?_⟩, fun kept' hkept => ?_⟩
  · obtain hold | rfl := hmem kept' hkept
    · exact h.sound.valid kept' hold
    · exact hvalid
  · exact (h.sound.contiguous_concat hsequence).suffix hlongest.suffix
  · rw [hlast, hsequence]
  · obtain hold | rfl := hmem kept' hkept
    · exact h.representable.records kept' hold
    · rw [← hrecord]
      exact newRecord_representable h.representable call
  · obtain hold | rfl := hmem kept' hkept
    · exact h.versions kept' hold
    · rw [← hrecord]
      exact call.version

theorem Retains.answers {history : List ProjectCommandRecord} (h : Retains sha256 log history)
    (calls : List AppendCall) :
    Retains sha256 (Machine.answers (ProjectCommandLog.appendCall sha256) log calls).1
      (history ++ appended (Machine.answers (ProjectCommandLog.appendCall sha256) log calls).2) := by
  induction calls generalizing log history with
  | nil => exact (List.append_nil history).symm ▸ h
  | cons call rest ih =>
      simp only [Machine.answers]
      obtain ⟨error, hcall⟩ | ⟨hcall, hnext, hvalid⟩ := h.appendCall call
      · rw [hcall]
        exact ih h
      · rw [hcall]
        have hlast := ih (h.afterAppend hnext hvalid)
        rw [List.append_assoc] at hlast
        exact hlast

/-- A sound log with readable versions is stored and read back. -/
theorem Retains.decode_encode {history : List ProjectCommandRecord}
    (h : Retains sha256 log history) (hjson : json.RoundTrips log) :
    (encode sha256 json log >>= decode sha256 json).Yields (.ok log) := by
  obtain ⟨bytes, hwrite, hread⟩ := hjson fun record hrecord =>
    readVersion_display (h.versions record hrecord)
  have hvalid : ∀ operation, (log.validate sha256 operation).run = some (.ok ()) :=
    fun operation => (validate_eq_ok h.representable).2 h.sound
  have hencode : (encode sha256 json log).run = some (.ok bytes) := by
    rw [encode, hwrite]
    exact Machine.run_bind_eq_ok.2 ⟨(), hvalid _, rfl⟩
  refine Machine.run_bind_eq_ok.2 ⟨bytes, hencode, ?_⟩
  rw [decode_of_read hread]
  exact Machine.run_bind_eq_ok.2 ⟨(), hvalid _, rfl⟩

/-- After every run of appends from the empty log: validation accepts the log, its sequences are
consecutive and end just below the next one, its records are the longest part of the appended
history that fits both bounds, the total is exact, a failed append changes nothing, and the log is
read back from what is stored of it. -/
theorem retention_exact (calls : List AppendCall) :
    let reached := Machine.answers (appendCall sha256) new calls
    (∀ operation, (reached.1.validate sha256 operation).Yields (.ok ())) ∧
      Contiguous reached.1.records ∧
      reached.1.nextSequence = latestSequence reached.1.records + 1 ∧
      Retention.Longest Fits (appended reached.2) reached.1.records ∧
      reached.1.retainedBytes = totalBytes reached.1.records ∧
      (∀ call error, (appendCall sha256 reached.1 call).2 = .error error →
        (appendCall sha256 reached.1 call).1 = reached.1) ∧
      ∀ json : SerdeJson, json.RoundTrips reached.1 →
        (encode sha256 json reached.1 >>= decode sha256 json).Yields (.ok reached.1) := by
  have hreached := (@retains_new sha256).answers calls
  rw [List.nil_append] at hreached
  refine ⟨fun operation => (validate_eq_ok hreached.representable).2 hreached.sound,
    hreached.sound.contiguous, hreached.sound.next, hreached.longest, hreached.sound.bytes,
    fun call error herror => ?_, fun json hjson => hreached.decode_encode hjson⟩
  obtain ⟨_, hcall⟩ | ⟨hcall, -⟩ := hreached.appendCall call
  · rw [hcall]
  · rw [hcall] at herror
    cases herror

/-- The call that records an inspection. -/
def inspectionCall : AppendCall where
  draft := ⟨"t", "m", .new 1 0 0, .inspect, 0, 1048577, 0, none⟩
  commandSequence := 1
  beforeProjectRevision := 0
  afterProjectRevision := 0
  beforeSemanticHash := 0
  afterSemanticHash := 0
  authoredStateChanged := false
  version := ⟨by decide, by decide, by decide, nofun, nofun⟩
  expected := by decide
  length := by decide
  command := by decide
  before := by decide
  after := by decide

def inspectedLog (version : Graph.SemanticVersion) : ProjectCommandLog :=
  ⟨2, 514, [inspection 1 version]⟩

def inspectedText : String :=
  "\x7b\"next_sequence\":2,\"retained_bytes\":514,\"records\":[" ++ inspectionText 1 ++ "]\x7d"

/-- The log of one inspection is read back. -/
theorem retention_exact_inspection :
    (encode (fun _ => 0) (jsonOf inspectedText inspectedLog)
        (Machine.answers (appendCall fun _ => 0) new [inspectionCall]).1 >>=
      decode (fun _ => 0) (jsonOf inspectedText inspectedLog)).Yields
        (.ok (Machine.answers (appendCall fun _ => 0) new [inspectionCall]).1) := by
  have hreached : (Machine.answers (appendCall fun _ => 0) new [inspectionCall]).1 =
      inspectedLog (.new 1 0 0) := by
    decide +kernel
  refine (@retention_exact (fun _ => 0) [inspectionCall]).2.2.2.2.2.2 _ fun _ => ?_
  have hdisplay : (Graph.SemanticVersion.new 1 0 0).display = "1.0.0" := by decide
  rw [hreached]
  refine ⟨asciiBytes inspectedText, ?_, ?_⟩
  · simp only [jsonOf, hdisplay, and_self, if_pos]
  · simp only [jsonOf, readVersion_one, if_pos]
    rfl

end ProjectCommandLog

end Project
end Superi
