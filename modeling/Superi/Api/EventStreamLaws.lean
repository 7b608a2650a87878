import Superi.Api.EventStream

/-!
# EventStreamLaws — what a subscriber is given

The records ever published are the reference.  The stream retains the newest of them, and a
subscriber that brings the cursor of its last answer is given exactly the records that follow, or a
barrier.
-/

namespace Superi
namespace Api

open Core Stateful

/-! ## Numbered records -/

/-- The records are numbered one by one from `first` on. -/
def Numbered (first : Nat) (records : List PublicEventRecord) : Prop :=
  records.map PublicEventRecord.sequence = List.range' first records.length

namespace Numbered

variable {first : Nat} {records : List PublicEventRecord} {record : PublicEventRecord}

theorem cons_iff : Numbered first (record :: records) ↔
    record.sequence = first ∧ Numbered (first + 1) records := by
  simp only [Numbered, List.map_cons, List.length_cons, List.range'_succ, List.cons.injEq]

theorem concat (h : Numbered first records) (hrecord : record.sequence = first + records.length) :
    Numbered first (records ++ [record]) := by
  rw [Numbered, List.map_append, List.length_append, h, List.map_singleton, hrecord,
    List.length_singleton, List.range'_concat, Nat.one_mul]

theorem drop (h : Numbered first records) (count : Nat) :
    Numbered (first + count) (records.drop count) := by
  rw [Numbered, List.map_drop, h, List.length_drop, List.drop_range', Nat.mul_one]

theorem take (h : Numbered first records) (count : Nat) : Numbered first (records.take count) := by
  rw [Numbered, List.map_take, h, List.length_take]
  rcases Nat.le_total count records.length with hshort | hlong
  · rw [List.take_range'_of_length_ge hshort, Nat.min_eq_left hshort]
  · rw [List.take_range'_of_length_le hlong, Nat.min_eq_right hlong]

theorem getLast? (h : Numbered first records) :
    records.getLast?.map PublicEventRecord.sequence =
      if records = [] then none else some (first + records.length - 1) := by
  rw [← List.getLast?_map, h, List.getLast?_range']
  cases records with
  | nil => rfl
  | cons record rest => simp

theorem head? (h : Numbered first records) :
    records.head?.map PublicEventRecord.sequence = if records = [] then none else some first := by
  cases records with
  | nil => rfl
  | cons record rest => simp [(cons_iff.1 h).1]

/-- The records after a cursor. -/
theorem filter_after (h : Numbered first records) (cursor : Nat) :
    (records.filter fun record => cursor < record.sequence) =
      records.drop (cursor + 1 - first) := by
  induction records generalizing first with
  | nil => rw [List.filter_nil, List.drop_nil]
  | cons record rest ih =>
      obtain ⟨hfirst, hrest⟩ := cons_iff.1 h
      by_cases hbehind : cursor < record.sequence
      · -- nothing is dropped from here on
        have hnone : cursor + 1 - first = 0 := by omega
        have hnoneNext : cursor + 1 - (first + 1) = 0 := by omega
        rw [List.filter_cons_of_pos (by simpa using hbehind), ih hrest, hnone, hnoneNext]
        rfl
      · have hstep : cursor + 1 - first = (cursor + 1 - (first + 1)) + 1 := by omega
        rw [List.filter_cons_of_neg (by simpa using hbehind), ih hrest, hstep, List.drop_succ_cons]

end Numbered

theorem trim_eq (bound : Nat) (records : List PublicEventRecord) :
    EventStreamApi.trim bound records = records.drop (records.length - bound) := by
  induction records with
  | nil => rw [List.drop_nil]; rfl
  | cons record rest ih =>
      rw [EventStreamApi.trim]
      split
      · rename_i hlong
        have hstep : (record :: rest).length - bound = (rest.length - bound) + 1 := by
          rw [List.length_cons] at hlong ⊢
          omega
        rw [ih, hstep, List.drop_succ_cons]
      · rename_i hfits
        rw [Nat.sub_eq_zero_of_le (Nat.not_lt.1 hfits), List.drop_zero]

/-! ## Retention -/

/-- The stream retains the newest of the records ever published. -/
structure Retains (api : EventStreamApi) (published : List PublicEventRecord) : Prop where
  last : api.lastSequence = published.length
  numbered : Numbered 1 published
  records : api.records = published.drop (published.length - api.config.retainedEvents)
  fits : published.length ≤ maxSequence

namespace Retains

variable {api : EventStreamApi} {published : List PublicEventRecord}

theorem new (streamId : EventStreamId) (config : EventStreamConfig) :
    Retains (.new streamId config) [] where
  last := rfl
  numbered := rfl
  records := List.drop_nil.symm
  fits := Nat.zero_le _

theorem retained_numbered (h : Retains api published) :
    Numbered (1 + (published.length - api.config.retainedEvents)) api.records := by
  rw [h.records]
  exact h.numbered.drop _

/-- The oldest record still available. -/
theorem oldestSequence_eq (h : Retains api published) :
    api.oldestSequence = if published = [] then none
      else some (1 + (published.length - api.config.retainedEvents)) := by
  have hpositive := api.config.retained.1
  rw [EventStreamApi.oldestSequence, h.retained_numbered.head?, h.records]
  refine if_congr ?_ rfl rfl
  rw [List.drop_eq_nil_iff]
  constructor
  · intro hshort
    refine List.eq_nil_of_length_eq_zero ?_
    omega
  · rintro rfl
    exact Nat.zero_le _

/-- A cursor needs a record that is gone if it lies before the retained ones. -/
theorem hasEvicted_iff (h : Retains api published) {cursor : Nat}
    (hcursor : cursor ≤ published.length) : api.hasEvicted cursor = true ↔
      cursor < published.length - api.config.retainedEvents := by
  have hfits := h.fits
  rw [EventStreamApi.hasEvicted, h.oldestSequence_eq]
  split
  · rename_i hnil
    rw [hnil]
    simp
  · rename_i hne
    have hpositive := List.length_pos_iff.2 hne
    have hbound := api.config.retained.1
    simp only [Option.any_some, decide_eq_true_eq]
    omega

/-- What a poll from a cursor inside the retained records delivers. -/
theorem batch_eq (h : Retains api published) {query : PollEvents}
    (hretained : published.length - api.config.retainedEvents ≤ query.afterSequence) :
    (api.batch query).records = (published.drop query.afterSequence).take
        (min query.requestedLimit api.config.maxBatchSize) ∧
      (api.batch query).throughSequence =
        query.afterSequence + (api.batch query).records.length := by
  have hfiltered : (api.records.filter fun record => query.afterSequence < record.sequence) =
      published.drop query.afterSequence := by
    rw [h.retained_numbered.filter_after, h.records, List.drop_drop]
    congr 1
    omega
  have hrecords : (api.batch query).records = (published.drop query.afterSequence).take
      (min query.requestedLimit api.config.maxBatchSize) := by
    rw [EventStreamApi.batch, hfiltered]
  refine ⟨hrecords, ?_⟩
  have hnumbered : Numbered (1 + query.afterSequence) (api.batch query).records := by
    rw [hrecords]
    exact (h.numbered.drop _).take _
  change ((api.batch query).records.getLast?.map PublicEventRecord.sequence).getD
    query.afterSequence = _
  rw [hnumbered.getLast?]
  split
  · rename_i hnil
    rw [hnil]
    rfl
  · rename_i hne
    have hpositive := List.length_pos_iff.2 hne
    rw [Option.getD_some]
    omega

end Retains

/-! ## Calls -/

/-- One call of the stream. -/
inductive StreamCall
  | openSubscription (command : OpenEventSubscription)
  | closeSubscription (command : CloseEventSubscription)
  | publish (event : PublicApiEvent)
  | poll (query : PollEvents)

/-- Make one call; a publication returns its record. -/
def StreamCall.make : StreamCall → EventStreamM (Option PublicEventRecord)
  | .openSubscription command => (fun _ => none) <$> Api.openSubscription command
  | .closeSubscription command => (fun _ => none) <$> Api.closeSubscription command
  | .publish event => some <$> Api.publish event
  | .poll query => do
      let api ← get
      let _ ← ofExcept (api.poll query)
      return none

section Calls

variable {api : EventStreamApi} {published : List PublicEventRecord}

/-- The calls that publish nothing keep what is retained. -/
structure Keeps (api last : EventStreamApi) : Prop where
  streamId : last.streamId = api.streamId
  config : last.config = api.config
  lastSequence : last.lastSequence = api.lastSequence
  records : last.records = api.records

theorem Retains.keeps {last : EventStreamApi} (h : Retains api published) (hkeeps : Keeps api last) :
    Retains last published where
  last := hkeeps.lastSequence.trans h.last
  numbered := h.numbered
  records := by rw [hkeeps.records, hkeeps.config, h.records]
  fits := h.fits

theorem openSubscription_ensures (api : EventStreamApi) (command : OpenEventSubscription) :
    Ensures (openSubscription command) api
      (fun opened last => Keeps api last ∧ opened.initialAfterSequence = api.initialCursor command.start ∧
        opened.subscriptionId = command.subscriptionId)
      fun last => last = api :=
  .get (.check rfl fun _ => .check rfl fun _ => .put (.ret ⟨⟨rfl, rfl, rfl, rfl⟩, rfl, rfl⟩))

theorem closeSubscription_ensures (api : EventStreamApi) (command : CloseEventSubscription) :
    Ensures (closeSubscription command) api (fun _ last => Keeps api last) fun last => last = api :=
  .get (.check rfl fun _ => .check rfl fun _ => .put (.ret ⟨rfl, rfl, rfl, rfl⟩))

/-- A publication appends one record under the next sequence. -/
theorem publish_ensures (h : Retains api published) (event : PublicApiEvent) :
    Ensures (publish event) api
      (fun record last => record.event = event ∧ last.streamId = api.streamId ∧
        last.config = api.config ∧ Retains last (published ++ [record]))
      fun last => last = api := by
  refine .through (fun _ last => last = api) (.ofExcept rfl fun _ _ => rfl) ?_
  rintro _ api rfl
  refine .get (.through (fun sequence last => last = api ∧ sequence = api.lastSequence + 1 ∧
    api.lastSequence < maxSequence) (.ofExcept rfl fun sequence hsequence => ?_) ?_)
  · rw [EventStreamApi.nextSequence] at hsequence
    split at hsequence
    · cases hsequence
    · cases hsequence
      exact ⟨rfl, rfl, Nat.lt_of_not_le ‹_›⟩
  rintro sequence api ⟨rfl, rfl, hroom⟩
  refine .through (fun _ last => last = api) (.ofExcept rfl fun _ _ => rfl) ?_
  rintro _ api rfl
  refine .put (.ret ⟨rfl, rfl, rfl, ?_⟩)
  have hlast := h.last
  refine ⟨?_, h.numbered.concat ?_, ?_, ?_⟩
  · rw [List.length_append, ← hlast]
    rfl
  · rw [← hlast, Nat.add_comm]
    rfl
  · dsimp only
    rw [trim_eq, h.records, ← List.drop_append_of_le_length (Nat.sub_le _ _), List.drop_drop]
    congr 1
    simp only [List.length_append, List.length_drop, List.length_singleton]
    omega
  · rw [List.length_append, ← hlast]
    exact hroom

/-- What one call leaves of the stream and of the records ever published. -/
theorem StreamCall.make_ensures (h : Retains api published) (call : StreamCall) :
    Ensures call.make api
      (fun record last => last.streamId = api.streamId ∧ last.config = api.config ∧
        Retains last (published ++ record.toList))
      fun last => last = api := by
  cases call with
  | openSubscription command =>
      rw [make, map_eq_pure_bind]
      refine (openSubscription_ensures api command).bind fun opened last hlast => .ret ?_
      refine ⟨hlast.1.streamId, hlast.1.config, ?_⟩
      rw [Option.toList_none, List.append_nil]
      exact h.keeps hlast.1
  | closeSubscription command =>
      rw [make, map_eq_pure_bind]
      refine (closeSubscription_ensures api command).bind fun closed last hlast => .ret ?_
      refine ⟨hlast.streamId, hlast.config, ?_⟩
      rw [Option.toList_none, List.append_nil]
      exact h.keeps hlast
  | publish event =>
      rw [make, map_eq_pure_bind]
      refine (publish_ensures h event).bind fun record last hlast => .ret ?_
      exact ⟨hlast.2.1, hlast.2.2.1, hlast.2.2.2⟩
  | poll query =>
      refine .get (.through (fun _ last => last = api) (.ofExcept rfl fun _ _ => rfl) ?_)
      rintro _ _ rfl
      refine .ret ⟨rfl, rfl, ?_⟩
      rw [Option.toList_none, List.append_nil]
      exact h

end Calls

/-! ## A subscriber -/

/-- The cursor to keep after an answer. -/
def PollEventsResult.cursor : PollEventsResult → Nat
  | .events batch => batch.throughSequence
  | .resyncRequired gap => gap.resetBarrier

/-- The records that an answer delivers. -/
def PollEventsResult.records : PollEventsResult → List PublicEventRecord
  | .events batch => batch.records
  | .resyncRequired _ => []

/-- A client that resumes every poll from its last answer. -/
structure Subscriber where
  subscriptionId : SubscriptionId
  opened : Nat
  afterSequence : Nat
  answers : List PollEventsResult

/-- The stream, every record ever published on it, and one of its clients. -/
structure World where
  api : EventStreamApi
  published : List PublicEventRecord
  subscriber : Option Subscriber

/-- A call of anyone, or the client opening its subscription or polling. -/
inductive Action
  | call (call : StreamCall)
  | subscribe (command : OpenEventSubscription)
  | resume (requestedLimit : Nat) (limit : IsBound requestedLimit)

namespace World

def new (streamId : EventStreamId) (config : EventStreamConfig) : World where
  api := .new streamId config
  published := []
  subscriber := none

/-- The query of a client that resumes. -/
def query (world : World) (subscriber : Subscriber) (requestedLimit : Nat)
    (limit : IsBound requestedLimit) : PollEvents where
  streamId := world.api.streamId
  subscriptionId := subscriber.subscriptionId
  afterSequence := subscriber.afterSequence
  requestedLimit
  limit

def step (world : World) : Action → World
  | .call call =>
      match call.make world.api with
      | .ok record api => { world with api, published := world.published ++ record.toList }
      | .error _ api => { world with api }
  | .subscribe command =>
      match openSubscription command world.api with
      | .ok opened api =>
          { world with api, subscriber := some {
              subscriptionId := opened.subscriptionId
              opened := opened.initialAfterSequence
              afterSequence := opened.initialAfterSequence
              answers := [] } }
      | .error _ api => { world with api }
  | .resume requestedLimit limit =>
      match world.subscriber with
      | none => world
      | some subscriber =>
          match world.api.poll (world.query subscriber requestedLimit limit) with
          | .ok answer => { world with subscriber := some { subscriber with
              afterSequence := answer.cursor, answers := subscriber.answers ++ [answer] } }
          | .error _ => world

end World

/-- Answers that lead from one cursor to another: every batch has all records from its cursor on,
and every barrier says that the next record is gone and that it stands behind it. -/
def Follows (published : List PublicEventRecord) : Nat → List PollEventsResult → Nat → Prop
  | cursor, [], last => cursor = last
  | cursor, .events batch :: rest, last =>
      cursor + batch.records.length ≤ published.length ∧
      batch.records = (published.drop cursor).take batch.records.length ∧
      Follows published (cursor + batch.records.length) rest last
  | cursor, .resyncRequired gap :: rest, last =>
      gap.requestedAfterSequence = cursor ∧
      (∃ oldest, gap.oldestAvailableSequence = some oldest ∧ cursor + 1 < oldest ∧
        oldest ≤ gap.resetBarrier) ∧
      gap.resetBarrier ≤ published.length ∧
      Follows published gap.resetBarrier rest last

namespace Follows

variable {published : List PublicEventRecord} {cursor mid last : Nat}
  {answers rest : List PollEventsResult}

theorem append (h : Follows published cursor answers mid) (h' : Follows published mid rest last) :
    Follows published cursor (answers ++ rest) last := by
  induction answers generalizing cursor with
  | nil =>
      obtain rfl : cursor = mid := h
      exact h'
  | cons answer others ih =>
      cases answer with
      | events batch => exact ⟨h.1, h.2.1, ih h.2.2⟩
      | resyncRequired gap => exact ⟨h.1, h.2.1, h.2.2.1, ih h.2.2.2⟩

/-- More records do not change what was delivered. -/
theorem extend (h : Follows published cursor answers last) (more : List PublicEventRecord) :
    Follows (published ++ more) cursor answers last := by
  induction answers generalizing cursor with
  | nil => exact h
  | cons answer others ih =>
      have hlonger : published.length ≤ (published ++ more).length := by
        rw [List.length_append]
        exact Nat.le_add_right _ _
      cases answer with
      | events batch =>
          obtain ⟨hfits, hrecords, hrest⟩ := h
          refine ⟨hfits.trans hlonger, ?_, ih hrest⟩
          rw [List.drop_append_of_le_length (by omega), List.take_append_of_le_length]
          · exact hrecords
          · rw [List.length_drop]
            omega
      | resyncRequired gap => exact ⟨h.1, h.2.1, h.2.2.1.trans hlonger, ih h.2.2.2⟩

theorem cursor_le (h : Follows published cursor answers last) : cursor ≤ last := by
  induction answers generalizing cursor with
  | nil => exact Nat.le_of_eq h
  | cons answer others ih =>
      cases answer with
      | events batch =>
          have hnext := ih h.2.2
          omega
      | resyncRequired gap =>
          obtain ⟨-, ⟨oldest, -, hgone, hbarrier⟩, -, hrest⟩ := h
          have hnext := ih hrest
          omega

/-- The sequences of a batch. -/
theorem sequences_of_batch (hnumbered : Numbered 1 published) {records : List PublicEventRecord}
    (hrecords : records = (published.drop cursor).take records.length) :
    records.map PublicEventRecord.sequence = List.range' (1 + cursor) records.length := by
  have h := (hnumbered.drop cursor).take records.length
  rw [← hrecords] at h
  exact h

/-- Every record that is delivered comes once, and in sequence order. -/
theorem delivered_in_order (hnumbered : Numbered 1 published)
    (h : Follows published cursor answers last) :
    ((answers.flatMap PollEventsResult.records).map PublicEventRecord.sequence).Pairwise (· < ·) ∧
      ∀ record ∈ answers.flatMap PollEventsResult.records,
        record ∈ published ∧ cursor < record.sequence ∧ record.sequence ≤ last := by
  induction answers generalizing cursor with
  | nil => exact ⟨.nil, fun _ hmem => absurd hmem List.not_mem_nil⟩
  | cons answer others ih =>
      cases answer with
      | events batch =>
          obtain ⟨-, hrecords, hrest⟩ := h
          obtain ⟨hsorted, hbounds⟩ := ih hrest
          have hsequences := sequences_of_batch hnumbered hrecords
          have hlast := hrest.cursor_le
          have hfirst : ∀ record ∈ batch.records, cursor < record.sequence ∧
              record.sequence ≤ cursor + batch.records.length := by
            intro record hrecord
            have hmem := List.mem_map_of_mem (f := PublicEventRecord.sequence) hrecord
            rw [hsequences, List.mem_range'_1] at hmem
            omega
          rw [List.flatMap_cons, List.map_append, List.pairwise_append]
          refine ⟨⟨?_, hsorted, ?_⟩, fun record hrecord => ?_⟩
          · change (batch.records.map PublicEventRecord.sequence).Pairwise (· < ·)
            rw [hsequences]
            exact List.pairwise_lt_range'
          · intro left hleft right hright
            obtain ⟨record, hrecord, rfl⟩ := List.mem_map.1 hleft
            obtain ⟨record', hrecord', rfl⟩ := List.mem_map.1 hright
            have hbefore := hfirst record hrecord
            have hafter := hbounds record' hrecord'
            omega
          · rcases List.mem_append.1 hrecord with hbatch | hlater
            · have hwhere := hfirst record hbatch
              change record ∈ batch.records at hbatch
              rw [hrecords] at hbatch
              exact ⟨List.mem_of_mem_drop (List.mem_of_mem_take hbatch), hwhere.1, by omega⟩
            · obtain ⟨hmem, hafter, hbefore⟩ := hbounds record hlater
              exact ⟨hmem, by omega, hbefore⟩
      | resyncRequired gap =>
          obtain ⟨-, ⟨oldest, -, hgone, hbarrier⟩, -, hrest⟩ := h
          obtain ⟨hsorted, hbounds⟩ := ih hrest
          refine ⟨hsorted, fun record hrecord => ?_⟩
          obtain ⟨hmem, hafter, hbefore⟩ := hbounds record hrecord
          exact ⟨hmem, by omega, hbefore⟩

/-- Every record between the two cursors is delivered, or lies before a barrier that was stated. -/
theorem delivered_or_gap (hnumbered : Numbered 1 published)
    (h : Follows published cursor answers last) {record : PublicEventRecord}
    (hrecord : record ∈ published) (hafter : cursor < record.sequence)
    (hbefore : record.sequence ≤ last) :
    record ∈ answers.flatMap PollEventsResult.records ∨
      ∃ gap, .resyncRequired gap ∈ answers ∧ gap.requestedAfterSequence < record.sequence ∧
        record.sequence ≤ gap.resetBarrier := by
  induction answers generalizing cursor with
  | nil =>
      obtain rfl : cursor = last := h
      omega
  | cons answer others ih =>
      cases answer with
      | events batch =>
          obtain ⟨-, hrecords, hrest⟩ := h
          by_cases hlater : cursor + batch.records.length < record.sequence
          · refine (ih hrest hlater).imp (fun hmem => ?_) ?_
            · rw [List.flatMap_cons]
              exact List.mem_append_right _ hmem
            · rintro ⟨gap, hgap, hwhere⟩
              exact ⟨gap, List.mem_cons_of_mem _ hgap, hwhere⟩
          · refine .inl ?_
            rw [List.flatMap_cons]
            refine List.mem_append_left _ ?_
            change record ∈ batch.records
            -- the record is the one at its own place
            obtain ⟨index, hindex, rfl⟩ := List.mem_iff_getElem.1 hrecord
            have hsequence : published[index].sequence = 1 + index := by
              have hmapped := List.getElem_map (l := published) (i := index)
                PublicEventRecord.sequence (h := by rw [List.length_map]; exact hindex)
              rw [← hmapped]
              simp only [show published.map PublicEventRecord.sequence = _ from hnumbered,
                List.getElem_range', Nat.one_mul]
            rw [hrecords, List.mem_take_iff_getElem]
            refine ⟨index - cursor, ?_, ?_⟩
            · rw [List.length_drop]
              omega
            · rw [List.getElem_drop]
              congr 1
              omega
      | resyncRequired gap =>
          obtain ⟨hrequested, -, -, hrest⟩ := h
          by_cases hlater : gap.resetBarrier < record.sequence
          · refine (ih hrest hlater).imp id ?_
            rintro ⟨other, hother, hwhere⟩
            exact ⟨other, List.mem_cons_of_mem _ hother, hwhere⟩
          · exact .inr ⟨gap, List.mem_cons_self, by omega, by omega⟩

end Follows

section Polls

variable {api : EventStreamApi} {published : List PublicEventRecord} {query : PollEvents}

/-- A poll of the current stream, case by case. -/
theorem poll_cases (h : Retains api published) (hstream : query.streamId = api.streamId)
    (hcursor : query.afterSequence ≤ published.length) :
    (query.subscriptionId ∉ api.subscriptions ∧ ∃ error, api.poll query = .error error) ∨
    (query.subscriptionId ∈ api.subscriptions ∧ api.hasEvicted query.afterSequence = true ∧
      api.poll query = .ok (.resyncRequired (api.gap .cursorEvicted query))) ∨
    (query.subscriptionId ∈ api.subscriptions ∧ api.hasEvicted query.afterSequence = false ∧
      api.poll query = .ok (.events (api.batch query))) := by
  have hbehind : ¬ api.lastSequence < query.afterSequence := by
    rw [h.last]
    exact Nat.not_lt.2 hcursor
  unfold EventStreamApi.poll
  rw [if_neg (not_not_intro hstream), if_neg hbehind]
  by_cases hregistered : query.subscriptionId ∈ api.subscriptions
  · rw [if_neg (not_not_intro hregistered)]
    cases hevicted : api.hasEvicted query.afterSequence with
    | true => exact .inr (.inl ⟨hregistered, rfl, rfl⟩)
    | false => exact .inr (.inr ⟨hregistered, rfl, rfl⟩)
  · rw [if_pos hregistered]
    exact .inl ⟨hregistered, _, rfl⟩

/-- A barrier is stated exactly before the first record that is gone. -/
theorem gap_follows (h : Retains api published)
    (hcursor : query.afterSequence ≤ published.length)
    (hevicted : api.hasEvicted query.afterSequence = true) (reason : EventGapReason) :
    Follows published query.afterSequence [.resyncRequired (api.gap reason query)]
      (api.gap reason query).resetBarrier := by
  have hgone := (h.hasEvicted_iff hcursor).1 hevicted
  have hpositive := api.config.retained.1
  have hne : published ≠ [] := by
    rintro rfl
    rw [List.length_nil, Nat.zero_sub] at hgone
    exact Nat.not_lt_zero _ hgone
  have holdest : api.oldestSequence =
      some (1 + (published.length - api.config.retainedEvents)) := by
    rw [h.oldestSequence_eq, if_neg hne]
  refine ⟨rfl, ⟨_, holdest, ?_, ?_⟩, Nat.le_of_eq h.last, rfl⟩
  · omega
  · change 1 + (published.length - api.config.retainedEvents) ≤ api.lastSequence
    have hlast := h.last
    omega

/-- A batch has all records from its cursor on. -/
theorem batch_follows (h : Retains api published)
    (hcursor : query.afterSequence ≤ published.length)
    (hretained : api.hasEvicted query.afterSequence = false) :
    Follows published query.afterSequence [.events (api.batch query)]
        (api.batch query).throughSequence ∧
      (api.batch query).throughSequence ≤ published.length ∧
      (query.afterSequence < published.length →
        query.afterSequence < (api.batch query).throughSequence) := by
  have hstart : published.length - api.config.retainedEvents ≤ query.afterSequence := by
    by_contra hgone
    rw [(h.hasEvicted_iff hcursor).2 (Nat.lt_of_not_le hgone)] at hretained
    cases hretained
  obtain ⟨hrecords, hthrough⟩ := h.batch_eq hstart
  have hlength : (api.batch query).records.length =
      min (min query.requestedLimit api.config.maxBatchSize)
        (published.length - query.afterSequence) := by
    rw [hrecords, List.length_take, List.length_drop]
  have hlimit := query.limit.1
  have hbatch := api.config.batch.1
  refine ⟨⟨?_, ?_, hthrough.symm⟩, ?_, ?_⟩
  · omega
  · rw [hlength, ← List.length_drop, ← List.take_eq_take_min]
    exact hrecords
  · omega
  · omega

end Polls

/-! ## Runs -/

/-- What holds in every world that a run reaches. -/
structure World.Sound (config : EventStreamConfig) (world : World) : Prop where
  retains : Retains world.api world.published
  config : world.api.config = config
  follows : ∀ subscriber, world.subscriber = some subscriber →
    subscriber.afterSequence ≤ world.published.length ∧
    Follows world.published subscriber.opened subscriber.answers subscriber.afterSequence

namespace World

variable {config : EventStreamConfig} {world : World}

theorem new_sound (streamId : EventStreamId) (config : EventStreamConfig) :
    (World.new streamId config).Sound config :=
  ⟨.new streamId config, rfl, nofun⟩

theorem initialCursor_le (h : Retains world.api world.published) (start : SubscriptionStart) :
    world.api.initialCursor start ≤ world.published.length := by
  cases start with
  | latest => exact Nat.le_of_eq h.last
  | earliestAvailable =>
      rw [EventStreamApi.initialCursor, h.oldestSequence_eq]
      split
      · exact Nat.le_of_eq h.last
      · simp only [Option.map_some, Option.getD_some]
        omega

theorem step_sound (h : world.Sound config) (action : Action) : (world.step action).Sound config := by
  cases action with
  | call call =>
      have hcall := call.make_ensures h.retains
      unfold Ensures at hcall
      unfold step
      dsimp only
      cases hmake : call.make world.api with
      | ok record last =>
          rw [hmake] at hcall
          obtain ⟨-, hconfig, hretains⟩ := hcall
          refine ⟨hretains, hconfig.trans h.config, fun subscriber hsubscriber => ?_⟩
          obtain ⟨hcursor, hfollows⟩ := h.follows subscriber hsubscriber
          refine ⟨hcursor.trans ?_, hfollows.extend _⟩
          rw [List.length_append]
          exact Nat.le_add_right _ _
      | error error last =>
          rw [hmake] at hcall
          obtain rfl : last = world.api := hcall
          exact h
  | subscribe command =>
      have hopen := openSubscription_ensures world.api command
      unfold Ensures at hopen
      unfold step
      dsimp only
      cases hmake : openSubscription command world.api with
      | ok opened last =>
          rw [hmake] at hopen
          obtain ⟨hkeeps, hinitial, -⟩ := hopen
          refine ⟨h.retains.keeps hkeeps, hkeeps.config.trans h.config, ?_⟩
          rintro _ ⟨rfl⟩
          refine ⟨?_, rfl⟩
          rw [hinitial]
          exact initialCursor_le h.retains command.start
      | error error last =>
          rw [hmake] at hopen
          obtain rfl : last = world.api := hopen
          exact h
  | resume requestedLimit limit =>
      unfold step
      dsimp only
      cases hsubscriber : world.subscriber with
      | none => exact h
      | some subscriber =>
          obtain ⟨hcursor, hfollows⟩ := h.follows subscriber hsubscriber
          have hcases := @poll_cases _ _ (world.query subscriber requestedLimit limit) h.retains
            rfl hcursor
          rcases hcases with ⟨-, error, hpoll⟩ | ⟨-, hevicted, hpoll⟩ | ⟨-, hretained, hpoll⟩
          · dsimp only
            rw [hpoll]
            exact h
          · dsimp only
            rw [hpoll]
            refine ⟨h.retains, h.config, ?_⟩
            rintro _ ⟨rfl⟩
            exact ⟨Nat.le_of_eq h.retains.last,
              hfollows.append (gap_follows h.retains hcursor hevicted .cursorEvicted)⟩
          · dsimp only
            rw [hpoll]
            obtain ⟨hbatch, hthrough, -⟩ := batch_follows h.retains hcursor hretained
            refine ⟨h.retains, h.config, ?_⟩
            rintro _ ⟨rfl⟩
            exact ⟨hthrough, hfollows.append hbatch⟩

theorem run_sound (h : world.Sound config) (actions : List Action) :
    (actions.foldl step world).Sound config := by
  induction actions generalizing world with
  | nil => exact h
  | cons action rest ih => exact ih (step_sound h action)

end World

/-- The records that a stream retains, by their sequences. -/
theorem Retains.sequences {api : EventStreamApi} {published : List PublicEventRecord}
    (h : Retains api published) : api.records.map PublicEventRecord.sequence =
      List.range' (published.length - min published.length api.config.retainedEvents + 1)
        (min published.length api.config.retainedEvents) := by
  rw [h.retained_numbered, h.records, List.length_drop]
  congr 1 <;> omega

/-- In every run of calls, with one of any number of clients followed: the stream retains the newest
records, a failed call and a poll change nothing, and what the client was given are the records from
its opening on, each once and in order, up to the barriers that were stated.  While it is registered
the client gets an answer, and moves on if there is anything behind its cursor. -/
theorem subscribers_miss_nothing (streamId : EventStreamId) (config : EventStreamConfig)
    (actions : List Action) :
    let world := actions.foldl World.step (World.new streamId config)
    (world.published.map PublicEventRecord.sequence = List.range' 1 world.published.length ∧
      world.api.records = world.published.drop (world.published.length - config.retainedEvents) ∧
      world.api.records.map PublicEventRecord.sequence =
        List.range' (world.published.length - min world.published.length config.retainedEvents + 1)
          (min world.published.length config.retainedEvents)) ∧
    (∀ (call : StreamCall) (error : Error) (last : EventStreamApi),
      call.make world.api = .error error last → last = world.api) ∧
    (∀ (query : PollEvents) (record : Option PublicEventRecord) (last : EventStreamApi),
      (StreamCall.poll query).make world.api = .ok record last → last = world.api) ∧
    (∀ query : PollEvents, query.streamId ≠ world.api.streamId →
      world.api.poll query = .ok (.resyncRequired (world.api.gap .streamRestarted query)) ∧
        (world.api.gap .streamRestarted query).resetBarrier = world.published.length) ∧
    ∀ subscriber, world.subscriber = some subscriber →
      Follows world.published subscriber.opened subscriber.answers subscriber.afterSequence ∧
      ((subscriber.answers.flatMap PollEventsResult.records).map
        PublicEventRecord.sequence).Pairwise (· < ·) ∧
      (∀ record ∈ world.published, subscriber.opened < record.sequence →
        record.sequence ≤ subscriber.afterSequence →
        record ∈ subscriber.answers.flatMap PollEventsResult.records ∨
          ∃ gap, .resyncRequired gap ∈ subscriber.answers ∧
            gap.requestedAfterSequence < record.sequence ∧ record.sequence ≤ gap.resetBarrier) ∧
      (subscriber.subscriptionId ∈ world.api.subscriptions →
        ∀ requestedLimit limit, ∃ answer,
          world.api.poll (world.query subscriber requestedLimit limit) = .ok answer ∧
          (subscriber.afterSequence < world.published.length →
            subscriber.afterSequence < answer.cursor)) := by
  intro world
  have h : world.Sound config := World.run_sound (World.new_sound streamId config) actions
  have hretains := h.retains
  refine ⟨⟨hretains.numbered, ?_, ?_⟩, ?_, ?_, ?_, ?_⟩
  · rw [hretains.records, h.config]
  · rw [hretains.sequences, h.config]
  · intro call error last hcall
    have hmake := call.make_ensures hretains
    unfold Ensures at hmake
    rw [hcall] at hmake
    exact hmake
  · intro query record last hcall
    have hmake : Ensures (StreamCall.poll query).make world.api
        (fun _ last => last = world.api) fun last => last = world.api := by
      refine .get (.through (fun _ last => last = world.api) (.ofExcept rfl fun _ _ => rfl) ?_)
      rintro _ last rfl
      exact .ret rfl
    unfold Ensures at hmake
    rw [hcall] at hmake
    exact hmake
  · intro query hother
    exact ⟨if_pos hother, hretains.last⟩
  · intro subscriber hsubscriber
    obtain ⟨hcursor, hfollows⟩ := h.follows subscriber hsubscriber
    refine ⟨hfollows, (hfollows.delivered_in_order hretains.numbered).1, ?_, ?_⟩
    · intro record hrecord hafter hbefore
      exact hfollows.delivered_or_gap hretains.numbered hrecord hafter hbefore
    · intro hregistered requestedLimit limit
      have hcases := @poll_cases _ _ (world.query subscriber requestedLimit limit) hretains rfl
        hcursor
      rcases hcases with ⟨hmissing, -⟩ | ⟨-, hevicted, hpoll⟩ | ⟨-, hretained, hpoll⟩
      · exact absurd hregistered hmissing
      · refine ⟨_, hpoll, fun hbehind => ?_⟩
        change subscriber.afterSequence < world.api.lastSequence
        rw [hretains.last]
        exact hbehind
      · exact ⟨_, hpoll, (batch_follows hretains hcursor hretained).2.2⟩

end Api
end Superi
