import Superi.Lib.Delimited
import Superi.Project.Recovery

/-!
# RecoveryLaws — catalog and directory stay in step

A listed candidate has its file under its managed name, whatever step of a call fails, but for one
that a dismissal renamed before it failed.  A dismissed candidate is not listed again, and no call
touches a name that is not a managed one.
-/

namespace Superi
namespace Project

open Core Result

/-! ## Names -/

section Names

variable {opening closing : List Char} {name : String} {id id' : ProjectRecoveryCandidateId}

theorem parseFileName_eq_some (h : parseFileName opening closing name = some id) :
    fileName opening closing id.generation = name := by
  simp only [parseFileName, Option.bind_eq_bind, Option.bind_eq_some_iff] at h
  obtain ⟨rest, -, digits, -, h⟩ := h
  split at h
  · split at h
    · obtain ⟨hname, h⟩ := Option.ite_none_right_eq_some.1 h
      cases h
      exact hname
    · cases h
  · cases h

theorem parse_fileName (opening closing : List Char) (id : ProjectRecoveryCandidateId) :
    parseFileName opening closing (fileName opening closing id.generation) = some id := by
  have hfits := id.fits
  have hlength : (Decimal.padded 20 id.generation).length = 20 :=
    Decimal.length_padded_of_lt (by decide) (by omega)
  have hopening : (fileName opening closing id.generation).toList.dropPrefix? opening =
      some (Decimal.padded 20 id.generation ++ closing) := by
    rw [fileName, String.toList_ofList, List.append_assoc]
    exact Delimited.dropPrefix?_append
  have hclosing : (Decimal.padded 20 id.generation ++ closing).dropSuffix? closing =
      some (Decimal.padded 20 id.generation) :=
    List.dropSuffix?_eq_some_iff.2 ⟨closing, rfl, beq_self_eq_true closing⟩
  have hvalue : Decimal.value (Decimal.padded 20 id.generation) = id.generation :=
    Decimal.value_padded
  simp only [parseFileName, hopening, hclosing, Option.bind_eq_bind, Option.bind_some, hvalue]
  rw [if_pos ⟨hlength, Decimal.isDigits_padded 20 id.generation⟩,
    dif_pos ⟨id.positive, id.fits⟩, if_pos trivial]

theorem artifactFileName_inj : artifactFileName id = artifactFileName id' ↔ id = id' := by
  refine ⟨fun h => ?_, fun h => by rw [h]⟩
  have hparse := parse_fileName "autosave-g".toList ".superi".toList id
  rw [show fileName "autosave-g".toList ".superi".toList id.generation =
    fileName "autosave-g".toList ".superi".toList id'.generation from h, parse_fileName] at hparse
  exact (Option.some.inj hparse).symm

/-- The one starts with a letter and the other with a point. -/
theorem tombstoneFileName_ne_artifactFileName : tombstoneFileName id ≠ artifactFileName id' := by
  intro h
  have hlist := congrArg (fun name => name.toList.head?) h
  simp [tombstoneFileName, artifactFileName, fileName] at hlist

end Names

/-- A name of a managed file or of its tombstone. -/
def IsManaged (name : String) : Prop :=
  ∃ id, name = artifactFileName id ∨ name = tombstoneFileName id

theorem parseTombstone_eq_some {name : String} {id : ProjectRecoveryCandidateId}
    (h : parseTombstoneFileName name = some id) : name = tombstoneFileName id :=
  (parseFileName_eq_some h).symm

theorem parseArtifact_eq_some {name : String} {id : ProjectRecoveryCandidateId}
    (h : parseArtifactFileName name = some id) : name = artifactFileName id :=
  (parseFileName_eq_some h).symm

namespace Directory

variable {directory next : Directory} {fault : Option IoError} {name source target : String}

theorem inspect_eq_ok {entry : DirectoryEntry} (h : directory.inspect fault name = .ok entry) :
    directory[name]? = some entry := by
  unfold inspect at h
  split at h
  · cases h
  · next hentry =>
      cases h
      exact hentry
  · cases h

theorem rename_eq_ok (h : directory.rename fault source target = .ok next) :
    ∃ entry, directory[source]? = some entry ∧
      next = (directory.erase source).insert target entry := by
  unfold rename at h
  split at h
  · cases h
  · next entry hentry =>
      cases h
      exact ⟨entry, hentry, rfl⟩
  · cases h

theorem removeFile_eq_ok (h : directory.removeFile fault name = .ok next) :
    next = directory.erase name := by
  unfold removeFile at h
  split at h
  · cases h
  · cases h
    rfl

/-- Only these names may stand for something else. -/
def ChangedOnly (names : String → Prop) (directory next : Directory) : Prop :=
  ∀ name, ¬ names name → next[name]? = directory[name]?

theorem ChangedOnly.refl (names : String → Prop) (directory : Directory) :
    ChangedOnly names directory directory := fun _ _ => rfl

theorem ChangedOnly.trans {names : String → Prop} {last : Directory}
    (h : ChangedOnly names directory next) (h' : ChangedOnly names next last) :
    ChangedOnly names directory last := fun name hname => (h' name hname).trans (h name hname)

theorem ChangedOnly.mono {names names' : String → Prop} (h : ChangedOnly names directory next)
    (hnames : ∀ name, names name → names' name) : ChangedOnly names' directory next :=
  fun name hname => h name (mt (hnames name) hname)

theorem changedOnly_erase (directory : Directory) (name : String) :
    ChangedOnly (· = name) directory (directory.erase name) := by
  intro other hother
  rw [Keyed.getElem?_erase_eq, if_neg hother]

theorem changedOnly_insert (directory : Directory) (name : String) (entry : DirectoryEntry) :
    ChangedOnly (· = name) directory (directory.insert name entry) := by
  intro other hother
  rw [Keyed.getElem?_insert_eq, if_neg hother]

end Directory

namespace ProjectRecoveryController

open Directory

variable {controller next : ProjectRecoveryController} {directory : Directory}

/-! ## Discovery -/

def IsTombstone (name : String) : Prop := ∃ id, name = tombstoneFileName id

theorem not_isTombstone_artifactFileName (id : ProjectRecoveryCandidateId) :
    ¬ IsTombstone (artifactFileName id) := by
  rintro ⟨other, h⟩
  exact tombstoneFileName_ne_artifactFileName h.symm

/-- What the scan found is in the directory, which lost nothing but tombstones. -/
structure Scanned (directory : Directory) (scan : Scan) : Prop where
  entries : ∀ (id : ProjectRecoveryCandidateId) (entry : ManagedRecoveryEntry),
    scan.entries[id]? = some entry → entry.path = artifactFileName id ∧
      directory[entry.path]? = some (.file entry.identity)
  candidates : ∀ candidate ∈ scan.candidates,
    ∃ entry, scan.entries[candidate.id]? = some entry
  changed : ChangedOnly IsTombstone directory scan.directory

variable {answers : DiscoverAnswers} {name : String} {id : ProjectRecoveryCandidateId} {scan : Scan}

/-- Only the findings, and tombstones in the directory, are different. -/
theorem Scanned.same (h : Scanned directory scan) {next : Scan}
    (hcandidates : next.candidates = scan.candidates) (hentries : next.entries = scan.entries)
    (hchanged : ChangedOnly IsTombstone scan.directory next.directory) :
    Scanned directory next := by
  refine ⟨?_, ?_, h.changed.trans hchanged⟩
  · rw [hentries]
    exact h.entries
  · rw [hentries, hcandidates]
    exact h.candidates

theorem Scanned.cleanTombstone (h : Scanned directory scan) (hname : name = tombstoneFileName id) :
    Scanned directory (cleanTombstone answers name id scan) := by
  unfold ProjectRecoveryController.cleanTombstone
  split
  · exact h.same rfl rfl (ChangedOnly.refl _ _)
  · next removed hremoved =>
      have hchanged : ChangedOnly IsTombstone scan.directory removed := by
        rw [removeFile_eq_ok hremoved]
        apply (changedOnly_erase scan.directory name).mono
        rintro other rfl
        exact ⟨id, hname⟩
      split
      · exact h.same rfl rfl hchanged
      · exact h.same rfl rfl hchanged

/-- A managed file that is loaded is listed, as a candidate or not. -/
theorem Scanned.loadArtifact (h : Scanned directory scan) (hname : name = artifactFileName id)
    {identity : FileIdentity} (hfile : scan.directory[name]? = some (.file identity)) :
    Scanned directory (controller.loadArtifact answers name id scan identity) := by
  have hfile' : directory[name]? = some (.file identity) := by
    rw [← h.changed name (by rw [hname]; exact not_isTombstone_artifactFileName id)]
    exact hfile
  have hentries : ∀ (other : ProjectRecoveryCandidateId) (entry : ManagedRecoveryEntry),
      (scan.entries.insert id ⟨name, identity⟩)[other]? = some entry →
        entry.path = artifactFileName other ∧
          directory[entry.path]? = some (.file entry.identity) := by
    intro other entry hentry
    rw [Keyed.getElem?_insert_eq] at hentry
    split at hentry
    · next heq =>
        cases hentry
        rw [heq]
        exact ⟨hname, hfile'⟩
    · exact h.entries other entry hentry
  have hlisted : ∀ candidate ∈ scan.candidates,
      ∃ entry, (scan.entries.insert id ⟨name, identity⟩)[candidate.id]? = some entry := by
    intro candidate hcandidate
    obtain ⟨entry, hentry⟩ := h.candidates candidate hcandidate
    rw [Keyed.getElem?_insert_eq]
    split
    · exact ⟨_, rfl⟩
    · exact ⟨entry, hentry⟩
  unfold ProjectRecoveryController.loadArtifact
  split
  · next loaded _ =>
      split
      · refine ⟨hentries, ?_, h.changed⟩
        intro candidate hcandidate
        rcases List.mem_append.1 hcandidate with hcandidate | hcandidate
        · exact hlisted candidate hcandidate
        · cases List.mem_singleton.1 hcandidate
          exact ⟨_, by rw [Keyed.getElem?_insert_eq, if_pos rfl]⟩
      · exact ⟨hentries, hlisted, h.changed⟩
  · exact ⟨hentries, hlisted, h.changed⟩

theorem Scanned.visit (h : Scanned directory scan) {next : Scan}
    (hvisit : controller.visit answers name scan = .ok next) : Scanned directory next := by
  unfold ProjectRecoveryController.visit at hvisit
  split at hvisit
  · next id hid =>
      obtain ⟨entry, -, hvisit⟩ := bind_eq_ok.1 hvisit
      split at hvisit
      · cases hvisit
        exact h.cleanTombstone (parseTombstone_eq_some hid)
      · cases hvisit
        exact h.same rfl rfl (ChangedOnly.refl _ _)
  · split at hvisit
    · next id hid =>
        obtain ⟨entry, hentry, hvisit⟩ := bind_eq_ok.1 hvisit
        split at hvisit
        · cases hvisit
          exact h.loadArtifact (parseArtifact_eq_some hid)
            (inspect_eq_ok (mapError_eq_ok.1 hentry))
        · cases hvisit
          exact h.same rfl rfl (ChangedOnly.refl _ _)
    · cases hvisit
      exact h

variable (controller answers) in
/-- By induction on the names. -/
theorem Scanned.visitAll (h : Scanned directory scan) (names : List String) :
    Scanned directory (controller.visitAll answers scan names).2 := by
  induction names generalizing scan with
  | nil => exact h
  | cons name names ih =>
      unfold ProjectRecoveryController.visitAll
      split
      · next hvisit => exact ih (h.visit hvisit)
      · exact h

/-! ## Publication -/

/-- What is published is not the same. -/
def Differs (before after : ProjectRecoveryController) : Prop :=
  before.catalog.candidates ≠ after.catalog.candidates ∨
    before.catalog.findings ≠ after.catalog.findings ∨ before.entries ≠ after.entries

/-- The revision is one higher exactly where something differs. -/
structure CountsChange (before after : ProjectRecoveryController) : Prop where
  differs : Differs before after → after.catalog.revision = before.catalog.revision + 1
  same : ¬ Differs before after → after.catalog.revision = before.catalog.revision

theorem CountsChange.refl (controller : ProjectRecoveryController) :
    CountsChange controller controller := by
  refine ⟨fun h => ?_, fun _ => rfl⟩
  rcases h with h | h | h
  · exact absurd rfl h
  · exact absurd rfl h
  · exact absurd rfl h

theorem nextRevision_eq_ok {revision : Nat} (h : controller.nextRevision = .ok revision) :
    revision = controller.catalog.revision + 1 := by
  unfold nextRevision at h
  split at h
  · cases h
  · cases h
    rfl

variable {candidates : List ProjectRecoveryCandidate} {findings : List ProjectRecoveryFinding}
  {entries : ManagedEntries}

theorem changes_iff : controller.changes candidates findings entries = true ↔
    controller.catalog.candidates ≠ candidates ∨ controller.catalog.findings ≠ findings ∨
      controller.entries ≠ entries := by
  simp only [changes, Bool.or_eq_true, bne_iff_ne, or_assoc]

theorem publishCatalog_eq_ok
    (h : controller.publishCatalog candidates findings entries = .ok next) :
    next.catalog.candidates = candidates ∧ next.entries = entries ∧
      CountsChange controller next := by
  obtain ⟨revision, hrevision, h⟩ := bind_eq_ok.1 h
  cases h
  refine ⟨rfl, rfl, fun hdiffers => ?_, fun hsame => ?_⟩
  · rw [publishedRevision, if_pos (changes_iff.2 hdiffers)] at hrevision
    exact nextRevision_eq_ok hrevision
  · rw [publishedRevision, if_neg (mt changes_iff.1 hsame)] at hrevision
    cases hrevision
    rfl

/-- The files that are listed are in the directory. -/
structure Listed (controller : ProjectRecoveryController) (directory : Directory) : Prop where
  entries : ∀ (id : ProjectRecoveryCandidateId) (entry : ManagedRecoveryEntry),
    controller.entries[id]? = some entry → entry.path = artifactFileName id ∧
      directory[entry.path]? = some (.file entry.identity)
  candidates : ∀ candidate ∈ controller.catalog.candidates,
    ∃ entry, controller.entries[candidate.id]? = some entry

/-- What a discovery does. -/
structure Discovers (controller : ProjectRecoveryController) (directory : Directory)
    (answer : Answer) : Prop where
  changed : ChangedOnly IsTombstone directory answer.2.2
  failed : ∀ error, answer.1 = .error error → answer.2.1 = controller
  counts : CountsChange controller answer.2.1
  listed : answer.1 = .ok () → Listed answer.2.1 directory

/-- It fails without a catalog. -/
theorem Discovers.refused {error : RecoveryError} {after : Directory}
    (hchanged : ChangedOnly IsTombstone directory after) :
    Discovers controller directory (.error error, controller, after) :=
  ⟨hchanged, fun _ _ => rfl, CountsChange.refl controller, fun h => by cases h⟩

theorem Discovers.finish {after : Directory} (hchanged : ChangedOnly IsTombstone directory after)
    (hentries : ∀ (id : ProjectRecoveryCandidateId) (entry : ManagedRecoveryEntry),
      entries[id]? = some entry → entry.path = artifactFileName id ∧
        directory[entry.path]? = some (.file entry.identity))
    (hcandidates : ∀ candidate ∈ candidates, ∃ entry, entries[candidate.id]? = some entry) :
    Discovers controller directory
      (controller.finish after (controller.publishCatalog candidates findings entries)) := by
  unfold ProjectRecoveryController.finish
  split
  · next published hpublished =>
      obtain ⟨hlist, hmap, hcounts⟩ := publishCatalog_eq_ok hpublished
      refine ⟨hchanged, fun error h => by (cases h), hcounts, fun _ => ⟨?_, ?_⟩⟩
      · rw [hmap]
        exact hentries
      · rw [hmap, hlist]
        exact hcandidates
  · exact .refused hchanged

theorem discover_spec (controller : ProjectRecoveryController) (answers : DiscoverAnswers)
    (directory : Directory) :
    Discovers controller directory (controller.discover answers directory) := by
  have hnothing (id : ProjectRecoveryCandidateId) (entry : ManagedRecoveryEntry)
      (hentry : (∅ : ManagedEntries)[id]? = some entry) : entry.path = artifactFileName id ∧
        directory[entry.path]? = some (.file entry.identity) := by
    rw [Std.ExtTreeMap.getElem?_empty] at hentry
    cases hentry
  unfold discover
  split
  · split
    · exact .finish (ChangedOnly.refl _ _) hnothing (fun candidate h => by cases h)
    · exact .refused (ChangedOnly.refl _ _)
  · exact .refused (ChangedOnly.refl _ _)
  · exact .refused (ChangedOnly.refl _ _)
  · exact .refused (ChangedOnly.refl _ _)
  · have hstart : Scanned directory ⟨directory, [], [], ∅⟩ :=
      ⟨hnothing, fun candidate h => by (cases h), ChangedOnly.refl _ _⟩
    have hscanned := hstart.visitAll controller answers directory.keys
    unfold discoverEntries
    split
    · next scan hscan =>
        rw [hscan] at hscanned
        refine .finish hscanned.changed hscanned.entries ?_
        intro candidate hcandidate
        exact hscanned.candidates candidate ((List.mem_insertionSort _).1 hcandidate)
    · next error scan hscan =>
        rw [hscan] at hscanned
        exact .refused hscanned.changed

/-! ## Dismissal -/

section Dismissal

variable {answers : DismissAnswers} {expectedRevision revision : Nat}
  {entry : ManagedRecoveryEntry}

theorem revalidatedEntry_eq_ok {fault : Option IoError}
    (h : controller.revalidatedEntry id directory fault = .ok entry) :
    controller.entries[id]? = some entry ∧ entry.path = artifactFileName id ∧
      directory[entry.path]? = some (.file entry.identity) := by
  obtain ⟨found, hfound, h⟩ := bind_eq_ok.1 h
  obtain ⟨_, hpath, h⟩ := bind_eq_ok.1 h
  obtain ⟨node, hnode, h⟩ := bind_eq_ok.1 h
  have hnode := inspect_eq_ok (mapError_eq_ok.1 hnode)
  split at h
  · cases h
  · obtain ⟨_, hidentity, h⟩ := bind_eq_ok.1 h
    cases h
    have hidentity := not_not.1 (rejectIf_eq_ok.1 hidentity)
    rw [hidentity] at hnode
    exact ⟨okOr_eq_ok.1 hfound, not_not.1 (rejectIf_eq_ok.1 hpath), hnode⟩

theorem checkDismissal_eq_ok
    (h : controller.checkDismissal id expectedRevision directory answers = .ok (revision, entry)) :
    revision = controller.catalog.revision + 1 ∧ controller.entries[id]? = some entry ∧
      entry.path = artifactFileName id ∧ directory[entry.path]? = some (.file entry.identity) := by
  obtain ⟨_, -, h⟩ := bind_eq_ok.1 h
  obtain ⟨next, hnext, h⟩ := bind_eq_ok.1 h
  obtain ⟨found, hfound, h⟩ := bind_eq_ok.1 h
  obtain ⟨_, -, h⟩ := bind_eq_ok.1 h
  cases h
  exact ⟨nextRevision_eq_ok hnext, revalidatedEntry_eq_ok hfound⟩

/-- What a dismissal does: nothing; it renames the file and fails; or it takes the file out of the
catalog. -/
inductive Dismisses (controller : ProjectRecoveryController) (directory : Directory)
    (id : ProjectRecoveryCandidateId) (answers : DismissAnswers) : Answer → Prop
  | refused {error : RecoveryError} :
      Dismisses controller directory id answers (.error error, controller, directory)
  | interrupted {error : RecoveryError} {after : Directory} (hsync : answers.syncTransition ≠ none)
      (hchanged : ChangedOnly (fun name => name = artifactFileName id ∨ name = tombstoneFileName id)
        directory after)
      (hgone : after[artifactFileName id]? = none)
      (hfile : ∃ identity, directory[artifactFileName id]? = some (.file identity) ∧
        after[tombstoneFileName id]? = some (.file identity)) :
      Dismisses controller directory id answers (.error error, controller, after)
  | dismissed {finding : Option ProjectRecoveryFinding} {after : Directory}
      {entry : ManagedRecoveryEntry} (hlisted : controller.entries[id]? = some entry)
      (hchanged : ChangedOnly (fun name => name = artifactFileName id ∨ name = tombstoneFileName id)
        directory after)
      (hgone : after[artifactFileName id]? = none) :
      Dismisses controller directory id answers
        (.ok (), controller.withdraw id (controller.catalog.revision + 1) finding, after)

/-- After the rename only the tombstone can change. -/
theorem cleanDismissal_changed (id : ProjectRecoveryCandidateId) (directory : Directory)
    (answers : DismissAnswers) :
    ChangedOnly (· = tombstoneFileName id) directory (cleanDismissal id directory answers).2 := by
  unfold cleanDismissal
  split
  · exact ChangedOnly.refl _ _
  · next removed hremoved =>
      show ChangedOnly _ directory removed
      rw [removeFile_eq_ok hremoved]
      exact changedOnly_erase directory _

theorem dismiss_spec (controller : ProjectRecoveryController) (id : ProjectRecoveryCandidateId)
    (expectedRevision : Nat) (answers : DismissAnswers) (directory : Directory) :
    Dismisses controller directory id answers
      (controller.dismiss id expectedRevision answers directory) := by
  unfold dismiss
  split
  · exact .refused
  · next revision entry hcheck =>
      obtain ⟨rfl, hlisted, hpath, hfile⟩ := checkDismissal_eq_ok hcheck
      rw [hpath] at hfile ⊢
      split
      · exact .refused
      · next renamed hrenamed =>
          obtain ⟨node, hnode, rfl⟩ := rename_eq_ok (mapError_eq_ok.1 hrenamed)
          rw [hfile] at hnode
          cases hnode
          have hne : artifactFileName id ≠ tombstoneFileName id :=
            Ne.symm tombstoneFileName_ne_artifactFileName
          have hchanged : ChangedOnly
              (fun name => name = artifactFileName id ∨ name = tombstoneFileName id) directory
              ((directory.erase (artifactFileName id)).insert (tombstoneFileName id)
                (.file entry.identity)) :=
            ((changedOnly_erase directory _).mono fun _ => .inl).trans
              ((changedOnly_insert _ _ _).mono fun _ => .inr)
          have hgone : ((directory.erase (artifactFileName id)).insert (tombstoneFileName id)
              (.file entry.identity))[artifactFileName id]? = none := by
            rw [Keyed.getElem?_insert_eq, if_neg hne, Keyed.getElem?_erase_eq, if_pos rfl]
          unfold completeDismissal
          split
          · next source hsource =>
              refine .interrupted (by rw [hsource]; exact Option.some_ne_none _) hchanged hgone
                ⟨entry.identity, hfile, ?_⟩
              rw [Keyed.getElem?_insert_eq, if_pos rfl]
          · have hclean := cleanDismissal_changed id ((directory.erase (artifactFileName id)).insert
              (tombstoneFileName id) (.file entry.identity)) answers
            refine .dismissed hlisted (hchanged.trans (hclean.mono fun _ => .inr)) ?_
            exact (hclean _ hne).trans hgone

/-- The catalog that a dismissal leaves differs by the entry. -/
theorem withdraw_counts (hlisted : controller.entries[id]? = some entry)
    (finding : Option ProjectRecoveryFinding) :
    CountsChange controller (controller.withdraw id (controller.catalog.revision + 1) finding) := by
  refine ⟨fun _ => rfl, fun hsame => ?_⟩
  exfalso
  apply hsame
  refine .inr (.inr fun heq => ?_)
  have herased : (controller.entries.erase id)[id]? = none := by
    rw [Keyed.getElem?_erase_eq, if_pos rfl]
  rw [show controller.entries.erase id = controller.entries from heq.symm, hlisted] at herased
  cases herased

end Dismissal

end ProjectRecoveryController

/-! ## Runs -/

namespace RecoverySession

open Directory ProjectRecoveryController

variable {session : RecoverySession}

/-- The file of a candidate is there, unless something else or a dismissal that failed took it. -/
def HasFile (session : RecoverySession) (id : ProjectRecoveryCandidateId)
    (identity : FileIdentity) : Prop :=
  session.directory[artifactFileName id]? = some (.file identity) ∨
    artifactFileName id ∈ session.changedOutside ∨ id ∈ session.interrupted

structure InStep (session : RecoverySession) : Prop where
  entries : ∀ (id : ProjectRecoveryCandidateId) (entry : ManagedRecoveryEntry),
    session.controller.entries[id]? = some entry → session.HasFile id entry.identity
  candidates : ∀ candidate ∈ session.controller.catalog.candidates,
    ∃ entry, session.controller.entries[candidate.id]? = some entry
  dismissed : ∀ id ∈ session.dismissed,
    session.directory[artifactFileName id]? = none ∧ session.controller.entries[id]? = none

theorem start_inStep (projectId : ProjectId) (directory : Directory) :
    (start projectId directory).InStep := by
  refine ⟨fun id entry hentry => ?_, fun candidate h => by (cases h), fun id h => by (cases h)⟩
  rw [start, new, Std.ExtTreeMap.getElem?_empty] at hentry
  cases hentry

theorem InStep.outside (h : session.InStep) (name : String) (entry : Option DirectoryEntry) :
    (session.outside name entry).InStep := by
  have hchanged : ChangedOnly (· = name) session.directory
      (session.outside name entry).directory := by
    cases entry with
    | none => exact changedOnly_erase _ _
    | some entry => exact changedOnly_insert _ _ _
  refine ⟨fun id found hfound => ?_, h.candidates, fun id hid => ?_⟩
  · by_cases hname : artifactFileName id = name
    · exact .inr (.inl (hname ▸ List.mem_cons_self))
    · rcases h.entries id found hfound with hfile | hother | hlost
      · exact .inl ((hchanged _ hname).trans hfile)
      · exact .inr (.inl (List.mem_cons_of_mem _ hother))
      · exact .inr (.inr hlost)
  · obtain ⟨hid, hname⟩ := List.mem_filter.1 hid
    obtain ⟨hnone, hentry⟩ := h.dismissed id hid
    exact ⟨(hchanged _ (of_decide_eq_true hname)).trans hnone, hentry⟩

/-- Nothing that is listed or dismissed is touched. -/
theorem InStep.keep (h : session.InStep) {directory : Directory}
    (hsame : ∀ id, directory[artifactFileName id]? = session.directory[artifactFileName id]?) :
    { session with directory }.InStep := by
  refine ⟨fun id entry hentry => ?_, h.candidates, fun id hid => ?_⟩
  · rcases h.entries id entry hentry with hfile | hother | hlost
    · exact .inl ((hsame id).trans hfile)
    · exact .inr (.inl hother)
    · exact .inr (.inr hlost)
  · obtain ⟨hnone, hentry⟩ := h.dismissed id hid
    exact ⟨(hsame id).trans hnone, hentry⟩

theorem InStep.discover (h : session.InStep) (answers : DiscoverAnswers) :
    (session.call (.discover answers)).InStep := by
  have hspec := discover_spec session.controller answers session.directory
  show (session.afterDiscover (session.controller.discover answers session.directory)).InStep
  generalize session.controller.discover answers session.directory = answer at hspec ⊢
  obtain ⟨result, controller, directory⟩ := answer
  have hsame (id : ProjectRecoveryCandidateId) :
      directory[artifactFileName id]? = session.directory[artifactFileName id]? :=
    hspec.changed _ (not_isTombstone_artifactFileName id)
  cases result with
  | error error =>
      obtain rfl : controller = session.controller := hspec.failed error rfl
      exact h.keep hsame
  | ok _ =>
      have hlisted := hspec.listed rfl
      refine ⟨fun id entry hentry => .inl ?_, hlisted.candidates, fun id hid => ?_⟩
      · obtain ⟨hpath, hfile⟩ := hlisted.entries id entry hentry
        rw [hpath] at hfile
        exact (hsame id).trans hfile
      · have hnone := (h.dismissed id hid).1
        refine ⟨(hsame id).trans hnone, ?_⟩
        rw [Option.eq_none_iff_forall_not_mem]
        intro entry hentry
        obtain ⟨hpath, hfile⟩ := hlisted.entries id entry hentry
        rw [hpath, hnone] at hfile
        cases hfile

/-- Managed names of other candidates. -/
theorem artifact_kept {directory after : Directory} {id other : ProjectRecoveryCandidateId}
    (hchanged : ChangedOnly (fun name => name = artifactFileName id ∨ name = tombstoneFileName id)
      directory after) (hne : other ≠ id) :
    after[artifactFileName other]? = directory[artifactFileName other]? := by
  apply hchanged
  rintro (hname | hname)
  · exact hne (artifactFileName_inj.1 hname)
  · exact tombstoneFileName_ne_artifactFileName hname.symm

theorem InStep.dismiss (h : session.InStep) (expectedRevision : Nat)
    (id : ProjectRecoveryCandidateId) (answers : DismissAnswers) :
    (session.call (.dismiss expectedRevision id answers)).InStep := by
  have hspec := dismiss_spec session.controller id expectedRevision answers session.directory
  show (session.afterDismiss id (session.controller.dismiss id expectedRevision answers
    session.directory)).InStep
  generalize session.controller.dismiss id expectedRevision answers session.directory = answer
    at hspec ⊢
  cases hspec with
  | refused =>
      simp only [afterDismiss, if_true]
      exact h
  | @interrupted error after hsync hchanged hgone hfile =>
      obtain ⟨identity, hfile, -⟩ := hfile
      have hne : after ≠ session.directory := by
        rintro rfl
        rw [hgone] at hfile
        cases hfile
      simp only [afterDismiss, if_neg hne]
      refine ⟨fun other entry hentry => ?_, h.candidates, fun other hother => ?_⟩
      · by_cases hid : other = id
        · exact .inr (.inr (hid ▸ List.mem_cons_self))
        · rcases h.entries other entry hentry with hfile | houtside | hlost
          · exact .inl ((artifact_kept hchanged hid).trans hfile)
          · exact .inr (.inl houtside)
          · exact .inr (.inr (List.mem_cons_of_mem _ hlost))
      · obtain ⟨hnone, hentry⟩ := h.dismissed other hother
        refine ⟨?_, hentry⟩
        by_cases hid : other = id
        · rw [hid]
          exact hgone
        · exact (artifact_kept hchanged hid).trans hnone
  | @dismissed finding after entry hlisted hchanged hgone =>
      refine ⟨fun other found hfound => ?_, fun candidate hcandidate => ?_, fun other hother => ?_⟩
      · replace hfound : (session.controller.entries.erase id)[other]? = some found := hfound
        rw [Keyed.getElem?_erase_eq] at hfound
        split at hfound
        · cases hfound
        · next hid =>
            rcases h.entries other found hfound with hfile | houtside | hlost
            · exact .inl ((artifact_kept hchanged hid).trans hfile)
            · exact .inr (.inl houtside)
            · exact .inr (.inr hlost)
      · obtain ⟨hmem, hid⟩ := List.mem_filter.1 hcandidate
        obtain ⟨found, hfound⟩ := h.candidates candidate hmem
        refine ⟨found, ?_⟩
        show (session.controller.entries.erase id)[candidate.id]? = some found
        rw [Keyed.getElem?_erase_eq, if_neg (of_decide_eq_true hid)]
        exact hfound
      · show after[artifactFileName other]? = none ∧
          (session.controller.entries.erase id)[other]? = none
        rw [Keyed.getElem?_erase_eq]
        by_cases hid : other = id
        · rw [hid, if_pos rfl]
          exact ⟨hgone, rfl⟩
        · obtain ⟨hnone, hentry⟩ :=
            h.dismissed other ((List.mem_cons.1 hother).resolve_left hid)
          rw [if_neg hid, artifact_kept hchanged hid]
          exact ⟨hnone, hentry⟩

theorem InStep.step (h : session.InStep) (action : RecoveryAction) :
    (session.step action).InStep := by
  cases action with
  | call made =>
      cases made with
      | discover answers => exact h.discover answers
      | dismiss expectedRevision id answers => exact h.dismiss expectedRevision id answers
  | outside name entry => exact h.outside name entry

/-- By induction on the actions. -/
theorem InStep.run (h : session.InStep) (actions : List RecoveryAction) :
    (session.run actions).InStep := by
  induction actions generalizing session with
  | nil => exact h
  | cons action rest ih => exact ih (h.step action)

/-! ## Single calls -/

/-- A dismissal of the candidate whose directory sync fails. -/
def Interrupts (id : ProjectRecoveryCandidateId) : RecoveryCall → Prop
  | .discover _ => False
  | .dismiss _ other answers => other = id ∧ answers.syncTransition ≠ none

/-- What a call does to the catalog and the directory. -/
structure Accounts (session : RecoverySession) (made : RecoveryCall) : Prop where
  counts : CountsChange session.controller (session.answer made).2.1
  managed : ChangedOnly IsManaged session.directory (session.answer made).2.2
  failed : ∀ error, (session.answer made).1 = .error error →
    (session.answer made).2.1 = session.controller ∧ ∀ id,
      (session.answer made).2.2[artifactFileName id]? = session.directory[artifactFileName id]? ∨
        Interrupts id made ∧
          (session.answer made).2.2[tombstoneFileName id]? = session.directory[artifactFileName id]?

theorem accounts (session : RecoverySession) (made : RecoveryCall) : session.Accounts made := by
  cases made with
  | discover answers =>
      have hspec := discover_spec session.controller answers session.directory
      refine ⟨hspec.counts, hspec.changed.mono ?_,
        fun error herror => ⟨hspec.failed error herror, ?_⟩⟩
      · rintro name ⟨id, hname⟩
        exact ⟨id, .inr hname⟩
      · intro id
        exact .inl (hspec.changed _ (not_isTombstone_artifactFileName id))
  | dismiss expectedRevision id answers =>
      have hspec := dismiss_spec session.controller id expectedRevision answers session.directory
      have hmanaged (name : String)
          (hname : name = artifactFileName id ∨ name = tombstoneFileName id) : IsManaged name :=
        ⟨id, hname⟩
      constructor
      all_goals
        simp only [answer]
        generalize session.controller.dismiss id expectedRevision answers session.directory = answer
          at hspec ⊢
        cases hspec
      · exact CountsChange.refl _
      · exact CountsChange.refl _
      · next hlisted _ _ => exact withdraw_counts hlisted _
      · exact ChangedOnly.refl _ _
      · next hchanged _ _ => exact hchanged.mono hmanaged
      · next hchanged _ => exact hchanged.mono hmanaged
      · exact fun _ _ => ⟨rfl, fun _ => .inl rfl⟩
      · next hsync hchanged hgone hfile =>
          refine fun _ _ => ⟨rfl, fun other => ?_⟩
          by_cases hid : other = id
          · obtain ⟨identity, hfile, htombstone⟩ := hfile
            rw [hid]
            exact .inr ⟨⟨rfl, hsync⟩, htombstone.trans hfile.symm⟩
          · exact .inl (artifact_kept hchanged hid)
      · exact fun _ h => by cases h

/-- In every run, whatever steps fail: a listed candidate has its file, unless something else
changed it or a dismissal failed after it had renamed it; a dismissed candidate is not listed; and
every next call counts what it changes, leaves every name that is not managed, and where it fails
leaves the catalog and the managed files, but for the one whose dismissal it interrupts. -/
theorem recovery_in_step (projectId : ProjectId) (directory : Directory)
    (actions : List RecoveryAction) :
    (∀ candidate ∈ ((start projectId directory).run actions).controller.catalog.candidates,
      ∃ identity, ((start projectId directory).run actions).HasFile candidate.id identity) ∧
    (∀ id ∈ ((start projectId directory).run actions).dismissed,
      ∀ candidate ∈ ((start projectId directory).run actions).controller.catalog.candidates,
        candidate.id ≠ id) ∧
    ∀ made, ((start projectId directory).run actions).Accounts made := by
  have hkept := (start_inStep projectId directory).run actions
  refine ⟨fun candidate hcandidate => ?_, fun id hid candidate hcandidate heq => ?_,
    accounts _⟩
  · obtain ⟨entry, hentry⟩ := hkept.candidates candidate hcandidate
    exact ⟨entry.identity, hkept.entries _ entry hentry⟩
  · obtain ⟨entry, hentry⟩ := hkept.candidates candidate hcandidate
    rw [heq, (hkept.dismissed id hid).2] at hentry
    cases hentry

def firstAutosave : ProjectRecoveryCandidateId := ⟨1, Nat.one_pos, by decide⟩

def firstDirectory : Directory :=
  (∅ : Directory).insert (artifactFileName firstAutosave) (.file ⟨4096, none, 0, 7⟩)

def noFaults : DiscoverAnswers where
  inspectDirectory := .ok true
  scan := none
  readEntry := none
  inspect := fun _ => none
  remove := fun _ => none
  sync := fun _ => none
  load := fun _ => .ok ⟨⟨1⟩, 3⟩

/-- One autosave was discovered. -/
def discovered : RecoverySession := (start ⟨1⟩ firstDirectory).run [.call (.discover noFaults)]

/-- A dismissal whose directory sync fails after the rename. -/
def interruptedDismissal : RecoveryCall :=
  .dismiss 1 firstAutosave {
    reinspect := none
    reserve := none
    rename := none
    syncTransition := some ⟨.other, "input/output error"⟩
    remove := none
    syncCleanup := none }

/-- The dismissal fails, and the candidate is still listed but its file is gone. -/
theorem listed_without_file : ∃ candidate ∈ discovered.controller.catalog.candidates,
    discovered.directory[artifactFileName candidate.id]? = some (.file ⟨4096, none, 0, 7⟩) ∧
    discovered.changedOutside = [] ∧
    (discovered.answer interruptedDismissal).1.isOk = false ∧
    candidate ∈ (discovered.answer interruptedDismissal).2.1.catalog.candidates ∧
    (discovered.answer interruptedDismissal).2.2[artifactFileName candidate.id]? = none := by
  refine ⟨⟨firstAutosave, 3⟩, ?_⟩
  decide +kernel

end RecoverySession

end Project
end Superi
