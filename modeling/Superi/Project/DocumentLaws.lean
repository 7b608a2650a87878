import Superi.Project.Document

/-!
# DocumentLaws — what a document publishes

An edit or a restore either leaves the document as it is or moves it one revision on, to another
state of the same project; the command log stays in place.
-/

namespace Superi
namespace Project

open Core Result Graph Editorial Document

variable {ν σ μ π ρ : Type}

/-! ## Validity -/

section Validity

variable {state : ProjectState ν σ μ π} {operation other : String}

theorem validateCompilation_operation {project : EditorialProject}
    {compilation : TimelineGraphCompilation ν}
    (h : validateCompilation project compilation operation = .ok ()) :
    validateCompilation project compilation other = .ok () := by
  simp only [validateCompilation, bind_eq_ok, rejectIf_eq_ok] at h ⊢
  exact h

theorem validateName_operation {name : String} (h : validateName name operation = .ok ()) :
    validateName name other = .ok () := by
  simp only [validateName, rejectIf_eq_ok] at h ⊢
  exact h

namespace ProjectState

theorem validateGraph_operation {seen seen' : List TimelineId × Bool}
    {entry : GraphId × ProjectGraph ν}
    (h : state.validateGraph operation seen entry = .ok seen') :
    state.validateGraph other seen entry = .ok seen' := by
  obtain ⟨id, graph⟩ := entry
  cases graph with
  | timeline compilation =>
      simp only [validateGraph, bind_eq_ok, rejectIf_eq_ok] at h ⊢
      obtain ⟨_, hid, _, hcompilation, hrest⟩ := h
      exact ⟨(), hid, (), validateCompilation_operation hcompilation, hrest⟩
  | standalone named =>
      simp only [validateGraph, bind_eq_ok, rejectIf_eq_ok] at h ⊢
      obtain ⟨_, hid, _, hname, hrest⟩ := h
      exact ⟨(), hid, (), validateName_operation hname, hrest⟩

theorem validateGraphs_operation {entries : List (GraphId × ProjectGraph ν)}
    {seen seen' : List TimelineId × Bool}
    (h : entries.foldlM (state.validateGraph operation) seen = .ok seen') :
    entries.foldlM (state.validateGraph other) seen = .ok seen' := by
  induction entries generalizing seen with
  | nil => exact h
  | cons entry rest ih =>
      rw [List.foldlM_cons, bind_eq_ok] at h ⊢
      obtain ⟨next, hentry, hrest⟩ := h
      exact ⟨next, validateGraph_operation hentry, ih hrest⟩

/-- The operation only names the error of a failed check. -/
theorem validate_operation (h : state.validate operation = .ok ()) :
    state.validate other = .ok () := by
  simp only [validate, bind_eq_ok, rejectIf_eq_ok] at h ⊢
  obtain ⟨_, hcount, _, hkeys, _, hroot, seen, hgraphs, _, hselected, hclips⟩ := h
  exact ⟨(), hcount, (), hkeys, (), hroot, seen, validateGraphs_operation hgraphs, (), hselected,
    hclips⟩

end ProjectState

end Validity

/-! ## Drafts -/

/-- No edit of an editorial project changes its identity. -/
theorem editorialEdit_id {α : Type} {project edited : EditorialProject} {expectedRevision : Nat}
    {change : Editorial.ProjectDraft → Except Error (Editorial.ProjectDraft × α)} {reported : α}
    (h : project.edit expectedRevision change = .ok (edited, reported)) : edited.id = project.id := by
  simp only [EditorialProject.edit, bind_eq_ok, rejectIf_eq_ok, pure_eq_ok] at h
  obtain ⟨_, _, ⟨draft, _⟩, _, _, _, _, _, hedited⟩ := h
  cases hedited
  rfl

theorem DraftMethod.projectId_eq {state candidate : ProjectState ν σ μ π}
    (h : DraftMethod state candidate) : candidate.projectId = state.projectId := by
  cases h with
  | editorialProjectMut _ h => exact editorialEdit_id h
  | setRootTimelineId | replaceSettings | graphMut | clipMixStateMut | extensionRecordsMut => rfl

theorem DraftEdit.projectId_eq {edit : DraftEdit ν σ μ π ρ} {state candidate : ProjectState ν σ μ π}
    {reported : ρ} (h : edit.run state = .ok (candidate, reported)) :
    candidate.projectId = state.projectId := by
  have hsteps := edit.throughMethods h
  clear h
  induction hsteps with
  | refl => rfl
  | tail _ hlast ih => exact hlast.projectId_eq.trans ih

/-! ## Publication -/

section Publication

variable [BEq (ProjectState ν σ μ π)]

/-- The document moved one revision on, to a different state of the same project. -/
structure Published (document document' : ProjectDocument ν σ μ π) : Prop where
  revision : document'.revision = document.revision + 1
  room : document.revision < maxCounter
  state : (document'.state == document.state) = false
  project : document'.projectId = document.projectId
  commandLog : document'.commandLog = document.commandLog

namespace ProjectDocument

variable {document document' : ProjectDocument ν σ μ π} {expectedRevision : Nat}

theorem edit_cases {edit : DraftEdit ν σ μ π ρ}
    {result : Except Error (ProjectSnapshot ν σ μ π × ρ)}
    (h : document.edit expectedRevision edit = (document', result)) :
    (∃ error, result = .error error ∧ document' = document) ∨
      ∃ reported, result = .ok (document'.snapshot, reported) ∧
        (document' = document ∨ Published document document') := by
  unfold ProjectDocument.edit at h
  split at h
  case h_1 error _ =>
      cases h
      exact .inl ⟨error, rfl, rfl⟩
  case h_2 _ =>
  split at h
  case h_1 error _ =>
      cases h
      exact .inl ⟨error, rfl, rfl⟩
  case h_2 candidate reported hrun =>
  split at h
  case h_1 error _ =>
      cases h
      exact .inl ⟨error, rfl, rfl⟩
  case h_2 hvalid =>
  split at h
  case isTrue _ =>
      cases h
      exact .inr ⟨reported, rfl, .inl rfl⟩
  case isFalse hdifferent =>
  split at h
  case isTrue _ =>
      cases h
      exact .inl ⟨_, rfl, rfl⟩
  case isFalse hroom =>
      cases h
      exact .inr ⟨reported, rfl, .inr {
        revision := rfl
        room := Nat.lt_of_not_le hroom
        state := Bool.eq_false_iff.2 hdifferent
        project := edit.projectId_eq hrun
        commandLog := rfl }⟩

omit [BEq (ProjectState ν σ μ π)] in
theorem checkRevision_self (operation : String) :
    document.checkRevision operation document.revision = .ok () := by
  simp [checkRevision, rejectIf_eq_ok]

/-- A valid candidate that differs is published whenever the revision has room. -/
theorem edit_eq_ok {edit : DraftEdit ν σ μ π ρ} {candidate : ProjectState ν σ μ π} {reported : ρ}
    (hrun : edit.run document.state = .ok (candidate, reported)) (hvalid : candidate.Valid)
    (hstate : (candidate == document.state) = false) (hroom : document.revision < maxCounter) :
    document.edit document.revision edit =
      ({ document with revision := document.revision + 1, state := candidate, valid := hvalid },
        .ok (⟨document.revision + 1, candidate, document.commandLog, hvalid⟩, reported)) := by
  simp only [ProjectDocument.edit, checkRevision_self, hrun]
  split
  case h_1 error hfailed =>
      rw [hvalid] at hfailed
      cases hfailed
  case h_2 _ =>
      rw [if_neg (Bool.eq_false_iff.1 hstate), if_neg (Nat.not_le.2 hroom)]
      rfl

theorem executeSettingsTransaction_eq_ok {apply : σ → Except Error σ} {settings : σ}
    (hrun : apply document.state.settings = .ok settings)
    (hvalid : { document.state with settings }.Valid)
    (hstate : ({ document.state with settings } == document.state) = false)
    (hroom : document.revision < maxCounter) :
    document.executeSettingsTransaction ⟨document.revision, apply⟩ =
      ({ document with revision := document.revision + 1, state := { document.state with settings },
                       valid := hvalid },
        .ok (⟨document.revision + 1, { document.state with settings }, document.commandLog, hvalid⟩,
          ())) := by
  refine edit_eq_ok ?_ hvalid hstate hroom
  simp only [hrun]
  rfl

/-- A settings transaction is an edit. -/
theorem executeSettingsTransaction_cases {transaction : ProjectSettingsTransaction σ}
    {result : Except Error (ProjectSnapshot ν σ μ π × Unit)}
    (h : document.executeSettingsTransaction transaction = (document', result)) :
    (∃ error, result = .error error ∧ document' = document) ∨
      result = .ok (document'.snapshot, ()) ∧
        (document' = document ∨ Published document document') := by
  rcases edit_cases h with hfailed | ⟨⟨⟩, hresult, hdocument⟩
  · exact .inl hfailed
  · exact .inr ⟨hresult, hdocument⟩

/-- Another state of the same project is restored whenever the revision has room. -/
theorem restoreSnapshot_eq_ok {target : ProjectSnapshot ν σ μ π}
    (hproject : target.projectId = document.projectId)
    (hstate : (target.state == document.state) = false)
    (hroom : document.revision < maxCounter) :
    document.restoreSnapshot document.revision target =
      ({ document with revision := document.revision + 1, state := target.state,
                       valid := target.valid },
        .ok { target with revision := document.revision + 1, commandLog := document.commandLog }) := by
  have hvalid : target.state.validate "restore_snapshot" = .ok () :=
    ProjectState.validate_operation target.valid
  simp only [restoreSnapshot, checkRevision_self, hproject, hvalid, hstate, Nat.not_le.2 hroom, ne_eq,
    not_true_eq_false, if_false, Bool.false_eq_true]
  rfl

/-- A restore fails and changes nothing, or publishes the target, or finds it published. -/
theorem restoreSnapshot_cases {target : ProjectSnapshot ν σ μ π}
    {result : Except Error (ProjectSnapshot ν σ μ π)}
    (h : document.restoreSnapshot expectedRevision target = (document', result)) :
    (∃ error, result = .error error ∧ document' = document) ∨
      (∃ snapshot, result = .ok snapshot) ∧ expectedRevision = document.revision ∧
        target.projectId = document.projectId ∧
        ((target.state == document.state) = true ∧ document' = document ∨
          (target.state == document.state) = false ∧ document.revision < maxCounter ∧
            document' = { document with revision := document.revision + 1, state := target.state,
                                        valid := target.valid }) := by
  unfold ProjectDocument.restoreSnapshot at h
  split at h
  case h_1 error _ =>
      cases h
      exact .inl ⟨error, rfl, rfl⟩
  case h_2 hfence =>
  have hfence : expectedRevision = document.revision := by
    simpa [checkRevision, rejectIf_eq_ok] using hfence
  split at h
  case isTrue _ =>
      cases h
      exact .inl ⟨_, rfl, rfl⟩
  case isFalse hproject =>
  have hproject := not_not.1 hproject
  split at h
  case h_1 error _ =>
      cases h
      exact .inl ⟨error, rfl, rfl⟩
  case h_2 _ =>
  split at h
  case isTrue hsame =>
      cases h
      exact .inr ⟨⟨_, rfl⟩, hfence, hproject, .inl ⟨hsame, rfl⟩⟩
  case isFalse hdifferent =>
  split at h
  case isTrue _ =>
      cases h
      exact .inl ⟨_, rfl, rfl⟩
  case isFalse hroom =>
      cases h
      exact .inr ⟨⟨_, rfl⟩, hfence, hproject,
        .inr ⟨Bool.eq_false_iff.2 hdifferent, Nat.lt_of_not_le hroom, rfl⟩⟩

omit [BEq (ProjectState ν σ μ π)] in
/-- Appending a record touches the log only. -/
theorem appendCommandRecord_cases {sha256 : List UInt8 → Sha256Digest}
    {draft : ProjectCommandRecordDraft} {commandSequence before after : Nat}
    {beforeHash afterHash : Sha256Digest} {changed : Bool}
    {result : Except Error ProjectCommandRecord}
    (h : document.appendCommandRecord sha256 draft commandSequence before after beforeHash afterHash
      changed = (document', result)) :
    (∃ error, result = .error error ∧ document' = document) ∨
      ∃ record commandLog, result = .ok record ∧ document' = { document with commandLog } ∧
        document.commandLog.append sha256 draft commandSequence before after beforeHash afterHash
          changed = (commandLog, .ok record) := by
  unfold ProjectDocument.appendCommandRecord at h
  split at h
  case h_1 error _ =>
      cases h
      exact .inl ⟨error, rfl, rfl⟩
  case h_2 commandLog record happend =>
      cases h
      exact .inr ⟨record, commandLog, rfl, rfl, happend⟩

/-! ## Runs of edits -/

/-- The document after a run of edits, each with the revision it was drawn up against. -/
def editAll (document : ProjectDocument ν σ μ π) (edits : List (Nat × DraftEdit ν σ μ π ρ)) :
    ProjectDocument ν σ μ π :=
  edits.foldl (fun document drawn => (document.edit drawn.1 drawn.2).1) document

/-- An edit that is not refused was drawn up against the current revision. -/
theorem edit_stale (edit : DraftEdit ν σ μ π ρ) (h : expectedRevision ≠ document.revision) :
    ∃ error, document.edit expectedRevision edit = (document, .error error) := by
  unfold ProjectDocument.edit
  rw [checkRevision, rejectIf, if_pos h]
  exact ⟨_, rfl⟩

theorem edit_moves (edit : DraftEdit ν σ μ π ρ) :
    (document.edit expectedRevision edit).1 = document ∨
      Published document (document.edit expectedRevision edit).1 := by
  rcases edit_cases (Prod.eta (document.edit expectedRevision edit)).symm with
    ⟨_, _, hsame⟩ | ⟨_, _, hmoves⟩
  · exact .inl hsame
  · exact hmoves

theorem editAll_keeps (edits : List (Nat × DraftEdit ν σ μ π ρ)) :
    document.revision ≤ (document.editAll edits).revision ∧
      (document.editAll edits).projectId = document.projectId ∧
      (document.editAll edits).commandLog = document.commandLog := by
  induction edits generalizing document with
  | nil => exact ⟨Nat.le_refl _, rfl, rfl⟩
  | cons drawn rest ih =>
      obtain ⟨hrevision, hproject, hlog⟩ := @ih (document.edit drawn.1 drawn.2).1
      rcases @edit_moves _ _ _ _ _ _ document drawn.1 drawn.2 with hsame | hmoves
      · exact ⟨Nat.le_trans (Nat.le_of_eq (congrArg revision hsame.symm)) hrevision,
          hproject.trans (congrArg projectId hsame), hlog.trans (congrArg commandLog hsame)⟩
      · exact ⟨Nat.le_trans (Nat.le_of_lt (hmoves.revision ▸ Nat.lt_succ_self _)) hrevision,
          hproject.trans hmoves.project, hlog.trans hmoves.commandLog⟩

/-- No update is lost.  Of two edits drawn up against one revision, once the first has changed the
document the second is refused and changes nothing, whatever edits run between them. -/
theorem edits_never_lost (document : ProjectDocument ν σ μ π) (revision : Nat)
    (first second : DraftEdit ν σ μ π ρ) (between : List (Nat × DraftEdit ν σ μ π ρ)) :
    (document.edit revision first).1 = document ∨
      revision = document.revision ∧ Published document (document.edit revision first).1 ∧
        ((document.edit revision first).1.editAll between).projectId = document.projectId ∧
        ∃ error, ((document.edit revision first).1.editAll between).edit revision second =
          ((document.edit revision first).1.editAll between, .error error) := by
  by_cases hcurrent : revision = document.revision
  · rcases @edit_moves _ _ _ _ _ _ document revision first with hsame | hmoves
    · exact .inl hsame
    · obtain ⟨hlater, hproject, -⟩ := @editAll_keeps _ _ _ _ _ _ (document.edit revision first).1 between
      refine .inr ⟨hcurrent, hmoves, hproject.trans hmoves.project, edit_stale second ?_⟩
      rw [hmoves.revision] at hlater
      omega
  · obtain ⟨error, hrefused⟩ := edit_stale first hcurrent
    exact .inl (by rw [hrefused])

end ProjectDocument

end Publication

end Project
end Superi
