import Mathlib
import Superi.Graph.Mutate
import Superi.Project.CommandLog
import Superi.Timeline.Project

/-!
# Document — the project aggregate and its atomic publication

A document owns one coherent revision of the authored state.  An edit works on a private candidate,
which is validated as a whole and published under the next revision, unless it equals the state
already published.  A historical state is restored under a fresh revision as well.

The types of graph values `ν`, settings `σ`, clip controls `μ` and extension contents `π` are
parameters: this layer stores and compares them, and looks into none.
-/

namespace Superi
namespace Project

open Core Result Keyed Graph Editorial

namespace Document

def conflict (operation message : String) : Error :=
  (Error.new .conflict .userCorrectable message).withContext ⟨"superi-project.document", operation⟩

def staleRevision (operation : String) : Error :=
  (conflict operation "project document revision does not match the expected revision").withContext
    ⟨"superi-project.document", operation⟩

def revisionExhausted (operation : String) : Error :=
  (Error.new .resourceExhausted .terminal "project document revision is exhausted").withContext
    ⟨"superi-project.document", operation⟩

def documentError (category : ErrorCategory) (operation message : String) : Error :=
  (Error.new category .userCorrectable message).withContext ⟨"superi-project.document", operation⟩

def documentConflict (operation message : String) : Error :=
  (conflict operation message).withContext ⟨"superi-project.document", operation⟩

end Document

open Document

/-! ## Project graphs -/

/-- The provenance and the editable graph compiled from one timeline. -/
structure TimelineGraphCompilation (ν : Type) where
  projectId : ProjectId
  rootTimelineId : TimelineId
  projectRevision : Nat
  graph : EditableGraph ν

structure StandaloneProjectGraph (ν : Type) where
  name : String
  graph : EditableGraph ν

/-- One graph retained as editable project state. -/
inductive ProjectGraph (ν : Type)
  | timeline (compilation : TimelineGraphCompilation ν)
  | standalone (graph : StandaloneProjectGraph ν)

namespace ProjectGraph

variable {ν : Type}

def graph : ProjectGraph ν → EditableGraph ν
  | .timeline compilation => compilation.graph
  | .standalone named => named.graph

def graphId (graph : ProjectGraph ν) : GraphId := graph.graph.state.dag.id

def rootTimelineId : ProjectGraph ν → Option TimelineId
  | .timeline compilation => some compilation.rootTimelineId
  | .standalone _ => none

end ProjectGraph

/-! ## Authored state -/

/-- The compound identity of an extension record. -/
structure ProjectExtensionKey where
  extensionId : String
  recordId : String
  deriving DecidableEq, Repr

namespace ProjectExtensionKey

instance : Ord ProjectExtensionKey := ⟨compareLex (compareOn extensionId) (compareOn recordId)⟩

instance : Std.TransOrd ProjectExtensionKey :=
  inferInstanceAs (Std.TransCmp (compareLex (compareOn extensionId) (compareOn recordId)))

end ProjectExtensionKey

structure ProjectExtensionRecord (π : Type) where
  key : ProjectExtensionKey
  contents : π

/-- Revisioned clip-owned audio intent. -/
structure ClipMixState (μ : Type) where
  revision : Nat
  controls : Std.ExtTreeMap ClipId μ

def maxProjectExtensionRecords : Nat := 4096

/-- Everything an edit can change and a restore brings back. -/
structure ProjectState (ν σ μ π : Type) where
  editorialProject : EditorialProject
  rootTimelineId : TimelineId
  settings : σ
  graphs : Std.ExtTreeMap GraphId (ProjectGraph ν)
  clipMixState : ClipMixState μ
  extensionRecords : Std.ExtTreeMap ProjectExtensionKey (ProjectExtensionRecord π)

variable {ν σ μ π : Type}

def validateCompilation (editorialProject : EditorialProject)
    (compilation : TimelineGraphCompilation ν) (operation : String) : Except Error Unit := do
  rejectIf (compilation.projectId ≠ editorialProject.id)
    (documentConflict operation "timeline compilation belongs to another project")
  rejectIf ((editorialProject.timeline compilation.rootTimelineId).isNone = true)
    (documentError .notFound operation
      "compiled timeline root was not found in the editorial project")
  rejectIf (compilation.projectRevision ≠ editorialProject.revision)
    (documentConflict operation "timeline compilation is stale for the editorial project revision")

def validateName (name operation : String) : Except Error Unit :=
  rejectIf (isBlank name = true)
    (documentError .invalidInput operation "standalone project graph name cannot be blank")

namespace ProjectState

def projectId (state : ProjectState ν σ μ π) : ProjectId := state.editorialProject.id

/-- Check one retained graph.  Carries the timeline roots seen so far, and whether the selected root
is among them. -/
def validateGraph (state : ProjectState ν σ μ π) (operation : String)
    (seen : List TimelineId × Bool) (entry : GraphId × ProjectGraph ν) :
    Except Error (List TimelineId × Bool) := do
  rejectIf (entry.1 ≠ entry.2.graphId) (documentError .corruptData operation
    "project graph map key does not match the graph identity")
  match entry.2 with
  | .timeline compilation =>
      validateCompilation state.editorialProject compilation operation
      rejectIf (compilation.rootTimelineId ∈ seen.1) (documentConflict operation
        "multiple project graphs compile the same timeline root")
      return (compilation.rootTimelineId :: seen.1,
        seen.2 || decide (compilation.rootTimelineId = state.rootTimelineId))
  | .standalone named =>
      validateName named.name operation
      return seen

/-- The clips on the tracks of every timeline. -/
def clipIds (state : ProjectState ν σ μ π) : List ClipId :=
  (valuesOf state.editorialProject.timelines).flatMap fun timeline => timeline.clips.map Clip.id

/-- Check the relations between the parts of the state. -/
def validate (state : ProjectState ν σ μ π) (operation : String) : Except Error Unit := do
  rejectIf (maxProjectExtensionRecords < state.extensionRecords.size)
    (documentError .resourceExhausted operation
      "project extension record count exceeds the supported bound")
  rejectIf (∃ entry ∈ state.extensionRecords.toList, entry.1 ≠ entry.2.key)
    (documentError .corruptData operation
      "extension record map key does not match the record identity")
  rejectIf ((state.editorialProject.timeline state.rootTimelineId).isNone = true)
    (documentError .notFound operation
      "selected root timeline was not found in the editorial project")
  let seen ← state.graphs.toList.foldlM (state.validateGraph operation) ([], false)
  rejectIf (seen.2 = false) (documentConflict operation
    "selected root timeline has no retained compiled graph")
  rejectIf (∃ clipId ∈ state.clipMixState.controls.keys, clipId ∉ state.clipIds)
    (documentError .notFound operation "clip-mix state references a missing editorial clip")

/-- The state passes its own checks. -/
def Valid (state : ProjectState ν σ μ π) : Prop := state.validate "edit_document" = .ok ()

end ProjectState

/-! ## Drafts -/

/-- One call of a draft method: the parts of the candidate that each method can reach.  The
editorial project is reached through its own checked edits. -/
inductive DraftMethod : ProjectState ν σ μ π → ProjectState ν σ μ π → Prop
  | setRootTimelineId (state : ProjectState ν σ μ π) (rootTimelineId : TimelineId) :
      DraftMethod state { state with rootTimelineId }
  | editorialProjectMut {α : Type} (state : ProjectState ν σ μ π) {expectedRevision : Nat}
      {change : Editorial.ProjectDraft → Except Error (Editorial.ProjectDraft × α)}
      {editorialProject : EditorialProject} {reported : α}
      (h : state.editorialProject.edit expectedRevision change =
        .ok (editorialProject, reported)) :
      DraftMethod state { state with editorialProject }
  | replaceSettings (state : ProjectState ν σ μ π) (settings : σ) :
      DraftMethod state { state with settings }
  | graphMut (state : ProjectState ν σ μ π)
      (graphs : Std.ExtTreeMap GraphId (ProjectGraph ν)) :
      DraftMethod state { state with graphs }
  | clipMixStateMut (state : ProjectState ν σ μ π) (clipMixState : ClipMixState μ) :
      DraftMethod state { state with clipMixState }
  | extensionRecordsMut (state : ProjectState ν σ μ π)
      (extensionRecords : Std.ExtTreeMap ProjectExtensionKey (ProjectExtensionRecord π)) :
      DraftMethod state { state with extensionRecords }

/-- The closure of one edit: it changes the candidate through the methods of the draft, and reports
something to its caller. -/
structure DraftEdit (ν σ μ π ρ : Type) where
  run : ProjectState ν σ μ π → Except Error (ProjectState ν σ μ π × ρ)
  throughMethods : ∀ {state candidate : ProjectState ν σ μ π} {reported : ρ},
    run state = .ok (candidate, reported) → Relation.ReflTransGen DraftMethod state candidate

/-! ## The document -/

/-- The mutable owner of one coherent project revision. -/
structure ProjectDocument (ν σ μ π : Type) where
  revision : Nat
  state : ProjectState ν σ μ π
  commandLog : ProjectCommandLog
  valid : state.Valid

/-- An immutable view of one published revision. -/
structure ProjectSnapshot (ν σ μ π : Type) where
  revision : Nat
  state : ProjectState ν σ μ π
  commandLog : ProjectCommandLog
  valid : state.Valid

namespace ProjectSnapshot

def projectId (snapshot : ProjectSnapshot ν σ μ π) : ProjectId := snapshot.state.projectId

end ProjectSnapshot

/-- A strict change of the settings. -/
structure ProjectSettingsTransaction (σ : Type) where
  expectedRevision : Nat
  apply : σ → Except Error σ

namespace ProjectDocument

def projectId (document : ProjectDocument ν σ μ π) : ProjectId := document.state.projectId

def snapshot (document : ProjectDocument ν σ μ π) : ProjectSnapshot ν σ μ π where
  revision := document.revision
  state := document.state
  commandLog := document.commandLog
  valid := document.valid

def checkRevision (document : ProjectDocument ν σ μ π) (operation : String)
    (expectedRevision : Nat) : Except Error Unit :=
  rejectIf (expectedRevision ≠ document.revision) (staleRevision operation)

/-- Append one command without advancing the authored revision. -/
def appendCommandRecord (sha256 : List UInt8 → Sha256Digest) (document : ProjectDocument ν σ μ π)
    (draft : ProjectCommandRecordDraft) (commandSequence : Nat)
    (beforeProjectRevision afterProjectRevision : Nat)
    (beforeSemanticHash afterSemanticHash : Sha256Digest) (authoredStateChanged : Bool) :
    ProjectDocument ν σ μ π × Except Error ProjectCommandRecord :=
  -- the log is cloned, so a failed append leaves that of the document alone
  match document.commandLog.append sha256 draft commandSequence beforeProjectRevision
    afterProjectRevision beforeSemanticHash afterSemanticHash authoredStateChanged with
  | (_, .error error) => (document, .error error)
  | (commandLog, .ok record) => ({ document with commandLog }, .ok record)

section Publication

variable [BEq (ProjectState ν σ μ π)]

/-- Apply one whole-project edit or publish none of it. -/
def edit {ρ : Type} (document : ProjectDocument ν σ μ π) (expectedRevision : Nat)
    (edit : DraftEdit ν σ μ π ρ) :
    ProjectDocument ν σ μ π × Except Error (ProjectSnapshot ν σ μ π × ρ) :=
  match document.checkRevision "edit_document" expectedRevision with
  | .error error => (document, .error error)
  | .ok () =>
      match edit.run document.state with
      | .error error => (document, .error error)
      | .ok (candidate, reported) =>
          match hvalid : candidate.validate "edit_document" with
          | .error error => (document, .error error)
          | .ok () =>
              if candidate == document.state then (document, .ok (document.snapshot, reported))
              else if maxCounter ≤ document.revision then
                (document, .error (revisionExhausted "edit_document"))
              else
                let published : ProjectDocument ν σ μ π :=
                  { document with revision := document.revision + 1, state := candidate,
                                  valid := hvalid }
                (published, .ok (published.snapshot, reported))

/-- Apply one settings transaction through whole-project publication. -/
def executeSettingsTransaction (document : ProjectDocument ν σ μ π)
    (transaction : ProjectSettingsTransaction σ) :
    ProjectDocument ν σ μ π × Except Error (ProjectSnapshot ν σ μ π × Unit) :=
  document.edit transaction.expectedRevision {
    run := fun state => do
      let settings ← transaction.apply state.settings
      return ({ state with settings }, ())
    throughMethods := by
      intro state candidate reported h
      simp only [bind_eq_ok, pure_eq_ok] at h
      obtain ⟨settings, -, hcandidate⟩ := h
      cases hcandidate
      exact .single (.replaceSettings state settings) }

/-- Restore one historical state under a fresh revision.  The revision of the target is evidence
only. -/
def restoreSnapshot (document : ProjectDocument ν σ μ π) (expectedRevision : Nat)
    (target : ProjectSnapshot ν σ μ π) :
    ProjectDocument ν σ μ π × Except Error (ProjectSnapshot ν σ μ π) :=
  match document.checkRevision "restore_snapshot" expectedRevision with
  | .error error => (document, .error error)
  | .ok () =>
      if target.projectId ≠ document.projectId then
        (document, .error (documentConflict "restore_snapshot"
          "historical snapshot belongs to another project"))
      else
        match target.state.validate "restore_snapshot" with
        | .error error => (document, .error error)
        | .ok () =>
            if target.state == document.state then (document, .ok document.snapshot)
            else if maxCounter ≤ document.revision then
              (document, .error (revisionExhausted "restore_snapshot"))
            else
              let published : ProjectDocument ν σ μ π :=
                { document with revision := document.revision + 1, state := target.state,
                                valid := target.valid }
              (published, .ok published.snapshot)

end Publication

end ProjectDocument

end Project
end Superi
