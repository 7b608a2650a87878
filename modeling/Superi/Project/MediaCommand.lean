import Superi.Lib.Stateful
import Superi.Project.Document
import Superi.Project.MediaPath

/-!
# MediaCommand — commands on one referenced medium

A command changes the target or the relink evidence of one linked media reference.  It is tried on a
copy first; where it changes something it is published as one edit of the project.  The graphs
compiled from timelines are kept as they are, and their provenance is made anew for the next
editorial revision.

Compilation proper, the nodes and connections of a graph, is a parameter.
-/

namespace Superi
namespace Project

open Core Result Keyed Graph Editorial MediaPath

/-! ## Commands -/

/-- One change of the medium with the given identity. -/
inductive ProjectMediaCommand
  | setPath (mediaId : MediaId) (path : ReferencedMediaPath)
  | markMissing (mediaId : MediaId)
  | considerRelink (mediaId : MediaId) (path : ReferencedMediaPath) (observedFingerprint : String)

def ProjectMediaCommand.mediaId : ProjectMediaCommand → MediaId
  | setPath mediaId _ | markMissing mediaId | considerRelink mediaId _ _ => mediaId

inductive ProjectMediaCommandResult
  | pathUpdated
  | markedMissing
  | relink (decision : RelinkDecision)
  deriving DecidableEq, Repr

def missingMediaReference : Error :=
  (mediaError .notFound .userCorrectable "execute_media_command"
    "linked media identity was not found in the project").withContext
      ⟨"superi-project.media", "execute_media_command"⟩

/-- Apply a command to one reference. -/
def applyMediaCommand (media : LinkedMediaReference) :
    ProjectMediaCommand → Except Error (LinkedMediaReference × ProjectMediaCommandResult)
  | .setPath _ path => pure (media.setTarget (String.ofList path.toTarget), .pathUpdated)
  | .markMissing _ => pure (media.markMissing, .markedMissing)
  | .considerRelink _ path observedFingerprint => do
      let (media, decision) ←
        media.considerRelink (String.ofList path.toTarget) observedFingerprint
      pure (media, .relink decision)

/-! ## Compilations -/

variable {ν σ μ π : Type}

/-- The graph compiled from one timeline of a project. -/
abbrev GraphCompiler (ν : Type) : Type :=
  EditorialProject → TimelineId → Except Error (EditableGraph ν)

def compileTimeline (compileGraph : GraphCompiler ν) (project : EditorialProject)
    (rootTimelineId : TimelineId) : Except Error (TimelineGraphCompilation ν) := do
  rejectIf ((project.timeline rootTimelineId).isNone = true)
    ((Error.new .notFound .userCorrectable
      "root timeline was not found in the editorial project").withContext
        ⟨"superi-timeline.compile", "compile_timeline"⟩)
  let graph ← compileGraph project rootTimelineId
  pure { projectId := project.id, rootTimelineId, projectRevision := project.revision, graph }

/-- Install editable state with the same graph identity. -/
def TimelineGraphCompilation.withGraph (compilation : TimelineGraphCompilation ν)
    (graph : EditableGraph ν) : Except Error (TimelineGraphCompilation ν) := do
  rejectIf (graph.state.dag.id ≠ compilation.graph.state.dag.id)
    ((Error.new .conflict .userCorrectable
      "restored graph identity does not match the timeline compilation").withContext
        ⟨"superi-timeline.compile", "restore_compiled_graph"⟩)
  pure { compilation with graph }

/-- A timeline graph around given editable state, with provenance of the project as it is. -/
def ProjectGraph.restoreTimeline (compileGraph : GraphCompiler ν) (project : EditorialProject)
    (rootTimelineId : TimelineId) (graph : EditableGraph ν) : Except Error (ProjectGraph ν) := do
  let compilation ← compileTimeline compileGraph project rootTimelineId
  let compilation ← compilation.withGraph graph
  pure (.timeline compilation)

/-! ## The draft -/

namespace ProjectState

/-- Replace or insert a graph by its identity. -/
def replaceGraph (state : ProjectState ν σ μ π) (graph : ProjectGraph ν) : ProjectState ν σ μ π :=
  { state with graphs := state.graphs.insert graph.graphId graph }

def retainedTimelineGraphs (state : ProjectState ν σ μ π) : List (TimelineId × EditableGraph ν) :=
  (valuesOf state.graphs).filterMap fun graph =>
    graph.rootTimelineId.map fun root => (root, graph.graph)

/-- Make the provenance of one retained graph anew. -/
def refreshGraph (compileGraph : GraphCompiler ν) (retained : TimelineId × EditableGraph ν) :
    EStateM Error (ProjectState ν σ μ π) PUnit := do
  let state ← get
  let refreshed ← MonadExcept.ofExcept
    (ProjectGraph.restoreTimeline compileGraph state.editorialProject retained.1 retained.2)
  modify fun state => state.replaceGraph refreshed

/-- Publish a command on the editorial project of the draft, and refresh the graphs. -/
def publishMediaCommand (compileGraph : GraphCompiler ν) (command : ProjectMediaCommand) :
    EStateM Error (ProjectState ν σ μ π) PUnit := do
  let state ← get
  let (editorialProject, _) ← MonadExcept.ofExcept
    (state.editorialProject.edit state.editorialProject.revision fun editorial => do
      let media ← editorial.mediaReferenceMut command.mediaId
      let (media, _) ← applyMediaCommand media command
      pure (editorial.setMediaReference command.mediaId media, ()))
  set { state with editorialProject }
  state.retainedTimelineGraphs.forM (refreshGraph compileGraph)

/-- Apply a command inside an edit.  It is tried on a copy of the reference first. -/
def executeMediaCommand (compileGraph : GraphCompiler ν) (command : ProjectMediaCommand) :
    EStateM Error (ProjectState ν σ μ π) ProjectMediaCommandResult := do
  let state ← get
  let media ← MonadExcept.ofExcept
    (okOr (state.editorialProject.mediaReference command.mediaId) missingMediaReference)
  let (preview, result) ← MonadExcept.ofExcept (applyMediaCommand media command)
  if preview = media then pure result
  else do
    publishMediaCommand compileGraph command
    pure result

/-! ### Draft methods -/

theorem refreshGraph_throughMethods {compileGraph : GraphCompiler ν} {start : ProjectState ν σ μ π}
    {retained : List (TimelineId × EditableGraph ν)} {state : ProjectState ν σ μ π}
    (h : Relation.ReflTransGen DraftMethod start state) :
    Stateful.Ensures (retained.forM (refreshGraph compileGraph)) state
      (fun _ last => Relation.ReflTransGen DraftMethod start last) fun _ => True := by
  refine .forM (fun _ last => Relation.ReflTransGen DraftMethod start last) h ?_
  intro _ element _ reached _ hreached
  refine .get (.bind (.attempt (fun _ _ => trivial) fun _ _ => hreached) ?_)
  intro refreshed last hlast
  exact .change_last (hlast.tail (.graphMut last _))

/-- A command goes through the methods of the draft. -/
theorem executeMediaCommand_throughMethods (compileGraph : GraphCompiler ν)
    (command : ProjectMediaCommand) (state : ProjectState ν σ μ π) :
    Stateful.Ensures (executeMediaCommand compileGraph command) state
      (fun _ last => Relation.ReflTransGen DraftMethod state last) fun _ => True := by
  refine .get (.through (fun _ last => state = last) (.attempt (fun _ _ => trivial)
    fun _ _ => rfl) ?_)
  rintro media _ rfl
  refine .through (fun _ last => state = last) (.attempt (fun _ _ => trivial) fun _ _ => rfl) ?_
  rintro ⟨preview, result⟩ _ rfl
  dsimp only
  split
  · exact .ret .refl
  · refine .through (fun _ last => Relation.ReflTransGen DraftMethod state last) ?_
      fun _ _ hlast => .ret hlast
    refine .get (.through (fun edited last => state = last ∧
      state.editorialProject.edit state.editorialProject.revision _ = .ok edited)
      (.attempt (fun _ _ => trivial) fun _ hedit => ⟨rfl, hedit⟩) ?_)
    rintro ⟨editorialProject, reported⟩ _ ⟨rfl, hedit⟩
    exact .put (refreshGraph_throughMethods (.single (.editorialProjectMut state hedit)))

end ProjectState

/-- The edit that makes one command. -/
def mediaEdit (compileGraph : GraphCompiler ν) (command : ProjectMediaCommand) :
    DraftEdit ν σ μ π ProjectMediaCommandResult where
  run state :=
    match state.executeMediaCommand compileGraph command with
    | .ok result candidate => .ok (candidate, result)
    | .error error _ => .error error
  throughMethods := by
    intro state candidate reported h
    have hsteps := state.executeMediaCommand_throughMethods compileGraph command
    unfold Stateful.Ensures at hsteps
    split at h <;> rename_i hrun
    · rw [hrun] at hsteps
      cases h
      exact hsteps
    · cases h

/-! ## The document -/

structure ProjectMediaCommandOutcome (ν σ μ π : Type) where
  snapshot : ProjectSnapshot ν σ μ π
  result : ProjectMediaCommandResult

/-- Apply one command as an atomic revision of the whole project. -/
def ProjectDocument.executeMediaCommand [BEq (ProjectState ν σ μ π)]
    (compileGraph : GraphCompiler ν) (document : ProjectDocument ν σ μ π) (expectedRevision : Nat)
    (command : ProjectMediaCommand) :
    ProjectDocument ν σ μ π × Except Error (ProjectMediaCommandOutcome ν σ μ π) :=
  match document.checkRevision "execute_media_command" expectedRevision with
  | .error error => (document, .error error)
  | .ok () =>
      match document.state.editorialProject.mediaReference command.mediaId with
      | none => (document, .error missingMediaReference)
      | some media =>
          match applyMediaCommand media command with
          | .error error => (document, .error error)
          | .ok (preview, result) =>
              if preview = media then (document, .ok ⟨document.snapshot, result⟩)
              else
                match document.edit expectedRevision (mediaEdit compileGraph command) with
                | (document, .error error) => (document, .error error)
                | (document, .ok (snapshot, result)) => (document, .ok ⟨snapshot, result⟩)

end Project
end Superi
