import Superi.Project.DocumentLaws
import Superi.Project.MediaCommand
import Superi.Project.MediaPathLaws
import Superi.Timeline.Settled

/-!
# MediaCommandLaws — what a media command changes

A command that succeeds gives one reference the value it computes for it, moves the editorial and
the document revision on, and renews the provenance of the graphs compiled from timelines.  The
graphs themselves, and everything else, stay as they are.  A command that fails changes nothing.
-/

namespace Superi
namespace Project

open Core Result Keyed Graph Editorial MediaPath

variable {ν σ μ π : Type}

/-! ## Graphs of a valid state -/

/-- The same graph with provenance of another revision. -/
def ProjectGraph.atRevision (revision : Nat) : ProjectGraph ν → ProjectGraph ν
  | .timeline compilation => .timeline { compilation with projectRevision := revision }
  | .standalone named => .standalone named

@[simp] theorem ProjectGraph.graph_atRevision (revision : Nat) (graph : ProjectGraph ν) :
    (graph.atRevision revision).graph = graph.graph := by
  cases graph <;> rfl

namespace ProjectState

variable {state : ProjectState ν σ μ π}

/-- Every graph of a valid state is filed under its identity, and compiled from the project as it
is. -/
theorem Valid.graph (h : state.Valid) {id : GraphId} {graph : ProjectGraph ν}
    (hid : state.graphs[id]? = some graph) : graph.graphId = id ∧
      ∀ compilation, graph = .timeline compilation →
        compilation.projectId = state.editorialProject.id ∧
        compilation.projectRevision = state.editorialProject.revision := by
  simp only [Valid, validate, bind_eq_ok] at h
  obtain ⟨_, -, _, -, _, -, _, hgraphs, -⟩ := h
  obtain ⟨_, _, hgraph⟩ := exists_ok_of_foldlM hgraphs (id, graph)
    (Std.ExtTreeMap.mem_toList_iff_getElem?_eq_some.2 hid)
  rw [validateGraph, bind_eq_ok] at hgraph
  obtain ⟨_, hkey, hrest⟩ := hgraph
  refine ⟨(not_not.1 (rejectIf_eq_ok.1 hkey)).symm, ?_⟩
  rintro compilation rfl
  simp only [validateCompilation, bind_eq_ok, rejectIf_eq_ok, not_not] at hrest
  obtain ⟨_, ⟨_, hproject, _, -, hrevision⟩, -⟩ := hrest
  exact ⟨hproject, hrevision⟩

theorem mem_retainedTimelineGraphs {retained : TimelineId × EditableGraph ν} :
    retained ∈ state.retainedTimelineGraphs ↔
      ∃ (id : GraphId) (compilation : TimelineGraphCompilation ν),
        state.graphs[id]? = some (.timeline compilation) ∧
          retained = (compilation.rootTimelineId, compilation.graph) := by
  rw [retainedTimelineGraphs, List.mem_filterMap]
  constructor
  · rintro ⟨graph, hmem, hretained⟩
    obtain ⟨id, hid⟩ := mem_valuesOf.1 hmem
    cases graph with
    | timeline compilation => exact ⟨id, compilation, hid, (Option.some_inj.1 hretained).symm⟩
    | standalone named => cases hretained
  · rintro ⟨id, compilation, hid, rfl⟩
    exact ⟨.timeline compilation, mem_valuesOf.2 ⟨id, hid⟩, rfl⟩

end ProjectState

/-! ## Refreshing -/

/-- A retained graph with provenance of the project. -/
def refreshed (project : EditorialProject) (retained : TimelineId × EditableGraph ν) :
    ProjectGraph ν :=
  .timeline ⟨project.id, retained.1, project.revision, retained.2⟩

theorem restoreTimeline_eq_ok {compileGraph : GraphCompiler ν} {project : EditorialProject}
    {retained : TimelineId × EditableGraph ν} {graph : ProjectGraph ν}
    (h : ProjectGraph.restoreTimeline compileGraph project retained.1 retained.2 = .ok graph) :
    graph = refreshed project retained := by
  simp only [ProjectGraph.restoreTimeline, compileTimeline, TimelineGraphCompilation.withGraph,
    bind_eq_ok, pure_eq_ok] at h
  obtain ⟨_, ⟨_, -, _, -, rfl⟩, _, ⟨_, -, rfl⟩, rfl⟩ := h
  rfl

/-- The graphs of a state after some retained ones are refreshed. -/
def refreshAll (project : EditorialProject) (graphs : Std.ExtTreeMap GraphId (ProjectGraph ν))
    (retained : List (TimelineId × EditableGraph ν)) : Std.ExtTreeMap GraphId (ProjectGraph ν) :=
  retained.foldl (fun graphs entry => graphs.insert entry.2.state.dag.id (refreshed project entry))
    graphs

section Refreshing

variable {project : EditorialProject} {graphs : Std.ExtTreeMap GraphId (ProjectGraph ν)}
  {retained : List (TimelineId × EditableGraph ν)} {id : GraphId}

theorem refreshAll_concat (entry : TimelineId × EditableGraph ν) :
    refreshAll project graphs (retained ++ [entry]) =
      (refreshAll project graphs retained).insert entry.2.state.dag.id (refreshed project entry) :=
  List.foldl_concat ..

/-- A graph that no retained one replaces stays. -/
theorem refreshAll_of_forall_ne (h : ∀ entry ∈ retained, entry.2.state.dag.id ≠ id) :
    (refreshAll project graphs retained)[id]? = graphs[id]? := by
  induction retained using List.reverseRecOn with
  | nil => rfl
  | append_singleton retained entry ih =>
      rw [refreshAll_concat, getElem?_insert_eq,
        if_neg fun heq => h entry (List.mem_append_right _ List.mem_cons_self) heq.symm]
      exact ih fun other hmem => h other (List.mem_append_left _ hmem)

/-- A graph that one retained graph replaces. -/
theorem refreshAll_of_mem {entry : TimelineId × EditableGraph ν} (hmem : entry ∈ retained)
    (hid : entry.2.state.dag.id = id)
    (hsame : ∀ other ∈ retained, other.2.state.dag.id = id → other = entry) :
    (refreshAll project graphs retained)[id]? = some (refreshed project entry) := by
  induction retained using List.reverseRecOn with
  | nil => cases hmem
  | append_singleton retained last ih =>
      rw [refreshAll_concat, getElem?_insert_eq]
      by_cases hlast : id = last.2.state.dag.id
      · rw [if_pos hlast, hsame last (List.mem_append_right _ List.mem_cons_self) hlast.symm]
      · rw [if_neg hlast]
        refine ih ?_ fun other hother => hsame other (List.mem_append_left _ hother)
        rcases List.mem_append.1 hmem with hmem | hmem
        · exact hmem
        · rw [List.mem_singleton.1 hmem] at hid
          exact absurd hid.symm hlast

end Refreshing

namespace ProjectState

variable {state : ProjectState ν σ μ π} {project : EditorialProject}

/-- Retained graphs of a valid state with one identity are one graph. -/
theorem Valid.retained_unique (h : state.Valid) {id : GraphId}
    {compilation : TimelineGraphCompilation ν}
    (hid : state.graphs[id]? = some (.timeline compilation))
    {other : TimelineId × EditableGraph ν} (hmem : other ∈ state.retainedTimelineGraphs)
    (hother : other.2.state.dag.id = id) :
    other = (compilation.rootTimelineId, compilation.graph) := by
  obtain ⟨id', compilation', hid', rfl⟩ := mem_retainedTimelineGraphs.1 hmem
  obtain ⟨hkey, -⟩ := h.graph hid'
  have hsame : id' = id := hkey.symm.trans hother
  rw [hsame, hid] at hid'
  cases hid'
  rfl

/-- Refreshing every retained graph of a valid state changes provenance only. -/
theorem Valid.refreshAll_retained (h : state.Valid)
    (hproject : project.id = state.editorialProject.id) :
    refreshAll project state.graphs state.retainedTimelineGraphs =
      state.graphs.map fun _ graph => graph.atRevision project.revision := by
  refine Std.ExtTreeMap.ext_getElem? fun id => ?_
  rw [Std.ExtTreeMap.getElem?_map]
  have hnone (hgraph : ∀ compilation, state.graphs[id]? ≠ some (.timeline compilation)) :
      ∀ entry ∈ state.retainedTimelineGraphs, entry.2.state.dag.id ≠ id := by
    intro entry hmem hentry
    obtain ⟨id', compilation, hid', rfl⟩ := mem_retainedTimelineGraphs.1 hmem
    have hsame : id' = id := (h.graph hid').1.symm.trans hentry
    exact hgraph compilation (hsame ▸ hid')
  cases hid : state.graphs[id]? with
  | none =>
      rw [refreshAll_of_forall_ne (hnone fun compilation heq => nomatch hid.symm.trans heq), hid]
      rfl
  | some graph =>
      cases graph with
      | standalone named =>
          rw [refreshAll_of_forall_ne (hnone fun compilation heq => nomatch hid.symm.trans heq),
            hid]
          rfl
      | timeline compilation =>
          obtain ⟨hkey, hevidence⟩ := h.graph hid
          rw [refreshAll_of_mem (mem_retainedTimelineGraphs.2 ⟨id, compilation, hid, rfl⟩) hkey
            fun other => h.retained_unique hid]
          simp only [refreshed, hproject, ← (hevidence compilation rfl).1, Option.map_some,
            ProjectGraph.atRevision]

end ProjectState

/-! ## The draft -/

/-- The next editorial revision, with one reference replaced. -/
def nextEditorial (project : EditorialProject) (mediaId : MediaId) (media : LinkedMediaReference) :
    EditorialProject :=
  { project with
    revision := project.revision + 1
    mediaReferences := project.mediaReferences.insert mediaId media }

/-- The same state with one reference replaced, in the next editorial revision. -/
def ProjectState.withMedia (state : ProjectState ν σ μ π) (mediaId : MediaId)
    (media : LinkedMediaReference) : ProjectState ν σ μ π :=
  { state with
    editorialProject := nextEditorial state.editorialProject mediaId media
    graphs := state.graphs.map fun _ graph =>
      graph.atRevision (state.editorialProject.revision + 1) }

/-- The editorial edit of a command replaces the reference, and nothing is reconciled away. -/
theorem mediaEdit_editorial {project edited : EditorialProject} {command : ProjectMediaCommand}
    {media preview : LinkedMediaReference} {result : ProjectMediaCommandResult} {reported : Unit}
    (hpublished : project.Published) (hmedia : project.mediaReference command.mediaId = some media)
    (happly : applyMediaCommand media command = .ok (preview, result))
    (hedit : (project.edit project.revision fun editorial => do
      let media ← editorial.mediaReferenceMut command.mediaId
      let (media, _) ← applyMediaCommand media command
      pure (editorial.setMediaReference command.mediaId media, ())) = .ok (edited, reported)) :
    edited = nextEditorial project command.mediaId preview := by
  obtain ⟨-, -, ⟨draft, hchange, rfl⟩, -⟩ := EditorialProject.edit_eq_ok.1 hedit
  simp only [Editorial.ProjectDraft.mediaReferenceMut, bind_eq_ok, okOr_eq_ok, pure_eq_ok,
    Prod.mk.injEq] at hchange
  obtain ⟨found, hfound, ⟨changed, _⟩, hchanged, rfl, -⟩ := hchange
  cases hmedia.symm.trans hfound
  cases happly.symm.trans hchanged
  have htimelines : ((project.draft.setMediaReference command.mediaId preview).timelines.map
      fun _ timeline => timeline.reconcile) = project.timelines := hpublished.reconcile_timelines
  rw [EditorialProject.candidate, EditorialProject.reconcileTimelineState, nextEditorial]
  dsimp only
  rw [htimelines]
  rfl

namespace ProjectState

variable {state : ProjectState ν σ μ π} {compileGraph : GraphCompiler ν}
  {command : ProjectMediaCommand}

/-- The states of a draft while retained graphs are refreshed. -/
def Refreshing (compileGraph : GraphCompiler ν) (state : ProjectState ν σ μ π)
    (project : EditorialProject) (done : List (TimelineId × EditableGraph ν))
    (reached : ProjectState ν σ μ π) : Prop :=
  reached = { state with
    editorialProject := project
    graphs := refreshAll project state.graphs done } ∧
    ∀ entry ∈ done, ∃ graph,
      ProjectGraph.restoreTimeline compileGraph project entry.1 entry.2 = .ok graph

/-- A draft whose refreshing stopped half-way holds a graph of the revision before. -/
theorem Refreshing.not_valid {project : EditorialProject} (hvalid : state.Valid)
    (hrevision : project.revision ≠ state.editorialProject.revision)
    {before : List (TimelineId × EditableGraph ν)} {entry : TimelineId × EditableGraph ν}
    {reached : ProjectState ν σ μ π}
    (hreached : Refreshing compileGraph state project before reached)
    (hbefore : ∀ other ∈ before, other ∈ state.retainedTimelineGraphs)
    (hentry : entry ∈ state.retainedTimelineGraphs) {error : Error}
    (hfailed : ProjectGraph.restoreTimeline compileGraph project entry.1 entry.2 = .error error) :
    ¬ reached.Valid := by
  intro hreachedValid
  obtain ⟨rfl, hdone⟩ := hreached
  obtain ⟨id, compilation, hid, rfl⟩ := mem_retainedTimelineGraphs.1 hentry
  have hstays : (refreshAll project state.graphs before)[id]? = some (.timeline compilation) := by
    rw [refreshAll_of_forall_ne, hid]
    -- a graph that was refreshed is not the one that failed
    intro other hother heq
    obtain ⟨graph, hgraph⟩ := hdone other hother
    rw [hvalid.retained_unique hid (hbefore other hother) heq, hfailed] at hgraph
    cases hgraph
  have hnew := ((hreachedValid.graph hstays).2 compilation rfl).2
  have hold := ((hvalid.graph hid).2 compilation rfl).2
  exact hrevision (hnew.symm.trans hold)

/-- Refreshing succeeds for every retained graph, or leaves a draft that cannot be published. -/
theorem refreshGraphs_ensures (compileGraph : GraphCompiler ν) (project : EditorialProject)
    (hvalid : state.Valid)
    (hproject : project.id = state.editorialProject.id)
    (hrevision : project.revision ≠ state.editorialProject.revision) :
    Stateful.Ensures (state.retainedTimelineGraphs.forM (refreshGraph compileGraph))
      { state with editorialProject := project }
      (fun _ last => last = { state with
        editorialProject := project
        graphs := state.graphs.map fun _ graph => graph.atRevision project.revision })
      fun last => ¬ last.Valid := by
  have hloop : Stateful.Ensures (state.retainedTimelineGraphs.forM (refreshGraph compileGraph))
      { state with editorialProject := project }
      (fun _ last => Refreshing compileGraph state project state.retainedTimelineGraphs last)
      fun last => ¬ last.Valid := by
    refine .forM (Refreshing compileGraph state project)
      ⟨rfl, fun _ hmem => absurd hmem List.not_mem_nil⟩ ?_
    intro before entry after reached hsplit hreached
    have hmem : ∀ other ∈ before ++ [entry], other ∈ state.retainedTimelineGraphs := by
      intro other hother
      rw [hsplit, List.append_cons]
      exact List.mem_append_left _ hother
    have hsame : reached.editorialProject = project := by
      rw [hreached.1]
    refine .get (.through (fun graph last => reached = last ∧
      ProjectGraph.restoreTimeline compileGraph project entry.1 entry.2 = .ok graph)
      (.attempt (fun error hfailed => ?_) fun graph hgraph => ⟨rfl, hsame ▸ hgraph⟩) ?_)
    · exact hreached.not_valid hvalid hrevision
        (fun other hother => hmem other (List.mem_append_left _ hother))
        (hmem entry (List.mem_append_right _ List.mem_cons_self)) (hsame ▸ hfailed)
    · rintro graph _ ⟨rfl, hgraph⟩
      refine .change_last ⟨?_, fun other hother => ?_⟩
      · rw [restoreTimeline_eq_ok hgraph, refreshAll_concat, hreached.1]
        rfl
      · rcases List.mem_append.1 hother with hother | hother
        · exact hreached.2 other hother
        · rw [List.mem_singleton.1 hother]
          exact ⟨graph, hgraph⟩
  refine hloop.mono (fun _ last hlast => ?_) fun _ hlast => hlast
  rw [hlast.1, hvalid.refreshAll_retained hproject]

/-- A command in the draft of a valid published state.  It changes one reference and what the next
revision changes, or nothing at all; a draft that it leaves when it fails is the one before, or
cannot be published. -/
theorem executeMediaCommand_ensures (compileGraph : GraphCompiler ν)
    (command : ProjectMediaCommand) (hvalid : state.Valid)
    (hpublished : state.editorialProject.Published) :
    Stateful.Ensures (executeMediaCommand compileGraph command) state
      (fun result last => ∃ media preview,
        state.editorialProject.mediaReference command.mediaId = some media ∧
        applyMediaCommand media command = .ok (preview, result) ∧
        last = if preview = media then state else state.withMedia command.mediaId preview)
      fun last => last = state ∨ ¬ last.Valid := by
  refine .get (.through (fun media last => state = last ∧
    state.editorialProject.mediaReference command.mediaId = some media)
    (.attempt (fun _ _ => .inl rfl) fun _ hmedia => ⟨rfl, okOr_eq_ok.1 hmedia⟩) ?_)
  rintro media _ ⟨rfl, hmedia⟩
  refine .through (fun previewed last => state = last ∧
    applyMediaCommand media command = .ok previewed)
    (.attempt (fun _ _ => .inl rfl) fun _ happly => ⟨rfl, happly⟩) ?_
  rintro ⟨preview, result⟩ _ ⟨rfl, happly⟩
  dsimp only
  split
  · rename_i hsame
    exact .ret ⟨media, preview, hmedia, happly, (if_pos hsame).symm⟩
  · rename_i hdifferent
    refine .through (fun _ last => last = state.withMedia command.mediaId preview) ?_
      fun _ _ hlast => .ret ⟨media, preview, hmedia, happly, by rw [if_neg hdifferent, hlast]⟩
    refine .get (.through (fun edited last => state = last ∧
      edited.1 = nextEditorial state.editorialProject command.mediaId preview)
      (.attempt (fun _ _ => .inl rfl) ?_) ?_)
    · rintro ⟨edited, reported⟩ hedit
      exact ⟨rfl, mediaEdit_editorial hpublished hmedia happly hedit⟩
    · rintro ⟨editorialProject, reported⟩ _ ⟨rfl, hedited⟩
      dsimp only at hedited
      subst hedited
      have hrefresh := refreshGraphs_ensures compileGraph
        (nextEditorial state.editorialProject command.mediaId preview) hvalid rfl
        (Nat.succ_ne_self state.editorialProject.revision)
      exact .put (hrefresh.mono (fun _ _ hlast => hlast) fun _ hlast => .inr hlast)

end ProjectState

/-! ## The document -/

section Document

variable [DecidableEq (ProjectState ν σ μ π)] {document after : ProjectDocument ν σ μ π}
  {compileGraph : GraphCompiler ν} {expectedRevision : Nat} {command : ProjectMediaCommand}

/-- What an edit publishes is the candidate of its closure, if it differs. -/
theorem edit_state {ρ : Type} {edit : DraftEdit ν σ μ π ρ} {snapshot : ProjectSnapshot ν σ μ π}
    {reported : ρ}
    (h : document.edit expectedRevision edit = (after, .ok (snapshot, reported))) :
    snapshot = after.snapshot ∧ after.commandLog = document.commandLog ∧
      ∃ candidate, edit.run document.state = .ok (candidate, reported) ∧
        after.state = candidate ∧
        after.revision = if candidate = document.state then document.revision
          else document.revision + 1 := by
  unfold ProjectDocument.edit at h
  split at h
  · cases h
  split at h
  · cases h
  rename_i candidate reported' hrun
  split at h
  · cases h
  split at h
  · rename_i hsame
    cases h
    have hsame := eq_of_beq hsame
    exact ⟨rfl, rfl, candidate, hrun, hsame.symm, (if_pos hsame).symm⟩
  split at h
  · cases h
  · rename_i hdifferent _
    cases h
    have hdifferent : candidate ≠ document.state := fun heq => hdifferent (beq_iff_eq.2 heq)
    exact ⟨rfl, rfl, candidate, hrun, rfl, (if_neg hdifferent).symm⟩

omit [DecidableEq (ProjectState ν σ μ π)] in
theorem withMedia_ne (state : ProjectState ν σ μ π) (mediaId : MediaId)
    (media : LinkedMediaReference) : state.withMedia mediaId media ≠ state := by
  intro h
  have hrevision := congrArg (fun state => state.editorialProject.revision) h
  exact Nat.succ_ne_self _ hrevision

omit [DecidableEq (ProjectState ν σ μ π)] in
/-- The graphs keep their content. -/
theorem graph_withMedia (state : ProjectState ν σ μ π) (mediaId : MediaId)
    (media : LinkedMediaReference) (id : GraphId) :
    (state.withMedia mediaId media).graphs[id]?.map ProjectGraph.graph =
      state.graphs[id]?.map ProjectGraph.graph := by
  rw [ProjectState.withMedia, Std.ExtTreeMap.getElem?_map, Option.map_map]
  congr 1
  funext graph
  exact ProjectGraph.graph_atRevision _ graph

omit [DecidableEq (ProjectState ν σ μ π)] in
theorem mediaEdit_run_eq_ok {state candidate : ProjectState ν σ μ π}
    {result : ProjectMediaCommandResult} :
    (mediaEdit compileGraph command).run state = .ok (candidate, result) ↔
      state.executeMediaCommand compileGraph command = .ok result candidate := by
  unfold mediaEdit
  dsimp only
  cases hrun : state.executeMediaCommand compileGraph command with
  | ok result' candidate' =>
      constructor
      · rintro ⟨⟩
        rfl
      · rintro ⟨⟩
        rfl
  | error error left => exact ⟨fun h => (nomatch h), fun h => (nomatch h)⟩

/-! ### Reached documents -/

omit [DecidableEq (ProjectState ν σ μ π)] in
/-- The methods of a draft publish editorial projects only. -/
theorem DraftMethod.published {state candidate : ProjectState ν σ μ π}
    (hstep : DraftMethod state candidate) (h : state.editorialProject.Published) :
    candidate.editorialProject.Published := by
  cases hstep with
  | editorialProjectMut _ hedit => exact .edit hedit
  | setRootTimelineId | replaceSettings | graphMut | clipMixStateMut | extensionRecordsMut =>
      exact h

omit [DecidableEq (ProjectState ν σ μ π)] in
theorem DraftEdit.published {ρ : Type} {edit : DraftEdit ν σ μ π ρ}
    {state candidate : ProjectState ν σ μ π} {reported : ρ}
    (hrun : edit.run state = .ok (candidate, reported)) (h : state.editorialProject.Published) :
    candidate.editorialProject.Published := by
  have hsteps := edit.throughMethods hrun
  clear hrun
  induction hsteps with
  | refl => exact h
  | tail _ hlast ih => exact hlast.published ih

/-- The documents that a session holds: opened around a published editorial project, and changed by
edits and by restoring documents held before. -/
inductive Reached : ProjectDocument ν σ μ π → Prop
  | opened {document : ProjectDocument ν σ μ π}
      (h : document.state.editorialProject.Published) : Reached document
  | edited {document : ProjectDocument ν σ μ π} {ρ : Type} (h : Reached document)
      (expectedRevision : Nat) (edit : DraftEdit ν σ μ π ρ) :
      Reached (document.edit expectedRevision edit).1
  | restored {document earlier : ProjectDocument ν σ μ π} (h : Reached document)
      (hearlier : Reached earlier) (expectedRevision : Nat) :
      Reached (document.restoreSnapshot expectedRevision earlier.snapshot).1

theorem Reached.published (h : Reached document) :
    document.state.editorialProject.Published := by
  induction h with
  | opened hpublished => exact hpublished
  | @edited document ρ _ expectedRevision edit ih =>
      cases hedit : document.edit expectedRevision edit with
      | mk after result =>
          cases result with
          | error error =>
              rcases ProjectDocument.edit_cases hedit with ⟨_, -, rfl⟩ | ⟨_, hok, -⟩
              · exact ih
              · cases hok
          | ok published =>
              obtain ⟨-, -, candidate, hrun, rfl, -⟩ := edit_state hedit
              exact DraftEdit.published hrun ih
  | @restored document earlier _ _ expectedRevision ih ihearlier =>
      cases hrestore : document.restoreSnapshot expectedRevision earlier.snapshot with
      | mk after result =>
          rcases ProjectDocument.restoreSnapshot_cases hrestore with
            ⟨_, -, rfl⟩ | ⟨-, -, -, ⟨-, rfl⟩ | ⟨-, -, rfl⟩⟩
          · exact ih
          · exact ih
          · exact ihearlier

/-! ### Commands -/

/-- What a command publishes. -/
structure MediaChanged (document after : ProjectDocument ν σ μ π) (command : ProjectMediaCommand)
    (outcome : ProjectMediaCommandOutcome ν σ μ π) : Prop where
  snapshot : outcome.snapshot = after.snapshot
  commandLog : after.commandLog = document.commandLog
  changed : ∃ media preview,
    document.state.editorialProject.mediaReference command.mediaId = some media ∧
    applyMediaCommand media command = .ok (preview, outcome.result) ∧
    after.state = (if preview = media then document.state
      else document.state.withMedia command.mediaId preview) ∧
    after.revision = if preview = media then document.revision else document.revision + 1
  graphs : ∀ id : GraphId, after.state.graphs[id]?.map ProjectGraph.graph =
    document.state.graphs[id]?.map ProjectGraph.graph

/-- A command of a document fails and changes nothing, or changes the reference it names. -/
theorem executeMediaCommand_cases
    (hpublished : document.state.editorialProject.Published)
    {result : Except Error (ProjectMediaCommandOutcome ν σ μ π)}
    (h : document.executeMediaCommand compileGraph expectedRevision command = (after, result)) :
    (∃ error, result = .error error ∧ after = document) ∨
      ∃ outcome, result = .ok outcome ∧ MediaChanged document after command outcome := by
  unfold ProjectDocument.executeMediaCommand at h
  split at h
  case h_1 error _ =>
    cases h
    exact .inl ⟨error, rfl, rfl⟩
  case h_2 _ =>
  split at h
  case h_1 _ =>
    cases h
    exact .inl ⟨_, rfl, rfl⟩
  case h_2 media hmedia =>
  split at h
  case h_1 error _ =>
    cases h
    exact .inl ⟨error, rfl, rfl⟩
  case h_2 preview result' happly =>
  split at h
  case isTrue hsame =>
    cases h
    exact .inr ⟨_, rfl, rfl, rfl, ⟨media, preview, hmedia, happly, (if_pos hsame).symm,
      (if_pos hsame).symm⟩, fun _ => rfl⟩
  case isFalse hdifferent =>
  split at h
  case h_1 failed error hedit =>
    cases h
    rcases ProjectDocument.edit_cases hedit with ⟨_, -, hsame⟩ | ⟨_, hok, -⟩
    · exact .inl ⟨error, rfl, hsame⟩
    · cases hok
  case h_2 edited snapshot reported hedit =>
    cases h
    obtain ⟨hsnapshot, hlog, candidate, hrun, hstate, hrevision⟩ := edit_state hedit
    have hdraft := ProjectState.executeMediaCommand_ensures compileGraph command document.valid
      hpublished
    rw [Stateful.Ensures, mediaEdit_run_eq_ok.1 hrun] at hdraft
    obtain ⟨media', preview', hmedia', happly', hcandidate⟩ := hdraft
    cases hmedia.symm.trans hmedia'
    cases happly.symm.trans happly'
    rw [if_neg hdifferent] at hcandidate
    refine .inr ⟨_, rfl, hsnapshot, hlog, ⟨media, preview, hmedia, happly, ?_, ?_⟩, fun id => ?_⟩
    · rw [if_neg hdifferent, hstate, hcandidate]
    · rw [if_neg hdifferent, hrevision, hcandidate, if_neg (withMedia_ne _ _ _)]
    · rw [hstate, hcandidate]
      exact graph_withMedia document.state command.mediaId preview id

end Document

/-! ## Targets and commands -/

/-- Targets are lossless and canonical, and a media command is local.

A path is read back from its target.  Reading a portable path again changes nothing; its components
are what is left of the text's when names are cancelled by the steps up that follow them, and only
the first of them are steps up; two texts have one target exactly if cancellation relates them.  A
command on a document that fails changes nothing, and one that succeeds changes the reference it
names and the revisions; a draft left by a failed command is the one before or cannot be
published. -/
theorem media_targets_and_commands :
    (∀ (host : Host) (path : ReferencedMediaPath),
      ReferencedMediaPath.fromTarget host path.toTarget = .ok (some path)) ∧
    (∀ (value : List Char) (path : PortableRelativePath),
      PortableRelativePath.new value = .ok path →
      PortableRelativePath.new path.text = .ok path ∧
      Relation.ReflTransGen (Ascent.Cancels parent) (components value) (components path.text) ∧
      Ascent.Reduced parent (components path.text)) ∧
    (∀ (value value' : List Char) (path path' : PortableRelativePath),
      PortableRelativePath.new value = .ok path → PortableRelativePath.new value' = .ok path' →
        ((ReferencedMediaPath.projectRelative path).toTarget =
            (ReferencedMediaPath.projectRelative path').toTarget ↔
          Relation.EqvGen (Ascent.Cancels parent) (components value) (components value'))) ∧
    (∀ {ν σ μ π : Type} [DecidableEq (ProjectState ν σ μ π)] (compileGraph : GraphCompiler ν)
      (document : ProjectDocument ν σ μ π), Reached document →
        ∀ (expectedRevision : Nat) (command : ProjectMediaCommand),
          match document.executeMediaCommand compileGraph expectedRevision command with
          | (after, .error _) => after = document
          | (after, .ok outcome) => MediaChanged document after command outcome) ∧
    (∀ {ν σ μ π : Type} (compileGraph : GraphCompiler ν) (state : ProjectState ν σ μ π),
      state.Valid → state.editorialProject.Published →
        ∀ (command : ProjectMediaCommand) (error : Error) (left : ProjectState ν σ μ π),
          state.executeMediaCommand compileGraph command = .error error left →
            left = state ∨ ¬ left.Valid) := by
  refine ⟨ReferencedMediaPath.fromTarget_toTarget, ?_, ?_, ?_, ?_⟩
  · intro value path h
    have hcomponents := PortableRelativePath.components_of_new h
    refine ⟨PortableRelativePath.new_text, ?_, ?_⟩
    · rw [hcomponents]
      exact Ascent.cancels_reduce
    · rw [hcomponents]
      exact Ascent.reduced_reduce
  · intro value value' path path' h h'
    rw [← PortableRelativePath.new_eq_iff h h']
    constructor
    · intro htarget
      have hpath := ReferencedMediaPath.toTarget_injective htarget
      injection hpath with hkind
      injection hkind
    · rintro rfl
      rfl
  · intro ν σ μ π _ compileGraph document hreached expectedRevision command
    split
    · rename_i after error h
      rcases executeMediaCommand_cases hreached.published h with ⟨_, -, hsame⟩ | ⟨_, hok, -⟩
      · exact hsame
      · cases hok
    · rename_i after outcome h
      rcases executeMediaCommand_cases hreached.published h with ⟨_, herror, -⟩ | ⟨_, hok, hchanged⟩
      · cases herror
      · cases hok
        exact hchanged
  · intro ν σ μ π compileGraph state hvalid hpublished command error left hfailed
    have hdraft := ProjectState.executeMediaCommand_ensures compileGraph command hvalid hpublished
    rw [Stateful.Ensures, hfailed] at hdraft
    exact hdraft

/-! ### A project with one medium -/

section Shelf

def shelfMedia : LinkedMediaReference where
  id := ⟨9⟩
  name := "take"
  target := "Media/take.mov"
  availableRange := none
  metadata := []
  relinkState := ⟨.online, none, none, none⟩

def shelfTimeline : Timeline :=
  .new ⟨1⟩ "sequence" (.integer 24 Timebase.pos_24 Timebase.fits_24)
    (.zero (.integer 24 Timebase.pos_24 Timebase.fits_24)) []

def shelfProject : EditorialProject where
  id := ⟨2⟩
  name := "film"
  revision := 0
  mediaReferences := (∅ : Std.ExtTreeMap MediaId LinkedMediaReference).insert ⟨9⟩ shelfMedia
  mediaLibrary := ⟨∅, ∅⟩
  timelines := (∅ : Std.ExtTreeMap TimelineId Timeline).insert ⟨1⟩ shelfTimeline

abbrev ShelfState := ProjectState Unit Unit Unit Unit

def shelfState : ShelfState where
  editorialProject := shelfProject
  rootTimelineId := ⟨1⟩
  settings := ()
  graphs := (∅ : Std.ExtTreeMap GraphId (ProjectGraph Unit)).insert ⟨3⟩
    (.timeline ⟨⟨2⟩, ⟨1⟩, 0, .new ⟨3⟩⟩)
  clipMixState := ⟨0, ∅⟩
  extensionRecords := ∅

def shelfCompiler : GraphCompiler Unit := fun _ _ => .ok (.new ⟨3⟩)

theorem valid_of_isSome {state : ShelfState}
    (h : (state.validate "edit_document").toOption.isSome = true) : state.Valid := by
  obtain ⟨⟨⟩, hvalid⟩ := exists_ok_of_isSome h
  exact hvalid

def shelfDocument : ProjectDocument Unit Unit Unit Unit :=
  ⟨0, shelfState, .new, valid_of_isSome (by decide +kernel)⟩

/-- The project is valid, and so is the state in which its medium is marked missing. -/
theorem shelf_checks : shelfProject.validate.toOption.isSome = true ∧
    ((shelfState.withMedia ⟨9⟩ shelfMedia.markMissing).validate "edit_document").toOption.isSome
      = true ∧
    (match shelfState.executeMediaCommand shelfCompiler (.markMissing ⟨9⟩) with
      | .ok _ _ => true
      | .error _ _ => false) = true := by
  decide +kernel

theorem shelf_mediaReference : shelfProject.mediaReference ⟨9⟩ = some shelfMedia :=
  getElem?_insert_eq.trans (if_pos rfl)

theorem shelfProject_published : shelfProject.Published := by
  obtain ⟨⟨⟩, hvalid⟩ := exists_ok_of_isSome shelf_checks.1
  refine .new hvalid fun id timeline hid => ?_
  have hshelf : timeline = shelfTimeline := by
    rw [shelfProject, getElem?_insert_eq] at hid
    split at hid
    · exact (Option.some_inj.1 hid).symm
    · cases hid
  rw [hshelf]
  exact ⟨⟨[], .refl⟩, ⟨shelfTimeline, rfl, .refl⟩⟩

/-- The draft after a command that does not fail and that changes the medium. -/
theorem mediaEdit_run_of_change {state : ShelfState} {compileGraph : GraphCompiler Unit}
    {command : ProjectMediaCommand} {media preview : LinkedMediaReference}
    {result : ProjectMediaCommandResult} (hvalid : state.Valid)
    (hpublished : state.editorialProject.Published)
    (hmedia : state.editorialProject.mediaReference command.mediaId = some media)
    (happly : applyMediaCommand media command = .ok (preview, result)) (hne : preview ≠ media)
    (hok : (match state.executeMediaCommand compileGraph command with
      | .ok _ _ => true
      | .error _ _ => false) = true) :
    (mediaEdit compileGraph command).run state =
      .ok (state.withMedia command.mediaId preview, result) := by
  refine mediaEdit_run_eq_ok.2 ?_
  rcases (ProjectState.executeMediaCommand_ensures compileGraph command hvalid hpublished).outcome
    with ⟨result', last, hcall, media', preview', hmedia', happly', hlast⟩ | ⟨_, _, hcall, -⟩
  · cases hmedia.symm.trans hmedia'
    cases happly.symm.trans happly'
    rw [hcall, hlast, if_neg hne]
  · rw [hcall] at hok
    cases hok

/-- The draft of the document after its medium is marked missing. -/
theorem shelf_run : (mediaEdit shelfCompiler (.markMissing ⟨9⟩)).run shelfState =
    .ok (shelfState.withMedia ⟨9⟩ shelfMedia.markMissing, .markedMissing) :=
  mediaEdit_run_of_change shelfDocument.valid shelfProject_published shelf_mediaReference rfl
    (by decide) shelf_checks.2.2

open scoped Classical in
theorem shelf_executed : ∃ after outcome,
    shelfDocument.executeMediaCommand shelfCompiler 0 (.markMissing ⟨9⟩) = (after, .ok outcome) ∧
      after.revision = 1 := by
  have hdifferent :
      (shelfState.withMedia ⟨9⟩ shelfMedia.markMissing == shelfDocument.state) = false :=
    beq_eq_false_iff_ne.2 (withMedia_ne _ _ _)
  have hroom : shelfDocument.revision < maxCounter := by decide
  have hedit := ProjectDocument.edit_eq_ok shelf_run (valid_of_isSome shelf_checks.2.1) hdifferent
    hroom
  have hmedia : shelfDocument.state.editorialProject.mediaReference
      (ProjectMediaCommand.markMissing ⟨9⟩).mediaId = some shelfMedia := shelf_mediaReference
  have happly : applyMediaCommand shelfMedia (.markMissing ⟨9⟩) =
      .ok (shelfMedia.markMissing, .markedMissing) := rfl
  have hrevision : shelfDocument.checkRevision "execute_media_command" 0 = .ok () := rfl
  unfold ProjectDocument.executeMediaCommand
  rw [hrevision, hmedia]
  dsimp only
  rw [happly]
  dsimp only
  rw [if_neg (show shelfMedia.markMissing ≠ shelfMedia by decide),
    show (0 : Nat) = shelfDocument.revision from rfl, hedit]
  exact ⟨_, _, rfl, rfl⟩

open scoped Classical in
/-- A medium is marked missing, and a spelling is canonicalized. -/
theorem media_targets_and_commands_shelf :
    (∃ path, PortableRelativePath.new "Media/../Shots/./take.mov".toList = .ok path ∧
      PortableRelativePath.new path.text = .ok path ∧
      Ascent.Reduced parent (components path.text)) ∧
    ∃ after outcome,
      shelfDocument.executeMediaCommand shelfCompiler 0 (.markMissing ⟨9⟩) = (after, .ok outcome) ∧
      after.revision = 1 ∧ MediaChanged shelfDocument after (.markMissing ⟨9⟩) outcome := by
  obtain ⟨-, hpaths, -, hcommands, -⟩ := media_targets_and_commands
  constructor
  · obtain ⟨path, hpath⟩ := exists_ok_of_isSome (show (PortableRelativePath.new
      "Media/../Shots/./take.mov".toList).toOption.isSome = true by decide +kernel)
    obtain ⟨hagain, -, hreduced⟩ := hpaths _ path hpath
    exact ⟨path, hpath, hagain, hreduced⟩
  · have hmissing : ∀ {document after : ProjectDocument Unit Unit Unit Unit} {outcome},
        Reached document → document.executeMediaCommand shelfCompiler 0 (.markMissing ⟨9⟩) =
          (after, .ok outcome) → MediaChanged document after (.markMissing ⟨9⟩) outcome := by
      intro document after outcome hreached hexecuted
      have hchanged := hcommands shelfCompiler document hreached 0 (.markMissing ⟨9⟩)
      rw [hexecuted] at hchanged
      exact hchanged
    obtain ⟨after, outcome, hexecuted, hrevision⟩ := shelf_executed
    exact ⟨after, outcome, hexecuted, hrevision,
      hmissing (.opened shelfProject_published) hexecuted⟩

end Shelf

end Project
end Superi
