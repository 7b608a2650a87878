import Superi.Lib.Digraph
import Superi.Lib.Machine
import Superi.Timeline.ProjectLaws
import Superi.Timeline.TrackOps

/-!
# TrackRouting — where the audio tracks of a project route

Routing is a graph over the audio tracks of a timeline.  It is in order if every track routes to
Main or to another audio track and no track is reached from itself.  Mutations check only the track
they name, so the module says which of them keep the graph in order.
-/

namespace Superi
namespace Editorial

open Core Result Relation

/-! ## Routes -/

/-- The track that a track routes into. -/
def Track.routesInto (track : Track) : Option TrackId :=
  match track.semantics with
  | .audio _ _ _ _ routing =>
      match routing.destination with
      | .main => none
      | .track id => some id
  | _ => none

namespace Timeline

def RoutesTo (timeline : Timeline) (a b : TrackId) : Prop :=
  ∃ track ∈ timeline.tracks, track.id = a ∧ track.routesInto = some b

/-- The timeline has an audio track of that identity. -/
def HasAudio (timeline : Timeline) (id : TrackId) : Prop :=
  ∃ track ∈ timeline.tracks, track.id = id ∧ track.kind = .audio

/-- Every audio track routes to Main or another audio track, and never comes back to itself. -/
structure Routed (timeline : Timeline) : Prop where
  present : ∀ a b, timeline.RoutesTo a b → b ≠ a ∧ timeline.HasAudio b
  acyclic : Digraph.Acyclic timeline.RoutesTo

variable {timeline last : Timeline}

theorem Routed.of_main (h : ∀ track ∈ timeline.tracks, track.routesInto = none) :
    timeline.Routed := by
  have hnone : ∀ a b, ¬ timeline.RoutesTo a b := by
    rintro a b ⟨track, htrack, -, hinto⟩
    rw [h track htrack] at hinto
    cases hinto
  refine ⟨fun a b hab => absurd hab (hnone a b), fun a hcycle => ?_⟩
  obtain ⟨b, -, hab⟩ := TransGen.tail'_iff.1 hcycle
  exact hnone b a hab

/-- No new routes, and the audio tracks are still there. -/
theorem Routed.mono (h : timeline.Routed) (hroutes : ∀ a b, last.RoutesTo a b → timeline.RoutesTo a b)
    (haudio : ∀ id, timeline.HasAudio id → last.HasAudio id) : last.Routed where
  present := fun a b hab =>
    ⟨(h.present a b (hroutes a b hab)).1, haudio b (h.present a b (hroutes a b hab)).2⟩
  acyclic := h.acyclic.mono hroutes

theorem Routed.of_tracks (h : timeline.Routed) (htracks : last.tracks = timeline.tracks) :
    last.Routed := by
  refine h.mono ?_ ?_
  · rintro a b ⟨track, hmem, hroutes⟩
    exact ⟨track, htracks ▸ hmem, hroutes⟩
  · rintro id ⟨track, hmem, haudio⟩
    exact ⟨track, htracks ▸ hmem, haudio⟩

/-- The members of the tracks with one of them replaced. -/
theorem mem_replaced {before after : List Track} {old new track : Track}
    (h : track ∈ before ++ new :: after) : track = new ∨ track ∈ before ++ old :: after := by
  simp only [List.mem_append, List.mem_cons] at h ⊢
  tauto

/-- Another name or other semantics without another route. -/
theorem Routed.replace (h : timeline.Routed) {before after : List Track} {old new : Track}
    (hsplit : timeline.tracks = before ++ old :: after)
    (hlast : last.tracks = before ++ new :: after) (hid : new.id = old.id)
    (hkind : new.kind = old.kind) (hinto : new.routesInto = old.routesInto) : last.Routed := by
  have hold : old ∈ timeline.tracks := hsplit ▸ List.mem_append_right _ List.mem_cons_self
  have hnew : new ∈ last.tracks := hlast ▸ List.mem_append_right _ List.mem_cons_self
  refine h.mono ?_ ?_
  · rintro a b ⟨track, hmem, ha, hb⟩
    rw [hlast] at hmem
    rcases @mem_replaced _ _ old _ _ hmem with rfl | hother
    · exact ⟨old, hold, hid ▸ ha, hinto ▸ hb⟩
    · exact ⟨track, hsplit ▸ hother, ha, hb⟩
  · rintro id ⟨track, hmem, hname, haudio⟩
    rw [hsplit] at hmem
    rcases @mem_replaced _ _ new _ _ hmem with rfl | hother
    · exact ⟨new, hnew, hid.trans hname, hkind.trans haudio⟩
    · exact ⟨track, hlast ▸ hother, hname, haudio⟩

/-- The tracks in another order. -/
theorem Routed.perm (h : timeline.Routed) (hperm : last.tracks.Perm timeline.tracks) :
    last.Routed := by
  refine h.mono ?_ ?_
  · rintro a b ⟨track, hmem, hroutes⟩
    exact ⟨track, hperm.mem_iff.1 hmem, hroutes⟩
  · rintro id ⟨track, hmem, haudio⟩
    exact ⟨track, hperm.mem_iff.2 hmem, haudio⟩

end Timeline

/-! ## Mutations -/

/-- The mutation deletes no track that another one routes to, and leads no route back to where it
starts. -/
def TrackMutation.KeepsRoutes (timeline : Timeline) : TrackMutation → Prop
  | .delete _ trackId => ∀ other, ¬ timeline.RoutesTo other trackId
  | .setAudioRouting _ trackId routing => ∀ destination, routing.destination = .track destination →
      ¬ ReflTransGen timeline.RoutesTo destination trackId
  | _ => True

section Mutations

variable {timeline last : Timeline} {trackId : TrackId}

theorem withEditState_tracks {result : Except Error TimelineEditState}
    (h : timeline.withEditState result = .ok last) : last.tracks = timeline.tracks := by
  obtain ⟨editState, -, hpure⟩ := bind_eq_ok.1 h
  rw [← pure_eq_ok.1 hpure]

theorem setTrackMuted_tracks {muted : Bool} (h : timeline.setTrackMuted trackId muted = .ok last) :
    last.tracks = timeline.tracks := by
  obtain ⟨_, -, hstate⟩ := bind_eq_ok.1 h
  exact withEditState_tracks hstate

theorem setTrackSolo_tracks {solo : Bool} (h : timeline.setTrackSolo trackId solo = .ok last) :
    last.tracks = timeline.tracks := by
  obtain ⟨_, -, hstate⟩ := bind_eq_ok.1 h
  exact withEditState_tracks hstate

theorem insertTrack_tracks {position height : Nat} {track : Track}
    (h : timeline.insertTrack position track height = .ok last) :
    position ≤ timeline.tracks.length ∧ last.tracks = timeline.tracks.insertIdx position track := by
  obtain ⟨_, -, h⟩ := bind_eq_ok.1 h
  obtain ⟨_, hposition, h⟩ := bind_eq_ok.1 h
  obtain ⟨_, -, h⟩ := bind_eq_ok.1 h
  obtain ⟨editState, -, h⟩ := bind_eq_ok.1 h
  rw [← pure_eq_ok.1 h]
  exact ⟨Nat.not_lt.1 (rejectIf_eq_ok.1 hposition), rfl⟩

theorem default_routesInto {track : Track} {kind : TrackCreationKind} {editRate : Timebase}
    (h : track.semantics = defaultSemantics kind editRate) : track.routesInto = none := by
  unfold Track.routesInto
  rw [h]
  cases kind <;> rfl

theorem insertTrack_routed (h : timeline.Routed) {position height : Nat} {track : Track}
    (hinto : track.routesInto = none)
    (hinsert : timeline.insertTrack position track height = .ok last) : last.Routed := by
  obtain ⟨hposition, htracks⟩ := insertTrack_tracks hinsert
  have hmem : ∀ other, other ∈ last.tracks ↔ other = track ∨ other ∈ timeline.tracks := by
    intro other
    rw [htracks, List.mem_insertIdx hposition]
  refine h.mono ?_ ?_
  · rintro a b ⟨other, hother, ha, hb⟩
    rcases (hmem other).1 hother with rfl | hold
    · rw [hinto] at hb
      cases hb
    · exact ⟨other, hold, ha, hb⟩
  · rintro id ⟨other, hother, haudio⟩
    exact ⟨other, (hmem other).2 (.inr hother), haudio⟩

/-- Which track a removal takes away. -/
theorem removeTrack_tracks (h : timeline.removeTrack trackId = .ok last) :
    ∃ before track after, timeline.tracks = before ++ track :: after ∧ track.id = trackId ∧
      last.tracks = before ++ after := by
  obtain ⟨position, hposition, h⟩ := bind_eq_ok.1 h
  obtain ⟨_, -, h⟩ := bind_eq_ok.1 h
  rw [okOr_eq_ok, List.findIdx?_eq_some_iff_getElem] at hposition
  obtain ⟨hbound, hid, -⟩ := hposition
  refine ⟨timeline.tracks.take position, timeline.tracks[position],
    timeline.tracks.drop (position + 1), ?_, by simpa using hid, ?_⟩
  · rw [List.cons_getElem_drop_succ, List.take_append_drop]
  · rw [← pure_eq_ok.1 h, (Timeline.reconcile_sameTracks _).tracks]
    exact List.eraseIdx_eq_take_drop_succ ..

theorem reorderTrack_perm {position : Nat} (h : timeline.reorderTrack trackId position = .ok last) :
    last.tracks.Perm timeline.tracks := by
  obtain ⟨_, hposition, h⟩ := bind_eq_ok.1 h
  obtain ⟨current, hcurrent, h⟩ := bind_eq_ok.1 h
  rw [okOr_eq_ok, List.findIdx?_eq_some_iff_getElem] at hcurrent
  obtain ⟨hbound, -, -⟩ := hcurrent
  have hroom : position ≤ (timeline.tracks.eraseIdx current).length := by
    have hlength := Nat.not_le.1 (rejectIf_eq_ok.1 hposition)
    rw [List.length_eraseIdx_of_lt hbound]
    omega
  rw [← pure_eq_ok.1 h, List.getElem?_eq_getElem hbound]
  refine (List.perm_insertIdx _ _ hroom).trans ?_
  exact List.getElem_cons_eraseIdx_perm hbound

theorem trackMut_of_track {track : Track} (h : timeline.track trackId = some track) :
    timeline.trackMut trackId = .ok track := okOr_eq_ok.2 h

/-- The destination that passed the check. -/
theorem checkDestination_eq_ok {routing : AudioRouting} {u : Unit} {destination : TrackId}
    (h : checkDestination timeline trackId routing = .ok u)
    (hdestination : routing.destination = .track destination) :
    destination ≠ trackId ∧ timeline.HasAudio destination := by
  unfold checkDestination at h
  rw [hdestination] at h
  obtain ⟨_, hself, h⟩ := bind_eq_ok.1 h
  obtain ⟨track, hfound, h⟩ := bind_eq_ok.1 h
  rw [okOr_eq_ok, Timeline.track] at hfound
  refine ⟨rejectIf_eq_ok.1 hself, track, List.mem_of_find?_eq_some hfound, ?_, ?_⟩
  · simpa using List.find?_some hfound
  · exact not_ne_iff.1 (rejectIf_eq_ok.1 h)

theorem replaceRouting_eq_ok {semantics result : TrackSemantics} {routing : AudioRouting}
    (h : replaceRouting semantics routing = .ok result) :
    semantics.kind = .audio ∧ ∃ sampleRate nonzero fits channelLayout,
      result = .audio sampleRate nonzero fits channelLayout routing := by
  unfold replaceRouting at h
  cases semantics with
  | audio sampleRate nonzero fits channelLayout current =>
      obtain ⟨_, -, h⟩ := bind_eq_ok.1 h
      obtain ⟨_, -, h⟩ := bind_eq_ok.1 h
      exact ⟨rfl, sampleRate, nonzero, fits, channelLayout, (pure_eq_ok.1 h).symm⟩
  | _ => cases h

/-- What rerouting one track does to the tracks. -/
theorem setAudioRouting_tracks {routing : AudioRouting}
    (h : setAudioRouting timeline trackId routing = .ok last) :
    ∃ before old new after, timeline.tracks = before ++ old :: after ∧
      last.tracks = before ++ new :: after ∧ old.id = trackId ∧ new.id = trackId ∧
      old.kind = .audio ∧ new.kind = .audio ∧
      (∀ destination, new.routesInto = some destination ↔ routing.destination = .track destination) ∧
      ∀ destination, routing.destination = .track destination →
        destination ≠ trackId ∧ timeline.HasAudio destination := by
  obtain ⟨_, hdestination, h⟩ := bind_eq_ok.1 h
  obtain ⟨old, hfound, h⟩ := bind_eq_ok.1 h
  obtain ⟨semantics, hsemantics, h⟩ := bind_eq_ok.1 h
  obtain ⟨before, after, hsplit, hid, hstore⟩ :=
    Timeline.trackMut_eq_ok (trackMut_of_track (okOr_eq_ok.1 hfound))
  obtain ⟨hkind, sampleRate, nonzero, fits, channelLayout, rfl⟩ := replaceRouting_eq_ok hsemantics
  have hstored := hstore
    { old with semantics := .audio sampleRate nonzero fits channelLayout routing } hid
  refine ⟨before, old, { old with
    semantics := .audio sampleRate nonzero fits channelLayout routing }, after, hsplit, ?_, hid, hid,
    hkind, rfl, fun destination => ?_, fun destination => checkDestination_eq_ok hdestination⟩
  · rw [← pure_eq_ok.1 h, hstored]
  · unfold Track.routesInto
    dsimp only
    cases routing.destination with
    | main => exact ⟨nofun, nofun⟩
    | track id => exact ⟨fun h => by cases h; rfl, fun h => by cases h; rfl⟩

/-- Rerouting a track closes a cycle exactly if its new destination leads back to it. -/
theorem setAudioRouting_routed (h : timeline.Routed) {routing : AudioRouting}
    (hset : setAudioRouting timeline trackId routing = .ok last) : last.Routed ↔
      ∀ destination, routing.destination = .track destination →
        ¬ ReflTransGen timeline.RoutesTo destination trackId := by
  obtain ⟨before, old, new, after, hsplit, htracks, hold, hnew, holdKind, hnewKind, hinto, hgoes⟩ :=
    setAudioRouting_tracks hset
  have holdMem : old ∈ timeline.tracks := hsplit ▸ List.mem_append_right _ List.mem_cons_self
  have hnewMem : new ∈ last.tracks := htracks ▸ List.mem_append_right _ List.mem_cons_self
  have hroutes : ∀ a b, last.RoutesTo a b →
      timeline.RoutesTo a b ∨ (a = trackId ∧ routing.destination = .track b) := by
    rintro a b ⟨track, hmem, ha, hb⟩
    rw [htracks] at hmem
    rcases @Timeline.mem_replaced _ _ old _ _ hmem with rfl | hother
    · exact .inr ⟨ha.symm.trans hnew, (hinto b).1 hb⟩
    · exact .inl ⟨track, hsplit ▸ hother, ha, hb⟩
  have hkept : ∀ a b, timeline.RoutesTo a b → a ≠ trackId → last.RoutesTo a b := by
    rintro a b ⟨track, hmem, ha, hb⟩ hne
    rw [hsplit] at hmem
    rcases @Timeline.mem_replaced _ _ new _ _ hmem with rfl | hother
    · exact absurd (ha.symm.trans hold) hne
    · exact ⟨track, htracks ▸ hother, ha, hb⟩
  have haudio : ∀ id, timeline.HasAudio id → last.HasAudio id := by
    rintro id ⟨track, hmem, hid, hkind⟩
    rw [hsplit] at hmem
    rcases @Timeline.mem_replaced _ _ new _ _ hmem with rfl | hother
    · exact ⟨new, hnewMem, hnew.trans (hold.symm.trans hid), hnewKind⟩
    · exact ⟨track, htracks ▸ hother, hid, hkind⟩
  -- up to its first visit of the track a way back to it uses only routes that are kept
  have hwalk : ∀ start, ReflTransGen timeline.RoutesTo start trackId →
      ReflTransGen last.RoutesTo start trackId := by
    intro start hback
    induction hback using ReflTransGen.head_induction_on with
    | refl => exact .refl
    | @head a b hab _ ih =>
        by_cases hself : a = trackId
        · rw [hself]
        · exact .head (hkept a b hab hself) ih
  constructor
  · intro hlast destination hdestination hback
    have hedge : last.RoutesTo trackId destination := ⟨new, hnewMem, hnew, (hinto _).2 hdestination⟩
    exact hlast.acyclic trackId (.head' hedge (hwalk destination hback))
  · intro hsafe
    refine ⟨fun a b hab => ?_, ?_⟩
    · rcases hroutes a b hab with hold | ⟨rfl, hdestination⟩
      · exact ⟨(h.present a b hold).1, haudio b (h.present a b hold).2⟩
      · obtain ⟨hne, hpresent⟩ := hgoes b hdestination
        exact ⟨hne, haudio b hpresent⟩
    · cases hdestination : routing.destination with
      | main =>
          refine h.acyclic.mono fun a b hab => (hroutes a b hab).resolve_right ?_
          rintro ⟨-, hnone⟩
          rw [hdestination] at hnone
          cases hnone
      | track destination =>
          refine h.acyclic.insert (x := trackId) (y := destination) (fun a b hab => ?_)
            (hsafe destination hdestination)
          refine (hroutes a b hab).imp_right fun hnew => ⟨hnew.1, ?_⟩
          rw [hdestination] at hnew
          exact (AudioRouteDestination.track.inj hnew.2).symm

/-- Deleting a track that no other one routes to leaves no dangling route. -/
theorem removeTrack_routed (h : timeline.Routed) (hremove : timeline.removeTrack trackId = .ok last)
    (hfree : ∀ other, ¬ timeline.RoutesTo other trackId) : last.Routed := by
  obtain ⟨before, removed, after, hsplit, hid, htracks⟩ := removeTrack_tracks hremove
  have hmem : ∀ track ∈ last.tracks, track ∈ timeline.tracks := by
    intro track htrack
    rw [htracks, List.mem_append] at htrack
    rw [hsplit, List.mem_append, List.mem_cons]
    exact htrack.imp_right .inr
  have hstays : ∀ track ∈ timeline.tracks, track.id ≠ trackId → track ∈ last.tracks := by
    intro track htrack hne
    rw [hsplit, List.mem_append, List.mem_cons] at htrack
    rw [htracks, List.mem_append]
    rcases htrack with hbefore | rfl | hafter
    · exact .inl hbefore
    · exact absurd hid hne
    · exact .inr hafter
  have hroutes : ∀ a b, last.RoutesTo a b → timeline.RoutesTo a b := by
    rintro a b ⟨track, htrack, hroute⟩
    exact ⟨track, hmem track htrack, hroute⟩
  refine ⟨fun a b hab => ?_, h.acyclic.mono hroutes⟩
  obtain ⟨hne, track, htrack, hname, haudio⟩ := h.present a b (hroutes a b hab)
  refine ⟨hne, track, hstays track htrack fun hself => ?_, hname, haudio⟩
  exact hfree a (by rw [← hself, hname]; exact hroutes a b hab)

/-- A route to the deleted track dangles. -/
theorem free_of_removeTrack (h : timeline.Routed) (hids : (timeline.tracks.map Track.id).Nodup)
    (hremove : timeline.removeTrack trackId = .ok last) (hlast : last.Routed) (other : TrackId) :
    ¬ timeline.RoutesTo other trackId := by
  obtain ⟨before, removed, after, hsplit, hid, htracks⟩ := removeTrack_tracks hremove
  rintro ⟨track, htrack, hname, hinto⟩
  have hgone : ∀ found ∈ last.tracks, found.id ≠ trackId := by
    intro found hfound hsame
    rw [hsplit, List.map_append, List.map_cons, List.nodup_middle, ← List.map_append,
      List.nodup_cons, hid, ← htracks] at hids
    exact hids.1 (hsame ▸ List.mem_map_of_mem hfound)
  have hne : trackId ≠ other := (h.present other trackId ⟨track, htrack, hname, hinto⟩).1
  have hstays : track ∈ last.tracks := by
    rw [hsplit, List.mem_append, List.mem_cons] at htrack
    rw [htracks, List.mem_append]
    rcases htrack with hbefore | rfl | hafter
    · exact .inl hbefore
    · exact absurd (hid.symm.trans hname) hne
    · exact .inr hafter
  obtain ⟨-, found, hfound, hsame, -⟩ := hlast.present other trackId ⟨track, hstays, hname, hinto⟩
  exact hgone found hfound hsame

/-- A mutation under its condition keeps the routes of a timeline in order. -/
theorem mutateTimeline_routed (h : timeline.Routed) {mutation : TrackMutation}
    (hmutate : mutateTimeline timeline mutation = .ok last) (hkeeps : mutation.KeepsRoutes timeline) :
    last.Routed := by
  cases mutation with
  | create _ trackId name kind position height =>
      exact insertTrack_routed h (default_routesInto rfl) hmutate
  | delete _ trackId => exact removeTrack_routed h hmutate hkeeps
  | rename _ trackId name =>
      obtain ⟨track, hfound, hmutate⟩ := bind_eq_ok.1 hmutate
      obtain ⟨before, after, hsplit, hid, hstore⟩ := Timeline.trackMut_eq_ok hfound
      have htracks : last.tracks = before ++ { track with name } :: after := by
        rw [← pure_eq_ok.1 hmutate, hstore { track with name } hid]
      exact h.replace hsplit htracks rfl rfl rfl
  | setCaptionSemantics _ trackId language purpose =>
      obtain ⟨track, hfound, hmutate⟩ := bind_eq_ok.1 hmutate
      obtain ⟨semantics, hsemantics, hmutate⟩ := bind_eq_ok.1 hmutate
      obtain ⟨before, after, hsplit, hid, hstore⟩ := Timeline.trackMut_eq_ok hfound
      have htracks : last.tracks = before ++ { track with semantics } :: after := by
        rw [← pure_eq_ok.1 hmutate, hstore { track with semantics } hid]
      have hcaption : semantics.kind = track.semantics.kind ∧
          ({ track with semantics } : Track).routesInto = track.routesInto := by
        unfold replaceCaption at hsemantics
        unfold Track.routesInto
        cases hold : track.semantics with
        | caption timebase _ _ =>
            rw [hold] at hsemantics
            obtain ⟨language, -, hpure⟩ := bind_eq_ok.1 hsemantics
            rw [← pure_eq_ok.1 hpure]
            exact ⟨rfl, rfl⟩
        | _ => rw [hold] at hsemantics; cases hsemantics
      exact h.replace hsplit htracks rfl hcaption.1 hcaption.2
  | reorder _ trackId position => exact h.perm (reorderTrack_perm hmutate)
  | setAudioRouting _ trackId routing => exact (setAudioRouting_routed h hmutate).2 hkeeps
  | setMuted _ trackId muted => exact h.of_tracks (setTrackMuted_tracks hmutate)
  | setSolo _ trackId solo => exact h.of_tracks (setTrackSolo_tracks hmutate)
  | setHeight | setTargeted | setLocked | setSyncLocked | setEnabled =>
      exact h.of_tracks (withEditState_tracks hmutate)

/-- A mutation that keeps the routes in order meets its condition. -/
theorem keepsRoutes_of_mutateTimeline (h : timeline.Routed)
    (hids : (timeline.tracks.map Track.id).Nodup) {mutation : TrackMutation}
    (hmutate : mutateTimeline timeline mutation = .ok last) (hlast : last.Routed) :
    mutation.KeepsRoutes timeline := by
  cases mutation with
  | delete _ trackId => exact free_of_removeTrack h hids hmutate hlast
  | setAudioRouting _ trackId routing => exact (setAudioRouting_routed h hmutate).1 hlast
  | _ => trivial

end Mutations

/-! ## Projects -/

/-- Every timeline is in order. -/
def RoutedTimelines (timelines : Std.ExtTreeMap TimelineId Timeline) : Prop :=
  ∀ (id : TimelineId) (timeline : Timeline), timelines[id]? = some timeline → timeline.Routed

/-- The condition of a mutation on the timeline that it names. -/
def KeepsDraft (draft : ProjectDraft) (mutation : TrackMutation) : Prop :=
  ∀ timeline : Timeline, draft.timelines[mutation.timelineId]? = some timeline →
    mutation.KeepsRoutes timeline

def mutationStep (draft : ProjectDraft) (mutation : TrackMutation) : Option ProjectDraft :=
  (applyMutation draft mutation).toOption

/-- A batch against an expected revision. -/
def batchStep (project : EditorialProject) (batch : Nat × List TrackMutation) :
    Option EditorialProject :=
  (applyTrackMutationBatch project batch.1 batch.2).toOption.map Prod.fst

/-- Every mutation of the batch meets its condition in the draft that it is applied to. -/
def KeepsProject (project : EditorialProject) (batch : Nat × List TrackMutation) : Prop :=
  Machine.EveryStep mutationStep KeepsDraft project.draft batch.2

theorem applyMutation_eq_ok {draft last : ProjectDraft} {mutation : TrackMutation}
    (h : applyMutation draft mutation = .ok last) : ∃ timeline next : Timeline,
      draft.timelines[mutation.timelineId]? = some timeline ∧
      mutateTimeline timeline mutation = .ok next ∧
      last.timelines = draft.timelines.insert mutation.timelineId next := by
  obtain ⟨timeline, hfound, h⟩ := bind_eq_ok.1 h
  obtain ⟨next, hmutate, h⟩ := bind_eq_ok.1 h
  refine ⟨timeline, next, okOr_eq_ok.1 hfound, hmutate, ?_⟩
  rw [← pure_eq_ok.1 h]
  rfl

theorem toOption_eq_some {ε α : Type} {result : Except ε α} {value : α} :
    result.toOption = some value ↔ result = .ok value := by
  cases result with
  | ok found => exact ⟨fun h => by cases h; rfl, fun h => by cases h; rfl⟩
  | error error => exact ⟨nofun, nofun⟩

/-- One mutation of a draft. -/
theorem mutationStep_routed {draft last : ProjectDraft} {mutation : TrackMutation}
    (h : RoutedTimelines draft.timelines) (hkeeps : KeepsDraft draft mutation)
    (hstep : mutationStep draft mutation = some last) : RoutedTimelines last.timelines := by
  obtain ⟨timeline, next, hfound, hmutate, hlast⟩ := applyMutation_eq_ok (toOption_eq_some.1 hstep)
  intro id other hother
  rw [hlast, Keyed.getElem?_insert_eq] at hother
  split at hother
  · cases hother
    exact mutateTimeline_routed (h _ timeline hfound) hmutate (hkeeps timeline hfound)
  · exact h id other hother

/-- The mutations of a batch, one after the other. -/
theorem run_of_mutations {draft last : ProjectDraft} {mutations : List TrackMutation} :
    ∀ {reported outcomes : List TrackMutationOutcome},
      mutations.foldlM applyMutationStep (draft, reported) = .ok (last, outcomes) →
        Machine.run mutationStep draft mutations = some last := by
  induction mutations generalizing draft with
  | nil =>
      intro reported outcomes h
      cases pure_eq_ok.1 h
      rfl
  | cons mutation rest ih =>
      intro reported outcomes h
      rw [List.foldlM_cons] at h
      obtain ⟨⟨next, collected⟩, hfirst, hrest⟩ := bind_eq_ok.1 h
      obtain ⟨mid, hmutation, hpure⟩ := bind_eq_ok.1 hfirst
      cases pure_eq_ok.1 hpure
      rw [Machine.run, mutationStep, withErrorContext_eq_ok.1 hmutation]
      exact ih hrest

/-- What a committed batch leaves. -/
theorem batchStep_eq_some {project last : EditorialProject} {batch : Nat × List TrackMutation}
    (h : batchStep project batch = some last) : ∃ draft,
      Machine.run mutationStep project.draft batch.2 = some draft ∧
      last.timelines = draft.timelines.map fun _ timeline => Timeline.reconcile timeline := by
  obtain ⟨⟨committed, result⟩, hbatch, rfl⟩ := Option.map_eq_some_iff.1 h
  obtain ⟨_, -, hbatch⟩ := bind_eq_ok.1 (toOption_eq_some.1 hbatch)
  obtain ⟨⟨edited, outcomes⟩, hedit, hpure⟩ := bind_eq_ok.1 hbatch
  cases pure_eq_ok.1 hpure
  obtain ⟨_, -, hedit⟩ := bind_eq_ok.1 hedit
  obtain ⟨⟨draft, reported⟩, hmutations, hedit⟩ := bind_eq_ok.1 hedit
  obtain ⟨_, -, hedit⟩ := bind_eq_ok.1 hedit
  obtain ⟨_, -, hedit⟩ := bind_eq_ok.1 hedit
  cases pure_eq_ok.1 hedit
  exact ⟨draft, run_of_mutations hmutations, rfl⟩

/-- Reconciling a timeline does not touch its tracks. -/
theorem routed_reconcile_iff {timelines : Std.ExtTreeMap TimelineId Timeline} :
    RoutedTimelines (timelines.map fun _ timeline => Timeline.reconcile timeline) ↔
      RoutedTimelines timelines := by
  constructor
  · intro h id timeline hfound
    have hmapped := h id timeline.reconcile (by rw [Std.ExtTreeMap.getElem?_map, hfound]; rfl)
    exact hmapped.of_tracks (Timeline.reconcile_sameTracks timeline).tracks.symm
  · intro h id timeline hfound
    rw [Std.ExtTreeMap.getElem?_map] at hfound
    obtain ⟨old, hold, rfl⟩ := Option.map_eq_some_iff.1 hfound
    exact (h id old hold).of_tracks (Timeline.reconcile_sameTracks old).tracks

/-- One batch whose mutations meet their conditions. -/
theorem batchStep_routed {project last : EditorialProject} {batch : Nat × List TrackMutation}
    (h : RoutedTimelines project.timelines) (hkeeps : KeepsProject project batch)
    (hstep : batchStep project batch = some last) : RoutedTimelines last.timelines := by
  obtain ⟨draft, hrun, hlast⟩ := batchStep_eq_some hstep
  rw [hlast, routed_reconcile_iff]
  exact Machine.invariant_of_run
    (fun {draft next mutation} hrouted hcondition hmutation =>
      mutationStep_routed hrouted hcondition hmutation) h hrun hkeeps

/-- A batch of one mutation keeps the routes in order only under the condition. -/
theorem keepsProject_of_batchStep {project last : EditorialProject} {expectedRevision : Nat}
    {mutation : TrackMutation} (h : RoutedTimelines project.timelines)
    (hvalid : project.validate = .ok ())
    (hstep : batchStep project (expectedRevision, [mutation]) = some last)
    (hlast : RoutedTimelines last.timelines) :
    KeepsProject project (expectedRevision, [mutation]) := by
  obtain ⟨draft, hrun, htimelines⟩ := batchStep_eq_some hstep
  rw [htimelines, routed_reconcile_iff] at hlast
  obtain ⟨next, hmutation, hnext⟩ := Option.bind_eq_some_iff.1 hrun
  cases hnext
  refine .cons (fun timeline hfound => ?_) hmutation .nil
  obtain ⟨found, mutated, hfound', hmutate, hinserted⟩ :=
    applyMutation_eq_ok (toOption_eq_some.1 hmutation)
  rw [hfound'] at hfound
  cases hfound
  have hids := ((EditorialProject.timelinesSound_of_validate hvalid).timeline _ _ hfound').trackIds
  refine keepsRoutes_of_mutateTimeline (h _ _ hfound') hids hmutate ?_
  exact hlast mutation.timelineId mutated (by rw [hinserted, Keyed.getElem?_insert_eq, if_pos rfl])

/-- From a project whose tracks all route to Main, batches whose mutations meet their conditions
keep every route in order.  Elsewhere they do not: a batch of one mutation that keeps the routes of
a valid project in order meets the condition. -/
theorem routes_reach_main (project : EditorialProject)
    (hmain : ∀ (id : TimelineId) (timeline : Timeline), project.timelines[id]? = some timeline →
      ∀ track ∈ timeline.tracks, track.routesInto = none) :
    (∀ (batches : List (Nat × List TrackMutation)) (last : EditorialProject),
      Machine.run batchStep project batches = some last →
      Machine.EveryStep batchStep KeepsProject project batches → RoutedTimelines last.timelines) ∧
    ∀ (reached last : EditorialProject) (expectedRevision : Nat) (mutation : TrackMutation),
      RoutedTimelines reached.timelines → reached.validate = .ok () →
      batchStep reached (expectedRevision, [mutation]) = some last →
      (RoutedTimelines last.timelines ↔ KeepsProject reached (expectedRevision, [mutation])) := by
  constructor
  · intro batches last hrun hsteps
    have hstart : RoutedTimelines project.timelines := fun id timeline hfound =>
      .of_main (hmain id timeline hfound)
    have hkeep : ∀ {state next : EditorialProject} {batch : Nat × List TrackMutation},
        RoutedTimelines state.timelines → KeepsProject state batch →
        batchStep state batch = some next → RoutedTimelines next.timelines :=
      fun hrouted hcondition hstep => batchStep_routed hrouted hcondition hstep
    exact Machine.invariant_of_run hkeep hstart hrun hsteps
  · intro reached last expectedRevision mutation hrouted hvalid hstep
    exact ⟨keepsProject_of_batchStep hrouted hvalid hstep, fun hkeeps =>
      batchStep_routed hrouted hkeeps hstep⟩

/-! ### An instance -/

/-- An audio track in stereo, routed to Main. -/
def stemTrack (id : TrackId) (name : String) : Track where
  id
  name
  semantics := defaultSemantics .audio (Timebase.integer 24 Timebase.pos_24 Timebase.fits_24)
  items := []

/-- A project with two audio tracks. -/
def stemsProject : EditorialProject where
  id := ⟨1⟩
  name := "Stems"
  revision := 0
  mediaReferences := ∅
  mediaLibrary := ⟨∅, ∅⟩
  timelines := (∅ : Std.ExtTreeMap TimelineId Timeline).insert ⟨1⟩
    (.new ⟨1⟩ "Mix" (Timebase.integer 24 Timebase.pos_24 Timebase.fits_24)
      (RationalTime.zero (Timebase.integer 24 Timebase.pos_24 Timebase.fits_24))
      [stemTrack ⟨1⟩ "Dialogue", stemTrack ⟨2⟩ "Bus"])

/-- Route the first track into the second one. -/
def routeIntoBus : TrackMutation :=
  .setAudioRouting ⟨1⟩ ⟨1⟩ { defaultRouting with destination := .track ⟨2⟩ }

/-- What is seen of the routes of a project. -/
def routesOf (project : EditorialProject) : List (TrackId × Option TrackId) :=
  (Keyed.valuesOf project.timelines).flatMap fun timeline =>
    timeline.tracks.map fun track => (track.id, track.routesInto)

theorem routesOf_dangling {project : EditorialProject} {a b : TrackId}
    (h : routesOf project = [(a, some b)]) (hne : b ≠ a) : ¬ RoutedTimelines project.timelines := by
  intro hrouted
  have hmem : (a, some b) ∈ routesOf project := h ▸ List.mem_singleton_self _
  obtain ⟨timeline, htimeline, htrack⟩ := List.mem_flatMap.1 hmem
  obtain ⟨track, hmemTrack, hpair⟩ := List.mem_map.1 htrack
  obtain ⟨id, hfound⟩ := Keyed.mem_valuesOf.1 htimeline
  obtain ⟨-, found, hmemFound, hname, -⟩ := (hrouted id timeline hfound).present a b
    ⟨track, hmemTrack, congrArg Prod.fst hpair, congrArg Prod.snd hpair⟩
  have hpresent : (found.id, found.routesInto) ∈ routesOf project :=
    List.mem_flatMap.2 ⟨timeline, htimeline, List.mem_map_of_mem hmemFound⟩
  rw [h, List.mem_singleton] at hpresent
  exact hne (hname.symm.trans (congrArg Prod.fst hpresent))

theorem stems_main : ∀ (id : TimelineId) (timeline : Timeline),
    stemsProject.timelines[id]? = some timeline →
      ∀ track ∈ timeline.tracks, track.routesInto = none := by
  intro id timeline hfound
  simp only [stemsProject, Keyed.getElem?_insert_eq] at hfound
  split at hfound
  · cases hfound
    intro track htrack
    simp only [Timeline.new, List.mem_cons, List.not_mem_nil, or_false] at htrack
    rcases htrack with rfl | rfl <;> rfl
  · rw [Std.ExtTreeMap.getElem?_empty] at hfound
    cases hfound

/-- Deleting the bus leaves the dialogue routed to a track that is gone. -/
theorem deleted_bus_dangles : ∃ (batches : List (Nat × List TrackMutation)) (last : EditorialProject),
    (∀ (id : TimelineId) (timeline : Timeline), stemsProject.timelines[id]? = some timeline →
      ∀ track ∈ timeline.tracks, track.routesInto = none) ∧
    stemsProject.validate = .ok () ∧
    Machine.run batchStep stemsProject batches = some last ∧
    ¬ RoutedTimelines last.timelines := by
  have hroutes : (Machine.run batchStep stemsProject
      [(0, [routeIntoBus]), (1, [.delete ⟨1⟩ ⟨2⟩])]).map routesOf =
        some [((⟨1⟩ : TrackId), some (⟨2⟩ : TrackId))] := by
    decide +kernel
  obtain ⟨last, hrun, hlast⟩ := Option.map_eq_some_iff.1 hroutes
  refine ⟨_, last, stems_main, by decide +kernel, hrun, routesOf_dangling hlast (by decide)⟩

theorem routes_reach_main_stems : ∃ last,
    Machine.run batchStep stemsProject [(0, [routeIntoBus])] = some last ∧
      RoutedTimelines last.timelines := by
  have hruns : (Machine.run batchStep stemsProject [(0, [routeIntoBus])]).isSome = true := by
    decide +kernel
  obtain ⟨last, hrun⟩ := Option.isSome_iff_exists.1 hruns
  refine ⟨last, hrun, (routes_reach_main stemsProject stems_main).1 _ last hrun ?_⟩
  obtain ⟨next, hstep, hnext⟩ := Option.bind_eq_some_iff.1 hrun
  refine .cons ?_ hstep .nil
  obtain ⟨draft, hmutations, -⟩ := batchStep_eq_some hstep
  obtain ⟨mid, hmutation, -⟩ := Option.bind_eq_some_iff.1 hmutations
  refine .cons (fun timeline hfound destination hdestination hback => ?_) hmutation .nil
  -- nothing routes anywhere yet, so the bus does not lead back
  obtain rfl : destination = ⟨2⟩ := by cases hdestination; rfl
  rcases ReflTransGen.cases_head hback with hsame | ⟨other, ⟨track, htrack, -, hinto⟩, -⟩
  · exact absurd hsame (by decide)
  · rw [stems_main _ timeline hfound track htrack] at hinto
    cases hinto

end Editorial
end Superi
