import Superi.Lib.Result
import Superi.Lib.Tiling
import Superi.Lib.Sequence
import Superi.Lib.Keyed
import Superi.Lib.Digraph
import Superi.Lib.Kahn
import Superi.Lib.Incidence
import Superi.Lib.Ledger
import Superi.Lib.History
import Superi.Lib.Machine
import Superi.Lib.Rotation
import Superi.Lib.Stateful
import Superi.Lib.Rounding
import Superi.Lib.Walk
import Superi.Lib.Components
import Superi.Core.Error
import Superi.Core.Diagnostics
import Superi.Core.Time
import Superi.Core.Int128
import Superi.Core.TimeExact
import Superi.Core.Timecode
import Superi.Core.TimecodeLaws
import Superi.Core.Text
import Superi.Core.Ids
import Superi.Timeline.Retime
import Superi.Timeline.RetimeLaws
import Superi.Timeline.RetimeExact
import Superi.Timeline.RetimeSlices
import Superi.Timeline.Items
import Superi.Timeline.EditTypes
import Superi.Timeline.Validate
import Superi.Timeline.EditItems
import Superi.Timeline.EditOps
import Superi.Timeline.EditLaws
import Superi.Timeline.EditRebuild
import Superi.Timeline.EditCut
import Superi.Timeline.EditSpans
import Superi.Timeline.EditLocal
import Superi.Timeline.EditTrim
import Superi.Timeline.EditPlace
import Superi.Timeline.EditState
import Superi.Timeline.Markers
import Superi.Timeline.Multicam
import Superi.Timeline.Media
import Superi.Timeline.Project
import Superi.Timeline.Batch
import Superi.Timeline.TrackOps
import Superi.Timeline.TrackRouting
import Superi.Timeline.ProjectLaws
import Superi.Timeline.Closure
import Superi.Timeline.Relations
import Superi.Timeline.Material
import Superi.Timeline.Sync
import Superi.Graph.Dag
import Superi.Graph.DagLaws
import Superi.Graph.Node
import Superi.Graph.VersionText
import Superi.Graph.Expr
import Superi.Graph.Instance
import Superi.Graph.Mutate
import Superi.Graph.MutateLaws
import Superi.Graph.ParameterLaws
import Superi.Graph.Eval
import Superi.Cache.Budget
import Superi.Cache.BudgetLaws
import Superi.Cache.Key
import Superi.Cache.Lru
import Superi.Cache.LruLaws
import Superi.Cache.Frame
import Superi.Cache.FrameLaws
import Superi.Cache.Render
import Superi.Cache.RenderLaws
import Superi.Concurrency.Lifecycle
import Superi.Concurrency.LifecycleExact
import Superi.Concurrency.Dependencies
import Superi.Concurrency.Priority
import Superi.Concurrency.WorkerPool
import Superi.Concurrency.WorkerPoolRuns
import Superi.Project.CommandLog
import Superi.Project.CommandLogLaws
import Superi.Project.CommandLogRetention
import Superi.Project.Save
import Superi.Project.SaveLaws
import Superi.Project.Document
import Superi.Project.DocumentLaws
import Superi.Engine.Lifecycle
import Superi.Engine.LifecycleLaws
import Superi.Engine.LifecycleSound
import Superi.Engine.LifecycleCalls
import Superi.Engine.LifecycleRuns
import Superi.Engine.Teardown
import Superi.Engine.Errors
import Superi.Engine.Dispatcher
import Superi.Engine.DispatcherLaws
import Superi.Engine.DispatcherRuns
import Superi.Engine.Publication
import Superi.Engine.Faults
import Superi.Engine.Agreement
import Superi.Engine.LostPlayback
import Superi.Engine.ExportJobs
import Superi.Engine.ExportJobsLaws
import Superi.Engine.ExportJobsRuns
import Superi.Engine.History
import Superi.Engine.HistoryLaws
import Superi.Engine.HistoryExact
import Superi.Lib.Delimited
import Superi.Api.EventStream
import Superi.Api.EventStreamLaws
import Superi.Audio.Playback
import Superi.Audio.PlaybackLaws
import Superi.Audio.Graph
import Superi.Timeline.MulticamSwitching
import Superi.Cache.Insert
import Superi.Graph.DirtyRegionsLaws
import Superi.Graph.ExprLaws
import Superi.Cache.EnvelopeLaws
import Superi.Engine.TransportCadenceLaws
import Superi.Concurrency.PlaybackClockLaws
import Superi.Media.RandomIndex
import Superi.Concurrency.AvSyncLaws
import Superi.Graph.VersionGrammar
import Superi.Engine.PrefetchLaws
import Superi.Audio.CaptureLaws
import Superi.Effects.KeyframeRetime
import Superi.Engine.PlaybackFrameLaws
import Superi.Project.RecoveryLaws
import Superi.Audio.ScheduleLaws
import Superi.Wire.PrimitiveLaws
import Superi.Timeline.MulticamFrames
import Superi.Project.MediaPathLaws
import Superi.Project.MediaCommandLaws
import Superi.Core.Geometry
