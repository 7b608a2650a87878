import Superi.Cache.Key
import Superi.Core.Error
import Superi.Lib.Machine

/-!
# Render — the background render queue

`submit` reserves the frame key of a request, offers the render to a worker pool and, when the pool
refuses, cleans its reservation up.  The offered task carries a guard that releases the key when the
task is dropped, be it run, cancelled, failed or never started.  Every access to the active keys
takes one lock, so a run of the queue is an interleaving of these accesses by any number of threads.
-/

namespace Superi
namespace Cache

open Core Result

/-- The shared flag through which one job is cancelled. -/
structure JobCancellationToken where
  flag : Nat
  deriving DecidableEq, Repr

namespace Render

def conflict (operation message : String) : Error :=
  (Error.new .conflict .userCorrectable message).withContext ⟨"superi-cache.render", operation⟩

end Render

/-! ## The lock-protected state -/

/-- The state the threads of one queue share: the active keys with the token of their task, and the
tokens that were cancelled. -/
structure BackgroundRenderQueue where
  active : Std.ExtTreeMap FrameCacheKey JobCancellationToken
  cancelled : List JobCancellationToken

namespace BackgroundRenderQueue

def new : BackgroundRenderQueue := ⟨∅, []⟩

/-- The reservation at the start of `submit`, made under one lock. -/
def reserve (queue : BackgroundRenderQueue) (frameKey : FrameCacheKey)
    (cancellation : JobCancellationToken) : Except Error BackgroundRenderQueue := do
  rejectIf (queue.active.contains frameKey = true) (Render.conflict "submit_background_render"
    "the exact render frame is already being populated")
  return { queue with active := queue.active.insert frameKey cancellation }

/-- The removal made by a dropped `ActiveRenderGuard`, and once more by `submit` after a refusal. -/
def remove (queue : BackgroundRenderQueue) (frameKey : FrameCacheKey) : BackgroundRenderQueue :=
  { queue with active := queue.active.erase frameKey }

def cancel (queue : BackgroundRenderQueue) (cancellation : JobCancellationToken) :
    BackgroundRenderQueue :=
  { queue with cancelled := cancellation :: queue.cancelled }

/-- Request cooperative cancellation for one exact active frame. -/
def cancelFrame (queue : BackgroundRenderQueue) (frameKey : FrameCacheKey) :
    BackgroundRenderQueue × Bool :=
  match queue.active[frameKey]? with
  | some cancellation => (queue.cancel cancellation, true)
  | none => (queue, false)

end BackgroundRenderQueue

/-! ## Calls in flight -/

/-- Where one call of `submit`, with the task it offered, stands. -/
inductive RenderPhase
  /-- the key is reserved and the task not yet offered -/
  | reserved
  /-- the pool accepted the task, which has not ended -/
  | accepted
  /-- the pool refused and dropped the task; `submit` has yet to clean up -/
  | refused
  /-- nothing of the call is left to happen -/
  | ended
  deriving DecidableEq, Repr

/-- A reservation, or a task that is not finished, answers for its key. -/
def RenderPhase.holds : RenderPhase → Bool
  | .reserved => true
  | .accepted => true
  | .refused => false
  | .ended => false

/-- One call of `submit` that reserved its key. -/
structure RenderCall where
  frameKey : FrameCacheKey
  cancellation : JobCancellationToken
  phase : RenderPhase
  deriving DecidableEq, Repr

/-- A queue with the calls of `submit` made on it, in the order of their reservations. -/
structure RenderSystem where
  queue : BackgroundRenderQueue
  calls : List RenderCall

/-- One atomic access of some thread. -/
inductive RenderAction
  /-- a submission looks its key up, and reserves it or reports the conflict -/
  | submit (frameKey : FrameCacheKey) (cancellation : JobCancellationToken)
  /-- the pool accepts the task of a reservation -/
  | accept (call : Nat)
  /-- the pool refuses the task of a reservation and drops it, and with it the guard -/
  | refuse (call : Nat)
  /-- a refused submission removes its key before it returns the error -/
  | cleanUp (call : Nat)
  /-- an accepted task completes, fails, is cancelled or is dropped unrun, and drops its guard -/
  | finish (call : Nat)
  | cancelTask (call : Nat)
  | cancelFrame (frameKey : FrameCacheKey)
  deriving DecidableEq, Repr

namespace RenderSystem

def new : RenderSystem := ⟨.new, []⟩

/-- The call `index`, when it stands at `phase`. -/
def callAt (system : RenderSystem) (index : Nat) (phase : RenderPhase) : Option RenderCall :=
  (system.calls[index]?).filter fun call => call.phase = phase

def setPhase (system : RenderSystem) (index : Nat) (call : RenderCall) (phase : RenderPhase) :
    RenderSystem :=
  { system with calls := system.calls.set index { call with phase } }

def removeKey (system : RenderSystem) (frameKey : FrameCacheKey) : RenderSystem :=
  { system with queue := system.queue.remove frameKey }

/-- One atomic access, where the thread that makes it stands at that point. -/
def step (system : RenderSystem) : RenderAction → Option RenderSystem
  | .submit frameKey cancellation =>
      match system.queue.reserve frameKey cancellation with
      | .error _ => some system
      | .ok queue => some ⟨queue, system.calls ++ [⟨frameKey, cancellation, .reserved⟩]⟩
  | .accept index => do
      let call ← system.callAt index .reserved
      return system.setPhase index call .accepted
  | .refuse index => do
      let call ← system.callAt index .reserved
      return (system.setPhase index call .refused).removeKey call.frameKey
  | .cleanUp index => do
      let call ← system.callAt index .refused
      return (system.setPhase index call .ended).removeKey call.frameKey
  | .finish index => do
      let call ← system.callAt index .accepted
      return (system.setPhase index call .ended).removeKey call.frameKey
  | .cancelTask index => do
      let call ← system.calls[index]?
      return { system with queue := system.queue.cancel call.cancellation }
  | .cancelFrame frameKey => some { system with queue := (system.queue.cancelFrame frameKey).1 }

/-- A run from a new queue. -/
def run (actions : List RenderAction) : Option RenderSystem :=
  Machine.run step .new actions

/-- Each key has at most one accepted unfinished task, and exactly the keys of a reservation or an
unfinished task are active. -/
structure SingleFlight (system : RenderSystem) : Prop where
  unique : ∀ {index other : Nat} {call call' : RenderCall},
    system.calls[index]? = some call → system.calls[other]? = some call' →
    call.phase = .accepted → call'.phase = .accepted → call.frameKey = call'.frameKey →
    index = other
  active : ∀ frameKey : FrameCacheKey, frameKey ∈ system.queue.active ↔
    ∃ call ∈ system.calls, call.phase.holds = true ∧ call.frameKey = frameKey

/-- The key of a refused submission was not reserved again before its clean-up. -/
def Undisturbed (system : RenderSystem) : RenderAction → Prop
  | .cleanUp index => ∀ call ∈ system.calls[index]?, ∀ other ∈ system.calls,
      other.phase.holds = true → other.frameKey ≠ call.frameKey
  | _ => True

end RenderSystem

end Cache
end Superi
