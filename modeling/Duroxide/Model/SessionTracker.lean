import Duroxide.Lib.Run
import Mathlib.Data.Finset.Option
import Mathlib.Data.Finset.Union
import Mathlib.Data.Fintype.Basic
import Mathlib.Data.List.AList

/-! # Worker slots and the session tracker

The worker slots of a runtime share one `SessionTracker`. A slot checks the session capacity, fetches,
takes a guard when the item is bound to a session, checks the capacity again and then processes the item or
gives it back; each access to the tracker is one step, since each takes the lock anew, and the steps of
different slots come in any order. What a fetch returns is open.
-/

namespace Duroxide

/-- In-flight activity counts by session id. -/
abbrev SessionTracker := AList fun _ : String => Nat

namespace SessionTracker

/-- Number of distinct sessions currently in flight. -/
def distinctCount (tracker : SessionTracker) : Nat := tracker.keys.length

def increment (tracker : SessionTracker) (sessionId : String) : SessionTracker :=
  tracker.insert sessionId ((tracker.lookup sessionId).getD 0 + 1)

/-- Decrement the count, removing the entry when it reaches 0. -/
def decrement (tracker : SessionTracker) (sessionId : String) : SessionTracker :=
  match tracker.lookup sessionId with
  | some count => if count - 1 = 0 then tracker.erase sessionId else tracker.insert sessionId (count - 1)
  | none => tracker

end SessionTracker

/-- Where a slot is in `process_next_work_item`. The flag says whether the item was fetched too often. -/
inductive WorkerSlot where
  | idle
  /-- Awaiting the fetch, with a session configuration or without one. -/
  | fetching (sessions : Bool)
  | fetched (sessionId : Option String) (poison : Bool)
  /-- The guard is taken and the capacity not checked again yet. -/
  | guarded (sessionId : String) (poison : Bool)
  | exceeded (sessionId : String)
  | abandoning
  /-- The activity executes, or its poison message is handled. -/
  | processing (sessionId : Option String) (poison : Bool)
deriving DecidableEq, Repr

namespace WorkerSlot

/-- The session that a slot holds a guard of. -/
def guard : WorkerSlot → Option String
  | .guarded sessionId _ => some sessionId
  | .exceeded sessionId => some sessionId
  | .processing sessionId _ => sessionId
  | _ => none

/-- The session of the activity that a slot executes. -/
def executing : WorkerSlot → Option String
  | .processing sessionId false => sessionId
  | _ => none

end WorkerSlot

inductive SlotAction where
  | checkCapacity
  /-- The fetch ends: with an item of a session, or with nothing or an error. -/
  | fetch (item : Option (Option String × Bool))
  | takeGuard
  | recheckCapacity
  | dropGuard
  | abandon
  /-- The item is processed, and the guard goes out of scope. -/
  | finish
deriving DecidableEq, Repr

structure WorkerSlots (concurrency : Nat) where
  tracker : SessionTracker := ∅
  slots : Fin concurrency → WorkerSlot := fun _ => .idle

namespace WorkerSlots

variable {concurrency : Nat}

def moveTo (state : WorkerSlots concurrency) (slot : Fin concurrency) (place : WorkerSlot) : WorkerSlots concurrency :=
  { state with slots := Function.update state.slots slot place }

/-- One step of a slot; none when the slot is elsewhere. -/
def step (maxSessionsPerRuntime : Nat) (state : WorkerSlots concurrency) (label : Fin concurrency × SlotAction) :
    Option (WorkerSlots concurrency) :=
  let slot := label.1
  match state.slots slot, label.2 with
  | .idle, .checkCapacity =>
      some (state.moveTo slot (.fetching !(state.tracker.distinctCount ≥ maxSessionsPerRuntime)))
  | .fetching _, .fetch none => some (state.moveTo slot .idle)
  | .fetching _, .fetch (some (sessionId, poison)) => some (state.moveTo slot (.fetched sessionId poison))
  | .fetched (some sessionId) poison, .takeGuard =>
      some ({ state with tracker := state.tracker.increment sessionId }.moveTo slot (.guarded sessionId poison))
  | .fetched none poison, .takeGuard => some (state.moveTo slot (.processing none poison))
  | .guarded sessionId poison, .recheckCapacity =>
      if state.tracker.distinctCount > maxSessionsPerRuntime then some (state.moveTo slot (.exceeded sessionId))
      else some (state.moveTo slot (.processing (some sessionId) poison))
  | .exceeded sessionId, .dropGuard =>
      some ({ state with tracker := state.tracker.decrement sessionId }.moveTo slot .abandoning)
  | .abandoning, .abandon => some (state.moveTo slot .idle)
  | .processing (some sessionId) _, .finish =>
      some ({ state with tracker := state.tracker.decrement sessionId }.moveTo slot .idle)
  | .processing none _, .finish => some (state.moveTo slot .idle)
  | _, _ => none

/-- The slots of a runtime, started with an empty tracker. -/
def system (concurrency maxSessionsPerRuntime : Nat) :
    Lib.TransitionSystem (WorkerSlots concurrency) (Fin concurrency × SlotAction) where
  initial state := state = {}
  step state label next := step maxSessionsPerRuntime state label = some next

/-- The sessions that an activity executes for. -/
def executingSessions (state : WorkerSlots concurrency) : Finset String :=
  Finset.univ.biUnion fun slot => (state.slots slot).executing.toFinset

/-- The slots that hold a guard of a session. -/
def holders (state : WorkerSlots concurrency) (sessionId : String) : Finset (Fin concurrency) :=
  Finset.univ.filter fun slot => (state.slots slot).guard = some sessionId

end WorkerSlots

end Duroxide
