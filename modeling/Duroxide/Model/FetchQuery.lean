import Duroxide.Lib.Sql
import Duroxide.Model.WorkerQueue

/-! # The query behind `fetch_work_item`

The text that is built for a tag filter, with its parameters numbered after those of the query around it,
the values that are bound to them, and the two queries, with and without a session configuration.
-/

namespace Duroxide.Provider

open Lib.Sql

/-- `TagFilter::matches`. -/
def TagFilter.matches : TagFilter → Option String → Bool
  | .any, _ => true
  | .none, _ => false
  | .defaultOnly, Option.none => true
  | .defaultOnly, some _ => false
  | .tags _, Option.none => false
  | .tags set, some tag => set.contains tag
  | .defaultAnd _, Option.none => true
  | .defaultAnd set, some tag => set.contains tag

/-- The columns of `worker_queue q` and of `sessions s`. -/
inductive QueueColumn where
  | visibleAt
  | lockToken
  | lockedUntil
  | sessionId
  | tag
  | sSessionId
  | sWorkerId
  | sLockedUntil
deriving DecidableEq, Repr

abbrev SessionEntry := Sigma fun _ : String => SessionRow

/-- The columns of a row and of the session that it is joined with, all NULL without one. -/
def queueColumns (row : WorkerRow) (session : Option SessionEntry) : QueueColumn → Value
  | .visibleAt => .integer row.visibleAt
  | .lockToken => .ofOption (fun token : Nat => .integer token) row.lockToken
  | .lockedUntil => .ofOption .integer row.lockedUntil
  | .sessionId => .ofOption .text row.sessionId
  | .tag => .ofOption .text row.tag
  | .sSessionId => .ofOption (fun session : SessionEntry => .text session.1) session
  | .sWorkerId => .ofOption (fun session : SessionEntry => .text session.2.workerId) session
  | .sLockedUntil => .ofOption (fun session : SessionEntry => .integer session.2.lockedUntil) session

/-- `?{start_param}, ?{start_param + 1}, ..`. -/
def tagPlaceholders (count startParam : Nat) : List (Operand QueueColumn) :=
  (List.range count).map fun offset => .parameter (startParam + offset)

def buildTagClause (filter : TagFilter) (startParam : Nat) : Condition QueueColumn :=
  match filter with
  | .defaultOnly => .isNull (.column .tag)
  | .tags set => .isIn (.column .tag) (tagPlaceholders set.length startParam)
  | .defaultAnd set =>
      .or (.isNull (.column .tag)) (.isIn (.column .tag) (tagPlaceholders set.length startParam))
  | .any => .constant true
  | .none => .constant false

def collectTagValues : TagFilter → List String
  | .tags set | .defaultAnd set => set.mergeSort fun one other => one ≤ other
  | _ => []

/-- Visible, and not locked. -/
def freeClause : Condition QueueColumn :=
  .and (.atMost (.column .visibleAt) (.parameter 1))
    (.or (.isNull (.column .lockToken)) (.atMost (.column .lockedUntil) (.parameter 1)))

/-- `ON s.session_id = q.session_id AND s.locked_until > ?1`. -/
def sessionOn : Condition QueueColumn :=
  .and (.equal (.column .sSessionId) (.column .sessionId)) (.greater (.column .sLockedUntil) (.parameter 1))

def sessionWhere (tagClause : Condition QueueColumn) : Condition QueueColumn :=
  .and freeClause
    (.and (.or (.isNull (.column .sessionId))
        (.or (.equal (.column .sWorkerId) (.parameter 2)) (.isNull (.column .sSessionId))))
      tagClause)

def plainWhere (tagClause : Condition QueueColumn) : Condition QueueColumn :=
  .and freeClause (.and (.isNull (.column .sessionId)) tagClause)

/-- The row that the query returns. -/
def nextItem (store : Store) (now : Nat) (session : Option SessionFetchConfig) (filter : TagFilter) : Option WorkerRow :=
  let tagStartParam := if session.isSome then 3 else 2
  let tagClause := buildTagClause filter tagStartParam
  let tagValues := (collectTagValues filter).map Value.text
  match session with
  | some config =>
      let parameters := .integer now :: .text config.ownerId :: tagValues
      let joined := leftJoin store.workerQueue store.sessions.entries fun row entry =>
        sessionOn.holds (queueColumns row (some entry)) parameters
      let rows := joined.filter fun joined => (sessionWhere tagClause).holds (queueColumns joined.1 joined.2) parameters
      (first (fun joined => joined.1.id) rows).map Prod.fst
  | none =>
      let parameters := .integer now :: tagValues
      let rows := store.workerQueue.filter fun row => (plainWhere tagClause).holds (queueColumns row none) parameters
      first (·.id) rows

/-- `fetch_work_item` as a whole: a worker that takes nothing does not look, and the row that the query returns is
locked by its id and its session claimed. -/
def fetchNextWorkItem (store : Store) (now lockTimeoutMs token : Nat) (session : Option SessionFetchConfig)
    (filter : TagFilter) : Option ((WorkItem × Nat) × Store) :=
  if filter = .none then none
  else do
    let row ← nextItem store now session filter
    let locked := store.updateWorkerRows (·.id == row.id) fun row =>
      { row with
        lockToken := some token, lockedUntil := some (now + lockTimeoutMs), attemptCount := row.attemptCount + 1 }
    let claimed ← claimItemSession locked now session row.sessionId
    return ((row.workItem, asU32 (row.attemptCount + 1)), claimed)

/-! ## Rows that do not decode

`decodeError` gives the error for the rows, by their ids, whose text is no work item. The text is decoded last, in the
transaction that has locked the row and claimed its session, so an error undoes both.
-/

/-- What a worker asks for in one fetch. -/
structure FetchCall where
  now : Nat
  lockTimeoutMs : Nat
  token : Nat
  session : Option SessionFetchConfig
  filter : TagFilter
deriving DecidableEq, Repr

/-- The row that a fetch selects; a worker that takes nothing does not look. -/
def FetchCall.selects (call : FetchCall) (store : Store) : Option WorkerRow :=
  if call.filter = .none then none else nextItem store call.now call.session call.filter

def fetchStoredWorkItem (decodeError : Nat → Option String) (store : Store) (call : FetchCall) :
    Except ProviderError (Option (WorkItem × Nat)) × Store :=
  match call.selects store with
  | none => (.ok none, store)
  | some row =>
      match fetchNextWorkItem store call.now call.lockTimeoutMs call.token call.session call.filter with
      | none => (.ok none, store)
      | some (item, after) =>
          match decodeError row.id with
          | some error => (.error (.makePermanent "fetch_work_item" ("Deserialization error: " ++ error)), store)
          | none => (.ok (some item), after)

/-- The calls of a worker on its queue. -/
inductive WorkerCall where
  | fetch (call : FetchCall)
  | ack (now token : Nat) (completion : Option WorkItem)
  | abandon (now token : Nat) (delayMs : Option Nat) (ignoreAttempt : Bool)

/-- A call that reports an error leaves the store as it was. -/
def WorkerCall.run (decodeError : Nat → Option String) (store : Store) : WorkerCall → Store
  | .fetch call => (fetchStoredWorkItem decodeError store call).2
  | .ack now token completion => (ackWorkItem store now token completion).toOption.getD store
  | .abandon now token delayMs ignoreAttempt => (abandonWorkItem store now token delayMs ignoreAttempt).toOption.getD store

/-- The fetches of a run, each with the store that it finds. -/
def fetches (decodeError : Nat → Option String) (store : Store) : List WorkerCall → List (Store × FetchCall)
  | [] => []
  | .fetch call :: rest => (store, call) :: fetches decodeError ((WorkerCall.fetch call).run decodeError store) rest
  | call :: rest => fetches decodeError (call.run decodeError store) rest

/-- The id of the row whose item a fetch hands out. -/
def handedOut (decodeError : Nat → Option String) (fetch : Store × FetchCall) : Option Nat :=
  match (fetch.2.selects fetch.1).map (·.id), (fetchStoredWorkItem decodeError fetch.1 fetch.2).1 with
  | some id, .ok (some _) => some id
  | _, _ => none

end Duroxide.Provider
