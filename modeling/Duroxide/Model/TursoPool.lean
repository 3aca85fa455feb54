import Duroxide.Lib.Run
import Mathlib.Data.List.Basic

/-! # The connection pool of the turso provider

Any number of operations share the pool. Every await of a call is a place where its future may be dropped,
so the steps of a call are kept apart, and so are the effect of a statement in the database and the answer
that the call reads. `BEGIN`, `COMMIT` and `ROLLBACK` have their SQL meaning: an answer of success comes
after the effect, `BEGIN` does nothing where a transaction is open, and the database may roll back a
transaction by itself when a statement of it fails.
-/

namespace Duroxide.TursoPool

/-- A connection with the pool's note about it, and the transaction that is open on it: its writes, each with the
operation that made it. -/
structure ConnectionState where
  rollbackNeeded : Bool := false
  transaction : Option (List (Nat × Nat)) := none
deriving DecidableEq, Repr

/-- Where an operation stands, with the connection that it holds. -/
inductive Operation where
  | waiting
  | permitted
  | exhausted
  /-- `rollback_if_needed`, within `acquire`. -/
  | cleaning (state : ConnectionState)
  | acquired (state : ConnectionState)
  | beginning (state : ConnectionState)
  /-- `BEGIN` took effect, and its answer is not read. -/
  | begun (state : ConnectionState)
  /-- A `Transaction`. -/
  | active (state : ConnectionState)
  | committing (state : ConnectionState)
  | rollingBack (state : ConnectionState)
  /-- `COMMIT` or `ROLLBACK` took effect, and its answer is not read. -/
  | ended (state : ConnectionState)
  /-- The connection is back, the permit is not. -/
  | returned
  | finished
deriving DecidableEq, Repr

structure Pool where
  idle : List ConnectionState
  available : Nat
  size : Nat
  operations : List Operation := []
  /-- What was committed, with the operation whose statement committed it. -/
  committed : List (Nat × List (Nat × Nat)) := []

def connect (maxConnections : Nat) : Pool :=
  let size := max maxConnections 1
  { idle := List.replicate size {}, available := size, size }

/-- The steps of one operation, its statements in the database among them. -/
inductive CallStep where
  | takePermit
  | pop
  | cleaned
  | cleaningAnswered (ok : Bool)
  | begin
  | beginTakesEffect
  | beginAnswered (ok : Bool)
  | statement (write : Nat)
  | commit
  | rollback
  | endTakesEffect
  | endAnswered (ok : Bool)
  | databaseRollsBack
  | drop
  | releasePermit
deriving DecidableEq, Repr

inductive PoolStep where
  | call
  | of (operation : Nat) (step : CallStep)
deriving DecidableEq, Repr

namespace ConnectionState

/-- The note that `Drop` of an active `Transaction` leaves. -/
def needsRollback (state : ConnectionState) : ConnectionState := { state with rollbackNeeded := true }

def rolledBack (state : ConnectionState) : ConnectionState := { state with transaction := none }

end ConnectionState

namespace Pool

def set (pool : Pool) (operation : Nat) (phase : Operation) : Pool :=
  { pool with operations := pool.operations.set operation phase }

/-- `Drop` of a `PooledConnection`. -/
def giveBack (pool : Pool) (operation : Nat) (state : ConnectionState) : Pool :=
  { pool with idle := state :: pool.idle }.set operation .returned

/-- A write joins the open transaction, or is committed at once. -/
def write (pool : Pool) (operation write : Nat) (state : ConnectionState) (phase : ConnectionState → Operation) : Pool :=
  match state.transaction with
  | some writes => pool.set operation (phase { state with transaction := some (writes ++ [(operation, write)]) })
  | none => { pool with committed := pool.committed ++ [(operation, [(operation, write)])] }.set operation (phase state)

/-- A step of an operation, by where it stands. -/
def advance (pool : Pool) (operation : Nat) : Operation → CallStep → Option Pool
  | .waiting, .takePermit =>
      if 0 < pool.available then some ({ pool with available := pool.available - 1 }.set operation .permitted) else none
  | .permitted, .pop =>
      match pool.idle with
      | [] => some (pool.set operation .exhausted)
      | state :: rest =>
          some ({ pool with idle := rest }.set operation (if state.rollbackNeeded then .cleaning state else .acquired state))
  | .cleaning state, .cleaned => some (pool.set operation (.cleaning state.rolledBack))
  | .cleaning state, .cleaningAnswered true =>
      -- Rolled back, or told that no transaction is active.
      if state.transaction.isNone then some (pool.set operation (.acquired { state with rollbackNeeded := false })) else none
  | .cleaning state, .cleaningAnswered false => some (pool.giveBack operation state)
  | .acquired state, .statement write => some (pool.write operation write state .acquired)
  | .acquired state, .databaseRollsBack => some (pool.set operation (.acquired state.rolledBack))
  | .acquired state, .begin => some (pool.set operation (.beginning state))
  | .beginning state, .beginTakesEffect =>
      if state.transaction.isNone then some (pool.set operation (.begun { state with transaction := some [] })) else none
  | .beginning state, .beginAnswered false => some (pool.giveBack operation state)
  | .begun state, .beginAnswered true => some (pool.set operation (.active state))
  | .active state, .statement write => some (pool.write operation write state .active)
  | .active state, .databaseRollsBack => some (pool.set operation (.active state.rolledBack))
  | .active state, .commit => some (pool.set operation (.committing state))
  | .active state, .rollback => some (pool.set operation (.rollingBack state))
  | .committing state, .databaseRollsBack => some (pool.set operation (.committing state.rolledBack))
  | .committing state, .endTakesEffect =>
      state.transaction.map fun writes =>
        { pool with committed := pool.committed ++ [(operation, writes)] }.set operation (.ended state.rolledBack)
  | .rollingBack state, .databaseRollsBack => some (pool.set operation (.rollingBack state.rolledBack))
  | .rollingBack state, .endTakesEffect => state.transaction.map fun _ => pool.set operation (.ended state.rolledBack)
  | .ended state, .endAnswered true => some (pool.giveBack operation state)
  | .ended state, .endAnswered false | .committing state, .endAnswered false | .rollingBack state, .endAnswered false =>
      some (pool.giveBack operation state.needsRollback)
  | .waiting, .drop => some (pool.set operation .finished)
  | .cleaning state, .drop | .acquired state, .drop | .beginning state, .drop | .begun state, .drop =>
      some (pool.giveBack operation state)
  | .active state, .drop | .committing state, .drop | .rollingBack state, .drop | .ended state, .drop =>
      some (pool.giveBack operation state.needsRollback)
  | .returned, .releasePermit => some ({ pool with available := pool.available + 1 }.set operation .finished)
  | _, _ => none

def step (pool : Pool) : PoolStep → Option Pool
  | .call => some { pool with operations := pool.operations ++ [.waiting] }
  | .of operation step => pool.operations[operation]?.bind fun phase => pool.advance operation phase step

/-- No `begin` is dropped between the effect of its `BEGIN` and the answer. -/
def readsBegin (pool : Pool) : PoolStep → Bool
  | .of operation .drop =>
      match pool.operations[operation]? with
      | some (.begun _) => false
      | _ => true
  | _ => true

end Pool

end Duroxide.TursoPool
