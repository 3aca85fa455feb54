import Duroxide.Model.TursoPool
import Mathlib.Tactic.SplitIfs

/-! # Transactions on pooled connections

A connection goes back with an open transaction only if it is noted for a rollback, and such a connection
is rolled back before it is handed out. The one gap is a `begin` that is dropped while the answer to its
`BEGIN` is on the way: no `Transaction` exists yet that would leave the note.
-/

namespace Duroxide.TursoPool

/-- An open transaction is noted. -/
def ConnectionState.Noted (state : ConnectionState) : Prop := state.transaction.isSome → state.rollbackNeeded

/-- Nothing is open. -/
def ConnectionState.Clean (state : ConnectionState) : Prop := state.transaction = none

/-- Every write of the open transaction is of one operation. -/
def ConnectionState.OwnedBy (state : ConnectionState) (operation : Nat) : Prop :=
  ∀ writes ∈ state.transaction, ∀ write ∈ writes, write.1 = operation

theorem ConnectionState.Clean.noted {state : ConnectionState} (clean : state.Clean) : state.Noted := by
  intro opened
  rw [clean] at opened
  cases opened

theorem ConnectionState.Clean.ownedBy {state : ConnectionState} (clean : state.Clean) (operation : Nat) :
    state.OwnedBy operation := by
  intro writes opened
  rw [clean] at opened
  cases opened

theorem ConnectionState.clean_rolledBack (state : ConnectionState) : state.rolledBack.Clean := rfl

theorem ConnectionState.noted_needsRollback (state : ConnectionState) : state.needsRollback.Noted := fun _ => rfl

/-- What holds of the connection of an operation, by where the operation stands. -/
def Operation.Sound (operation : Nat) : Operation → Prop
  | .cleaning state => state.Noted
  | .acquired state | .beginning state | .ended state => state.Clean
  | .begun state | .active state | .committing state | .rollingBack state => state.OwnedBy operation
  | .waiting | .permitted | .exhausted | .returned | .finished => True

/-- Idle connections are noted where a transaction is open, each operation has a transaction of its own at most, and what
was committed together was written by the operation that committed it. -/
structure Pool.Sound (pool : Pool) : Prop where
  idle : ∀ state ∈ pool.idle, state.Noted
  operations : ∀ (operation : Nat) (phase : Operation), pool.operations[operation]? = some phase → phase.Sound operation
  committed : ∀ entry ∈ pool.committed, ∀ write ∈ entry.2, write.1 = entry.1

namespace Pool.Sound

variable {pool next : Pool} {operation : Nat} {phase : Operation} {state : ConnectionState}

theorem connect (maxConnections : Nat) : (connect maxConnections).Sound where
  idle state member := by
    rw [List.eq_of_mem_replicate member]
    exact ConnectionState.Clean.noted rfl
  operations _ _ found := by cases found
  committed _ member := by cases member

theorem set (sound : pool.Sound) (holds : phase.Sound operation) : (pool.set operation phase).Sound where
  idle := sound.idle
  operations other found held := by
    rw [Pool.set, List.getElem?_set] at held
    split_ifs at held with same
    · cases held
      exact same ▸ holds
    · exact sound.operations other found held
  committed := sound.committed

theorem giveBack (sound : pool.Sound) (noted : state.Noted) : (pool.giveBack operation state).Sound := by
  have pushed : ({ pool with idle := state :: pool.idle } : Pool).Sound :=
    ⟨List.forall_mem_cons.mpr ⟨noted, sound.idle⟩, sound.operations, sound.committed⟩
  exact pushed.set trivial

theorem commit (sound : pool.Sound) {writes : List (Nat × Nat)} (own : ∀ write ∈ writes, write.1 = operation) :
    ({ pool with committed := pool.committed ++ [(operation, writes)] } : Pool).Sound where
  idle := sound.idle
  operations := sound.operations
  committed entry member := by
    rcases List.mem_append.mp member with old | new
    · exact sound.committed entry old
    · rw [List.mem_singleton.mp new]
      exact own

theorem write (sound : pool.Sound) (owned : state.OwnedBy operation) (written : Nat)
    {phase : ConnectionState → Operation} (same : state.Clean → (phase state).Sound operation)
    (joined : ∀ after : ConnectionState, state.transaction.isSome → after.OwnedBy operation → (phase after).Sound operation) :
    (pool.write operation written state phase).Sound := by
  unfold Pool.write
  split
  · rename_i writes opened
    refine sound.set (joined _ (opened ▸ rfl) ?_)
    rintro _ ⟨⟩ write member
    rcases List.mem_append.mp member with old | new
    · exact owned writes opened write old
    · rw [List.mem_singleton.mp new]
  · rename_i closed
    refine (sound.commit ?_).set (same closed)
    intro write member
    rw [List.mem_singleton.mp member]

theorem idle_rest (sound : pool.Sound) {rest : List ConnectionState} (top : pool.idle = state :: rest) :
    state.Noted ∧ ({ pool with idle := rest } : Pool).Sound := by
  obtain ⟨noted, others⟩ := List.forall_mem_cons.mp (top ▸ sound.idle)
  exact ⟨noted, others, sound.operations, sound.committed⟩

/-- A step keeps this, except that of a `begin` whose answer is never read. -/
theorem advance (sound : pool.Sound) (stands : pool.operations[operation]? = some phase) {step : CallStep}
    (read : pool.readsBegin (.of operation step)) (taken : pool.advance operation phase step = some next) : next.Sound := by
  have holds := sound.operations operation phase stands
  cases phase with
  | waiting =>
    cases step with
    | takePermit =>
      simp only [Pool.advance] at taken
      split_ifs at taken
      cases taken
      exact Pool.Sound.set ⟨sound.idle, sound.operations, sound.committed⟩ trivial
    | drop =>
      cases taken
      exact sound.set trivial
    | _ => cases taken
  | permitted =>
    cases step with
    | pop =>
      simp only [Pool.advance] at taken
      split at taken
      · cases taken
        exact sound.set trivial
      · rename_i state rest top
        cases taken
        obtain ⟨noted, others⟩ := sound.idle_rest top
        refine others.set ?_
        split_ifs with needed
        · exact noted
        · exact Option.not_isSome_iff_eq_none.mp fun opened => needed (noted opened)
    | _ => cases taken
  | cleaning state =>
    cases step with
    | cleaned =>
      cases taken
      exact sound.set state.clean_rolledBack.noted
    | cleaningAnswered ok =>
      cases ok with
      | false =>
        cases taken
        exact sound.giveBack holds
      | true =>
        simp only [Pool.advance] at taken
        split_ifs at taken with closed
        cases taken
        exact sound.set (Option.isNone_iff_eq_none.mp closed)
    | drop =>
      cases taken
      exact sound.giveBack holds
    | _ => cases taken
  | acquired state =>
    cases step with
    | statement written =>
      cases taken
      refine sound.write (ConnectionState.Clean.ownedBy holds operation) written (fun clean => clean) fun _ opened _ => ?_
      exact absurd opened (by rw [holds]; exact Bool.false_ne_true)
    | databaseRollsBack =>
      cases taken
      exact sound.set rfl
    | begin =>
      cases taken
      exact sound.set holds
    | drop =>
      cases taken
      exact sound.giveBack (ConnectionState.Clean.noted holds)
    | _ => cases taken
  | beginning state =>
    cases step with
    | beginTakesEffect =>
      simp only [Pool.advance] at taken
      split_ifs at taken
      cases taken
      refine sound.set ?_
      rintro _ ⟨⟩ _ ⟨⟩
    | beginAnswered ok =>
      cases ok with
      | false =>
        cases taken
        exact sound.giveBack (ConnectionState.Clean.noted holds)
      | true => cases taken
    | drop =>
      cases taken
      exact sound.giveBack (ConnectionState.Clean.noted holds)
    | _ => cases taken
  | begun state =>
    cases step with
    | beginAnswered ok =>
      cases ok with
      | false => cases taken
      | true =>
        cases taken
        exact sound.set holds
    | drop =>
      simp only [readsBegin, stands] at read
      cases read
    | _ => cases taken
  | active state =>
    cases step with
    | statement written =>
      cases taken
      exact sound.write holds written (fun clean => clean.ownedBy operation) fun _ _ owned => owned
    | databaseRollsBack =>
      cases taken
      exact sound.set (state.clean_rolledBack.ownedBy operation)
    | commit =>
      cases taken
      exact sound.set holds
    | rollback =>
      cases taken
      exact sound.set holds
    | drop =>
      cases taken
      exact sound.giveBack state.noted_needsRollback
    | _ => cases taken
  | committing state =>
    cases step with
    | databaseRollsBack =>
      cases taken
      exact sound.set (state.clean_rolledBack.ownedBy operation)
    | endTakesEffect =>
      obtain ⟨writes, opened, rfl⟩ := Option.map_eq_some_iff.mp taken
      exact (sound.commit (holds writes opened)).set rfl
    | endAnswered ok =>
      cases ok with
      | false =>
        cases taken
        exact sound.giveBack state.noted_needsRollback
      | true => cases taken
    | drop =>
      cases taken
      exact sound.giveBack state.noted_needsRollback
    | _ => cases taken
  | rollingBack state =>
    cases step with
    | databaseRollsBack =>
      cases taken
      exact sound.set (state.clean_rolledBack.ownedBy operation)
    | endTakesEffect =>
      obtain ⟨writes, opened, rfl⟩ := Option.map_eq_some_iff.mp taken
      exact sound.set rfl
    | endAnswered ok =>
      cases ok with
      | false =>
        cases taken
        exact sound.giveBack state.noted_needsRollback
      | true => cases taken
    | drop =>
      cases taken
      exact sound.giveBack state.noted_needsRollback
    | _ => cases taken
  | ended state =>
    cases step with
    | endAnswered ok =>
      cases ok with
      | false =>
        cases taken
        exact sound.giveBack state.noted_needsRollback
      | true =>
        cases taken
        exact sound.giveBack (ConnectionState.Clean.noted holds)
    | drop =>
      cases taken
      exact sound.giveBack state.noted_needsRollback
    | _ => cases taken
  | returned =>
    cases step with
    | releasePermit =>
      cases taken
      exact Pool.Sound.set ⟨sound.idle, sound.operations, sound.committed⟩ trivial
    | _ => cases taken
  | exhausted => cases step <;> cases taken
  | finished => cases step <;> cases taken

theorem step (sound : pool.Sound) {label : PoolStep} (read : pool.readsBegin label) (taken : pool.step label = some next) :
    next.Sound := by
  cases label with
  | call =>
    cases taken
    refine ⟨sound.idle, fun operation phase held => ?_, sound.committed⟩
    rw [List.getElem?_append] at held
    split_ifs at held
    · exact sound.operations operation phase held
    · rw [List.mem_singleton.mp (List.mem_of_getElem? held)]
      trivial
  | of operation step =>
    obtain ⟨phase, stands, advanced⟩ := Option.bind_eq_some_iff.mp taken
    exact sound.advance stands read advanced

end Pool.Sound

/-! ## Permits and connections -/

/-- Whether an operation holds a connection. -/
def Operation.holdsConnection : Operation → Bool
  | .cleaning _ | .acquired _ | .beginning _ | .begun _ | .active _ | .committing _ | .rollingBack _ | .ended _ => true
  | .waiting | .permitted | .exhausted | .returned | .finished => false

/-- Whether an operation holds a permit and no connection. -/
def Operation.holdsPermitOnly : Operation → Bool
  | .permitted | .exhausted | .returned => true
  | _ => false

theorem countP_set_add {operations : List Operation} {operation : Nat} {phase after : Operation}
    (stands : operations[operation]? = some phase) (test : Operation → Bool) {before now : Bool} (was : test phase = before)
    (is : test after = now) :
    (operations.set operation after).countP test + before.toNat = operations.countP test + now.toNat := by
  obtain ⟨inside, same⟩ := List.getElem?_eq_some_iff.mp stands
  have counted : before.toNat ≤ operations.countP test := by
    cases before with
    | false => exact Nat.zero_le _
    | true => exact List.countP_pos_iff.mpr ⟨phase, same ▸ List.getElem_mem inside, was⟩
  rw [List.countP_set inside, same, was, is]
  cases before <;> cases now <;> simp only [Bool.toNat_true, Bool.toNat_false, if_true, Bool.false_eq_true, if_false] at * <;>
    omega

/-- Every connection is idle or held by one operation, and an idle one is set aside for each permit that is free or held
without a connection. -/
structure Pool.Balanced (size : Nat) (pool : Pool) : Prop where
  connections : pool.idle.length + pool.operations.countP (·.holdsConnection) = size
  permits : pool.idle.length = pool.available + pool.operations.countP (·.holdsPermitOnly)
  supplied : .exhausted ∉ pool.operations

namespace Pool.Balanced

variable {size : Nat} {pool next : Pool} {operation : Nat} {phase after : Operation} {state : ConnectionState}

theorem connect (maxConnections : Nat) : (TursoPool.connect maxConnections).Balanced (max maxConnections 1) where
  connections := List.length_replicate
  permits := List.length_replicate
  supplied := List.not_mem_nil

theorem supplied_set (balanced : pool.Balanced size) (supplied : after ≠ .exhausted) :
    .exhausted ∉ (pool.set operation after).operations := fun member =>
  (List.mem_or_eq_of_mem_set member).elim balanced.supplied fun same => supplied same.symm

/-- An operation that holds what it held. -/
theorem set (balanced : pool.Balanced size) (stands : pool.operations[operation]? = some phase)
    (connection : after.holdsConnection = phase.holdsConnection)
    (permit : after.holdsPermitOnly = phase.holdsPermitOnly) (supplied : after ≠ .exhausted) :
    (pool.set operation after).Balanced size where
  connections := by
    have counted := countP_set_add stands (·.holdsConnection) rfl connection
    exact (congrArg _ (Nat.add_right_cancel counted)).trans balanced.connections
  permits := by
    have counted := countP_set_add stands (·.holdsPermitOnly) rfl permit
    exact balanced.permits.trans (congrArg _ (Nat.add_right_cancel counted).symm)
  supplied := balanced.supplied_set supplied

theorem giveBack (balanced : pool.Balanced size) (stands : pool.operations[operation]? = some phase)
    (held : phase.holdsConnection = true) (state : ConnectionState) : (pool.giveBack operation state).Balanced size := by
  have noPermit : phase.holdsPermitOnly = false := by cases phase <;> first | rfl | cases held
  have connections : (pool.operations.set operation .returned).countP (·.holdsConnection) + 1 =
      pool.operations.countP (·.holdsConnection) + 0 := countP_set_add stands (·.holdsConnection) held rfl
  have permits : (pool.operations.set operation .returned).countP (·.holdsPermitOnly) + 0 =
      pool.operations.countP (·.holdsPermitOnly) + 1 := countP_set_add stands (·.holdsPermitOnly) noPermit rfl
  have before := balanced.connections
  have spare := balanced.permits
  constructor
  · simp only [Pool.giveBack, Pool.set, List.length_cons]
    omega
  · simp only [Pool.giveBack, Pool.set, List.length_cons]
    omega
  · exact balanced.supplied_set Operation.noConfusion

theorem takePermit (balanced : pool.Balanced size) (stands : pool.operations[operation]? = some .waiting)
    (free : 0 < pool.available) :
    ({ pool with available := pool.available - 1 }.set operation .permitted : Pool).Balanced size := by
  have connections : (pool.operations.set operation .permitted).countP (·.holdsConnection) + 0 =
      pool.operations.countP (·.holdsConnection) + 0 := countP_set_add stands (·.holdsConnection) rfl rfl
  have permits : (pool.operations.set operation .permitted).countP (·.holdsPermitOnly) + 0 =
      pool.operations.countP (·.holdsPermitOnly) + 1 := countP_set_add stands (·.holdsPermitOnly) rfl rfl
  have before := balanced.connections
  have spare := balanced.permits
  constructor
  · simp only [Pool.set]
    omega
  · simp only [Pool.set]
    omega
  · exact balanced.supplied_set Operation.noConfusion

theorem releasePermit (balanced : pool.Balanced size) (stands : pool.operations[operation]? = some .returned) :
    ({ pool with available := pool.available + 1 }.set operation .finished : Pool).Balanced size := by
  have connections : (pool.operations.set operation .finished).countP (·.holdsConnection) + 0 =
      pool.operations.countP (·.holdsConnection) + 0 := countP_set_add stands (·.holdsConnection) rfl rfl
  have permits : (pool.operations.set operation .finished).countP (·.holdsPermitOnly) + 1 =
      pool.operations.countP (·.holdsPermitOnly) + 0 := countP_set_add stands (·.holdsPermitOnly) rfl rfl
  have before := balanced.connections
  have spare := balanced.permits
  constructor
  · simp only [Pool.set]
    omega
  · simp only [Pool.set]
    omega
  · exact balanced.supplied_set Operation.noConfusion

/-- With a permit there is a connection to take. -/
theorem idle_ne_nil (balanced : pool.Balanced size) (stands : pool.operations[operation]? = some .permitted) :
    pool.idle ≠ [] := by
  have one : 0 < pool.operations.countP (·.holdsPermitOnly) :=
    List.countP_pos_iff.mpr ⟨.permitted, List.mem_of_getElem? stands, rfl⟩
  have spare := balanced.permits
  rw [← List.length_pos_iff]
  omega

theorem pop (balanced : pool.Balanced size) (stands : pool.operations[operation]? = some .permitted)
    {rest : List ConnectionState} (top : pool.idle = state :: rest) (held : after.holdsConnection = true) :
    ({ pool with idle := rest }.set operation after : Pool).Balanced size := by
  have noPermit : after.holdsPermitOnly = false := by cases after <;> first | rfl | cases held
  have connections : (pool.operations.set operation after).countP (·.holdsConnection) + 0 =
      pool.operations.countP (·.holdsConnection) + 1 := countP_set_add stands (·.holdsConnection) rfl held
  have permits : (pool.operations.set operation after).countP (·.holdsPermitOnly) + 1 =
      pool.operations.countP (·.holdsPermitOnly) + 0 := countP_set_add stands (·.holdsPermitOnly) rfl noPermit
  have before := balanced.connections
  have spare := balanced.permits
  rw [top, List.length_cons] at before spare
  constructor
  · simp only [Pool.set]
    omega
  · simp only [Pool.set]
    omega
  · exact balanced.supplied_set fun same => by rw [same] at held; cases held

theorem committed (balanced : pool.Balanced size) (committed : List (Nat × List (Nat × Nat))) :
    ({ pool with committed } : Pool).Balanced size := ⟨balanced.connections, balanced.permits, balanced.supplied⟩

theorem write {phase : ConnectionState → Operation} (balanced : pool.Balanced size)
    (stands : pool.operations[operation]? = some (phase state)) (written : Nat)
    (held : ∀ state, (phase state).holdsConnection = true) : (pool.write operation written state phase).Balanced size := by
  have noPermit : ∀ {after : Operation}, after.holdsConnection = true → after.holdsPermitOnly = false := by
    intro after held
    cases after <;> first | rfl | cases held
  have supplied : ∀ state, phase state ≠ .exhausted := fun state same => by
    have holds := held state
    rw [same] at holds
    cases holds
  unfold Pool.write
  split
  · exact balanced.set stands ((held _).trans (held _).symm) ((noPermit (held _)).trans (noPermit (held _)).symm) (supplied _)
  · exact (balanced.committed _).set stands rfl rfl (supplied _)

theorem advance (balanced : pool.Balanced size) (stands : pool.operations[operation]? = some phase) {step : CallStep}
    (taken : pool.advance operation phase step = some next) : next.Balanced size := by
  have moved : ∀ {after : Operation}, after.holdsConnection = phase.holdsConnection →
      after.holdsPermitOnly = phase.holdsPermitOnly → after ≠ .exhausted → (pool.set operation after).Balanced size :=
    fun connection permit supplied => balanced.set stands connection permit supplied
  unfold Pool.advance at taken
  split at taken
  -- A permit is taken.
  · split_ifs at taken with free
    cases taken
    exact balanced.takePermit stands free
  -- A connection is taken.
  · split at taken
    · exact absurd ‹_› (balanced.idle_ne_nil stands)
    · rename_i state rest top
      cases taken
      refine balanced.pop stands top ?_
      split_ifs <;> rfl
  -- The connection goes back, or the operation holds what it held.
  all_goals try first
    | (cases taken; exact balanced.giveBack stands rfl _)
    | (cases taken; exact moved rfl rfl Operation.noConfusion)
  · split_ifs at taken
    cases taken
    exact moved rfl rfl Operation.noConfusion
  · cases taken
    exact balanced.write stands _ fun _ => rfl
  · split_ifs at taken
    cases taken
    exact moved rfl rfl Operation.noConfusion
  · cases taken
    exact balanced.write stands _ fun _ => rfl
  · obtain ⟨writes, _, rfl⟩ := Option.map_eq_some_iff.mp taken
    exact (balanced.committed _).set stands rfl rfl Operation.noConfusion
  · obtain ⟨writes, _, rfl⟩ := Option.map_eq_some_iff.mp taken
    exact moved rfl rfl Operation.noConfusion
  · cases taken
    exact balanced.releasePermit stands
  · cases taken

theorem step (balanced : pool.Balanced size) {label : PoolStep} (taken : pool.step label = some next) : next.Balanced size := by
  cases label with
  | call =>
    cases taken
    refine ⟨?_, ?_, ?_⟩
    · rw [List.countP_append]
      exact balanced.connections
    · rw [List.countP_append]
      exact balanced.permits
    · rw [List.mem_append, not_or]
      exact ⟨balanced.supplied, by decide⟩
  | of operation step =>
    obtain ⟨phase, stands, advanced⟩ := Option.bind_eq_some_iff.mp taken
    exact balanced.advance stands advanced

theorem run (balanced : pool.Balanced size) {steps : List PoolStep} (ran : steps.foldlM Pool.step pool = some next) :
    next.Balanced size := by
  induction steps generalizing pool with
  | nil =>
    cases ran
    exact balanced
  | cons label rest ih =>
    rw [List.foldlM_cons] at ran
    obtain ⟨between, taken, others⟩ := Option.bind_eq_some_iff.mp ran
    exact ih (balanced.step taken) others

end Pool.Balanced

theorem Pool.Sound.run {pool last : Pool} (sound : pool.Sound) {steps : List PoolStep}
    (ran : Lib.TransitionSystem.runTested Pool.step Pool.readsBegin pool steps = some last) : last.Sound := by
  induction steps generalizing pool with
  | nil =>
    cases ran
    exact sound
  | cons label rest ih =>
    rw [Lib.TransitionSystem.runTested] at ran
    split_ifs at ran with read
    obtain ⟨between, taken, others⟩ := Option.bind_eq_some_iff.mp ran
    exact ih (sound.step read taken) others

/-- In every run in which each `begin` reads the answer to its `BEGIN`, whatever else is dropped wherever: a connection that
`acquire` hands out has no open transaction, an operation's transaction has its own writes only, and so has everything that
was committed. -/
theorem acquired_connections_clean (maxConnections : Nat) {steps : List PoolStep} {last : Pool}
    (ran : Lib.TransitionSystem.runTested Pool.step Pool.readsBegin (connect maxConnections) steps = some last) :
    (∀ (operation : Nat) (state : ConnectionState), last.operations[operation]? = some (.acquired state) →
        state.transaction = none) ∧
      (∀ (operation : Nat) (state : ConnectionState) (writes : List (Nat × Nat)),
        last.operations[operation]? = some (.active state) → state.transaction = some writes →
        ∀ write ∈ writes, write.1 = operation) ∧
      ∀ entry ∈ last.committed, ∀ write ∈ entry.2, write.1 = entry.1 := by
  have sound := (Pool.Sound.connect maxConnections).run ran
  exact ⟨fun operation state held => sound.operations operation _ held,
    fun operation state writes held opened => sound.operations operation _ held writes opened, sound.committed⟩

/-- An operation that is dropped with a write in its transaction, and one that takes over the connection. -/
def takenOver : List PoolStep :=
  [.call, .of 0 .takePermit, .of 0 .pop, .of 0 .begin, .of 0 .beginTakesEffect, .of 0 (.beginAnswered true),
    .of 0 (.statement 7), .of 0 .commit, .of 0 .drop, .of 0 .releasePermit,
    .call, .of 1 .takePermit, .of 1 .pop, .of 1 .cleaned, .of 1 (.cleaningAnswered true), .of 1 (.statement 8)]

theorem acquired_connections_clean_takenOver : ∃ last,
    Lib.TransitionSystem.runTested Pool.step Pool.readsBegin (connect 1) takenOver = some last ∧
      last.operations = [.finished, .acquired {}] ∧ last.committed = [(1, [(1, 8)])] ∧
      ∀ (operation : Nat) (state : ConnectionState), last.operations[operation]? = some (.acquired state) →
        state.transaction = none := by
  have ran : Lib.TransitionSystem.runTested Pool.step Pool.readsBegin (connect 1) takenOver =
      some { idle := [], available := 0, size := 1, operations := [.finished, .acquired {}], committed := [(1, [(1, 8)])] } := rfl
  exact ⟨_, ran, rfl, rfl, (acquired_connections_clean 1 ran).1⟩

/-- A `begin` that is dropped after its `BEGIN` took effect leaves the transaction open and unnoted: the next operation works
inside it, and what it wrote is not committed. -/
theorem abandoned_begin_leaks : ∃ last,
    [.call, .of 0 .takePermit, .of 0 .pop, .of 0 .begin, .of 0 .beginTakesEffect, .of 0 .drop, .of 0 .releasePermit,
      .call, .of 1 .takePermit, .of 1 .pop, .of 1 (.statement 8)].foldlM Pool.step (connect 1) = some last ∧
      last.operations = [.finished, .acquired { transaction := some [(1, 8)] }] ∧ last.committed = [] :=
  ⟨_, rfl, rfl, rfl⟩

/-- In every run, whatever is dropped wherever: no connection is lost, an operation with a permit finds one, and when every
operation is done with the pool all permits are free and all connections idle. -/
theorem connections_conserved (maxConnections : Nat) {steps : List PoolStep} {last : Pool}
    (ran : steps.foldlM Pool.step (connect maxConnections) = some last) :
    last.idle.length + last.operations.countP (·.holdsConnection) = max maxConnections 1 ∧
      .exhausted ∉ last.operations ∧ (.permitted ∈ last.operations → last.idle ≠ []) ∧
      ((∀ phase ∈ last.operations, phase = .waiting ∨ phase = .finished) →
        last.idle.length = max maxConnections 1 ∧ last.available = max maxConnections 1) := by
  have balanced := (Pool.Balanced.connect maxConnections).run ran
  refine ⟨balanced.connections, balanced.supplied, fun listed => ?_, fun done => ?_⟩
  · obtain ⟨operation, inside, stands⟩ := List.getElem_of_mem listed
    exact balanced.idle_ne_nil (List.getElem?_eq_some_iff.mpr ⟨inside, stands⟩)
  · have none : ∀ {test : Operation → Bool}, test .waiting = false → test .finished = false →
        last.operations.countP test = 0 := by
      intro test waiting finished
      refine List.countP_eq_zero.mpr fun phase member => ?_
      rcases done phase member with rfl | rfl
      · exact Bool.not_eq_true _ ▸ waiting
      · exact Bool.not_eq_true _ ▸ finished
    have connections := balanced.connections
    have permits := balanced.permits
    rw [none rfl rfl] at connections permits
    omega

theorem connections_conserved_takenOver : ∃ last, takenOver.foldlM Pool.step (connect 1) = some last ∧
    last.idle.length + last.operations.countP (·.holdsConnection) = 1 := by
  have ran : takenOver.foldlM Pool.step (connect 1) =
      some { idle := [], available := 0, size := 1, operations := [.finished, .acquired {}], committed := [(1, [(1, 8)])] } := rfl
  exact ⟨_, ran, (connections_conserved 1 ran).1⟩

end Duroxide.TursoPool
