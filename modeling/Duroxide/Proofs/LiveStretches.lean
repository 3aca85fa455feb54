import Duroxide.Proofs.DropRuns
import Duroxide.Proofs.KeyValueViews
import Duroxide.Proofs.PollRecords

/-! # Live stretches of a program

From turn to turn, a stretch of the program should run live once: when the first turn gets as far. A turn clears the
replay flag for the events that it adds, and a poll takes place with the flag of the event behind the one that asked
for it. So a history whose last event asks for a poll is polled live by the turn that adds this event, and live again
by the next one; in runs without such histories every stretch runs live once.
-/

namespace Duroxide

/-- Every stretch runs live once: a poll is live exactly in the first turn that gets as far. -/
def LiveOnce (polled : List (List Poll)) : Prop :=
  ∀ before turn after, polled = before ++ turn :: after → ∀ record ∈ turn,
    (record.isReplaying = false ↔ ∀ earlier ∈ before, ∀ other ∈ earlier, other.seen < record.seen)

namespace LiveOnce

variable {polled : List (List Poll)}

theorem nil : LiveOnce [] := by
  intro before turn after split
  cases before <;> cases split

theorem append (once : LiveOnce polled) {turn : List Poll}
    (first : ∀ record ∈ turn,
      (record.isReplaying = false ↔ ∀ earlier ∈ polled, ∀ other ∈ earlier, other.seen < record.seen)) :
    LiveOnce (polled ++ [turn]) := by
  intro before last after split
  obtain rfl | ⟨later, final, rfl⟩ := after.eq_nil_or_concat
  · obtain ⟨rfl, same⟩ := List.append_inj' split rfl
    cases same
    exact first
  · rw [List.concat_eq_append, ← List.cons_append, ← List.append_assoc] at split
    obtain ⟨earlier, _⟩ := List.append_inj' split rfl
    exact once before last later earlier

end LiveOnce

/-- The history of an execution with the polls of its turns. -/
structure Journal where
  history : List Event
  polled : List (List Poll)
deriving DecidableEq

/-- What one turn polls over the history of its execution, and how far this goes. -/
structure Polled (base history : List Event) (turn : List Poll) : Prop where
  asked : ∀ record ∈ turn, base.any (·.isTerminal) = false ∧ history ≠ [] ∧ ∃ read, base <+: read ∧
    (Replay.Asked base.length read record ∨ record.isReplaying = false ∧ read.length < record.seen)
  seen_le : history.any (·.isTerminal) = false → ∀ record ∈ turn, record.seen ≤ history.length
  covered : history.any (·.isTerminal) = false → history = base ∨ ∀ seen, seen <+: history → (seen = [] ∨ asksPoll seen) →
    ∃ record ∈ turn, seen.length ≤ record.seen

/-- A turn without polls that leaves its history, or ends its execution. -/
theorem Polled.nil {base history : List Event} (leaves : history = base ∨ history.any (·.isTerminal)) :
    Polled base history [] where
  asked _ none := absurd none List.not_mem_nil
  seen_le _ _ none := absurd none List.not_mem_nil
  covered unended := by
    rcases leaves with same | ended
    · exact .inl same
    · rw [ended] at unended
      cases unended

namespace Journal

variable {journal : Journal}

/-- What turns keep: the polls do not get ahead of a history that has not ended, and what it asks for was polled. -/
structure Traced (journal : Journal) : Prop where
  liveOnce : LiveOnce journal.polled
  unpolled : journal.history = [] → ∀ turn ∈ journal.polled, turn = []
  seen_le : journal.history.any (·.isTerminal) = false → ∀ turn ∈ journal.polled, ∀ record ∈ turn,
    record.seen ≤ journal.history.length
  covered : journal.history.any (·.isTerminal) = false → journal.history ≠ [] → ∀ seen, seen <+: journal.history →
    (seen = [] ∨ asksPoll seen) → ∃ turn ∈ journal.polled, ∃ record ∈ turn, seen.length ≤ record.seen

theorem Traced.nil : Traced ⟨[], []⟩ where
  liveOnce := .nil
  unpolled _ _ none := absurd none List.not_mem_nil
  seen_le _ _ none := absurd none List.not_mem_nil
  covered _ some := absurd rfl some

namespace Traced

variable {base history : List Event} {polled : List (List Poll)} {turn : List Poll}

/-- Over a history that does not end with an event that asks for a poll, the live polls of a turn are those that go
further than all before. -/
theorem live_iff (traced : Traced ⟨base, polled⟩) (polls : Polled base history turn) (settled : turn ≠ [] → asksPoll base = false)
    {record : Poll} (member : record ∈ turn) :
    record.isReplaying = false ↔ ∀ earlier ∈ polled, ∀ other ∈ earlier, other.seen < record.seen := by
  obtain ⟨unended, _, read, inside, asked | ⟨live, behind⟩⟩ := polls.asked record member
  · obtain ⟨seen, within, rfl, asks⟩ := asked
    rw [decide_eq_false_iff_not, Nat.not_lt]
    constructor
    · intro passed earlier before other polled
      rcases Nat.lt_or_ge base.length seen.length with further | same
      · exact (traced.seen_le unended earlier before other polled).trans_lt further
      · obtain rfl := (List.prefix_of_prefix_length_le inside within passed).eq_of_length_le same
        have unasked := settled (List.ne_nil_of_mem member)
        rcases asks with new | asks
        · rw [traced.unpolled new earlier before] at polled
          cases polled
        · rw [unasked] at asks
          cases asks
    · intro first
      by_contra replays
      have replayed := List.prefix_of_prefix_length_le within inside (Nat.le_of_not_le replays)
      have some : base ≠ [] := List.length_pos_iff.mp (by omega)
      obtain ⟨earlier, before, other, polled, reaches⟩ := traced.covered unended some seen replayed asks
      exact Nat.not_lt.mpr reaches (first earlier before other polled)
  · refine iff_of_true live fun earlier before other polled => ?_
    have known := traced.seen_le unended earlier before other polled
    exact (known.trans inside.length_le).trans_lt behind

theorem append (traced : Traced ⟨base, polled⟩) (grows : base <+: history) (polls : Polled base history turn)
    (settled : turn ≠ [] → asksPoll base = false) : Traced ⟨history, polled ++ [turn]⟩ where
  liveOnce := traced.liveOnce.append fun _ member => traced.live_iff polls settled member
  unpolled := by
    rintro rfl other member
    rcases List.mem_append.mp member with old | new
    · exact traced.unpolled (List.prefix_nil.mp grows) other old
    · rw [List.mem_singleton.mp new]
      exact List.eq_nil_iff_forall_not_mem.mpr fun record some => (polls.asked record some).2.1 rfl
  seen_le := by
    intro unended other member record some
    rcases List.mem_append.mp member with old | new
    · have running : base.any (·.isTerminal) = false := by
        obtain ⟨rest, rfl⟩ := grows
        rw [List.any_append, Bool.or_eq_false_iff] at unended
        exact unended.1
      exact (traced.seen_le running other old record some).trans grows.length_le
    · rw [List.mem_singleton.mp new] at some
      exact polls.seen_le unended record some
  covered := by
    intro unended some seen inside asks
    rcases polls.covered unended with rfl | covers
    · obtain ⟨other, member, found⟩ := traced.covered unended some seen inside asks
      exact ⟨other, List.mem_append_left _ member, found⟩
    · exact ⟨turn, List.mem_append_right _ List.mem_cons_self, covers seen inside asks⟩

end Traced

end Journal

namespace Dispatcher

open HistoryManager ReplayEngine

variable {semver : Semver} {env : RuntimeEnv semver} {item : OrchestrationItem} {outcome : ExecutionOutcome}
  {result : TurnResult} {engine : ReplayEngine} {manager : HistoryManager} {ending : List Event}
  {handler : OrchestrationHandler} {input orchestrationName orchestrationVersion : String}

/-- The polls of a turn that runs its handler. -/
def turnPolls (env : RuntimeEnv semver) (item : OrchestrationItem) : List Poll :=
  if (workitemReader item).hasOrchestrationName then
    match resolveTurnHandler env.registry (workitemReader item).orchestrationName (workitemReader item).version with
    | none => []
    | some (version, handler) =>
        (preparedEngine env item (openedManager env item version)).polls handler
          (openedManager env item version).extractContext.1 (workitemReader item).orchestrationName (semver.render version)
  else []

/-- A turn that does not end its execution goes on, and leaves the history of its engine. -/
theorem history_of_unended (turned : Turned env item result engine outcome manager ending)
    (ran : turnOutcome env item = some outcome) (ascending : Ascending item.history)
    (unended : (baseHistory item (turnExecution item).1 ++ (turnRequest env item outcome).historyDelta).any
      (·.isTerminal) = false) :
    result = .continue ∧ baseHistory item (turnExecution item).1 ++ (turnRequest env item outcome).historyDelta =
      engine.baselineHistory ++ engine.historyDelta := by
  obtain ⟨_, _, _, _, _, events⟩ := requestEvents ran ascending
  rw [List.any_append, Bool.or_eq_false_iff] at unended
  have delta := request_of_unended events unended.2
  obtain ⟨_, _, full⟩ := turned.closes
  rw [delta, turned.delta, List.any_append, List.any_append, Bool.or_eq_false_iff, Bool.or_eq_false_iff] at unended
  have goesOn := turned.ends.goesOn_of_unended unended.2.2.2
  refine ⟨goesOn, ?_⟩
  rw [delta, ← turned.outcome_history, turned.recorded.baselineHistory, (prepared_frame env item manager).1]
  rw [turned.ends.goesOn goesOn, List.append_nil] at full
  exact full

/-- A poll of a turn was asked for by the history that it read, or follows it. -/
theorem asked_of_turned (turned : Turned env item result engine outcome manager ending) {record : Poll}
    (member : record ∈ (preparedEngine env item manager).polls handler input orchestrationName orchestrationVersion) :
    (preparedEngine env item manager).evaluates ∧ (baseHistory item (turnExecution item).1).any (·.isTerminal) = false ∧
      ∃ read, baseHistory item (turnExecution item).1 <+: read ∧
        (Replay.Asked (baseHistory item (turnExecution item).1).length read record ∨
          record.isReplaying = false ∧ read.length < record.seen) := by
  obtain ⟨baseline, boundary, _⟩ := prepared_frame env item manager
  rw [HistoryManager.fullHistory, turned.history] at baseline
  rw [HistoryManager.originalLen, turned.history] at boundary
  unfold ReplayEngine.polls at member
  split_ifs at member with evaluates
  · have inside : baseHistory item (turnExecution item).1 <+:
        (preparedEngine env item manager).baselineHistory ++ (preparedEngine env item manager).historyDelta := by
      rw [baseline, List.append_assoc]
      exact List.prefix_append _ _
    have asked := asked_of_evaluate (boundary.trans_le inside.length_le) member
    rw [boundary] at asked
    exact ⟨evaluates, (starts_of_evaluates turned evaluates).1, _, inside, asked⟩
  · cases member

/-- What a turn polls, when its outcome is committed. -/
theorem polled_of_turned (turned : Turned env item result engine outcome manager ending)
    (ran : turnOutcome env item = some outcome) (ascending : Ascending item.history)
    (run : (preparedEngine env item manager).executeOrchestration handler input orchestrationName orchestrationVersion =
      (result, engine)) :
    Polled (baseHistory item (turnExecution item).1)
      (baseHistory item (turnExecution item).1 ++ (turnRequest env item outcome).historyDelta)
      ((preparedEngine env item manager).polls handler input orchestrationName orchestrationVersion) := by
  obtain ⟨baseline, boundary, _⟩ := prepared_frame env item manager
  have read : (preparedEngine env item manager).persistedHistoryLen ≤
      ((preparedEngine env item manager).baselineHistory ++ (preparedEngine env item manager).historyDelta).length := by
    rw [boundary, baseline, HistoryManager.fullHistory, HistoryManager.originalLen, List.length_append, List.length_append]
    omega
  have goesOn : (baseHistory item (turnExecution item).1 ++ (turnRequest env item outcome).historyDelta).any
      (·.isTerminal) = false → (preparedEngine env item manager).evaluates ∧ result = .continue ∧
        baseHistory item (turnExecution item).1 ++ (turnRequest env item outcome).historyDelta =
          engine.baselineHistory ++ engine.historyDelta := by
    intro unended
    obtain ⟨goesOn, whole⟩ := history_of_unended turned ran ascending unended
    refine ⟨?_, goesOn, whole⟩
    by_contra idle
    have ended := @ended_of_idle _ handler input orchestrationName orchestrationVersion (Bool.eq_false_of_not_eq_true idle)
      (by rw [run]; exact .inl goesOn)
    have same := @executeOrchestration_of_idle _ handler input orchestrationName orchestrationVersion
      (Bool.eq_false_of_not_eq_true idle)
    rw [run] at same
    dsimp only at same
    rw [whole, same, ended] at unended
    cases unended
  constructor
  · intro record member
    obtain ⟨evaluates, unended, asked⟩ := asked_of_turned turned member
    refine ⟨unended, ?_, asked⟩
    obtain ⟨_, event, present, _⟩ := starts_of_evaluates turned evaluates
    exact List.ne_nil_of_mem present
  · intro unended record member
    obtain ⟨evaluates, continues, whole⟩ := goesOn unended
    rw [whole]
    exact (polls_of_continue (pendingActions_preparedEngine env item manager) read evaluates run continues).1 record member
  · intro unended
    obtain ⟨evaluates, continues, whole⟩ := goesOn unended
    rw [whole]
    exact .inr (polls_of_continue (pendingActions_preparedEngine env item manager) read evaluates run continues).2

/-- What a turn polls, when an ending is committed in place of its outcome. -/
theorem polled_of_ending {history : List Event} (turned : Turned env item result engine outcome manager ending)
    (some : history ≠ []) (ended : history.any (·.isTerminal)) :
    Polled (baseHistory item (turnExecution item).1) history
      ((preparedEngine env item manager).polls handler input orchestrationName orchestrationVersion) where
  asked _ member := ⟨(asked_of_turned turned member).2.1, some, (asked_of_turned turned member).2.2⟩
  seen_le unended := by
    rw [ended] at unended
    cases unended
  covered unended := by
    rw [ended] at unended
    cases unended

/-- How a turn comes to its polls. -/
inductive PollsTurn (env : RuntimeEnv semver) (item : OrchestrationItem) (outcome : ExecutionOutcome) : List Poll → Prop
  | unexecuted (executed : turnExecuted env item = none) : PollsTurn env item outcome []
  | executed {result : TurnResult} {engine : ReplayEngine} {manager : HistoryManager} {ending : List Event}
      {handler : OrchestrationHandler} {input orchestrationName orchestrationVersion : String}
      (turned : Turned env item result engine outcome manager ending)
      (run : (preparedEngine env item manager).executeOrchestration handler input orchestrationName orchestrationVersion =
        (result, engine)) :
      PollsTurn env item outcome ((preparedEngine env item manager).polls handler input orchestrationName orchestrationVersion)

theorem turnPolls_of_unexecuted (executed : turnExecuted env item = none) : turnPolls env item = [] := by
  unfold turnExecuted at executed
  unfold turnPolls
  split_ifs at executed ⊢ with named
  · rw [Option.map_eq_none_iff.mp executed]
  · rfl

theorem pollsTurn (ran : turnOutcome env item = some outcome) : PollsTurn env item outcome (turnPolls env item) := by
  rcases executed : turnExecuted env item with _ | ⟨result, engine⟩
  · rw [turnPolls_of_unexecuted executed]
    exact .unexecuted executed
  · unfold turnExecuted at executed
    split_ifs at executed with named
    obtain ⟨⟨version, handler⟩, resolved, run⟩ := Option.map_eq_some_iff.mp executed
    obtain ⟨ending, turned⟩ := turned_of_resolved named resolved run ran
    rw [turnPolls, if_pos named, resolved]
    exact .executed turned run

/-- A committed turn. -/
theorem polled_of_turn (ran : turnOutcome env item = some outcome) (ascending : Ascending item.history) :
    Polled (baseHistory item (turnExecution item).1)
      (baseHistory item (turnExecution item).1 ++ (turnRequest env item outcome).historyDelta) (turnPolls env item) := by
  have polls := pollsTurn ran
  generalize turnPolls env item = records at polls ⊢
  cases polls with
  | unexecuted executed =>
    obtain ⟨_, _, _, _, _, events⟩ := requestEvents ran ascending
    obtain rfl := outcome_of_unexecuted executed ran
    apply Polled.nil
    rcases ended : (turnRequest env item { historyMgr := (turnExecution item).2 }).historyDelta.any (·.isTerminal) with _ | _
    · rw [request_of_unended events ended, turnExecution_delta, List.append_nil]
      exact .inl rfl
    · rw [List.any_append, ended, Bool.or_true]
      exact .inr rfl
  | executed turned run => exact polled_of_turned turned ran ascending run

/-- A turn in place of which a failure was committed. -/
theorem polled_of_failure (ran : turnOutcome env item = some outcome) {failed : Event} (ends : failed.kind.isTerminal) :
    Polled (baseHistory item (turnExecution item).1) (baseHistory item (turnExecution item).1 ++ [failed])
      (turnPolls env item) := by
  have ended : (baseHistory item (turnExecution item).1 ++ [failed]).any (·.isTerminal) :=
    List.any_eq_true.mpr ⟨failed, List.mem_append_right _ List.mem_cons_self, ends⟩
  have polls := pollsTurn ran
  generalize turnPolls env item = records at polls ⊢
  cases polls with
  | unexecuted => exact .nil (.inr ended)
  | executed turned run => exact polled_of_ending turned (List.append_ne_nil_of_right_ne_nil _ (List.cons_ne_nil _ _)) ended

end Dispatcher

namespace Completions

open Dispatcher

variable {semver : Semver} {history next : List Event} {journal after : Journal} {turn : Turn semver}

namespace Turn

/-- The polls of a turn; a turn that runs no handler has none. -/
def polls (turn : Turn semver) : List Poll :=
  if (executedOutcome turn.env turn.item turn.attemptCount).isSome then turnPolls turn.env turn.item else []

/-- A turn adds its polls to those of its execution. -/
def record (turn : Turn semver) (journal : Journal) : Option Journal :=
  (turn.step journal.history).map fun history =>
    { history
      polled := (if turn.committed.any (·.executionId == turn.item.executionId) then journal.polled else []) ++ [turn.polls] }

/-- The last event that was persisted before a turn that runs a handler asks for no poll. -/
def Settled (_ : Journal) (turn : Turn semver) : Prop :=
  (executedOutcome turn.env turn.item turn.attemptCount).isSome →
    asksPoll (baseHistory turn.item (turnExecution turn.item).1) = false

end Turn

/-- Turn after turn with their polls, from an instance without events. -/
def polledTurns (semver : Semver) : Lib.TransitionSystem Journal (Turn semver) where
  initial journal := journal = ⟨[], []⟩
  step journal turn after := turn.record journal = some after

theorem polls_of_turned (supported : isSupported turn.env turn.item) (inTime : turn.attemptCount ≤ turn.env.maxAttempts)
    (readable : turn.item.historyError = none)
    (running : isTerminalFor (tempHistoryMgr turn.item) (workitemReader turn.item) = false) {outcome : ExecutionOutcome}
    (ran : turnOutcome turn.env turn.item = some outcome) : turn.polls = turnPolls turn.env turn.item := by
  unfold Turn.polls
  split_ifs with executes
  · rfl
  · rcases executed : turnExecuted turn.env turn.item with _ | ⟨result, engine⟩
    · exact (turnPolls_of_unexecuted executed).symm
    · exact absurd (executedOutcome_isSome supported inTime readable running executed ran) executes

/-- What a turn commits, and what it polls. -/
theorem polled_of_step (ascending : Ascending history) (taken : turn.step history = some next) :
    ∃ request, turn.committed = some request ∧ turn.item.history = history ∧
      next = baseHistory turn.item request.executionId ++ request.historyDelta ∧
      Polled (baseHistory turn.item request.executionId) next turn.polls ∧
      (turn.polls ≠ [] → request.executionId = (turnExecution turn.item).1) := by
  obtain ⟨request, commits, rfl, readable, rfl, supported, committed⟩ := Turn.step_spec taken
  refine ⟨request, commits, rfl, rfl, ?_⟩
  cases committed with
  | answered _ fallback acknowledged answered =>
    cases answered with
    | corrupted exceeded message unreadable =>
      rw [readable] at unreadable
      cases unreadable
    | poisoned exceeded =>
      have idle : turn.polls = [] := by
        unfold Turn.polls executedOutcome
        rw [decide_eq_false (Nat.not_le.mpr exceeded)]
        simp
      rw [idle]
      refine ⟨.nil (.inr ?_), fun some => absurd rfl some⟩
      obtain ⟨events, _⟩ := @failOrchestrationAsPoison_events semver turn.env turn.item turn.attemptCount readable ascending
      rw [List.any_append, Bool.or_eq_true]
      apply Or.inr
      generalize (failOrchestrationAsPoison turn.env turn.item turn.attemptCount).historyDelta = delta at events
      cases events with
      | recorded _ failed kind | new _ _ failed _ kind => simp [Event.isTerminal, kind, EventKind.isTerminal]
    | ended inTime _ terminal =>
      have idle : turn.polls = [] := by
        unfold Turn.polls executedOutcome
        rw [terminal]
        simp
      rw [idle]
      refine ⟨.nil (.inl ?_), fun some => absurd rfl some⟩
      rw [List.append_nil]
    | turned inTime _ running outcome ran =>
      rw [polls_of_turned supported inTime readable running ran]
      exact ⟨polled_of_turn ran ascending, fun _ => rfl⟩
  | failed error refused inTime running outcome ran =>
    rw [polls_of_turned supported inTime readable running ran]
    obtain ⟨failed, kind, delta, _⟩ := @failureCommit_events _ turn.env turn.item (turnExecution turn.item).1 error ascending
    rw [delta]
    refine ⟨polled_of_failure ran ?_, fun _ => rfl⟩
    rw [kind]
    rfl

/-- A recorded turn is a turn. -/
theorem reachable_of_polled {guard : Journal → Turn semver → Prop} (reached : (polledTurns semver).Reachable guard journal) :
    (newTurns semver).Reachable (fun _ _ => True) journal.history := by
  induction reached with
  | initial start =>
    rw [start]
    exact .initial rfl
  | step _ _ taken ih =>
    obtain ⟨history, stepped, rfl⟩ := Option.map_eq_some_iff.mp taken
    exact .step ih trivial stepped

theorem traced_step (traced : journal.Traced) (kept : Kept journal.history) (settled : turn.Settled journal)
    (taken : turn.record journal = some after) : after.Traced := by
  obtain ⟨history, stepped, rfl⟩ := Option.map_eq_some_iff.mp taken
  obtain ⟨request, commits, read, rfl, polls, execution⟩ := polled_of_step kept.ascending stepped
  have base : Journal.Traced ⟨baseHistory turn.item request.executionId,
      if turn.committed.any (·.executionId == turn.item.executionId) then journal.polled else []⟩ := by
    rw [commits, Option.any_some, baseHistory]
    rcases eq_or_ne request.executionId turn.item.executionId with same | other
    · rw [if_pos same, if_pos (beq_iff_eq.mpr same), read]
      exact traced
    · rw [if_neg other, if_neg (by simpa using other)]
      exact .nil
  apply base.append (List.prefix_append _ _) polls
  intro some
  rw [execution some]
  apply settled
  unfold Turn.polls at some
  split_ifs at some with executes
  · exact executes
  · exact absurd rfl some

inductive TwoWaits where
  | new
  | first (one other : Nat)
  | second (other : Nat)

def awaitSecond (other : Nat) : Script TwoWaits :=
  .call (.pollFuture other) fun
    | none => .suspend (.second other)
    | some _ => .finish (.ok "done")

def awaitFirst (one other : Nat) : Script TwoWaits :=
  .call (.pollFuture one) fun
    | none => .suspend (.first one other)
    | some _ => awaitSecond other

def twoWaitsHandler : OrchestrationHandler where
  State := TwoWaits
  invoke _ := .new
  poll
    | .new => .call (.scheduleActivity "one" "" none) fun one => .call (.scheduleActivity "other" "" none) (awaitFirst one)
    | .first one other => awaitFirst one other
    | .second other => awaitSecond other

/-- Deliver one batch after the other, as long as the turns pass a test, and record their polls. -/
def recorded (test : Turn textSemver → Bool) (journal : Journal) : List (List WorkItem) → Option Journal
  | [] => some journal
  | messages :: rest =>
      let turn := { turnOver journal.history messages with
        env := VersionPinning.registeredEnv fun name => if name = "orch" then some twoWaitsHandler else none }
      if test turn then (turn.record journal).bind (recorded test · rest) else none

theorem reachable_of_recorded {test : Turn textSemver → Bool} {guard : Journal → Turn textSemver → Prop}
    (sound : ∀ journal turn, test turn → guard journal turn) {batches : List (List WorkItem)} {journal last : Journal}
    (reached : (polledTurns textSemver).Reachable guard journal) (ran : recorded test journal batches = some last) :
    (polledTurns textSemver).Reachable guard last := by
  induction batches generalizing journal with
  | nil =>
    cases ran
    exact reached
  | cons messages rest ih =>
    unfold recorded at ran
    dsimp only at ran
    split_ifs at ran with passes
    obtain ⟨next, taken, later⟩ := Option.bind_eq_some_iff.mp ran
    exact ih (.step reached (sound journal _ passes) taken) later

/-- The last persisted event asks for no poll. -/
def settles (turn : Turn textSemver) : Bool := !asksPoll (baseHistory turn.item (turnExecution turn.item).1)

end Completions

end Duroxide
