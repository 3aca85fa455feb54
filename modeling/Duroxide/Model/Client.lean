import Duroxide.Model.History

/-! # The client's view of an orchestration

The status of an orchestration is read off its history from the end: the last completion or failure,
else whether it ever started. The custom status, which comes from another table, is left out.
-/

namespace Duroxide

inductive OrchestrationStatus where
  | notFound
  | running
  | completed (output : String)
  | failed (details : ErrorDetails)
deriving DecidableEq, Repr

namespace Client

/-- The status that a completion or a failure stands for. -/
def endedStatus : EventKind → Option OrchestrationStatus
  | .orchestrationCompleted output => some (.completed output)
  | .orchestrationFailed details => some (.failed details)
  | _ => none

/-- `Client::get_orchestration_status` on the history that the provider reads. -/
def getOrchestrationStatus (hist : List Event) : OrchestrationStatus :=
  match hist.reverse.findSome? (endedStatus ·.kind) with
  | some status => status
  | none => if hist.any (·.kind.isStarted) then .running else .notFound

end Client

end Duroxide
