import DrainFabric.Engine.Calls

/-!
# Dispatch

The requests an operation collects are handed to the sink once the engine is
unlocked. The sink answers each of them, and the operation returns the last refusal,
after its own writes have been made.
-/

namespace DrainFabric

open Lib

/-- `EvacuationSink`: how the adjacent runtimes answer. -/
structure EvacuationSink where
  onEvacuationRequest : EvacuationRequest → Status
  onRestorationRequest : RestorationRequest → Status
  onAdmissionReopen : AdmissionReopenRequest → Status

namespace EvacuationSink

/-- One round of `dispatch`: `if (!sent.ok()) overall = sent;` -/
def deliver {α : Type} (send : α → Status) (overall : Status) (requests : List α) : Status :=
  requests.foldl (fun overall request =>
    match send request with
    | .ok _ => overall
    | .error err => .error err) overall

/-- Delivering fails if it had failed before or a request is refused. -/
theorem deliver_eq_ok_iff {α : Type} {send : α → Status} {overall : Status} {requests : List α} :
    deliver send overall requests = .ok () ↔
      overall = .ok () ∧ ∀ request ∈ requests, send request = .ok () := by
  induction requests generalizing overall with
  | nil => simp [deliver]
  | cons request rest ih =>
    show deliver send _ rest = .ok () ↔ _
    rw [ih, List.forall_mem_cons]
    cases hsend : send request with
    | ok u => simp [hsend]
    | error err => simp [hsend]

end EvacuationSink

namespace Engine

/-- `dispatch`. Without a sink every request is dropped. -/
def dispatch (sink : Option EvacuationSink) (actions : PendingActions) : Status :=
  match sink with
  | none => .ok ()
  | some sink =>
    let overall := EvacuationSink.deliver sink.onEvacuationRequest (.ok ()) actions.evacuations
    let overall := EvacuationSink.deliver sink.onRestorationRequest overall actions.restorations
    EvacuationSink.deliver sink.onAdmissionReopen overall actions.reopens

/-- `restore_drain`, with the dispatch at its end. -/
def restoreDrainDispatched (e : Engine) (sink : Option EvacuationSink) (id : DrainId)
    (authority : AuthorityId) (reason : String) (now : TimePoint) : Engine × Status :=
  match e.restoreDrain id authority reason now with
  | (e, .error err) => (e, .error err)
  | (e, .ok actions) => (e, dispatch sink actions)

end Engine

end DrainFabric
