import DrainFabric.Server
import DrainFabric.Engine.Writes
import DrainFabric.Ledger

/-!
# Roles on the wire

Agents report what became of obligations; plain clients may only observe and request.
The dispatcher does not look at the role of a session: a client that sends a report or
evidence is served as an agent is. Every other frame leaves obligations and ledger to
the agents (`World.Unreported`): admission adds an obligation and changes none, and no
other operation a frame can ask for writes to either table.
-/

namespace DrainFabric

open Lib Engine

variable {w w' : World} {c : Call}

/-- The operations that report. -/
def Call.isReport : Call → Bool
  | .reportObligation _ _ | .recordEvidence _ _ => true
  | _ => false

namespace World

/-- Nothing was reported in between: every obligation is in the state and the revision it
was in, with the release evidence it had, and the ledger has no new record. -/
structure Unreported (w w' : World) : Prop where
  obligations : ∀ id o, w.obligations.find id = some o →
    ∃ o', w'.obligations.find id = some o' ∧ o'.state = o.state ∧
      o'.releaseEvidence = o.releaseEvidence ∧ o'.revision = o.revision
  ledger : ∀ key seq e', w'.evidence.find key seq = some e' →
    ∃ e, w.evidence.find key seq = some e

theorem Unreported.refl (w : World) : w.Unreported w :=
  ⟨fun _ o ho => ⟨o, ho, rfl, rfl, rfl⟩, fun _ _ e he => ⟨e, he⟩⟩

theorem Unreported.trans {w'' : World} (h : w.Unreported w') (h' : w'.Unreported w'') :
    w.Unreported w'' where
  obligations id o ho := by
    obtain ⟨o', ho', hstate, hproof, hrevision⟩ := h.obligations id o ho
    obtain ⟨o'', ho'', hstate', hproof', hrevision'⟩ := h'.obligations id o' ho'
    exact ⟨o'', ho'', hstate'.trans hstate, hproof'.trans hproof, hrevision'.trans hrevision⟩
  ledger key seq e'' he'' := by
    obtain ⟨e', he'⟩ := h'.ledger key seq e'' he''
    exact h.ledger key seq e' he'

/-- An operation that writes to neither table. -/
theorem unreported_of_eq (hobligations : w'.obligations.obligations =
    w.obligations.obligations) (hevidence : w'.evidence.records = w.evidence.records) :
    w.Unreported w' where
  obligations id o ho := by
    refine ⟨o, ?_, rfl, rfl, rfl⟩
    rwa [ObligationTable.find, hobligations]
  ledger key seq e he := by
    rw [EvidenceLedger.find, hevidence] at he
    exact ⟨e, he⟩

/-- Admission files an obligation under an id that was free. -/
theorem unreported_insert (w : World) (draft : Obligation) :
    w.Unreported (w.withObligations (w.obligations.insert draft).1) := by
  rcases hinsert : w.obligations.insert draft with ⟨obligations, err | stored⟩
  · exact unreported_of_eq (ObligationTable.insert_error hinsert) rfl
  · obtain ⟨hfree, -, -, rfl⟩ := ObligationTable.insert_ok hinsert
    refine ⟨fun id o ho => ⟨o, ?_, rfl, rfl, rfl⟩, fun _ _ e he => ⟨e, he⟩⟩
    have hother : stored.id ≠ id := by
      rintro rfl
      simp [hfree] at ho
    exact (ObligationTable.find_store w.obligations stored id).trans (by rw [if_neg hother, ho])

theorem unreported_write (hc : c.isReport = false) (hwrite : Write w (.call c) w') :
    w.Unreported w' := by
  cases hwrite with
  | report => cases hc
  | evidence => cases hc
  | line hinstall =>
    refine ⟨fun _ o ho => ⟨o, ho, rfl, rfl, rfl⟩, fun key seq e' he' => ?_⟩
    change w.evidence.quarantineAll.find key seq = some e' at he'
    rw [EvidenceLedger.find_quarantineAll, Option.map_eq_some_iff] at he'
    obtain ⟨e, he, -⟩ := he'
    exact ⟨e, he⟩
  | admission => exact unreported_insert w _
  | attestation hattest =>
    refine ⟨fun _ o ho => ⟨o, ho, rfl, rfl, rfl⟩, fun key seq e' he' => ?_⟩
    rcases EvidenceLedger.find_attest hattest he' with he | ⟨e, he, -⟩
    · exact ⟨e', he⟩
    · exact ⟨e, he⟩
  | _ => exact unreported_of_eq rfl rfl

end World

open World

/-- Only the two reporting operations write to an obligation or add to the ledger. -/
theorem unreported_apply (e : Engine) (hc : c.isReport = false) :
    e.toWorld.Unreported (e.apply c).toWorld :=
  (apply_writes e c).invariant (P := e.toWorld.Unreported)
    (fun _ _ hwrite hkept => hkept.trans (unreported_write hc hwrite)) (.refl _)

namespace Server

/-- The session is greeted, and as a client. -/
def isClient (s : Server) (session : SessionId) : Bool :=
  (OrdMap.get? s.connections session).any (fun c => c.greeted && c.role == .client)

/-- After the events of `past`, a frame arrives on a session that was greeted as a client at
some point. A session may greet again, as an agent; its frames are a client's all the same. -/
def fromClient (s : Server) (past : List ServerEvent) : ServerEvent → Bool
  | .received session _ _ _ _ => past.inits.any (fun start => (run step s start).isClient session)
  | _ => false

end Server

/-- The event is a frame that reports an obligation or evidence. -/
def ServerEvent.isReport : ServerEvent → Bool
  | .received _ frame _ _ _ =>
    frame.type == .obligationReport || frame.type == .evidenceReport
  | _ => false

/-- Clients only observe and request. -/
def ClientsAsk (s : Server) (events : List ServerEvent) : Prop :=
  ∀ earlier ev later, events = earlier ++ ev :: later → s.fromClient earlier ev = true →
    ev.isReport = false

/-- A frame of another type asks for no report. -/
theorem not_isReport_of_asks {type : MessageType} (hasks : Server.Asks type c)
    (htype : (type == .obligationReport || type == .evidenceReport) = false) :
    c.isReport = false := by
  cases hasks with
  | obligationReport | evidenceReport => cases htype
  | _ => rfl

theorem unreported_step {s : Server} {session : SessionId} {frame : Frame}
    {reaches : SessionId → Bool} {checkedAt now : TimePoint}
    (hframe : (ServerEvent.received session frame reaches checkedAt now).isReport = false) :
    s.engine.toWorld.Unreported
      (s.step (.received session frame reaches checkedAt now)).engine.toWorld := by
  simp only [Server.step]
  cases OrdMap.get? s.connections session with
  | none => exact .refl _
  | some c =>
    dsimp only
    split_ifs with hclosing
    · exact .refl _
    · rcases s.engine_handleFrame session c frame reaches checkedAt now with
        hsame | ⟨call, hasks, hcall⟩
      · rw [hsame]
        exact .refl _
      · rw [hcall]
        exact unreported_apply s.engine (not_isReport_of_asks hasks hframe)

/-- In every run of the server in which no session that was ever greeted as a client sends a
report or evidence, whatever agents and passes do in between: no frame of such a session
changes the state, the release evidence or the revision of an obligation, and none adds a
record to the ledger. -/
theorem clients_leave_reports_to_agents {s : Server} {events : List ServerEvent}
    (hrun : ClientsAsk s events) {earlier later : List ServerEvent} {ev : ServerEvent}
    (hsplit : events = earlier ++ ev :: later) (hclient : s.fromClient earlier ev = true) :
    (run Server.step s earlier).engine.toWorld.Unreported
      (run Server.step s (earlier ++ [ev])).engine.toWorld := by
  have hframe : ev.isReport = false := hrun earlier ev later hsplit hclient
  rw [run_concat]
  cases ev with
  | received session frame reaches checkedAt now => exact unreported_step hframe
  | _ => cases hclient

namespace OnePort

/-- The controller while the drain of the port evacuates the flow. -/
def controller : Server where
  engine := run perform (Engine.init {})
    ((setup 1 ++ [admitFlow 1]).map .call ++ List.replicate 3 (.advance 1))

/-- A frame received at once, with nobody to push to. -/
def sends (session : SessionId) (type : MessageType) (payload : List (String × JsonValue)) :
    ServerEvent :=
  .received session { type, payload := .object payload } (fun _ => false) 1 1

/-- The session greets. -/
def greets (session : SessionId) (role : String) : ServerEvent :=
  sends session .hello [("protocol_version", .uint 1), ("role", .string role)]

/-- A session is accepted and greets as a client. -/
def clientGreets (session : SessionId) : List ServerEvent :=
  [.accepted session, greets session "client"]

/-- The client asks for the drain of the port to be cancelled. -/
def clientCancels (session : SessionId) : ServerEvent :=
  sends session .cancelRequest [("drain", .uint 1), ("reason", .string "not now")]

/-- The client records that the flow was released. -/
def clientProves (session : SessionId) : ServerEvent :=
  sends session .evidenceReport [("evidence", Evidence.toJson
    { seq := 1, key := { kind := .obligationReleased, drain := 1, obligation := 1 }
      generation := 1, epoch := 1, producer := 1, observedAt := 1 })]

/-- The client reports that the flow was released. -/
def clientReleases (session : SessionId) : ServerEvent :=
  sends session .obligationReport [("report", .object
    [("obligation", .uint 1), ("expected_revision", .uint 1), ("next", .string "released"),
      ("evidence", .uint 1), ("drain", .uint 1), ("generation", .uint 1)])]

end OnePort

open OnePort in
/-- A client that greets again as an agent and cancels the drain, which stops it. -/
theorem clients_leave_reports_to_agents_onePort :
    (((run Server.step controller (clientGreets 1 ++ [greets 1 "agent", clientCancels 1])
        ).engine.drain 1).any (fun r => r.state = .cancelled) = true) ∧
      (run Server.step controller (clientGreets 1 ++ [greets 1 "agent"])).engine.toWorld.Unreported
        (run Server.step controller (clientGreets 1 ++ [greets 1 "agent", clientCancels 1])
          ).engine.toWorld := by
  have hquiet : ∀ ev ∈ clientGreets 1 ++ [greets 1 "agent", clientCancels 1],
      ev.isReport = false := by
    decide
  refine ⟨by decide +kernel, clients_leave_reports_to_agents (s := controller)
    (fun earlier ev later hsplit _ => hquiet ev ?_)
    (show clientGreets 1 ++ [greets 1 "agent", clientCancels 1] =
      (clientGreets 1 ++ [greets 1 "agent"]) ++ clientCancels 1 :: [] from rfl)
    (by decide +kernel)⟩
  rw [hsplit]
  exact List.mem_append_right _ List.mem_cons_self

open OnePort in
/-- A session greeted as a client adds a record to the ledger, and releases the flow. -/
theorem client_releases_flow :
    controller.fromClient (clientGreets 1) (clientProves 1) = true ∧
      (run Server.step controller (clientGreets 1)).engine.evidence.records.size = 0 ∧
      (run Server.step controller (clientGreets 1 ++ [clientProves 1])).engine.evidence.records.size
        = 1 ∧
      controller.fromClient (clientGreets 1 ++ [clientProves 1]) (clientReleases 1) = true ∧
      ((run Server.step controller (clientGreets 1 ++ [clientProves 1])).engine.obligations.find
        1).map Obligation.state = some .admitted ∧
      ((run Server.step controller (clientGreets 1 ++ [clientProves 1, clientReleases 1])
        ).engine.obligations.find 1).map Obligation.state = some .released := by
  decide +kernel

end DrainFabric
