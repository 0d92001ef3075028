import DrainFabric.Engine.Dispatch
import DrainFabric.Engine.Run
import DrainFabric.Wire

/-!
# The controller server

Sessions greet the controller with a role and then send frames. `handleFrame` is the
dispatcher: which frame leads to which operation of the engine, with what, and what is
answered. Frames of different sessions and passes interleave in any order (`step`); a
frame is received from a connection that is not being closed.

What the transport does is left open: a push reaches the sessions it reaches. The
bodies of the answers to queries, which nothing here reads, are left out of `Reply`.
-/

namespace DrainFabric

open Lib

/-- `SessionRole`. -/
inductive SessionRole
  | client | agent
  deriving DecidableEq, Repr

namespace SessionRole

/-- `session_role_from_string`. -/
def fromString (text : String) : Option SessionRole :=
  match text with
  | "client" => some .client
  | "agent" => some .agent
  | _ => none

end SessionRole

structure Frame where
  type : MessageType
  sequence : Nat := 0
  payload : JsonValue

structure Connection where
  node : NodeId := ""
  role : SessionRole := .client
  greeted : Bool := false
  closing : Bool := false
  authority : AuthorityId := 0
  deriving DecidableEq, Repr

/-- What is sent back on the session of a frame. -/
inductive Reply
  | welcome (token : AuthorityToken) (role : SessionRole) (incarnation : IncarnationId)
      (epoch : Epoch)
  | failure (code : ErrorCode) (message : String)
  | drainResponse (set : DrainSetId) (drains : List DrainId)
  | statusResponse (drains : List DrainRecord)
  | obligationQueryResponse (obligations : List Obligation)
  | obligationAdmitResponse (id : ObligationId)
  | evidenceResponse (seq : EvidenceSeq)
  | explainResponse (drain : DrainId)
  /-- An answer without a body of its own. -/
  | done (type : MessageType)

abbrev SessionId := Nat

/-- The state of a `ControllerServer` and of the engine it serves. -/
structure Server where
  engine : Engine
  connections : OrdMap SessionId Connection := Table.empty Prod.fst
  authorityValidity : Duration := 3600000000000
  stopping : Bool := false
  servedRequests : Nat := 0
  rejectedFrames : Nat := 0

namespace Server

def setConnection (s : Server) (id : SessionId) (c : Connection) : Server :=
  { s with connections := OrdMap.set s.connections id c }

/-- `parse_node`. -/
def parseNode (payload : JsonValue) : Result NodeId :=
  optionalSlug payload "node" .malformedIdentity "malformed node identity"

/-- `parse_targets`. -/
def parseTargets (payload : JsonValue) : Result (List DrainTarget) := do
  let items ← orFail (payload.findArray "targets") .invalidArgument
    "drain request must list at least one target"
  rejectIf (items.length = 0) .invalidArgument "drain request must list at least one target"
  rejectIf (items.length > hardMaxTargetsPerRequest) .boundsExceeded
    "drain request exceeds the maximum target count"
  items.mapM DrainTarget.fromJson

/-- `resolve_authority`: the authority of the session, or the one presented. -/
def resolveAuthority (s : Server) (c : Connection) (payload : JsonValue) (now : TimePoint) :
    Result AuthorityId :=
  match payload.find "authority" with
  | none =>
    if c.authority = 0 then fail .authorityRequired "this session has no authority"
    else .ok c.authority
  | some presented => do
    let token ← AuthorityToken.fromPresentationJson presented
    s.engine.authority.validate token now
    return token.id

/-- `push_to_agents`: at least one greeted agent session is reached. -/
def pushToAgents (s : Server) (reaches : SessionId → Bool) : Status :=
  if s.connections.toList.any (fun p => p.2.role == .agent && p.2.greeted && reaches p.1) then .ok ()
  else fail .transportError "no agent session is available to receive the request"

/-- The server as the sink of its engine. -/
def sink (s : Server) (reaches : SessionId → Bool) : EvacuationSink where
  onEvacuationRequest _ := s.pushToAgents reaches
  onRestorationRequest _ := .ok ()
  onAdmissionReopen _ := s.pushToAgents reaches

/-- The request of a `DrainRequest` frame. -/
def parseRequest (s : Server) (c : Connection) (payload : JsonValue) (checkedAt : TimePoint) :
    Result DrainRequest := do
  let targets ← parseTargets payload
  let node ← parseNode payload
  let authority ← s.resolveAuthority c payload checkedAt
  return { targets, reason := payload.getString "reason", authority, node,
           nonce := payload.getUint "nonce" }

/-- The obligation of an `ObligationAdmit` frame, and the authority it comes with. -/
def parseAdmission (s : Server) (c : Connection) (payload : JsonValue) (checkedAt : TimePoint) :
    Result (Obligation × AuthorityId) := do
  let body ← orFail (payload.find "obligation") .invalidArgument
    "admission frame lacks an obligation body"
  let obligation ← Obligation.fromJson body
  let authority ← s.resolveAuthority c payload checkedAt
  return (obligation, authority)

/-- The report of an `ObligationReport` frame. No authority is resolved. -/
def parseReport (payload : JsonValue) : Result ObligationReport := do
  let body ← orFail (payload.find "report") .invalidArgument
    "obligation report frame lacks a report body"
  let next ← orFail (ObligationState.fromString (body.getString "next")) .invalidArgument
    "obligation report carries an unknown state"
  return { obligation := body.getUint "obligation",
           expectedRevision := body.getUint "expected_revision", next,
           evidence := body.getUint "evidence", drain := body.getUint "drain",
           generation := body.getUint "generation", note := body.getString "note" }

/-- The record of an `EvidenceReport` frame. No authority is resolved. -/
def parseEvidence (payload : JsonValue) : Result Evidence := do
  let body ← orFail (payload.find "evidence") .invalidArgument
    "evidence frame lacks an evidence body"
  Evidence.fromJson body

/-- The engine after an operation, and the answer to its result. -/
def answer {α : Type} (s : Server) (outcome : Engine × Result α) (reply : Engine → α → Reply) :
    Server × Reply :=
  match outcome with
  | (engine, .error err) => ({ s with engine }, .failure err.code err.message)
  | (engine, .ok value) => ({ s with engine }, reply engine value)

/-- The greeting: the session gets its role, its node and an authority of its own. -/
def handleHello (s : Server) (id : SessionId) (c : Connection) (payload : JsonValue)
    (now : TimePoint) : Server × Reply :=
  let closed := s.setConnection id { c with closing := true }
  if payload.getUint "protocol_version" ≠ wireProtocolVersion then
    (closed, .failure .protocolError "wire protocol version mismatch")
  else
    match SessionRole.fromString (payload.getString "role" "client") with
    | none => (closed, .failure .protocolError "unknown session role")
    | some role =>
      match parseNode payload with
      | .error err => (closed, .failure .malformedIdentity err.message)
      | .ok node =>
        match s.engine.issueAuthority "" s.authorityValidity now with
        | (engine, .error err) =>
          ({ closed with engine }, .failure err.code err.message)
        | (engine, .ok token) =>
          ({ s with engine }.setConnection id
            { c with role, node, authority := token.id, greeted := true },
            .welcome token role engine.authority.incarnation engine.authority.epoch)

/-- The switch of `handle_frame`. The authority of a frame is resolved at `checkedAt`, and
the operation is called at `now`. -/
def serve (s : Server) (id : SessionId) (c : Connection) (type : MessageType)
    (payload : JsonValue) (reaches : SessionId → Bool) (checkedAt now : TimePoint) :
    Server × Reply :=
  match type with
  | .hello => s.handleHello id c payload now
  | .drainRequest =>
    match s.parseRequest c payload checkedAt with
    | .error err => (s, .failure err.code err.message)
    | .ok request =>
      s.answer (s.engine.requestDrainSet request now) (fun engine set =>
        .drainResponse set ((engine.sets.find? set).elim [] DrainSet.members))
  | .statusRequest =>
    if payload.getUint "drain" ≠ 0 then
      match s.engine.drain (payload.getUint "drain") with
      | none => (s, .failure .notFound "no such drain")
      | some record => (s, .statusResponse [record])
    else (s, .statusResponse s.engine.drains.toList)
  | .cancelRequest =>
    match s.resolveAuthority c payload checkedAt with
    | .error err => (s, .failure err.code err.message)
    | .ok authority =>
      s.answer (s.engine.cancelDrain (payload.getUint "drain") authority
        (payload.getString "reason") now) (fun _ _ => .done .cancelResponse)
  | .restoreRequest =>
    match s.resolveAuthority c payload checkedAt with
    | .error err => (s, .failure err.code err.message)
    | .ok authority =>
      s.answer (s.engine.restoreDrainDispatched (some (s.sink reaches))
        (payload.getUint "drain") authority (payload.getString "reason") now)
        (fun _ _ => .done .restoreResponse)
  | .explainRequest => (s, .explainResponse (payload.getUint "drain"))
  | .obligationQuery =>
    match payload.find "target" with
    | none => (s, .obligationQueryResponse s.engine.obligations.all)
    | some value =>
      match DrainTarget.fromJson value with
      | .error err => (s, .failure err.code err.message)
      | .ok target => (s, .obligationQueryResponse (s.engine.outstandingFor target))
  | .obligationAdmit =>
    match s.parseAdmission c payload checkedAt with
    | .error err => (s, .failure err.code err.message)
    | .ok (obligation, authority) =>
      s.answer (s.engine.admitObligation obligation (payload.getUint "generation") authority now)
        (fun _ stored => .obligationAdmitResponse stored.id)
  | .obligationReport =>
    match parseReport payload with
    | .error err => (s, .failure err.code err.message)
    | .ok report =>
      s.answer (s.engine.reportObligation report now)
        (fun _ _ => .done .obligationReportResponse)
  | .evidenceReport =>
    match parseEvidence payload with
    | .error err => (s, .failure err.code err.message)
    | .ok evidence =>
      s.answer (s.engine.recordEvidence evidence now)
        (fun _ recorded => .evidenceResponse recorded.seq)
  | .auditRequest => (s, .done .auditResponse)
  | .shutdown => ({ s with stopping := true }, .done .shutdownResponse)
  | _ => ({ s with rejectedFrames := s.rejectedFrames + 1 },
      .failure .protocolError "message type is not accepted by a controller session")

/-- `handle_frame`. The greeting is not counted as served work. -/
def handleFrame (s : Server) (id : SessionId) (c : Connection) (frame : Frame)
    (reaches : SessionId → Bool) (checkedAt now : TimePoint) : Server × Reply :=
  if c.greeted = false ∧ frame.type ≠ .hello then
    ({ s with rejectedFrames := s.rejectedFrames + 1 }.setConnection id { c with closing := true },
      .failure .protocolError "the first frame on a session must be a hello")
  else
    let served := if frame.type = .hello then s.servedRequests else s.servedRequests + 1
    { s with servedRequests := served }.serve id c frame.type frame.payload reaches checkedAt now

end Server

/-- What can happen to the server. -/
inductive ServerEvent
  /-- A connection is accepted and registered under a new number. -/
  | accepted (session : SessionId)
  /-- A frame is received on a session and handled. -/
  | received (session : SessionId) (frame : Frame) (reaches : SessionId → Bool)
      (checkedAt now : TimePoint)
  | advanced (now : TimePoint)
  /-- Connections that are being closed are dropped. -/
  | reaped

namespace Server

/-- The server after one event. -/
def step (s : Server) : ServerEvent → Server
  | .accepted session =>
    if (OrdMap.get? s.connections session).isSome then s else s.setConnection session {}
  | .received session frame reaches checkedAt now =>
    match OrdMap.get? s.connections session with
    | none => s
    | some c =>
      if c.closing then s else (s.handleFrame session c frame reaches checkedAt now).1
  | .advanced now => { s with engine := (s.engine.advance now).1 }
  | .reaped =>
    { s with
      connections := (s.connections.toList.filter (fun p => p.2.closing)).foldl
        (fun connections p => connections.erase p.1) s.connections }

/-! ### What a frame asks of the engine -/

/-- The operations a frame of each type can lead to. -/
inductive Asks : MessageType → Call → Prop
  | hello (validity : Duration) (now : TimePoint) : Asks .hello (.issueAuthority "" validity now)
  | drainRequest (request : DrainRequest) (now : TimePoint) :
      Asks .drainRequest (.requestDrainSet request now)
  | cancelRequest (id : DrainId) (authority : AuthorityId) (reason : String) (now : TimePoint) :
      Asks .cancelRequest (.cancelDrain id authority reason now)
  | restoreRequest (id : DrainId) (authority : AuthorityId) (reason : String) (now : TimePoint) :
      Asks .restoreRequest (.restoreDrain id authority reason now)
  | obligationAdmit (draft : Obligation) (presented : Generation) (authority : AuthorityId)
      (now : TimePoint) : Asks .obligationAdmit (.admitObligation draft presented authority now)
  | obligationReport (report : ObligationReport) (now : TimePoint) :
      Asks .obligationReport (.reportObligation report now)
  | evidenceReport (draft : Evidence) (now : TimePoint) :
      Asks .evidenceReport (.recordEvidence draft now)

theorem engine_answer {α : Type} (s : Server) (outcome : Engine × Result α)
    (reply : Engine → α → Reply) : (s.answer outcome reply).1.engine = outcome.1 := by
  rcases outcome with ⟨engine, err | value⟩ <;> rfl

theorem engine_handleHello (s : Server) (id : SessionId) (c : Connection) (payload : JsonValue)
    (now : TimePoint) :
    (s.handleHello id c payload now).1.engine = s.engine ∨
      (s.handleHello id c payload now).1.engine =
        s.engine.apply (.issueAuthority "" s.authorityValidity now) := by
  simp only [handleHello]
  split_ifs
  · exact Or.inl rfl
  · cases SessionRole.fromString (payload.getString "role" "client") with
    | none => exact Or.inl rfl
    | some role =>
      cases parseNode payload with
      | error err => exact Or.inl rfl
      | ok node =>
        dsimp only
        refine Or.inr ?_
        rcases hissue : s.engine.issueAuthority "" s.authorityValidity now with
          ⟨engine, err | token⟩
        · rw [Engine.apply, hissue]
        · rw [Engine.apply, hissue]
          rfl

theorem engine_restoreDispatched (e : Engine) (sink : Option EvacuationSink) (id : DrainId)
    (authority : AuthorityId) (reason : String) (now : TimePoint) :
    (e.restoreDrainDispatched sink id authority reason now).1 =
      e.apply (.restoreDrain id authority reason now) := by
  rw [Engine.apply, Engine.restoreDrainDispatched]
  rcases e.restoreDrain id authority reason now with ⟨e', err | actions⟩ <;> rfl

/-- A frame leads to at most one operation. -/
theorem engine_serve (s : Server) (id : SessionId) (c : Connection) (type : MessageType)
    (payload : JsonValue) (reaches : SessionId → Bool) (checkedAt now : TimePoint) :
    (s.serve id c type payload reaches checkedAt now).1.engine = s.engine ∨
      ∃ call, Asks type call ∧
        (s.serve id c type payload reaches checkedAt now).1.engine = s.engine.apply call := by
  cases type with
  | hello =>
    rcases engine_handleHello s id c payload now with hsame | hissued
    · exact Or.inl hsame
    · exact Or.inr ⟨_, .hello _ _, hissued⟩
  | drainRequest =>
    simp only [serve]
    cases s.parseRequest c payload checkedAt with
    | error err => exact Or.inl rfl
    | ok request => exact Or.inr ⟨_, .drainRequest request now, engine_answer _ _ _⟩
  | statusRequest =>
    simp only [serve]
    split_ifs
    · cases s.engine.drain (payload.getUint "drain") <;> exact Or.inl rfl
    · exact Or.inl rfl
  | cancelRequest =>
    simp only [serve]
    cases s.resolveAuthority c payload checkedAt with
    | error err => exact Or.inl rfl
    | ok authority => exact Or.inr ⟨_, .cancelRequest _ authority _ now, engine_answer _ _ _⟩
  | restoreRequest =>
    simp only [serve]
    cases s.resolveAuthority c payload checkedAt with
    | error err => exact Or.inl rfl
    | ok authority =>
      refine Or.inr ⟨_, .restoreRequest (payload.getUint "drain") authority
        (payload.getString "reason") now, ?_⟩
      rw [engine_answer, engine_restoreDispatched]
  | obligationQuery =>
    simp only [serve]
    cases payload.find "target" with
    | none => exact Or.inl rfl
    | some value =>
      dsimp only
      cases DrainTarget.fromJson value <;> exact Or.inl rfl
  | obligationAdmit =>
    simp only [serve]
    cases s.parseAdmission c payload checkedAt with
    | error err => exact Or.inl rfl
    | ok parsed => exact Or.inr ⟨_, .obligationAdmit parsed.1 _ parsed.2 now, engine_answer _ _ _⟩
  | obligationReport =>
    simp only [serve]
    cases parseReport payload with
    | error err => exact Or.inl rfl
    | ok report => exact Or.inr ⟨_, .obligationReport report now, engine_answer _ _ _⟩
  | evidenceReport =>
    simp only [serve]
    cases parseEvidence payload with
    | error err => exact Or.inl rfl
    | ok draft => exact Or.inr ⟨_, .evidenceReport draft now, engine_answer _ _ _⟩
  | _ => exact Or.inl rfl

theorem engine_handleFrame (s : Server) (id : SessionId) (c : Connection) (frame : Frame)
    (reaches : SessionId → Bool) (checkedAt now : TimePoint) :
    (s.handleFrame id c frame reaches checkedAt now).1.engine = s.engine ∨
      ∃ call, Asks frame.type call ∧
        (s.handleFrame id c frame reaches checkedAt now).1.engine = s.engine.apply call := by
  rw [handleFrame]
  by_cases hgreeted : c.greeted = false ∧ frame.type ≠ .hello
  · rw [if_pos hgreeted]
    exact Or.inl rfl
  · rw [if_neg hgreeted]
    exact engine_serve _ id c frame.type frame.payload reaches checkedAt now

end Server

end DrainFabric
