import Punchgate.Session.Safety

/-!
# The handshake of a session

`handleTunnel` and `clientTunnelSession` take a stream as a whole. In a session the two ends get
their streams in pieces, from a writer that may be slow or gone. They fail with the errors that those
functions give for what is on the stream, and they write what those functions write.
-/

namespace Punchgate

namespace Session

variable {E : Endpoints} {s s' : Session} {a : SessionAction}

/-! ## What the server makes of its stream -/

/-- `handle_tunnel` makes this of what the client sends, whatever else it sends. -/
def Judged (E : Endpoints) (s : Session)
    (verdict : Except TunnelError (TunnelResponse × List UInt8)) : Prop :=
  ∀ stream, s.toServer.MayHold stream →
    handleTunnel E.requestFromSlice (fun _ => s.dialed.isSome) E.services stream = verdict

/-- The server answers the client with these bytes. -/
def Answers (E : Endpoints) (s : Session) (bytes : List UInt8) : Prop :=
  Framing.IsFrame 4 bytes ∧ ∃ response, s.Judged E (.ok (response, bytes))

/-- The server has written nothing, or a part of its answer, or its answer. -/
def Begun (E : Endpoints) (s : Session) : Prop :=
  s.toClient.sent = [] ∨
    ∃ bytes, s.Answers E bytes ∧ (s.toClient.sent <+: bytes ∨ bytes <+: s.toClient.sent)

/-- How a phase of the server follows `handle_tunnel`. -/
def ServerFollows (E : Endpoints) (s : Session) : ServerPhase → Prop
  | .reading _ => s.toClient.sent = []
  | .connecting _ => s.toClient.sent = []
  | .rejecting left => s.Answers E (s.toClient.sent ++ left)
  | .accepting left => s.Answers E (s.toClient.sent ++ left)
  | .copying _ _ => ∃ bytes, s.Answers E bytes ∧ bytes <+: s.toClient.sent
  | .returned .ok => ∃ bytes, s.Answers E bytes ∧ bytes <+: s.toClient.sent
  | .returned (.failed e) => s.Judged E (.error e) ∧ s.toClient.sent = []
  | .returned .ioError => s.Begun E
  | .returned .logged => s.Begun E

/-- A verdict stays while the client only goes on with its stream. -/
theorem Judged.stable {verdict : Except TunnelError (TunnelResponse × List UInt8)}
    (h : s.Judged E verdict) (hdialed : s'.dialed = s.dialed)
    (htoServer : ∀ stream, s'.toServer.MayHold stream → s.toServer.MayHold stream) :
    s'.Judged E verdict := by
  intro stream hstream
  rw [hdialed]
  exact h stream (htoServer stream hstream)

theorem Answers.stable {bytes : List UInt8} (h : s.Answers E bytes)
    (hdialed : s'.dialed = s.dialed)
    (htoServer : ∀ stream, s'.toServer.MayHold stream → s.toServer.MayHold stream) :
    s'.Answers E bytes := by
  obtain ⟨hframe, response, hjudged⟩ := h
  exact ⟨hframe, response, hjudged.stable hdialed htoServer⟩

/-- The other parties leave the server to follow. -/
theorem ServerFollows.stable {phase : ServerPhase} (h : s.ServerFollows E phase)
    (hdialed : s'.dialed = s.dialed) (htoServer : s.toServer.Writes s'.toServer)
    (htoClient : s.toClient.Reads s'.toClient) : s'.ServerFollows E phase := by
  have hmay (stream : List UInt8) (h : s'.toServer.MayHold stream) : s.toServer.MayHold stream :=
    htoServer.mayHold h
  have hcopied (h : ∃ bytes, s.Answers E bytes ∧ bytes <+: s.toClient.sent) :
      ∃ bytes, s'.Answers E bytes ∧ bytes <+: s'.toClient.sent := by
    obtain ⟨bytes, hanswers, hfront⟩ := h
    rw [htoClient.sent]
    exact ⟨bytes, hanswers.stable hdialed hmay, hfront⟩
  have hbegun (h : s.Begun E) : s'.Begun E := by
    rw [Begun, htoClient.sent]
    refine Or.imp_right (fun ⟨bytes, hanswers, hfront⟩ => ?_) h
    exact ⟨bytes, hanswers.stable hdialed hmay, hfront⟩
  cases phase with
  | reading got => exact htoClient.sent.trans h
  | connecting localAddr => exact htoClient.sent.trans h
  | rejecting left =>
    rw [ServerFollows, htoClient.sent]
    exact Answers.stable h hdialed hmay
  | accepting left =>
    rw [ServerFollows, htoClient.sent]
    exact Answers.stable h hdialed hmay
  | copying up down => exact hcopied h
  | returned result =>
    cases result with
    | ok => exact hcopied h
    | failed e => exact ⟨h.1.stable hdialed hmay, htoClient.sent.trans h.2⟩
    | ioError => exact hbegun h
    | logged => exact hbegun h

/-- A server that follows has begun its answer, or not. -/
theorem ServerFollows.begun {phase : ServerPhase} (h : s.ServerFollows E phase) : s.Begun E := by
  cases phase with
  | reading got => exact .inl h
  | connecting localAddr => exact .inl h
  | rejecting left => exact .inr ⟨_, h, .inl (List.prefix_append _ _)⟩
  | accepting left => exact .inr ⟨_, h, .inl (List.prefix_append _ _)⟩
  | copying up down =>
    obtain ⟨bytes, hanswers, hfront⟩ := h
    exact .inr ⟨bytes, hanswers, .inr hfront⟩
  | returned result =>
    cases result with
    | ok =>
      obtain ⟨bytes, hanswers, hfront⟩ := h
      exact .inr ⟨bytes, hanswers, .inr hfront⟩
    | failed e => exact .inl h.2
    | ioError => exact h
    | logged => exact h

/-- A server that fails before it has written anything follows if its error is the verdict. -/
theorem serverFollows_failed {e : TunnelError} (h : s.Judged E (.error e))
    (hsent : s.toClient.sent = []) :
    (s.dropServer (.failed e)).ServerFollows E (s.dropServer (.failed e)).server :=
  ⟨h.stable rfl fun _ hstream => hstream, hsent⟩

/-! ## What `handle_tunnel` makes of a request -/

section Verdicts

variable {connects : ServiceAddr → Bool} {stream rest bytes : List UInt8} {request : TunnelRequest}
  {localAddr : ServiceAddr} {e : WireError}

/-- The server cannot say that it does not have the service. -/
theorem handleTunnel_of_unwritten
    (hread : readMessage E.requestFromSlice stream = .ok (request, rest))
    (hunknown : E.services.get? request.serviceName = none)
    (hwrite : writeMessage
      (⟨false, some ("unknown service: " ++ request.serviceName.name)⟩ : TunnelResponse) =
        .error e) :
    handleTunnel E.requestFromSlice connects E.services stream = .error (.wire e) := by
  simp [handleTunnel, hread, hunknown, hwrite, Except.mapError, bind, Except.bind]

/-- The server does not reach the service. -/
theorem handleTunnel_of_unreached
    (hread : readMessage E.requestFromSlice stream = .ok (request, rest))
    (hknown : E.services.get? request.serviceName = some localAddr)
    (hconnects : connects localAddr = false) :
    handleTunnel E.requestFromSlice connects E.services stream = .error (.connect localAddr) := by
  simp [handleTunnel, hread, hknown, hconnects, Except.mapError, bind, Except.bind]

/-- The server reaches the service. -/
theorem handleTunnel_of_reached
    (hread : readMessage E.requestFromSlice stream = .ok (request, rest))
    (hknown : E.services.get? request.serviceName = some localAddr)
    (hconnects : connects localAddr = true)
    (hwrite : writeMessage (⟨true, none⟩ : TunnelResponse) = .ok bytes) :
    handleTunnel E.requestFromSlice connects E.services stream = .ok (⟨true, none⟩, bytes) := by
  simp [handleTunnel, hread, hknown, hconnects, hwrite, Except.mapError, bind, Except.bind]

/-- A stream that is not read. -/
theorem handleTunnel_of_unread (hread : readMessage E.requestFromSlice stream = .error e) :
    handleTunnel E.requestFromSlice connects E.services stream = .error (.wire e) := by
  rw [handleTunnel, hread]
  rfl

end Verdicts

/-- A server that has read more of the request follows. -/
theorem serverFollows_got {got chunk : List UInt8} (hreceived : s.toServer.received = got ++ chunk)
    (hsent : s.toClient.sent = []) (hgot : readFrame E.requestFromSlice got = none)
    (hchunk : chunk.length ≤ Framing.missing 4 got) :
    (s.serverGot E (got ++ chunk)).ServerFollows E (s.serverGot E (got ++ chunk)).server := by
  -- what is read stays at the front of the stream
  have hread {result : Except WireError TunnelRequest}
      (h : readFrame E.requestFromSlice (got ++ chunk) = some result) {stream : List UInt8}
      (hstream : s.toServer.MayHold stream) : ∃ rest,
        readMessage E.requestFromSlice stream = result.map fun msg => (msg, rest) := by
    obtain ⟨rest, rfl⟩ := hreceived ▸ hstream.received_isPrefix
    exact ⟨rest, readMessage_of_length_le (length_le_of_readFrame hgot hchunk) h rest⟩
  unfold serverGot
  split
  · exact hsent
  · rename_i e hfailed
    refine serverFollows_failed (fun stream hstream => ?_) hsent
    obtain ⟨rest, hmessage⟩ := hread hfailed hstream
    exact handleTunnel_of_unread hmessage
  · rename_i request hrequest
    split
    · exact hsent
    · rename_i hunknown
      split
      · rename_i bytes hwrite
        change Answers E _ (s.toClient.sent ++ bytes)
        rw [hsent]
        refine ⟨isFrame_writeMessage hwrite,
          ⟨false, some ("unknown service: " ++ request.serviceName.name)⟩, fun stream hstream => ?_⟩
        obtain ⟨rest, hmessage⟩ := hread hrequest hstream
        exact handleTunnel_of_unknown hmessage hunknown hwrite
      · rename_i e hwrite
        refine serverFollows_failed (fun stream hstream => ?_) hsent
        obtain ⟨rest, hmessage⟩ := hread hrequest hstream
        exact handleTunnel_of_unwritten hmessage hunknown hwrite

/-- A server that has connected to the service, or not, follows. -/
theorem serverFollows_connected {localAddr : ServiceAddr} (connects : Bool)
    (h : s.ServerHolds E (.connecting localAddr)) :
    (s.serverConnected localAddr connects).ServerFollows E
      (s.serverConnected localAddr connects).server := by
  obtain ⟨hnone, ⟨frame, request, hframe, hfront, hrequest, hknown⟩, -, hsent, -⟩ := h
  have hread {stream : List UInt8} (hstream : s.toServer.MayHold stream) :
      ∃ rest, readMessage E.requestFromSlice stream = .ok (request, rest) := by
    obtain ⟨rest, rfl⟩ := hfront.trans hstream.received_isPrefix
    exact ⟨rest, readMessage_of_readFrame hframe hrequest rest⟩
  obtain ⟨bytes, hwrite⟩ := exists_writeMessage
    (length_toVec_acceptance.le.trans (by decide : 17 ≤ maxMessageSize))
  unfold serverConnected
  cases connects with
  | false =>
    refine serverFollows_failed (fun stream hstream => ?_) hsent
    obtain ⟨rest, hmessage⟩ := hread hstream
    exact handleTunnel_of_unreached hmessage hknown (by rw [hnone]; rfl)
  | true =>
    rw [if_pos rfl, hwrite]
    change Answers E _ (s.toClient.sent ++ bytes)
    rw [hsent]
    refine ⟨isFrame_writeMessage hwrite, ⟨true, none⟩, fun stream hstream => ?_⟩
    obtain ⟨rest, hmessage⟩ := hread hstream
    exact handleTunnel_of_reached hmessage hknown rfl hwrite

/-- A server that copies follows, whether it goes on or is done. -/
theorem serverFollows_copied {up down : Transfer UInt8}
    (h : ∃ bytes, s.Answers E bytes ∧ bytes <+: s.toClient.sent) :
    (s.serverCopied up down).ServerFollows E (s.serverCopied up down).server := by
  obtain ⟨bytes, hanswers, hfront⟩ := h
  unfold serverCopied
  split
  · exact ⟨bytes, hanswers.stable rfl fun _ hstream => hstream, hfront⟩
  · exact ⟨bytes, hanswers.stable rfl fun _ hstream => hstream, hfront⟩

/-- An answer of which a part is written, and then another part. -/
theorem Answers.write {left : List UInt8} (h : s.Answers E (s.toClient.sent ++ left)) (n : ℕ) :
    s.Answers E ((s.toClient.write (left.take n)).sent ++ left.drop n) := by
  rwa [Pipe.sent_write, List.append_assoc, List.take_append_drop]

/-- **Server step.** A server goes on as `handle_tunnel` does. -/
theorem serverFollows_step (h : s.ServerFollows E s.server) (hholds : s.ServerHolds E s.server)
    (hstep : s.stepServer E a = some s') : s'.ServerFollows E s'.server := by
  cases stepServer_cases hstep with
  | @read got n hserver hpos hn =>
    rw [hserver] at hholds
    obtain ⟨-, hreceived, hgot, hsent, -⟩ := hholds
    have hpipe : (s.toServer.read n).received = got ++ s.toServer.unread.take n := by
      rw [Pipe.received_read, hreceived]
    exact serverFollows_got (s := { s with toServer := s.toServer.read n }) hpipe hsent hgot
      ((List.length_take_le _ _).trans hn)
  | eof hserver hunread hshut =>
    rw [hserver] at hholds
    obtain ⟨-, hreceived, hgot, hsent, -⟩ := hholds
    refine serverFollows_failed (fun stream hstream => ?_) hsent
    rw [hstream.eq_received hunread hshut, hreceived]
    exact handleTunnel_of_unread (readMessage_of_readFrame_none hgot)
  | @connect localAddr connects hserver =>
    rw [hserver] at hholds
    exact serverFollows_connected connects hholds
  | @reject left n hserver =>
    rw [hserver] at h
    exact Answers.write h n
  | @rejected left n hserver _ _ hrest =>
    rw [hserver] at h
    have hanswers := Answers.write h n
    rw [hrest, List.append_nil] at hanswers
    exact ⟨_, hanswers, List.prefix_rfl⟩
  | @accept left n hserver =>
    rw [hserver] at h
    have hanswers := Answers.write h n
    dsimp only
    split
    · rename_i hrest
      rw [hrest, List.append_nil] at hanswers
      exact ⟨_, hanswers, List.prefix_rfl⟩
    · exact hanswers
  | @up up down up' toServer toService b hserver hcopy =>
    rw [hserver] at h hholds
    obtain ⟨⟨-, request, answer, -, -, hup, -⟩, -⟩ := hholds
    obtain ⟨-, hreads, -⟩ := hup.step hcopy
    obtain ⟨bytes, hanswers, hfront⟩ := h
    exact serverFollows_copied (s := { s with toServer := toServer, toService := toService })
      ⟨bytes, hanswers.stable rfl fun _ => hreads.mayHold, hfront⟩
  | @down up down down' fromService toClient b hserver hcopy =>
    rw [hserver] at h hholds
    obtain ⟨⟨-, request, answer, -, -, -, hdown⟩, -⟩ := hholds
    obtain ⟨-, -, hwrites⟩ := hdown.step hcopy
    obtain ⟨bytes, hanswers, hfront⟩ := h
    exact serverFollows_copied (s := { s with fromService := fromService, toClient := toClient })
      ⟨bytes, hanswers.stable rfl fun _ hstream => hstream, hfront.trans hwrites.sent⟩
  | fail => exact h.begun
  | logged => exact h.begun

/-! ## What the client makes of its stream -/

/-- A client that has failed has the error that `client_tunnel_session` gives, whatever else the
server sends. -/
def ClientFollows (E : Endpoints) (s : Session) : Prop :=
  ∀ e, s.client = .returned (.failed e) → ∀ stream, s.toClient.MayHold stream →
    clientTunnelSession E.responseFromSlice E.serviceName stream = .error e

/-- The other parties leave the client to follow. -/
theorem ClientFollows.stable (h : s.ClientFollows E) (hclient : s'.client = s.client)
    (htoClient : s.toClient.Writes s'.toClient) : s'.ClientFollows E := by
  intro e hreturned stream hstream
  exact h e (hclient ▸ hreturned) stream (htoClient.mayHold hstream)

section Verdicts

variable {stream rest request : List UInt8} {response : TunnelResponse} {e : WireError}

/-- The client cannot ask for its service. -/
theorem clientTunnelSession_of_unwritten
    (hwrite : writeMessage (⟨E.serviceName⟩ : TunnelRequest) = .error e) :
    clientTunnelSession E.responseFromSlice E.serviceName stream = .error (.wire e) := by
  rw [clientTunnelSession, hwrite]
  rfl

/-- A stream that is not read. -/
theorem clientTunnelSession_of_unread
    (hwrite : writeMessage (⟨E.serviceName⟩ : TunnelRequest) = .ok request)
    (hread : readMessage E.responseFromSlice stream = .error e) :
    clientTunnelSession E.responseFromSlice E.serviceName stream = .error (.wire e) := by
  rw [clientTunnelSession, hwrite, hread]
  rfl

/-- The server has an answer. -/
theorem clientTunnelSession_of_read
    (hwrite : writeMessage (⟨E.serviceName⟩ : TunnelRequest) = .ok request)
    (hread : readMessage E.responseFromSlice stream = .ok (response, rest)) :
    clientTunnelSession E.responseFromSlice E.serviceName stream =
      if response.accepted then .ok (request, rest)
      else .error (.rejected (response.reason.getD "unknown")) := by
  rw [clientTunnelSession, hwrite, hread]
  rfl

end Verdicts

/-- A client that has read more of the response follows. -/
theorem clientFollows_got {request got chunk : List UInt8}
    (hwrite : writeMessage (⟨E.serviceName⟩ : TunnelRequest) = .ok request)
    (hreceived : s.toClient.received = got ++ chunk)
    (hgot : readFrame E.responseFromSlice got = none)
    (hchunk : chunk.length ≤ Framing.missing 4 got) :
    (s.clientGot E (got ++ chunk)).ClientFollows E := by
  have hread {result : Except WireError TunnelResponse}
      (h : readFrame E.responseFromSlice (got ++ chunk) = some result) {stream : List UInt8}
      (hstream : s.toClient.MayHold stream) : ∃ rest,
        readMessage E.responseFromSlice stream = result.map fun msg => (msg, rest) := by
    obtain ⟨rest, rfl⟩ := hreceived ▸ hstream.received_isPrefix
    exact ⟨rest, readMessage_of_length_le (length_le_of_readFrame hgot hchunk) h rest⟩
  unfold clientGot
  split
  · intro e hreturned
    cases hreturned
  · rename_i e' hfailed
    intro e hreturned stream hstream
    cases hreturned
    obtain ⟨rest, hmessage⟩ := hread hfailed hstream
    exact clientTunnelSession_of_unread hwrite hmessage
  · rename_i response hresponse
    split
    · intro e hreturned
      cases hreturned
    · rename_i hrejected
      intro e hreturned stream hstream
      cases hreturned
      obtain ⟨rest, hmessage⟩ := hread hresponse hstream
      rw [clientTunnelSession_of_read hwrite hmessage, if_neg hrejected]

/-- A client that copies has no error. -/
theorem clientFollows_copied (s : Session) (up down : Transfer UInt8) :
    (s.clientCopied up down).ClientFollows E := by
  intro e hreturned
  unfold clientCopied at hreturned
  split at hreturned
  · cases hreturned
  · cases hreturned

/-- **Client step.** A client goes on as `client_tunnel_session` does. -/
theorem clientFollows_step {request : List UInt8}
    (hwrite : writeMessage (⟨E.serviceName⟩ : TunnelRequest) = .ok request)
    (hholds : s.ClientHolds E request s.client) (hstep : s.stepClient E a = some s') :
    s'.ClientFollows E := by
  cases stepClient_cases hstep with
  | write =>
    intro e hreturned
    dsimp only at hreturned
    split at hreturned
    · cases hreturned
    · cases hreturned
  | @read got n hclient hpos hn =>
    rw [hclient] at hholds
    obtain ⟨-, -, -, hreceived, hgot, -, -⟩ := hholds
    have hpipe : (s.toClient.read n).received = got ++ s.toClient.unread.take n := by
      rw [Pipe.received_read, hreceived]
    exact clientFollows_got (s := { s with toClient := s.toClient.read n }) hwrite hpipe hgot
      ((List.length_take_le _ _).trans hn)
  | eof hclient hunread hshut =>
    rw [hclient] at hholds
    obtain ⟨-, -, -, hreceived, hgot, -, -⟩ := hholds
    intro e hreturned stream hstream
    cases hreturned
    rw [hstream.eq_received hunread hshut]
    change clientTunnelSession _ _ s.toClient.received = _
    rw [hreceived]
    exact clientTunnelSession_of_unread hwrite (readMessage_of_readFrame_none hgot)
  | up => exact clientFollows_copied _ _ _
  | down => exact clientFollows_copied _ _ _
  | fail =>
    intro e hreturned
    cases hreturned

/-! ## The whole session -/

/-- Both ends do what the functions of a whole stream do. -/
structure Follows (E : Endpoints) (s : Session) : Prop where
  /-- The server follows `handle_tunnel`. -/
  server : s.ServerFollows E s.server
  /-- The client follows `client_tunnel_session`. -/
  client : s.ClientFollows E

/-- At the start nothing is done, unless the client cannot ask. -/
theorem follows_start (E : Endpoints) : (start E).Follows E := by
  unfold start
  dsimp only
  split
  · refine ⟨rfl, fun e hreturned => ?_⟩
    cases hreturned
  · rename_i e' hwrite
    refine ⟨rfl, fun e hreturned stream _ => ?_⟩
    cases hreturned
    exact clientTunnelSession_of_unwritten hwrite

/-- **Step.** Every action keeps to the functions. -/
theorem Follows.step (h : s.Follows E) (hsafe : s.Safe E) (hstep : s.step E a = some s') :
    s'.Follows E := by
  rw [Session.step, Option.or_eq_some_iff, Option.or_eq_some_iff] at hstep
  rcases hstep with hstep | ⟨-, hstep | ⟨-, hstep⟩⟩
  · have hmoves := outsideMoves_step hstep
    constructor
    · rw [hmoves.server]
      exact h.server.stable hmoves.dialed (hmoves.toServer ▸ .refl _) (hmoves.toClient ▸ .refl _)
    · exact h.client.stable hmoves.client (hmoves.toClient ▸ .refl _)
  · rcases hsafe.client with ⟨request, hwrite, hholds⟩ | ⟨⟨e, hreturned⟩, -⟩
    · have hmoves := (clientHolds_step hholds hstep).2
      constructor
      · rw [hmoves.server]
        exact h.server.stable hmoves.dialed hmoves.toServer hmoves.toClient
      · exact clientFollows_step hwrite hholds hstep
    · rw [stepClient_returned hreturned] at hstep
      cases hstep
  · have hmoves := (serverHolds_step hsafe.server hsafe.asked hstep).2.2
    exact ⟨serverFollows_step h.server hsafe.server hstep,
      h.client.stable hmoves.client hmoves.toClient⟩

/-- **Run.** A session keeps to the functions at all times. -/
theorem Follows.run (h : s.Follows E) (hsafe : s.Safe E) {as : List SessionAction}
    (hrun : s.run E as = some s') : s'.Follows E := by
  induction as generalizing s with
  | nil =>
    cases hrun
    exact h
  | cons a as ih =>
    obtain ⟨t, hstep, hrest⟩ := Option.bind_eq_some_iff.mp hrun
    exact ih (h.step hsafe hstep) (hsafe.step hstep) hrest

/-- What the server has written begins with what `handle_tunnel` writes. -/
theorem Follows.answered (h : s.Follows E) (hsafe : s.Safe E) (hsent : s.toClient.sent ≠ []) :
    ∃ bytes, s.Answers E bytes ∧ s.toClient.sent <+: bytes ++ s.fromService.received := by
  obtain ⟨bytes, hanswers, hfront⟩ := h.server.begun.resolve_left hsent
  refine ⟨bytes, hanswers, ?_⟩
  rcases hfront with hfront | hfront
  · exact hfront.trans (List.prefix_append _ _)
  · obtain ⟨answer, hanswer, hbound⟩ := hsafe.server.bound.down.resolve_left hsent
    have heq := hanswers.1.eq_of_isPrefix (isFrame_answer hanswer) (hfront.trans hbound)
      (List.prefix_append _ _)
    rwa [heq]

/-- A client that has begun to copy, or is done, has read an acceptance. -/
theorem Safe.served (h : s.Safe E)
    (hserves : s.fromApp.received ≠ [] ∨ s.toApp.sent ≠ [] ∨ s.client = .returned .ok) :
    ∃ request rest,
      clientTunnelSession E.responseFromSlice E.serviceName s.toClient.sent = .ok (request, rest) ∧
      s.toServer.sent <+: request ++ s.fromApp.received ∧ s.toApp.sent <+: rest := by
  rcases h.client with ⟨request, hwrite, hholds⟩ | ⟨⟨e, hreturned⟩, -, -, hread, hsent⟩
  · obtain ⟨frame, response, hframe, hresponse, haccepted, hfront⟩ :
        ∃ frame response, Framing.IsFrame 4 frame ∧
          readFrame E.responseFromSlice frame = some (.ok response) ∧ response.accepted = true ∧
          frame ++ s.toApp.sent <+: s.toClient.received := by
      rcases hserves with hserves | hserves | hreturned
      · exact h.accepted (.inl hserves)
      · exact h.accepted (.inr hserves)
      · rw [hreturned] at hholds
        obtain ⟨-, frame, response, hframe, hresponse, haccepted, hdown⟩ := hholds
        exact ⟨frame, response, hframe, hresponse, haccepted, hdown.prefix_of_stripped⟩
    obtain ⟨rest, hstream⟩ := hfront.trans s.toClient.received_isPrefix
    refine ⟨request, s.toApp.sent ++ rest, ?_, hholds.bound.up, List.prefix_append _ _⟩
    have hmessage := readMessage_of_readFrame hframe hresponse (s.toApp.sent ++ rest)
    rw [← hstream, List.append_assoc, clientTunnelSession_of_read hwrite hmessage,
      if_pos haccepted]
  · rw [hreturned] at hserves
    simp [hread, hsent] at hserves

/-- A client is not rejected by a server that has the service. -/
theorem Follows.not_rejected (h : s.Follows E) (hsafe : s.Safe E)
    (hrequest : Undoes E.requestFromSlice) (hresponse : Undoes E.responseFromSlice)
    (hknown : E.services.contains E.serviceName = true) (reason : String) :
    s.client ≠ .returned (.failed (.rejected reason)) := by
  intro hreturned
  have hfailed := h.client _ hreturned _ s.toClient.mayHold_sent
  cases hwrite : writeMessage (⟨E.serviceName⟩ : TunnelRequest) with
  | error e =>
    rw [clientTunnelSession_of_unwritten hwrite] at hfailed
    cases hfailed
  | ok request =>
    cases hread : readMessage E.responseFromSlice s.toClient.sent with
    | error e =>
      rw [clientTunnelSession_of_unread hwrite hread] at hfailed
      cases hfailed
    | ok parts =>
      obtain ⟨response, rest⟩ := parts
      rw [clientTunnelSession_of_read hwrite hread] at hfailed
      have hsent : s.toClient.sent ≠ [] := by
        intro hnil
        rw [hnil] at hread
        cases hread
      obtain ⟨bytes, ⟨-, response', hjudged⟩, hfront⟩ := h.answered hsafe hsent
      have hverdict := hjudged _ s.toServer.mayHold_sent
      -- the server has read the request, which is for the service
      obtain ⟨⟨asked, left⟩, hasked, -⟩ := Text.bind_eq_ok_iff.mp hverdict
      rw [Text.mapError_eq_ok_iff] at hasked
      have hservice : asked = ⟨E.serviceName⟩ := by
        rcases hsafe.client with ⟨request', hwrite', hholds⟩ | ⟨-, hnil, -⟩
        · exact eq_of_readMessage hrequest hwrite' hholds.bound.up hasked
        · rw [hnil] at hasked
          cases hasked
      subst hservice
      obtain ⟨hwritten, ⟨-, rfl⟩ | ⟨hunknown, -⟩⟩ := handleTunnel_cases hasked hverdict
      · have haccepted := eq_of_readMessage hresponse hwritten hfront hread
        rw [haccepted, if_pos rfl] at hfailed
        cases hfailed
      · rw [hknown] at hunknown
        cases hunknown

/-- **Handshake.** Whatever the order of the actions and the size of the chunks, the two ends of a
session do what `handleTunnel` and `clientTunnelSession` make of what is on their streams: they fail
with the same errors, what they write begins with the same bytes, and the application is served what
follows the response that the client reads. -/
theorem session_follows_handshake {as : List SessionAction} (h : (start E).run E as = some s) :
    (∀ e, s.server = .returned (.failed e) →
      handleTunnel E.requestFromSlice (fun _ => s.dialed.isSome) E.services s.toServer.sent =
        .error e) ∧
    (s.toClient.sent ≠ [] → ∃ response bytes,
      handleTunnel E.requestFromSlice (fun _ => s.dialed.isSome) E.services s.toServer.sent =
        .ok (response, bytes) ∧
      s.toClient.sent <+: bytes ++ s.fromService.received) ∧
    (∀ e, s.client = .returned (.failed e) →
      clientTunnelSession E.responseFromSlice E.serviceName s.toClient.sent = .error e) ∧
    (s.fromApp.received ≠ [] ∨ s.toApp.sent ≠ [] ∨ s.client = .returned .ok → ∃ request rest,
      clientTunnelSession E.responseFromSlice E.serviceName s.toClient.sent = .ok (request, rest) ∧
      s.toServer.sent <+: request ++ s.fromApp.received ∧ s.toApp.sent <+: rest) := by
  have hsafe := (safe_start E).run h
  have hfollows := (follows_start E).run (safe_start E) h
  refine ⟨fun e hreturned => ?_, fun hsent => ?_, fun e hreturned => ?_, hsafe.served⟩
  · have hserver := hfollows.server
    rw [hreturned] at hserver
    exact hserver.1 _ s.toServer.mayHold_sent
  · obtain ⟨bytes, ⟨-, response, hjudged⟩, hfront⟩ := hfollows.answered hsafe hsent
    exact ⟨response, bytes, hjudged _ s.toServer.mayHold_sent, hfront⟩
  · exact hfollows.client e hreturned _ s.toClient.mayHold_sent

/-- The server accepts the request of the application. -/
theorem session_follows_handshake_web :
    (∀ e, webSession.server = .returned (.failed e) →
      handleTunnel webEndpoints.requestFromSlice (fun _ => webSession.dialed.isSome)
        webEndpoints.services webSession.toServer.sent = .error e) ∧
    (webSession.toClient.sent ≠ [] → ∃ response bytes,
      handleTunnel webEndpoints.requestFromSlice (fun _ => webSession.dialed.isSome)
        webEndpoints.services webSession.toServer.sent = .ok (response, bytes) ∧
      webSession.toClient.sent <+: bytes ++ webSession.fromService.received) ∧
    (∀ e, webSession.client = .returned (.failed e) →
      clientTunnelSession webEndpoints.responseFromSlice webEndpoints.serviceName
        webSession.toClient.sent = .error e) ∧
    (webSession.fromApp.received ≠ [] ∨ webSession.toApp.sent ≠ [] ∨
        webSession.client = .returned .ok → ∃ request rest,
      clientTunnelSession webEndpoints.responseFromSlice webEndpoints.serviceName
        webSession.toClient.sent = .ok (request, rest) ∧
      webSession.toServer.sent <+: request ++ webSession.fromApp.received ∧
      webSession.toApp.sent <+: rest) :=
  session_follows_handshake run_webActions

end Session

end Punchgate
