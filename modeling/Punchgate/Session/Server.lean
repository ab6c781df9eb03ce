import Punchgate.Session.Client

/-!
# The server of a tunnel session

`handle_tunnel` reads a request, connects to the service of that name, and copies only after it has
answered that it has. What it does in each phase is a condition on the streams that it reads and
writes, and the other parties cannot break it.
-/

namespace Punchgate

namespace Session

variable {E : Endpoints} {s s' : Session} {a : SessionAction}

/-- What each action of the server does, and where it is possible. -/
inductive ServerStep (E : Endpoints) (s : Session) : SessionAction → Session → Prop
  | read {got : List UInt8} {n : ℕ} (hserver : s.server = .reading got) (hpos : 0 < n)
      (hn : n ≤ Framing.missing 4 got) (hunread : n ≤ s.toServer.unread.length) :
      ServerStep E s (.serverRead n)
        (serverGot E { s with toServer := s.toServer.read n } (got ++ s.toServer.unread.take n))
  | eof {got : List UInt8} (hserver : s.server = .reading got) (hunread : s.toServer.unread = [])
      (hshut : s.toServer.shut = true) :
      ServerStep E s .serverEof (s.dropServer (.failed (.wire .unexpectedEof)))
  | connect {localAddr : ServiceAddr} {connects : Bool} (hserver : s.server = .connecting localAddr) :
      ServerStep E s (.serverConnect connects) (s.serverConnected localAddr connects)
  | reject {left : List UInt8} {n : ℕ} (hserver : s.server = .rejecting left) (hpos : 0 < n)
      (hn : n ≤ left.length) (hrest : left.drop n ≠ []) :
      ServerStep E s (.serverWrite n) { s with
        toClient := s.toClient.write (left.take n), server := .rejecting (left.drop n) }
  | rejected {left : List UInt8} {n : ℕ} (hserver : s.server = .rejecting left) (hpos : 0 < n)
      (hn : n ≤ left.length) (hrest : left.drop n = []) :
      ServerStep E s (.serverWrite n)
        (dropServer { s with toClient := s.toClient.write (left.take n) } .ok)
  | accept {left : List UInt8} {n : ℕ} (hserver : s.server = .accepting left) (hpos : 0 < n)
      (hn : n ≤ left.length) :
      ServerStep E s (.serverWrite n) { s with
        server := if left.drop n = [] then .copying (.running []) (.running [])
          else .accepting (left.drop n)
        toClient := s.toClient.write (left.take n) }
  | up {up down up' : Transfer UInt8} {toServer toService : Pipe UInt8} {b : CopyAction}
      (hserver : s.server = .copying up down)
      (hcopy : up.step E.limits.buffer E.limits.toService s.toServer s.toService b =
        some (up', toServer, toService)) :
      ServerStep E s (.serverUp b)
        ({ s with toServer := toServer, toService := toService }.serverCopied up' down)
  | down {up down down' : Transfer UInt8} {fromService toClient : Pipe UInt8} {b : CopyAction}
      (hserver : s.server = .copying up down)
      (hcopy : down.step E.limits.buffer E.limits.toClient s.fromService s.toClient b =
        some (down', fromService, toClient)) :
      ServerStep E s (.serverDown b)
        ({ s with fromService := fromService, toClient := toClient }.serverCopied up down')
  | fail (hserver : ∀ result, s.server ≠ .returned result)
      (hcopying : ∀ up down, s.server ≠ .copying up down) :
      ServerStep E s .serverFail (s.dropServer .ioError)
  | logged {up down : Transfer UInt8} (hserver : s.server = .copying up down) :
      ServerStep E s .serverFail (s.dropServer .logged)

/-- **Server inversion.** An action of the server is one of these. -/
theorem stepServer_cases (h : s.stepServer E a = some s') : s.ServerStep E a s' := by
  cases a with
  | serverRead n =>
    simp only [stepServer] at h
    split at h
    · rename_i got hserver
      split at h
      · rename_i hn
        cases h
        exact .read hserver hn.1 hn.2.1 hn.2.2
      · cases h
    · cases h
  | serverEof =>
    simp only [stepServer] at h
    split at h
    · rename_i got hserver
      split at h
      · rename_i hend
        cases h
        exact .eof hserver hend.1 hend.2
      · cases h
    · cases h
  | serverConnect connects =>
    simp only [stepServer] at h
    split at h
    · rename_i localAddr hserver
      cases h
      exact .connect hserver
    · cases h
  | serverWrite n =>
    simp only [stepServer] at h
    split at h
    · rename_i left hserver
      split at h
      · rename_i hn
        split at h
        · rename_i hrest
          cases h
          exact .rejected hserver hn.1 hn.2.1 hrest
        · rename_i hrest
          cases h
          exact .reject hserver hn.1 hn.2.1 hrest
      · cases h
    · rename_i left hserver
      split at h
      · rename_i hn
        cases h
        exact .accept hserver hn.1 hn.2.1
      · cases h
    · cases h
  | serverUp b =>
    simp only [stepServer] at h
    split at h
    · rename_i up down hserver
      obtain ⟨⟨up', toServer, toService⟩, hcopy, rfl⟩ := Option.map_eq_some_iff.mp h
      exact .up hserver hcopy
    · cases h
  | serverDown b =>
    simp only [stepServer] at h
    split at h
    · rename_i up down hserver
      obtain ⟨⟨down', fromService, toClient⟩, hcopy, rfl⟩ := Option.map_eq_some_iff.mp h
      exact .down hserver hcopy
    · cases h
  | serverFail =>
    simp only [stepServer] at h
    split at h
    · cases h
    · rename_i hserver
      cases h
      exact .logged hserver
    · rename_i hserver hcopying
      cases h
      exact .fail hserver hcopying
  | _ => cases h

/-- The server answers what it can say: that it has connected to the service, or that it has none
of that name. -/
def Answer (dialed : Option ServiceAddr) (bytes : List UInt8) : Prop :=
  dialed.isSome = true ∧ writeMessage (⟨true, none⟩ : TunnelResponse) = .ok bytes ∨
    dialed = none ∧ ∃ reason, writeMessage (⟨false, some reason⟩ : TunnelResponse) = .ok bytes

/-- The server has read a request for the service at an address. -/
def Asked (E : Endpoints) (localAddr : ServiceAddr) (s : Session) : Prop :=
  ∃ frame request, Framing.IsFrame 4 frame ∧ frame <+: s.toServer.received ∧
    readFrame E.requestFromSlice frame = some (.ok request) ∧
    E.services.get? request.serviceName = some localAddr

/-- What the server has handed to the service follows a frame, and what it has written begins with
its answer. -/
structure ServerBound (s : Session) : Prop where
  /-- Towards the service. -/
  up : s.toService.sent = [] ∨
    ∃ request, Framing.IsFrame 4 request ∧ request ++ s.toService.sent <+: s.toServer.received
  /-- Towards the client. -/
  down : s.toClient.sent = [] ∨
    ∃ answer, Answer s.dialed answer ∧ s.toClient.sent <+: answer ++ s.fromService.received

/-- The server has said nothing to the service yet. -/
def ServiceUntouched (s : Session) : Prop :=
  s.toService.sent = [] ∧ s.toService.shut = false ∧ s.fromService.received = [] ∧
    s.toClient.shut = false

/-- The server copies, or it has copied. -/
def ServerCopies (s : Session) (up down : Transfer UInt8) : Prop :=
  s.dialed.isSome = true ∧ ∃ request answer, Framing.IsFrame 4 request ∧ Answer s.dialed answer ∧
    up.Copies request [] s.toServer s.toService ∧ down.Copies [] answer s.fromService s.toClient

/-- What the server does in each phase. -/
def ServerHolds (E : Endpoints) (s : Session) : ServerPhase → Prop
  | .reading got =>
    s.dialed = none ∧ s.toServer.received = got ∧ readFrame E.requestFromSlice got = none ∧
      s.toClient.sent = [] ∧ s.ServiceUntouched
  | .rejecting left =>
    s.dialed = none ∧ Framing.IsFrame 4 s.toServer.received ∧ left ≠ [] ∧
      Answer s.dialed (s.toClient.sent ++ left) ∧ s.ServiceUntouched
  | .connecting localAddr =>
    s.dialed = none ∧ s.Asked E localAddr ∧ Framing.IsFrame 4 s.toServer.received ∧
      s.toClient.sent = [] ∧ s.ServiceUntouched
  | .accepting left =>
    s.dialed.isSome = true ∧ Framing.IsFrame 4 s.toServer.received ∧ left ≠ [] ∧
      Answer s.dialed (s.toClient.sent ++ left) ∧ s.ServiceUntouched
  | .copying up down => s.ServerCopies up down ∧ ¬(up = .finished ∧ down = .finished)
  | .returned .ok =>
    s.ServerCopies .finished .finished ∨
      s.dialed = none ∧ Answer s.dialed s.toClient.sent ∧ s.toService.sent = [] ∧
        s.toService.shut = false ∧ s.fromService.received = [] ∧ s.toClient.shut = true
  | .returned _ => s.ServerBound ∧ s.toClient.shut = true

/-- An answer is a frame. -/
theorem isFrame_answer {dialed : Option ServiceAddr} {answer : List UInt8}
    (h : Answer dialed answer) : Framing.IsFrame 4 answer := by
  rcases h with ⟨-, h⟩ | ⟨-, _, h⟩
  · exact isFrame_writeMessage h
  · exact isFrame_writeMessage h

/-- What a server that copies does is bounded by what it reads. -/
theorem ServerCopies.bound {up down : Transfer UInt8} (h : s.ServerCopies up down) :
    s.ServerBound := by
  obtain ⟨-, request, answer, hframe, hanswer, hup, hdown⟩ := h
  exact ⟨.inr ⟨request, hframe, hup.prefix_of_stripped⟩, .inr ⟨answer, hanswer, hdown.isPrefix⟩⟩

/-- What the server does is bounded by what it reads. -/
theorem ServerHolds.bound {phase : ServerPhase} (h : s.ServerHolds E phase) : s.ServerBound := by
  have hpartial {left : List UInt8} (hanswer : Answer s.dialed (s.toClient.sent ++ left)) :
      s.toClient.sent = [] ∨
        ∃ answer, Answer s.dialed answer ∧ s.toClient.sent <+: answer ++ s.fromService.received := by
    refine .inr ⟨_, hanswer, ?_⟩
    rw [List.append_assoc]
    exact List.prefix_append _ _
  cases phase with
  | reading got => exact ⟨.inl h.2.2.2.2.1, .inl h.2.2.2.1⟩
  | rejecting left => exact ⟨.inl h.2.2.2.2.1, hpartial h.2.2.2.1⟩
  | connecting localAddr => exact ⟨.inl h.2.2.2.2.1, .inl h.2.2.2.1⟩
  | accepting left => exact ⟨.inl h.2.2.2.2.1, hpartial h.2.2.2.1⟩
  | copying up down => exact h.1.bound
  | returned result =>
    cases result with
    | ok =>
      rcases h with h | ⟨-, hanswer, hsent, -⟩
      · exact h.bound
      · exact ⟨.inl hsent, .inr ⟨_, hanswer, List.prefix_append _ _⟩⟩
    | failed e => exact h.1
    | ioError => exact h.1
    | logged => exact h.1

/-- What is asked for stays so. -/
theorem Asked.mono {localAddr : ServiceAddr} (h : s.Asked E localAddr)
    (hreceived : s.toServer.received <+: s'.toServer.received) : s'.Asked E localAddr := by
  obtain ⟨frame, request, hframe, hfront, hrequest⟩ := h
  exact ⟨frame, request, hframe, hfront.trans hreceived, hrequest⟩

section Stable

variable (hdialed : s'.dialed = s.dialed) (htoServer : s.toServer.Writes s'.toServer)
  (htoService : s.toService.Reads s'.toService) (hfromService : s.fromService.Writes s'.fromService)
  (htoClient : s.toClient.Reads s'.toClient)

include hdialed htoServer htoService hfromService htoClient

/-- The other parties leave the bounds of the server alone. -/
theorem ServerBound.stable (h : s.ServerBound) : s'.ServerBound := by
  constructor
  · rw [htoService.sent, htoServer.received]
    exact h.up
  · rw [htoClient.sent, hfromService.received, hdialed]
    exact h.down

/-- The other parties leave a server that copies at it. -/
theorem ServerCopies.stable {up down : Transfer UInt8} (h : s.ServerCopies up down) :
    s'.ServerCopies up down := by
  obtain ⟨hsome, request, answer, hframe, hanswer, hup, hdown⟩ := h
  rw [ServerCopies, hdialed]
  exact ⟨hsome, request, answer, hframe, hanswer, hup.stable htoServer htoService,
    hdown.stable hfromService htoClient⟩

/-- The other parties leave the server as it is. -/
theorem ServerHolds.stable {phase : ServerPhase} (h : s.ServerHolds E phase) :
    s'.ServerHolds E phase := by
  have huntouched (h : s.ServiceUntouched) : s'.ServiceUntouched := by
    rwa [ServiceUntouched, htoService.sent, htoService.shut, hfromService.received, htoClient.shut]
  cases phase with
  | reading got =>
    obtain ⟨hnone, hgot, hread, hsent, hservice⟩ := h
    rw [ServerHolds, hdialed, htoServer.received, htoClient.sent]
    exact ⟨hnone, hgot, hread, hsent, huntouched hservice⟩
  | rejecting left =>
    obtain ⟨hnone, hframe, hleft, hanswer, hservice⟩ := h
    rw [ServerHolds, hdialed, htoServer.received, htoClient.sent]
    exact ⟨hnone, hframe, hleft, hanswer, huntouched hservice⟩
  | connecting localAddr =>
    obtain ⟨hnone, hasked, hframe, hsent, hservice⟩ := h
    rw [ServerHolds, hdialed, htoServer.received, htoClient.sent]
    exact ⟨hnone, hasked.mono (by rw [htoServer.received]), hframe, hsent, huntouched hservice⟩
  | accepting left =>
    obtain ⟨hsome, hframe, hleft, hanswer, hservice⟩ := h
    rw [ServerHolds, hdialed, htoServer.received, htoClient.sent]
    exact ⟨hsome, hframe, hleft, hanswer, huntouched hservice⟩
  | copying up down =>
    exact ⟨h.1.stable hdialed htoServer htoService hfromService htoClient, h.2⟩
  | returned result =>
    cases result with
    | ok =>
      rcases h with h | h
      · exact .inl (h.stable hdialed htoServer htoService hfromService htoClient)
      · refine .inr ?_
        rwa [hdialed, htoClient.sent, htoService.sent, htoService.shut, hfromService.received,
          htoClient.shut]
    | failed e =>
      exact ⟨h.1.stable hdialed htoServer htoService hfromService htoClient,
        htoClient.shut.trans h.2⟩
    | ioError =>
      exact ⟨h.1.stable hdialed htoServer htoService hfromService htoClient,
        htoClient.shut.trans h.2⟩
    | logged =>
      exact ⟨h.1.stable hdialed htoServer htoService hfromService htoClient,
        htoClient.shut.trans h.2⟩

end Stable

/-- What the server touches: the streams that it reads and writes, and the service that it connects
to, once. -/
structure ServerMoves (s s' : Session) : Prop where
  client : s'.client = s.client
  dialed : s.dialed.isSome = true → s'.dialed = s.dialed
  toServer : s.toServer.Reads s'.toServer
  toService : s.toService.Writes s'.toService
  fromService : s.fromService.Reads s'.fromService
  toClient : s.toClient.Writes s'.toClient
  fromApp : s'.fromApp = s.fromApp
  toApp : s'.toApp = s.toApp

theorem ServerMoves.trans {s'' : Session} (h : s.ServerMoves s') (h' : s'.ServerMoves s'') :
    s.ServerMoves s'' := by
  refine ⟨h'.client.trans h.client, fun hsome => ?_, h.toServer.trans h'.toServer,
    h.toService.trans h'.toService, h.fromService.trans h'.fromService,
    h.toClient.trans h'.toClient, h'.fromApp.trans h.fromApp, h'.toApp.trans h.toApp⟩
  have hdialed := h.dialed hsome
  exact (h'.dialed (by rwa [hdialed])).trans hdialed

/-- The other phase touches nothing. -/
theorem serverMoves_phase (s : Session) (phase : ServerPhase) :
    s.ServerMoves { s with server := phase } :=
  ⟨rfl, fun _ => rfl, .refl _, .refl _, .refl _, .refl _, rfl, rfl⟩

/-- Giving up touches what the server touches. -/
theorem serverMoves_dropServer (s : Session) (result : SessionEnd) :
    s.ServerMoves (s.dropServer result) := by
  refine ⟨rfl, fun _ => rfl, .refl _, ?_, .refl _, s.toClient.writes_close, rfl, rfl⟩
  change s.toService.Writes (if s.dialed.isSome then s.toService.close else s.toService)
  split
  · exact s.toService.writes_close
  · exact .refl _

/-- Giving up writes nothing. -/
theorem toService_dropServer_sent (s : Session) (result : SessionEnd) :
    (s.dropServer result).toService.sent = s.toService.sent := by
  change (if s.dialed.isSome then s.toService.close else s.toService).sent = _
  split <;> rfl

/-- A server that gives up stays within its bounds. -/
theorem serverHolds_dropServer (h : s.ServerBound) {result : SessionEnd} (hresult : result ≠ .ok) :
    (s.dropServer result).ServerHolds E (s.dropServer result).server := by
  have hbound : (s.dropServer result).ServerBound := by
    constructor
    · rw [toService_dropServer_sent]
      exact h.up
    · exact h.down
  cases result with
  | ok => exact absurd rfl hresult
  | failed e => exact ⟨hbound, rfl⟩
  | ioError => exact ⟨hbound, rfl⟩
  | logged => exact ⟨hbound, rfl⟩

/-- A server that copies goes on copying, or it is done. -/
theorem serverHolds_copied {up down : Transfer UInt8} (h : s.ServerCopies up down) :
    (s.serverCopied up down).ServerHolds E (s.serverCopied up down).server ∧
      s.ServerMoves (s.serverCopied up down) := by
  unfold serverCopied
  split
  · rename_i hfinished
    obtain ⟨rfl, rfl⟩ := hfinished
    refine ⟨.inl ?_, s.serverMoves_dropServer _⟩
    obtain ⟨hsome, request, answer, hframe, hanswer, hup, hdown⟩ := h
    refine ⟨hsome, request, answer, hframe, hanswer, ?_, ?_⟩
    · change Transfer.finished.Copies request [] s.toServer
        (if s.dialed.isSome then s.toService.close else s.toService)
      rwa [if_pos hsome, close_of_shut (hup.shut.mpr rfl)]
    · change Transfer.finished.Copies [] answer s.fromService s.toClient.close
      rwa [close_of_shut (hdown.shut.mpr rfl)]
  · rename_i hunfinished
    exact ⟨⟨h, hunfinished⟩, s.serverMoves_phase _⟩

/-- A server that has read more of the request holds it, or it has a service or an answer for it, or
it gives up. -/
theorem serverHolds_got {got chunk : List UInt8}
    (h : s.dialed = none ∧ s.toServer.received = got ++ chunk ∧ s.toClient.sent = [] ∧
      s.ServiceUntouched)
    (hgot : readFrame E.requestFromSlice got = none)
    (hchunk : chunk.length ≤ Framing.missing 4 got) :
    (s.serverGot E (got ++ chunk)).ServerHolds E (s.serverGot E (got ++ chunk)).server ∧
      s.ServerMoves (s.serverGot E (got ++ chunk)) ∧
      (s.serverGot E (got ++ chunk)).dialed = none := by
  obtain ⟨hnone, hreceived, hsent, hservice⟩ := h
  have hbound : s.ServerBound := ⟨.inl hservice.1, .inl hsent⟩
  unfold serverGot
  split
  · rename_i hmissing
    exact ⟨⟨hnone, hreceived, hmissing, hsent, hservice⟩, s.serverMoves_phase _, hnone⟩
  · exact ⟨serverHolds_dropServer hbound (by simp), s.serverMoves_dropServer _, hnone⟩
  · rename_i request hrequest
    have hframe : Framing.IsFrame 4 (got ++ chunk) := isFrame_of_readFrame hgot hchunk hrequest
    split
    · rename_i localAddr hlookup
      refine ⟨⟨hnone, ?_, ?_, hsent, hservice⟩, s.serverMoves_phase _, hnone⟩
      · refine ⟨got ++ chunk, request, hframe, ?_, hrequest, hlookup⟩
        change got ++ chunk <+: s.toServer.received
        rw [hreceived]
      · change Framing.IsFrame 4 s.toServer.received
        rwa [hreceived]
    · split
      · rename_i bytes hwrite
        refine ⟨⟨hnone, ?_, writeMessage_ne_nil hwrite, ?_, hservice⟩, s.serverMoves_phase _, hnone⟩
        · change Framing.IsFrame 4 s.toServer.received
          rwa [hreceived]
        · change Answer s.dialed (s.toClient.sent ++ bytes)
          rw [hsent]
          exact .inr ⟨hnone, _, hwrite⟩
      · exact ⟨serverHolds_dropServer hbound (by simp), s.serverMoves_dropServer _, hnone⟩

/-- A server that has connected to a service has an answer, and one that has not gives up. -/
theorem serverHolds_connected {localAddr : ServiceAddr} (connects : Bool)
    (h : s.ServerHolds E (.connecting localAddr)) :
    (s.serverConnected localAddr connects).ServerHolds E
        (s.serverConnected localAddr connects).server ∧
      s.ServerMoves (s.serverConnected localAddr connects) ∧
      (s.serverConnected localAddr connects).dialed = if connects then some localAddr else none := by
  obtain ⟨hnone, -, hframe, hsent, hservice⟩ := h
  have hfirst : s.dialed.isSome = true → (some localAddr) = s.dialed := by simp [hnone]
  unfold serverConnected
  cases connects with
  | false =>
    exact ⟨serverHolds_dropServer ⟨.inl hservice.1, .inl hsent⟩ (by simp),
      s.serverMoves_dropServer _, hnone⟩
  | true =>
    rw [if_pos rfl, if_pos rfl]
    split
    · rename_i bytes hwrite
      refine ⟨⟨rfl, hframe, writeMessage_ne_nil hwrite, ?_, hservice⟩,
        ⟨rfl, hfirst, .refl _, .refl _, .refl _, .refl _, rfl, rfl⟩, rfl⟩
      change Answer (some localAddr) (s.toClient.sent ++ bytes)
      rw [hsent]
      exact .inl ⟨rfl, hwrite⟩
    · rename_i e _
      have hfailed : SessionEnd.failed (.wire e) ≠ .ok := by simp
      have hconnects : s.ServerMoves { s with dialed := some localAddr } :=
        ⟨rfl, hfirst, .refl _, .refl _, .refl _, .refl _, rfl, rfl⟩
      refine ⟨?_, hconnects.trans (serverMoves_dropServer _ _), rfl⟩
      exact serverHolds_dropServer (s := { s with dialed := some localAddr })
        ⟨.inl hservice.1, .inl hsent⟩ hfailed

/-- The service that the server has connected to is one that it was asked for. -/
def DialsAsked (E : Endpoints) (s : Session) : Prop :=
  ∀ localAddr, s.dialed = some localAddr → s.Asked E localAddr

/-- An answer of which a part is written, and then another part. -/
theorem Answer.write {dialed : Option ServiceAddr} {p : Pipe UInt8} {left : List UInt8}
    (h : Answer dialed (p.sent ++ left)) (n : ℕ) :
    Answer dialed ((p.write (left.take n)).sent ++ left.drop n) := by
  rwa [Pipe.sent_write, List.append_assoc, List.take_append_drop]

/-- **Server step.** An action of the server keeps what it holds, and touches nothing else. -/
theorem serverHolds_step (h : s.ServerHolds E s.server) (hasked : s.DialsAsked E)
    (hstep : s.stepServer E a = some s') :
    s'.ServerHolds E s'.server ∧ s'.DialsAsked E ∧ s.ServerMoves s' := by
  -- the service stays the same, and what is asked for stays asked for
  have hkeep {s' : Session} (hmoves : s.ServerMoves s')
      (hdialed : s'.dialed = s.dialed) : s'.DialsAsked E := by
    intro localAddr hlocalAddr
    exact (hasked localAddr (hdialed ▸ hlocalAddr)).mono hmoves.toServer.received
  cases stepServer_cases hstep with
  | @read got n hserver hpos hn =>
    rw [hserver] at h
    obtain ⟨hnone, hreceived, hgot, hsent, hservice⟩ := h
    have hpipe : (s.toServer.read n).received = got ++ s.toServer.unread.take n := by
      rw [Pipe.received_read, hreceived]
    obtain ⟨hholds, hmoves, hdialed⟩ := serverHolds_got
      (s := { s with toServer := s.toServer.read n }) ⟨hnone, hpipe, hsent, hservice⟩ hgot
      ((List.length_take_le _ _).trans hn)
    have hreads : s.ServerMoves { s with toServer := s.toServer.read n } :=
      ⟨rfl, fun _ => rfl, s.toServer.reads_read n, .refl _, .refl _, .refl _, rfl, rfl⟩
    have hall := hreads.trans hmoves
    exact ⟨hholds, hkeep hall (hdialed.trans hnone.symm), hall⟩
  | eof =>
    have hmoves := s.serverMoves_dropServer (.failed (.wire .unexpectedEof))
    exact ⟨serverHolds_dropServer h.bound (by simp), hkeep hmoves rfl, hmoves⟩
  | @connect localAddr connects hserver =>
    rw [hserver] at h
    obtain ⟨hholds, hmoves, hdialed⟩ := serverHolds_connected connects h
    refine ⟨hholds, fun localAddr' hlocalAddr => ?_, hmoves⟩
    rw [hdialed] at hlocalAddr
    split at hlocalAddr
    · cases hlocalAddr
      exact h.2.1.mono hmoves.toServer.received
    · cases hlocalAddr
  | @reject left n hserver _ _ hrest =>
    rw [hserver] at h
    obtain ⟨hnone, hframe, -, hanswer, hservice⟩ := h
    have hmoves : s.ServerMoves { s with
        toClient := s.toClient.write (left.take n), server := .rejecting (left.drop n) } :=
      ⟨rfl, fun _ => rfl, .refl _, .refl _, .refl _, Pipe.writes_write hservice.2.2.2 _, rfl, rfl⟩
    exact ⟨⟨hnone, hframe, hrest, hanswer.write n, hservice⟩, hkeep hmoves rfl, hmoves⟩
  | @rejected left n hserver _ _ hrest =>
    rw [hserver] at h
    obtain ⟨hnone, -, -, hanswer, hservice⟩ := h
    have hwritten := hanswer.write n
    rw [hrest, List.append_nil] at hwritten
    have hmoves : s.ServerMoves { s with toClient := s.toClient.write (left.take n) } :=
      ⟨rfl, fun _ => rfl, .refl _, .refl _, .refl _, Pipe.writes_write hservice.2.2.2 _, rfl, rfl⟩
    have hall := hmoves.trans (serverMoves_dropServer _ .ok)
    refine ⟨.inr ⟨hnone, hwritten, ?_, ?_, hservice.2.2.1, rfl⟩, hkeep hall rfl, hall⟩
    · exact (toService_dropServer_sent _ _).trans hservice.1
    · change (if s.dialed.isSome then s.toService.close else s.toService).shut = false
      rw [hnone]
      exact hservice.2.1
  | @accept left n hserver =>
    rw [hserver] at h
    obtain ⟨hsome, hframe, -, hanswer, hservice⟩ := h
    have hwritten := hanswer.write n
    have hmoves (phase : ServerPhase) : s.ServerMoves { s with
        server := phase, toClient := s.toClient.write (left.take n) } :=
      ⟨rfl, fun _ => rfl, .refl _, .refl _, .refl _, Pipe.writes_write hservice.2.2.2 _, rfl, rfl⟩
    refine ⟨?_, hkeep (hmoves _) rfl, hmoves _⟩
    dsimp only
    split
    · rename_i hrest
      rw [hrest, List.append_nil] at hwritten
      refine ⟨⟨hsome, s.toServer.received, _, hframe, hwritten, ?_, ?_⟩, by simp⟩
      · exact Transfer.copies_new rfl hservice.1 hservice.2.1
      · exact Transfer.copies_new hservice.2.2.1 rfl hservice.2.2.2
    · rename_i hrest
      exact ⟨hsome, hframe, hrest, hwritten, hservice⟩
  | @up up down up' toServer toService b hserver hcopy =>
    rw [hserver] at h
    obtain ⟨⟨hsome, request, answer, hframe, hanswer, hup, hdown⟩, -⟩ := h
    obtain ⟨hup', hreads, hwrites⟩ := hup.step hcopy
    have hcopies : s.ServerMoves { s with toServer := toServer, toService := toService } :=
      ⟨rfl, fun _ => rfl, hreads, hwrites, .refl _, .refl _, rfl, rfl⟩
    obtain ⟨hholds, hmoves⟩ := serverHolds_copied (E := E)
      (s := { s with toServer := toServer, toService := toService })
      ⟨hsome, request, answer, hframe, hanswer, hup', hdown⟩
    exact ⟨hholds, hkeep (hcopies.trans hmoves) (hmoves.dialed hsome), hcopies.trans hmoves⟩
  | @down up down down' fromService toClient b hserver hcopy =>
    rw [hserver] at h
    obtain ⟨⟨hsome, request, answer, hframe, hanswer, hup, hdown⟩, -⟩ := h
    obtain ⟨hdown', hreads, hwrites⟩ := hdown.step hcopy
    have hcopies : s.ServerMoves { s with fromService := fromService, toClient := toClient } :=
      ⟨rfl, fun _ => rfl, .refl _, .refl _, hreads, hwrites, rfl, rfl⟩
    obtain ⟨hholds, hmoves⟩ := serverHolds_copied (E := E)
      (s := { s with fromService := fromService, toClient := toClient })
      ⟨hsome, request, answer, hframe, hanswer, hup, hdown'⟩
    exact ⟨hholds, hkeep (hcopies.trans hmoves) (hmoves.dialed hsome), hcopies.trans hmoves⟩
  | fail =>
    have hmoves := s.serverMoves_dropServer .ioError
    exact ⟨serverHolds_dropServer h.bound (by simp), hkeep hmoves rfl, hmoves⟩
  | logged =>
    have hmoves := s.serverMoves_dropServer .logged
    exact ⟨serverHolds_dropServer h.bound (by simp), hkeep hmoves rfl, hmoves⟩

end Session

end Punchgate
