import Punchgate.Session.Server

/-!
# Safety of tunnel sessions

Neither the request nor the response gets into what the application and the service say to each
other, whatever the order of actions and however the streams are cut into chunks: each reads a
prefix of what the other has written, and nothing is lost unless one of the two functions fails.
-/

namespace Punchgate

namespace Session

variable {E : Endpoints} {s s' : Session} {a : SessionAction}

/-- What holds of a session at all times. -/
structure Safe (E : Endpoints) (s : Session) : Prop where
  /-- The client. -/
  client : s.ClientSafe E
  /-- The server. -/
  server : s.ServerHolds E s.server
  /-- The service. -/
  asked : s.DialsAsked E
  /-- A service that is not connected says nothing. -/
  unserved : s.dialed = none → s.fromService.sent = []

/-- A session begins safely. -/
theorem safe_start (E : Endpoints) : (start E).Safe E := by
  have hread : readFrame E.requestFromSlice [] = none := rfl
  unfold start
  split
  · rename_i bytes hwrite
    refine ⟨.inl ⟨bytes, hwrite, ?_⟩, ?_, fun _ h => (by cases h), fun _ => rfl⟩
    · exact ⟨rfl, writeMessage_ne_nil hwrite, rfl, rfl, rfl, rfl, rfl⟩
    · exact ⟨rfl, rfl, hread, rfl, rfl, rfl, rfl, rfl⟩
  · rename_i e _
    refine ⟨.inr ⟨⟨.wire e, rfl⟩, rfl, rfl, rfl, rfl⟩, ?_, fun _ h => (by cases h), fun _ => rfl⟩
    exact ⟨rfl, rfl, hread, rfl, rfl, rfl, rfl, rfl⟩

/-- A client that has returned does nothing. -/
theorem stepClient_returned {result : SessionEnd} (h : s.client = .returned result) :
    s.stepClient E a = none := by
  cases a <;> simp [stepClient, h]

/-- What the client keeps in order when others act. -/
theorem ClientSafe.stable (h : s.ClientSafe E) (hclient : s'.client = s.client)
    (hfromApp : s.fromApp.Writes s'.fromApp) (htoServer : s.toServer.Reads s'.toServer)
    (htoClient : s.toClient.Writes s'.toClient) (htoApp : s.toApp.Reads s'.toApp) :
    s'.ClientSafe E := by
  unfold ClientSafe
  rw [hclient, htoServer.sent, htoServer.shut, hfromApp.received, htoApp.sent]
  refine h.imp_left fun ⟨request, hwrite, hholds⟩ => ⟨request, hwrite, ?_⟩
  exact hholds.stable hfromApp htoServer htoClient htoApp

/-- What the application and the service touch. -/
structure OutsideMoves (s s' : Session) : Prop where
  client : s'.client = s.client
  server : s'.server = s.server
  dialed : s'.dialed = s.dialed
  fromApp : s.fromApp.Writes s'.fromApp
  toApp : s.toApp.Reads s'.toApp
  toService : s.toService.Reads s'.toService
  fromService : s.fromService.Writes s'.fromService
  toServer : s'.toServer = s.toServer
  toClient : s'.toClient = s.toClient
  unserved : s.dialed = none → s'.fromService = s.fromService

/-- The application and the service touch nothing else. -/
theorem outsideMoves_step (hstep : s.stepOutside a = some s') : s.OutsideMoves s' := by
  have hservice (h : s.dialed.isSome = true) {p : Pipe UInt8} (hnone : s.dialed = none) :
      p = s.fromService := by
    rw [hnone] at h
    cases h
  cases a with
  | appWrite bytes =>
    simp only [stepOutside] at hstep
    split at hstep
    · cases hstep
    · rename_i hshut
      cases hstep
      have hwrites := Pipe.writes_write (Bool.eq_false_iff.mpr hshut) bytes
      exact ⟨rfl, rfl, rfl, hwrites, .refl _, .refl _, .refl _, rfl, rfl, fun _ => rfl⟩
  | appShut =>
    cases hstep
    exact ⟨rfl, rfl, rfl, s.fromApp.writes_close, .refl _, .refl _, .refl _, rfl, rfl, fun _ => rfl⟩
  | appRead n =>
    simp only [stepOutside] at hstep
    split at hstep
    · cases hstep
      exact ⟨rfl, rfl, rfl, .refl _, s.toApp.reads_read n, .refl _, .refl _, rfl, rfl, fun _ => rfl⟩
    · cases hstep
  | serviceWrite bytes =>
    simp only [stepOutside] at hstep
    split at hstep
    · rename_i h
      cases hstep
      have hwrites := Pipe.writes_write h.2 bytes
      exact ⟨rfl, rfl, rfl, .refl _, .refl _, .refl _, hwrites, rfl, rfl, hservice h.1⟩
    · cases hstep
  | serviceShut =>
    simp only [stepOutside] at hstep
    split at hstep
    · rename_i h
      cases hstep
      exact ⟨rfl, rfl, rfl, .refl _, .refl _, .refl _, s.fromService.writes_close, rfl, rfl,
        hservice h⟩
    · cases hstep
  | serviceRead n =>
    simp only [stepOutside] at hstep
    split at hstep
    · cases hstep
      exact ⟨rfl, rfl, rfl, .refl _, .refl _, s.toService.reads_read n, .refl _, rfl, rfl,
        fun _ => rfl⟩
    · cases hstep
  | _ => cases hstep

/-- The application and the service keep a session safe. -/
theorem Safe.afterOutside (h : s.Safe E) (hstep : s.stepOutside a = some s') : s'.Safe E := by
  obtain ⟨hclient, hserver, hdialed, hfromApp, htoApp, htoService, hfromService, htoServer,
    htoClient, hunserved⟩ := outsideMoves_step hstep
  refine ⟨h.client.stable hclient hfromApp (htoServer ▸ .refl _) (htoClient ▸ .refl _) htoApp,
    ?_, ?_, ?_⟩
  · rw [hserver]
    exact h.server.stable hdialed (htoServer ▸ .refl _) htoService hfromService
      (htoClient ▸ .refl _)
  · intro localAddr hlocalAddr
    exact (h.asked localAddr (hdialed ▸ hlocalAddr)).mono (by rw [htoServer])
  · intro hnone
    rw [hunserved (hdialed ▸ hnone)]
    exact h.unserved (hdialed ▸ hnone)

/-- The client keeps a session safe. -/
theorem Safe.afterClient (h : s.Safe E) (hstep : s.stepClient E a = some s') : s'.Safe E := by
  rcases h.client with ⟨request, hwrite, hholds⟩ | ⟨⟨e, hreturned⟩, -⟩
  · obtain ⟨hholds', hmoves⟩ := clientHolds_step hholds hstep
    refine ⟨.inl ⟨request, hwrite, hholds'⟩, ?_, ?_, ?_⟩
    · rw [hmoves.server]
      exact h.server.stable hmoves.dialed hmoves.toServer (hmoves.toService ▸ .refl _)
        (hmoves.fromService ▸ .refl _) hmoves.toClient
    · intro localAddr hlocalAddr
      refine (h.asked localAddr (hmoves.dialed ▸ hlocalAddr)).mono ?_
      rw [hmoves.toServer.received]
    · rw [hmoves.dialed, hmoves.fromService]
      exact h.unserved
  · rw [stepClient_returned hreturned] at hstep
    cases hstep

/-- The server keeps a session safe. -/
theorem Safe.afterServer (h : s.Safe E) (hstep : s.stepServer E a = some s') : s'.Safe E := by
  obtain ⟨hholds, hasked, hmoves⟩ := serverHolds_step h.server h.asked hstep
  refine ⟨h.client.stable hmoves.client (hmoves.fromApp ▸ .refl _) hmoves.toServer
    hmoves.toClient (hmoves.toApp ▸ .refl _), hholds, hasked, fun hnone => ?_⟩
  rw [hmoves.fromService.sent]
  refine h.unserved (Option.not_isSome_iff_eq_none.mp fun hsome => ?_)
  rw [hmoves.dialed hsome] at hnone
  simp [hnone] at hsome

/-- **Step.** Every action of a session keeps it safe. -/
theorem Safe.step (h : s.Safe E) (hstep : s.step E a = some s') : s'.Safe E := by
  rw [Session.step, Option.or_eq_some_iff, Option.or_eq_some_iff] at hstep
  rcases hstep with hstep | ⟨-, hstep | ⟨-, hstep⟩⟩
  · exact h.afterOutside hstep
  · exact h.afterClient hstep
  · exact h.afterServer hstep

/-- **Run.** A session is safe at all times. -/
theorem Safe.run (h : s.Safe E) {as : List SessionAction} (hrun : s.run E as = some s') :
    s'.Safe E := by
  induction as generalizing s with
  | nil =>
    cases hrun
    exact h
  | cons a as ih =>
    obtain ⟨t, hstep, hrest⟩ := Option.bind_eq_some_iff.mp hrun
    exact ih (h.step hstep) hrest

/-! ## What is forwarded -/

/-- The service is sent what the client has read of the application, but for a rest. -/
theorem Safe.forward (h : s.Safe E) : s.toService.sent <+: s.fromApp.received := by
  rcases h.server.bound.up with hnone | ⟨frame, hframe, hstripped⟩
  · rw [hnone]
    exact List.nil_prefix
  · have hstream := hstripped.trans s.toServer.received_isPrefix
    rcases h.client with ⟨request, hwrite, hholds⟩ | ⟨-, hsent, -⟩
    · have hrequest := isFrame_writeMessage hwrite
      exact (hframe.append_prefix_append hrequest (hstream.trans hholds.bound.up)).2
    · rw [hsent, List.prefix_nil] at hstream
      exact absurd (List.append_eq_nil_iff.mp hstream).1 hframe.ne_nil

/-- The client has read an acceptance before it reads from the application or writes to it. -/
theorem Safe.accepted (h : s.Safe E) (hserves : s.fromApp.received ≠ [] ∨ s.toApp.sent ≠ []) :
    ∃ frame response, Framing.IsFrame 4 frame ∧
      readFrame E.responseFromSlice frame = some (.ok response) ∧ response.accepted = true ∧
      frame ++ s.toApp.sent <+: s.toClient.received := by
  rcases h.client with ⟨request, -, hholds⟩ | ⟨-, -, -, hread, hsent⟩
  · refine hholds.bound.down.resolve_left fun ⟨hread, hsent⟩ => ?_
    exact hserves.elim (fun h => h hread) fun h => h hsent
  · exact absurd hserves (not_or.mpr ⟨not_not_intro hread, not_not_intro hsent⟩)

/-- A client that has read a frame has read the answer of the server. -/
theorem Safe.answered (h : s.Safe E) {frame rest : List UInt8} (hframe : Framing.IsFrame 4 frame)
    (hread : frame ++ rest <+: s.toClient.received) :
    Answer s.dialed frame ∧ rest <+: s.fromService.received := by
  have hstream := hread.trans s.toClient.received_isPrefix
  rcases h.server.bound.down with hnone | ⟨answer, hanswer, hsent⟩
  · rw [hnone, List.prefix_nil] at hstream
    exact absurd (List.append_eq_nil_iff.mp hstream).1 hframe.ne_nil
  · obtain ⟨rfl, hrest⟩ :=
      hframe.append_prefix_append (isFrame_answer hanswer) (hstream.trans hsent)
    exact ⟨hanswer, hrest⟩

/-- The application is sent what the server has read of the service, but for a rest. -/
theorem Safe.backward (h : s.Safe E) : s.toApp.sent <+: s.fromService.received := by
  by_cases hsent : s.toApp.sent = []
  · rw [hsent]
    exact List.nil_prefix
  · obtain ⟨frame, -, hframe, -, -, hread⟩ := h.accepted (.inr hsent)
    exact (h.answered hframe hread).2

/-! A session in which three bytes go to the service and one comes back. -/

/-- Parsing that accepts a given message, and the others as they are written. -/
noncomputable def knownFromSlice {T : Type} [Serialize T] (known : T) (bytes : List UInt8) :
    Except String T :=
  if bytes = Serialize.toVec known then .ok known else compactFromSlice bytes

/-- It undoes writing, if messages are determined by their texts. -/
theorem knownFromSlice_undoes {T : Type} [Serialize T]
    (h : Function.Injective (Serialize.toVec : T → List UInt8)) (known : T) :
    Undoes (knownFromSlice known) := by
  intro msg
  unfold knownFromSlice
  split
  · rename_i heq
    rw [h heq]
  · exact compactFromSlice_undoes h msg

/-- The buffers of `copy_bidirectional`, and streams that hold 64 KiB. -/
def usualLimits : Limits := ⟨8192, 65536, 65536, 65536, 65536⟩

/-- A server with one service, and a client that asks for it. -/
noncomputable def webEndpoints : Endpoints where
  serviceName := ⟨"web"⟩
  services := (∅ : FiniteMap ServiceName ServiceAddr).insert ⟨"web"⟩ ⟨.domain "localhost", 80⟩
  requestFromSlice := knownFromSlice ⟨⟨"web"⟩⟩
  responseFromSlice := knownFromSlice ⟨true, none⟩
  limits := usualLimits

/-- The actions of the session, to its end. -/
def webActions : List SessionAction :=
  [.clientWrite 26, .serverRead 4, .serverRead 22, .serverConnect true, .serverWrite 21,
    .clientRead 4, .clientRead 17, .appWrite [1, 2, 3], .clientUp (.read 2), .clientUp (.write 1),
    .clientUp (.read 1), .clientUp (.write 2), .serverUp (.read 3), .serverUp (.write 3),
    .serviceRead 3, .serviceWrite [9], .serviceShut, .serverDown (.read 1), .serverDown (.write 1),
    .serverDown .eof, .serverDown .shutdown, .clientDown (.read 1), .clientDown (.write 1),
    .clientDown .eof, .clientDown .shutdown, .appRead 1, .appShut, .clientUp .eof,
    .clientUp .shutdown, .serverUp .eof, .serverUp .shutdown]

/-- Every action is possible. -/
theorem run_webActions_isSome :
    ((start webEndpoints).run webEndpoints webActions).isSome = true := by
  decide +kernel

/-- The session at its end. -/
noncomputable def webSession : Session :=
  ((start webEndpoints).run webEndpoints webActions).get run_webActions_isSome

/-- The actions lead there. -/
theorem run_webActions : (start webEndpoints).run webEndpoints webActions = some webSession :=
  (Option.some_get run_webActions_isSome).symm

/-- What is read at one end is what was written at the other. -/
theorem Safe.transparent (h : s.Safe E) :
    s.toService.received <+: s.fromApp.sent ∧ s.toApp.received <+: s.fromService.sent := by
  constructor
  · exact s.toService.received_isPrefix.trans (h.forward.trans s.fromApp.received_isPrefix)
  · exact s.toApp.received_isPrefix.trans (h.backward.trans s.fromService.received_isPrefix)

/-- **Transparency.** However the four parties interleave, fail, and cut the streams into chunks,
the service reads a prefix of what the application has written, and the application reads a prefix
of what the service has written. -/
theorem session_transparent {as : List SessionAction} (h : (start E).run E as = some s) :
    s.toService.received <+: s.fromApp.sent ∧ s.toApp.received <+: s.fromService.sent :=
  ((safe_start E).run h).transparent

/-- The service has read what the application wrote. -/
theorem session_transparent_web :
    webSession.toService.received <+: webSession.fromApp.sent ∧
      webSession.toApp.received <+: webSession.fromService.sent :=
  session_transparent run_webActions

/-! ## What is reached -/

/-- What is read of a message that was written is the message. -/
theorem eq_of_readFrame {T : Type} [Serialize T] {fromSlice : List UInt8 → Except String T}
    (hundoes : Undoes fromSlice) {msg msg' : T} {frame : List UInt8}
    (hwrite : writeMessage msg = .ok frame) (hread : readFrame fromSlice frame = some (.ok msg')) :
    msg' = msg := by
  have hmessage := readMessage_of_readFrame (isFrame_writeMessage hwrite) hread []
  have hlimit := readMessage_append hundoes hwrite []
  rw [hmessage] at hlimit
  split at hlimit
  · exact (Prod.mk.inj (Except.ok.inj hlimit)).1
  · cases hlimit

/-- If parsing undoes writing, the server connects to the service that the client asks for. -/
theorem Safe.dialed_eq (h : s.Safe E) (hrequest : Undoes E.requestFromSlice)
    {localAddr : ServiceAddr} (hdialed : s.dialed = some localAddr) :
    E.services.get? E.serviceName = some localAddr := by
  obtain ⟨frame, request, hframe, hfront, hread, hlookup⟩ := h.asked localAddr hdialed
  have hstream := hfront.trans s.toServer.received_isPrefix
  rcases h.client with ⟨bytes, hwrite, hholds⟩ | ⟨-, hsent, -⟩
  · rw [← List.append_nil frame] at hstream
    obtain ⟨rfl, -⟩ := hframe.append_prefix_append (isFrame_writeMessage hwrite)
      (hstream.trans hholds.bound.up)
    rwa [eq_of_readFrame hrequest hwrite hread] at hlookup
  · rw [hsent, List.prefix_nil] at hstream
    exact absurd hstream hframe.ne_nil

/-- **Reach.** If parsing undoes writing, the server connects to no service but the one that the
client asks for, and the client neither reads from the application nor writes to it before the
server has connected. -/
theorem session_reaches_named_service (hrequest : Undoes E.requestFromSlice)
    (hresponse : Undoes E.responseFromSlice) {as : List SessionAction}
    (h : (start E).run E as = some s) :
    (∀ localAddr, s.dialed = some localAddr →
      E.services.get? E.serviceName = some localAddr) ∧
    (s.fromApp.received ≠ [] ∨ s.toApp.sent ≠ [] → s.dialed.isSome = true) := by
  have hsafe := (safe_start E).run h
  refine ⟨fun _ => hsafe.dialed_eq hrequest, fun hserves => ?_⟩
  obtain ⟨frame, response, hframe, hread, haccepted, hfront⟩ := hsafe.accepted hserves
  rcases (hsafe.answered hframe hfront).1 with ⟨hsome, -⟩ | ⟨-, reason, hwrite⟩
  · exact hsome
  · rw [eq_of_readFrame hresponse hwrite hread] at haccepted
    cases haccepted

/-- The server has connected to the one service it has. -/
theorem session_reaches_named_service_web :
    (∀ localAddr, webSession.dialed = some localAddr →
      webEndpoints.services.get? webEndpoints.serviceName = some localAddr) ∧
    (webSession.fromApp.received ≠ [] ∨ webSession.toApp.sent ≠ [] →
      webSession.dialed.isSome = true) :=
  session_reaches_named_service (knownFromSlice_undoes toVec_request_injective _)
    (knownFromSlice_undoes toVec_response_injective _) run_webActions

/-! ## What arrives -/

/-- A client that has not failed shuts the stream to the server when all of it is copied. -/
theorem ClientHolds.toServer_shut {request : List UInt8} {phase : ClientPhase}
    (h : s.ClientHolds E request phase) (hfailed : phase.failed = false)
    (hshut : s.toServer.shut = true) :
    Transfer.finished.Copies [] request s.fromApp s.toServer := by
  cases phase with
  | requesting left =>
    rw [h.2.2.1] at hshut
    cases hshut
  | awaiting got =>
    rw [h.2.1] at hshut
    cases hshut
  | copying up down =>
    have hup := h.1.1
    rwa [hup.shut.mp hshut] at hup
  | returned result =>
    cases result with
    | ok => exact h.1
    | failed e => cases hfailed
    | ioError => cases hfailed
    | logged => cases hfailed

/-- A client that has not failed shuts the stream to the application when all of it is copied. -/
theorem ClientHolds.toApp_shut {request : List UInt8} {phase : ClientPhase}
    (h : s.ClientHolds E request phase) (hfailed : phase.failed = false)
    (hshut : s.toApp.shut = true) :
    ∃ frame response, Framing.IsFrame 4 frame ∧
      readFrame E.responseFromSlice frame = some (.ok response) ∧ response.accepted = true ∧
      Transfer.finished.Copies frame [] s.toClient s.toApp := by
  cases phase with
  | requesting left =>
    rw [h.2.2.2.2.2.2] at hshut
    cases hshut
  | awaiting got =>
    rw [h.2.2.2.2.2.2] at hshut
    cases hshut
  | copying up down =>
    obtain ⟨⟨-, frame, response, hframe, hread, haccepted, hdown⟩, -⟩ := h
    rw [hdown.shut.mp hshut] at hdown
    exact ⟨frame, response, hframe, hread, haccepted, hdown⟩
  | returned result =>
    cases result with
    | ok => exact h.2
    | failed e => cases hfailed
    | ioError => cases hfailed
    | logged => cases hfailed

/-- A server that has not failed shuts the stream to the service when all of it is copied. -/
theorem ServerHolds.toService_shut {phase : ServerPhase} (h : s.ServerHolds E phase)
    (hfailed : phase.failed = false) (hshut : s.toService.shut = true) :
    ∃ request, Framing.IsFrame 4 request ∧
      Transfer.finished.Copies request [] s.toServer s.toService := by
  have huntouched (h : s.ServiceUntouched) : False := by
    rw [h.2.1] at hshut
    cases hshut
  cases phase with
  | reading got => exact (huntouched h.2.2.2.2).elim
  | rejecting left => exact (huntouched h.2.2.2.2).elim
  | connecting localAddr => exact (huntouched h.2.2.2.2).elim
  | accepting left => exact (huntouched h.2.2.2.2).elim
  | copying up down =>
    obtain ⟨⟨-, request, -, hframe, -, hup, -⟩, -⟩ := h
    rw [hup.shut.mp hshut] at hup
    exact ⟨request, hframe, hup⟩
  | returned result =>
    cases result with
    | ok =>
      rcases h with ⟨-, request, -, hframe, -, hup, -⟩ | ⟨-, -, -, hopen, -⟩
      · exact ⟨request, hframe, hup⟩
      · rw [hopen] at hshut
        cases hshut
    | failed e => cases hfailed
    | ioError => cases hfailed
    | logged => cases hfailed

/-- A server that has not failed shuts the stream to the client when all of it is copied, or when it
has refused. -/
theorem ServerHolds.toClient_shut {phase : ServerPhase} (h : s.ServerHolds E phase)
    (hfailed : phase.failed = false) (hshut : s.toClient.shut = true) :
    (∃ answer, Answer s.dialed answer ∧
      Transfer.finished.Copies [] answer s.fromService s.toClient) ∨
      s.dialed = none ∧ Answer s.dialed s.toClient.sent := by
  have huntouched (h : s.ServiceUntouched) : False := by
    rw [h.2.2.2] at hshut
    cases hshut
  cases phase with
  | reading got => exact (huntouched h.2.2.2.2).elim
  | rejecting left => exact (huntouched h.2.2.2.2).elim
  | connecting localAddr => exact (huntouched h.2.2.2.2).elim
  | accepting left => exact (huntouched h.2.2.2.2).elim
  | copying up down =>
    obtain ⟨⟨-, -, answer, -, hanswer, -, hdown⟩, -⟩ := h
    rw [hdown.shut.mp hshut] at hdown
    exact .inl ⟨answer, hanswer, hdown⟩
  | returned result =>
    cases result with
    | ok =>
      rcases h with ⟨-, -, answer, -, hanswer, -, hdown⟩ | ⟨hnone, hanswer, -⟩
      · exact .inl ⟨answer, hanswer, hdown⟩
      · exact .inr ⟨hnone, hanswer⟩
    | failed e => cases hfailed
    | ioError => cases hfailed
    | logged => cases hfailed

/-- What the service is sent when its stream is shut. -/
theorem Safe.toService_shut (h : s.Safe E) (hclient : s.client.failed = false)
    (hserver : s.server.failed = false) (hshut : s.toService.shut = true) :
    s.fromApp.shut = true ∧ s.toService.sent = s.fromApp.sent := by
  obtain ⟨frame, hframe, hup⟩ := h.server.toService_shut hserver hshut
  obtain ⟨copied, hread, hsent, hend, -, -⟩ := hup.finished
  rcases h.client with ⟨request, hwrite, hholds⟩ | ⟨⟨e, hreturned⟩, -⟩
  · obtain ⟨copied', hread', hsent', hend', -, -⟩ := (hholds.toServer_shut hclient hend).finished
    have hstream : frame ++ copied = request ++ copied' := by rw [← hread, ← hsent']
    have hfront : frame ++ copied <+: request ++ copied' := by rw [hstream]
    obtain ⟨rfl, -⟩ := hframe.append_prefix_append (isFrame_writeMessage hwrite) hfront
    rw [List.append_cancel_left_eq] at hstream
    exact ⟨hend', by rw [hsent, hread', hstream]⟩
  · rw [hreturned] at hclient
    cases hclient

/-- What the application is sent when its stream is shut. -/
theorem Safe.toApp_shut (h : s.Safe E) (hclient : s.client.failed = false)
    (hserver : s.server.failed = false) (hresponse : Undoes E.responseFromSlice)
    (hshut : s.toApp.shut = true) :
    s.fromService.shut = true ∧ s.toApp.sent = s.fromService.sent := by
  rcases h.client with ⟨request, -, hholds⟩ | ⟨⟨e, hreturned⟩, -⟩
  · obtain ⟨frame, response, hframe, hread, haccepted, hdown⟩ := hholds.toApp_shut hclient hshut
    obtain ⟨copied, hstream, hsent, hend, -, -⟩ := hdown.finished
    rcases h.server.toClient_shut hserver hend with ⟨answer, hanswer, hdown'⟩ | ⟨hnone, hanswer⟩
    · obtain ⟨copied', hread', hsent', hend', -, -⟩ := hdown'.finished
      rw [hsent'] at hstream
      have hfront : frame ++ copied <+: answer ++ copied' := by rw [hstream]
      obtain ⟨rfl, -⟩ := hframe.append_prefix_append (isFrame_answer hanswer) hfront
      rw [List.append_cancel_left_eq] at hstream
      exact ⟨hend', by rw [hsent, hread', hstream]⟩
    · -- a refusal is not read as an acceptance
      have hfront : frame ++ [] <+: s.toClient.sent ++ [] := by
        rw [hstream, List.append_nil, List.append_nil]
        exact List.prefix_append _ _
      obtain ⟨heq, -⟩ := hframe.append_prefix_append (isFrame_answer hanswer) hfront
      rw [← heq] at hanswer
      rcases hanswer with ⟨hsome, -⟩ | ⟨-, reason, hwrite⟩
      · rw [hnone] at hsome
        cases hsome
      · rw [eq_of_readFrame hresponse hwrite hread] at haccepted
        cases haccepted
  · rw [hreturned] at hclient
    cases hclient

/-- **Delivery.** While neither function has failed, the end of a stream is the end of everything:
the service sees it when it was sent all that the application has written, and the application when
it was sent all that the service has written. -/
theorem session_delivers (hresponse : Undoes E.responseFromSlice) {as : List SessionAction}
    (h : (start E).run E as = some s) (hclient : s.client.failed = false)
    (hserver : s.server.failed = false) :
    (s.toService.shut = true → s.fromApp.shut = true ∧ s.toService.sent = s.fromApp.sent) ∧
      (s.toApp.shut = true → s.fromService.shut = true ∧ s.toApp.sent = s.fromService.sent) := by
  have hsafe := (safe_start E).run h
  exact ⟨hsafe.toService_shut hclient hserver, hsafe.toApp_shut hclient hserver hresponse⟩

/-- At the end all of the three bytes and of the one byte have arrived. -/
theorem session_delivers_web :
    (webSession.toService.shut = true → webSession.fromApp.shut = true ∧
      webSession.toService.sent = webSession.fromApp.sent) ∧
    (webSession.toApp.shut = true → webSession.fromService.shut = true ∧
      webSession.toApp.sent = webSession.fromService.sent) :=
  session_delivers (knownFromSlice_undoes toVec_response_injective _) run_webActions
    (by decide +kernel) (by decide +kernel)

end Session

end Punchgate
