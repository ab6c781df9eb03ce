import Punchgate.Session

/-!
# The client of a tunnel session

`client_tunnel_session` writes its request before anything of the application, and it copies only
after it has read an acceptance. What it does in each phase is a condition on the streams that it
reads and writes, and the other parties cannot break it.
-/

namespace Punchgate

/-- A message is a frame. -/
theorem isFrame_writeMessage {T : Type} [Serialize T] {msg : T} {bytes : List UInt8}
    (h : writeMessage msg = .ok bytes) : Framing.IsFrame 4 bytes := by
  obtain ⟨hlength, rfl⟩ := writeMessage_eq_ok_iff.mp h
  exact Framing.isFrame_append (by omega)

/-- A message has bytes. -/
theorem writeMessage_ne_nil {T : Type} [Serialize T] {msg : T} {bytes : List UInt8}
    (h : writeMessage msg = .ok bytes) : bytes ≠ [] :=
  (isFrame_writeMessage h).ne_nil

/-- Bytes that are read as a message are a frame. -/
theorem isFrame_of_readFrame {T : Type} {fromSlice : List UInt8 → Except String T}
    {got chunk : List UInt8} {msg : T} (hgot : readFrame fromSlice got = none)
    (hchunk : chunk.length ≤ Framing.missing 4 got)
    (h : readFrame fromSlice (got ++ chunk) = some (.ok msg)) : Framing.IsFrame 4 (got ++ chunk) := by
  have hmissing : Framing.missing 4 (got ++ chunk) = 0 := by
    unfold readFrame at h
    split at h
    · cases h
    · split at h
      · split at h
        · assumption
        · cases h
      · cases h
  refine Framing.isFrame_of_missing hchunk hmissing ?_
  unfold readFrame at hgot
  split at hgot
  · rename_i hshort
    exact .inl hshort
  · split at hgot
    · split at hgot
      · cases hgot
      · omega
    · cases hgot

/-- A reader that asks for no more than is missing has no more than a frame. -/
theorem length_le_of_readFrame {T : Type} {fromSlice : List UInt8 → Except String T}
    {got chunk : List UInt8} (hgot : readFrame fromSlice got = none)
    (hchunk : chunk.length ≤ Framing.missing 4 got) :
    (got ++ chunk).length ≤ 4 + Framing.fromBeBytes ((got ++ chunk).take 4) := by
  unfold readFrame at hgot
  unfold Framing.missing at hgot hchunk
  rw [List.length_append]
  split at hgot
  · rename_i hshort
    rw [if_pos hshort] at hchunk
    omega
  · rename_i hlong
    rw [if_neg hlong] at hchunk
    rw [List.take_append_of_le_length (by omega)]
    split at hgot
    · split at hgot
      · cases hgot
      · omega
    · cases hgot

/-- Reading in pieces ends as reading from the whole stream does. -/
theorem readMessage_of_length_le {T : Type} {fromSlice : List UInt8 → Except String T}
    {frame : List UInt8} {result : Except WireError T}
    (hlength : frame.length ≤ 4 + Framing.fromBeBytes (frame.take 4))
    (h : readFrame fromSlice frame = some result) (rest : List UInt8) :
    readMessage fromSlice (frame ++ rest) = result.map fun msg => (msg, rest) := by
  unfold readFrame at h
  split at h
  · cases h
  · rename_i hshort
    have hsplit : frame ++ rest = frame.take 4 ++ (frame.drop 4 ++ rest) := by
      rw [← List.append_assoc, List.take_append_drop]
    have htake : (frame.take 4).length = 4 := by
      rw [List.length_take]
      omega
    rw [readMessage, hsplit, Framing.readExact_append _ htake]
    dsimp only
    split at h
    · rename_i hlen
      split at h
      · rename_i hmissing
        have hdrop : (frame.drop 4).length = Framing.fromBeBytes (frame.take 4) := by
          rw [Framing.missing, if_neg hshort] at hmissing
          rw [List.length_drop]
          omega
        rw [if_pos hlen, Framing.readExact_append _ hdrop, ← Option.some.inj h]
        dsimp only
        cases fromSlice (frame.drop 4) with
        | ok msg => rfl
        | error e => rfl
      · cases h
    · rename_i hlen
      rw [if_neg hlen, ← Option.some.inj h]
      rfl

/-- Reading in pieces gives what reading from the whole stream gives. -/
theorem readMessage_of_readFrame {T : Type} {fromSlice : List UInt8 → Except String T}
    {frame : List UInt8} {msg : T} (hframe : Framing.IsFrame 4 frame)
    (h : readFrame fromSlice frame = some (.ok msg)) (rest : List UInt8) :
    readMessage fromSlice (frame ++ rest) = .ok (msg, rest) :=
  readMessage_of_length_le hframe.le h rest

/-- A message that is read does not depend on what follows later. -/
theorem readMessage_mono {T : Type} {fromSlice : List UInt8 → Except String T}
    {stream rest : List UInt8} {msg : T} (h : readMessage fromSlice stream = .ok (msg, rest))
    (more : List UInt8) : readMessage fromSlice (stream ++ more) = .ok (msg, rest ++ more) := by
  unfold readMessage at h ⊢
  cases hlen : Framing.readExact 4 stream with
  | none =>
    rw [hlen] at h
    cases h
  | some parts =>
    obtain ⟨lenBuf, tail⟩ := parts
    rw [hlen] at h
    rw [Framing.readExact_mono hlen more]
    dsimp only at h ⊢
    split at h
    · rename_i hle
      rw [if_pos hle]
      cases hbuf : Framing.readExact (Framing.fromBeBytes lenBuf) tail with
      | none =>
        rw [hbuf] at h
        cases h
      | some parts =>
        obtain ⟨buf, after⟩ := parts
        rw [hbuf] at h
        rw [Framing.readExact_mono hbuf more]
        obtain ⟨msg', hmsg, heq⟩ := Text.bind_eq_ok_iff.mp h
        cases heq
        exact Text.bind_eq_ok_iff.mpr ⟨msg, hmsg, rfl⟩
    · cases h

/-- What is read of a stream that begins with a message is the message. -/
theorem eq_of_readMessage {T : Type} [Serialize T] {fromSlice : List UInt8 → Except String T}
    (hundoes : Undoes fromSlice) {msg msg' : T} {frame stream after rest : List UInt8}
    (hwrite : writeMessage msg = .ok frame) (hfront : stream <+: frame ++ after)
    (hread : readMessage fromSlice stream = .ok (msg', rest)) : msg' = msg := by
  obtain ⟨more, hmore⟩ := hfront
  have hwhole := readMessage_mono hread more
  rw [hmore, readMessage_append hundoes hwrite] at hwhole
  split at hwhole
  · exact (Prod.mk.inj (Except.ok.inj hwhole)).1.symm
  · cases hwhole

/-- A reader that still waits at the end of a stream finds that it ends too early. -/
theorem readMessage_of_readFrame_none {T : Type} {fromSlice : List UInt8 → Except String T}
    {got : List UInt8} (h : readFrame fromSlice got = none) :
    readMessage fromSlice got = .error .unexpectedEof := by
  unfold readFrame at h
  unfold readMessage
  split at h
  · rename_i hshort
    rw [Framing.readExact, if_neg (by omega)]
  · rename_i hlong
    rw [Framing.readExact, if_pos (by omega)]
    dsimp only
    split at h
    · rename_i hlen
      split at h
      · cases h
      · rename_i hmissing
        rw [Framing.missing, if_neg hlong] at hmissing
        rw [if_pos hlen, Framing.readExact, if_neg (by rw [List.length_drop]; omega)]
    · cases h

namespace Session

variable {E : Endpoints} {s s' : Session} {a : SessionAction}

/-- What each action of the client does, and where it is possible. -/
inductive ClientStep (E : Endpoints) (s : Session) : SessionAction → Session → Prop
  | write {left : List UInt8} {n : ℕ} (hclient : s.client = .requesting left) (hpos : 0 < n)
      (hn : n ≤ left.length) :
      ClientStep E s (.clientWrite n) { s with
        client := if left.drop n = [] then .awaiting [] else .requesting (left.drop n)
        toServer := s.toServer.write (left.take n) }
  | read {got : List UInt8} {n : ℕ} (hclient : s.client = .awaiting got) (hpos : 0 < n)
      (hn : n ≤ Framing.missing 4 got) (hunread : n ≤ s.toClient.unread.length) :
      ClientStep E s (.clientRead n)
        (clientGot E { s with toClient := s.toClient.read n } (got ++ s.toClient.unread.take n))
  | eof {got : List UInt8} (hclient : s.client = .awaiting got) (hunread : s.toClient.unread = [])
      (hshut : s.toClient.shut = true) :
      ClientStep E s .clientEof (s.dropClient (.failed (.wire .unexpectedEof)))
  | up {up down up' : Transfer UInt8} {fromApp toServer : Pipe UInt8} {b : CopyAction}
      (hclient : s.client = .copying up down)
      (hcopy : up.step E.limits.buffer E.limits.toServer s.fromApp s.toServer b =
        some (up', fromApp, toServer)) :
      ClientStep E s (.clientUp b)
        ({ s with fromApp := fromApp, toServer := toServer }.clientCopied up' down)
  | down {up down down' : Transfer UInt8} {toClient toApp : Pipe UInt8} {b : CopyAction}
      (hclient : s.client = .copying up down)
      (hcopy : down.step E.limits.buffer E.limits.toApp s.toClient s.toApp b =
        some (down', toClient, toApp)) :
      ClientStep E s (.clientDown b)
        ({ s with toClient := toClient, toApp := toApp }.clientCopied up down')
  | fail (hclient : ∀ result, s.client ≠ .returned result) :
      ClientStep E s .clientFail (s.dropClient .ioError)

/-- **Client inversion.** An action of the client is one of these. -/
theorem stepClient_cases (h : s.stepClient E a = some s') : s.ClientStep E a s' := by
  cases a with
  | clientWrite n =>
    simp only [stepClient] at h
    split at h
    · rename_i left hclient
      split at h
      · rename_i hn
        cases h
        exact .write hclient hn.1 hn.2.1
      · cases h
    · cases h
  | clientRead n =>
    simp only [stepClient] at h
    split at h
    · rename_i got hclient
      split at h
      · rename_i hn
        cases h
        exact .read hclient hn.1 hn.2.1 hn.2.2
      · cases h
    · cases h
  | clientEof =>
    simp only [stepClient] at h
    split at h
    · rename_i got hclient
      split at h
      · rename_i hend
        cases h
        exact .eof hclient hend.1 hend.2
      · cases h
    · cases h
  | clientUp b =>
    simp only [stepClient] at h
    split at h
    · rename_i up down hclient
      obtain ⟨⟨up', fromApp, toServer⟩, hcopy, rfl⟩ := Option.map_eq_some_iff.mp h
      exact .up hclient hcopy
    · cases h
  | clientDown b =>
    simp only [stepClient] at h
    split at h
    · rename_i up down hclient
      obtain ⟨⟨down', toClient, toApp⟩, hcopy, rfl⟩ := Option.map_eq_some_iff.mp h
      exact .down hclient hcopy
    · cases h
  | clientFail =>
    simp only [stepClient] at h
    split at h
    · cases h
    · rename_i hclient
      cases h
      exact .fail hclient
  | _ => cases h

/-- What the client has written begins with the request, and it serves the application only after
it has read an acceptance. -/
structure ClientBound (E : Endpoints) (request : List UInt8) (s : Session) : Prop where
  /-- Towards the server. -/
  up : s.toServer.sent <+: request ++ s.fromApp.received
  /-- Towards the application. -/
  down : s.fromApp.received = [] ∧ s.toApp.sent = [] ∨
    ∃ frame response, Framing.IsFrame 4 frame ∧
      readFrame E.responseFromSlice frame = some (.ok response) ∧ response.accepted = true ∧
      frame ++ s.toApp.sent <+: s.toClient.received

/-- The client copies, or it has copied. -/
def ClientCopies (E : Endpoints) (request : List UInt8) (s : Session) (up down : Transfer UInt8) :
    Prop :=
  up.Copies [] request s.fromApp s.toServer ∧
    ∃ frame response, Framing.IsFrame 4 frame ∧
      readFrame E.responseFromSlice frame = some (.ok response) ∧ response.accepted = true ∧
      down.Copies frame [] s.toClient s.toApp

/-- What the client does in each phase. -/
def ClientHolds (E : Endpoints) (request : List UInt8) (s : Session) : ClientPhase → Prop
  | .requesting left =>
    s.toServer.sent ++ left = request ∧ left ≠ [] ∧ s.toServer.shut = false ∧
      s.fromApp.received = [] ∧ s.toClient.received = [] ∧ s.toApp.sent = [] ∧ s.toApp.shut = false
  | .awaiting got =>
    s.toServer.sent = request ∧ s.toServer.shut = false ∧ s.fromApp.received = [] ∧
      s.toClient.received = got ∧ readFrame E.responseFromSlice got = none ∧ s.toApp.sent = [] ∧
      s.toApp.shut = false
  | .copying up down => s.ClientCopies E request up down ∧ ¬(up = .finished ∧ down = .finished)
  | .returned .ok => s.ClientCopies E request .finished .finished
  | .returned _ => s.ClientBound E request ∧ s.toServer.shut = true

/-- The client sends its request before it copies. -/
def ClientSafe (E : Endpoints) (s : Session) : Prop :=
  (∃ request, writeMessage (⟨E.serviceName⟩ : TunnelRequest) = .ok request ∧
      s.ClientHolds E request s.client) ∨
    (∃ e, s.client = .returned (.failed e)) ∧ s.toServer.sent = [] ∧ s.toServer.shut = true ∧
      s.fromApp.received = [] ∧ s.toApp.sent = []

/-- What a client that copies does is bounded by what it reads. -/
theorem ClientCopies.bound {request : List UInt8} {up down : Transfer UInt8}
    (h : s.ClientCopies E request up down) : s.ClientBound E request := by
  obtain ⟨hup, frame, response, hframe, hread, haccepted, hdown⟩ := h
  exact ⟨hup.isPrefix,
    .inr ⟨frame, response, hframe, hread, haccepted, hdown.prefix_of_stripped⟩⟩

/-- What the client does is bounded by what it reads. -/
theorem ClientHolds.bound {request : List UInt8} {phase : ClientPhase}
    (h : s.ClientHolds E request phase) : s.ClientBound E request := by
  cases phase with
  | requesting left =>
    obtain ⟨hsent, -, -, hread, -, hnone, -⟩ := h
    refine ⟨?_, .inl ⟨hread, hnone⟩⟩
    rw [hread, List.append_nil, ← hsent]
    exact List.prefix_append _ _
  | awaiting got =>
    obtain ⟨hsent, -, hread, -, -, hnone, -⟩ := h
    refine ⟨?_, .inl ⟨hread, hnone⟩⟩
    rw [hsent]
    exact List.prefix_append _ _
  | copying up down => exact h.1.bound
  | returned result =>
    cases result with
    | ok => exact ClientCopies.bound h
    | failed e => exact h.1
    | ioError => exact h.1
    | logged => exact h.1

/-- The other parties leave the bounds of the client alone. -/
theorem ClientBound.stable {request : List UInt8} (h : s.ClientBound E request)
    (hfromApp : s.fromApp.Writes s'.fromApp) (htoServer : s.toServer.Reads s'.toServer)
    (htoClient : s.toClient.Writes s'.toClient) (htoApp : s.toApp.Reads s'.toApp) :
    s'.ClientBound E request := by
  constructor
  · rw [htoServer.sent, hfromApp.received]
    exact h.up
  · rw [htoApp.sent, htoClient.received, hfromApp.received]
    exact h.down

/-- The other parties leave a client that copies at it. -/
theorem ClientCopies.stable {request : List UInt8} {up down : Transfer UInt8}
    (h : s.ClientCopies E request up down) (hfromApp : s.fromApp.Writes s'.fromApp)
    (htoServer : s.toServer.Reads s'.toServer) (htoClient : s.toClient.Writes s'.toClient)
    (htoApp : s.toApp.Reads s'.toApp) : s'.ClientCopies E request up down := by
  obtain ⟨hup, frame, response, hframe, hread, haccepted, hdown⟩ := h
  exact ⟨hup.stable hfromApp htoServer, frame, response, hframe, hread, haccepted,
    hdown.stable htoClient htoApp⟩

/-- The other parties leave the client as it is. -/
theorem ClientHolds.stable {request : List UInt8} {phase : ClientPhase}
    (h : s.ClientHolds E request phase) (hfromApp : s.fromApp.Writes s'.fromApp)
    (htoServer : s.toServer.Reads s'.toServer) (htoClient : s.toClient.Writes s'.toClient)
    (htoApp : s.toApp.Reads s'.toApp) : s'.ClientHolds E request phase := by
  cases phase with
  | requesting left =>
    unfold ClientHolds at h ⊢
    rwa [htoServer.sent, htoServer.shut, hfromApp.received, htoClient.received, htoApp.sent,
      htoApp.shut]
  | awaiting got =>
    unfold ClientHolds at h ⊢
    rwa [htoServer.sent, htoServer.shut, hfromApp.received, htoClient.received, htoApp.sent,
      htoApp.shut]
  | copying up down => exact ⟨h.1.stable hfromApp htoServer htoClient htoApp, h.2⟩
  | returned result =>
    cases result with
    | ok => exact ClientCopies.stable h hfromApp htoServer htoClient htoApp
    | failed e =>
      exact ⟨h.1.stable hfromApp htoServer htoClient htoApp, htoServer.shut.trans h.2⟩
    | ioError =>
      exact ⟨h.1.stable hfromApp htoServer htoClient htoApp, htoServer.shut.trans h.2⟩
    | logged =>
      exact ⟨h.1.stable hfromApp htoServer htoClient htoApp, htoServer.shut.trans h.2⟩

/-- What the client touches: the streams that it reads and writes. -/
structure ClientMoves (s s' : Session) : Prop where
  server : s'.server = s.server
  dialed : s'.dialed = s.dialed
  fromApp : s.fromApp.Reads s'.fromApp
  toServer : s.toServer.Writes s'.toServer
  toClient : s.toClient.Reads s'.toClient
  toApp : s.toApp.Writes s'.toApp
  toService : s'.toService = s.toService
  fromService : s'.fromService = s.fromService

theorem ClientMoves.trans {s'' : Session} (h : s.ClientMoves s') (h' : s'.ClientMoves s'') :
    s.ClientMoves s'' :=
  ⟨h'.server.trans h.server, h'.dialed.trans h.dialed, h.fromApp.trans h'.fromApp,
    h.toServer.trans h'.toServer, h.toClient.trans h'.toClient, h.toApp.trans h'.toApp,
    h'.toService.trans h.toService, h'.fromService.trans h.fromService⟩

/-- Doing nothing to the streams touches nothing. -/
theorem clientMoves_phase (s : Session) (phase : ClientPhase) :
    s.ClientMoves { s with client := phase } :=
  ⟨rfl, rfl, .refl _, .refl _, .refl _, .refl _, rfl, rfl⟩

/-- Giving up touches what the client touches. -/
theorem clientMoves_dropClient (s : Session) (result : SessionEnd) :
    s.ClientMoves (s.dropClient result) :=
  ⟨rfl, rfl, .refl _, s.toServer.writes_close, .refl _, s.toApp.writes_close, rfl, rfl⟩

/-- A client that gives up stays within its bounds. -/
theorem clientHolds_dropClient {request : List UInt8} (h : s.ClientBound E request)
    {result : SessionEnd} (hresult : result ≠ .ok) :
    (s.dropClient result).ClientHolds E request (s.dropClient result).client := by
  cases result with
  | ok => exact absurd rfl hresult
  | failed e => exact ⟨⟨h.up, h.down⟩, rfl⟩
  | ioError => exact ⟨⟨h.up, h.down⟩, rfl⟩
  | logged => exact ⟨⟨h.up, h.down⟩, rfl⟩

/-- Shutting a pipe twice is shutting it once. -/
theorem close_of_shut {p : Pipe UInt8} (h : p.shut = true) : p.close = p := by
  rw [Pipe.close, ← h]

/-- A client that copies goes on copying, or it is done. -/
theorem clientHolds_copied {request : List UInt8} {up down : Transfer UInt8}
    (h : s.ClientCopies E request up down) :
    (s.clientCopied up down).ClientHolds E request (s.clientCopied up down).client ∧
      s.ClientMoves (s.clientCopied up down) := by
  unfold clientCopied
  split
  · rename_i hfinished
    obtain ⟨rfl, rfl⟩ := hfinished
    refine ⟨?_, s.clientMoves_dropClient _⟩
    obtain ⟨hup, frame, response, hframe, hread, haccepted, hdown⟩ := h
    change Transfer.finished.Copies [] request s.fromApp s.toServer.close ∧ _
    refine ⟨?_, frame, response, hframe, hread, haccepted, ?_⟩
    · rwa [close_of_shut (hup.shut.mpr rfl)]
    · change Transfer.finished.Copies frame [] s.toClient s.toApp.close
      rwa [close_of_shut (hdown.shut.mpr rfl)]
  · rename_i hunfinished
    exact ⟨⟨h, hunfinished⟩, s.clientMoves_phase _⟩

/-- A client that has read more of the response holds it, or it copies or gives up. -/
theorem clientHolds_got {request got chunk : List UInt8}
    (h : s.toServer.sent = request ∧ s.toServer.shut = false ∧ s.fromApp.received = [] ∧
      s.toClient.received = got ++ chunk ∧ s.toApp.sent = [] ∧ s.toApp.shut = false)
    (hgot : readFrame E.responseFromSlice got = none)
    (hchunk : chunk.length ≤ Framing.missing 4 got) :
    (s.clientGot E (got ++ chunk)).ClientHolds E request (s.clientGot E (got ++ chunk)).client ∧
      s.ClientMoves (s.clientGot E (got ++ chunk)) := by
  obtain ⟨hsent, hshut, hread, hreceived, hnone, happ⟩ := h
  have hbound : s.ClientBound E request := by
    refine ⟨?_, .inl ⟨hread, hnone⟩⟩
    rw [hsent]
    exact List.prefix_append _ _
  unfold clientGot
  split
  · rename_i hmissing
    exact ⟨⟨hsent, hshut, hread, hreceived, hmissing, hnone, happ⟩, s.clientMoves_phase _⟩
  · exact ⟨clientHolds_dropClient hbound (by simp), s.clientMoves_dropClient _⟩
  · rename_i response hresponse
    split
    · rename_i haccepted
      refine ⟨?_, s.clientMoves_phase _⟩
      refine ⟨⟨Transfer.copies_new hread hsent hshut, got ++ chunk, response,
        isFrame_of_readFrame hgot hchunk hresponse, hresponse, haccepted, ?_⟩, by simp⟩
      exact Transfer.copies_new hreceived hnone happ
    · exact ⟨clientHolds_dropClient hbound (by simp), s.clientMoves_dropClient _⟩

/-- **Client step.** An action of the client keeps what it holds, and touches nothing else. -/
theorem clientHolds_step {request : List UInt8} (h : s.ClientHolds E request s.client)
    (hstep : s.stepClient E a = some s') :
    s'.ClientHolds E request s'.client ∧ s.ClientMoves s' := by
  cases stepClient_cases hstep with
  | @write left n hclient =>
    rw [hclient] at h
    obtain ⟨hsent, hleft, hshut, hread, hreceived, hnone, happ⟩ := h
    have hsplit : (s.toServer.write (left.take n)).sent ++ left.drop n = request := by
      rw [Pipe.sent_write, List.append_assoc, List.take_append_drop, hsent]
    refine ⟨?_, ⟨rfl, rfl, .refl _, Pipe.writes_write hshut _, .refl _, .refl _, rfl, rfl⟩⟩
    dsimp only
    split
    · rename_i hrest
      rw [hrest, List.append_nil] at hsplit
      exact ⟨hsplit, hshut, hread, hreceived, rfl, hnone, happ⟩
    · rename_i hrest
      exact ⟨hsplit, hrest, hshut, hread, hreceived, hnone, happ⟩
  | @read got n hclient hpos hn =>
    rw [hclient] at h
    obtain ⟨hsent, hshut, hread, hreceived, hgot, hnone, happ⟩ := h
    have hpipe : (s.toClient.read n).received = got ++ s.toClient.unread.take n := by
      rw [Pipe.received_read, hreceived]
    have hreads : s.ClientMoves { s with toClient := s.toClient.read n } :=
      ⟨rfl, rfl, .refl _, .refl _, s.toClient.reads_read n, .refl _, rfl, rfl⟩
    obtain ⟨hholds, hmoves⟩ := clientHolds_got (s := { s with toClient := s.toClient.read n })
      ⟨hsent, hshut, hread, hpipe, hnone, happ⟩ hgot ((List.length_take_le _ _).trans hn)
    exact ⟨hholds, hreads.trans hmoves⟩
  | eof => exact ⟨clientHolds_dropClient h.bound (by simp), s.clientMoves_dropClient _⟩
  | @up up down up' fromApp toServer b hclient hcopy =>
    rw [hclient] at h
    obtain ⟨⟨hup, hdown⟩, -⟩ := h
    obtain ⟨hup', hreads, hwrites⟩ := hup.step hcopy
    have hcopies : s.ClientMoves { s with fromApp := fromApp, toServer := toServer } :=
      ⟨rfl, rfl, hreads, hwrites, .refl _, .refl _, rfl, rfl⟩
    obtain ⟨hholds, hmoves⟩ := clientHolds_copied (E := E)
      (s := { s with fromApp := fromApp, toServer := toServer }) ⟨hup', hdown⟩
    exact ⟨hholds, hcopies.trans hmoves⟩
  | @down up down down' toClient toApp b hclient hcopy =>
    rw [hclient] at h
    obtain ⟨⟨hup, frame, response, hframe, hread, haccepted, hdown⟩, -⟩ := h
    obtain ⟨hdown', hreads, hwrites⟩ := hdown.step hcopy
    have hcopies : s.ClientMoves { s with toClient := toClient, toApp := toApp } :=
      ⟨rfl, rfl, .refl _, .refl _, hreads, hwrites, rfl, rfl⟩
    obtain ⟨hholds, hmoves⟩ := clientHolds_copied (E := E)
      (s := { s with toClient := toClient, toApp := toApp })
      ⟨hup, frame, response, hframe, hread, haccepted, hdown'⟩
    exact ⟨hholds, hcopies.trans hmoves⟩
  | fail => exact ⟨clientHolds_dropClient h.bound (by simp), s.clientMoves_dropClient _⟩

end Session

end Punchgate
