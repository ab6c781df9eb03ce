import Punchgate.Session.Progress

/-!
# Tunnel sessions that succeed

If the server has the service, the request fits, the service takes the connection and no stream
fails, then nothing goes wrong: on every schedule both functions copy to the end and return `Ok`,
and everything that was written has been delivered.
-/

namespace Punchgate

/-- A message that is read in pieces from the front of a stream is read as it was written. -/
theorem readFrame_written {T : Type} [Serialize T] {fromSlice : List UInt8 → Except String T}
    (hundoes : Undoes fromSlice) {msg : T} {frame got chunk rest : List UInt8}
    (hwrite : writeMessage msg = .ok frame)
    (hsize : (Serialize.toVec msg).length ≤ maxMessageSize)
    (hgot : readFrame fromSlice got = none) (hchunk : chunk.length ≤ Framing.missing 4 got)
    (hstream : got ++ chunk <+: frame ++ rest) {r : Except WireError T}
    (hread : readFrame fromSlice (got ++ chunk) = some r) : r = .ok msg := by
  have hframe := isFrame_writeMessage hwrite
  obtain ⟨hlt, hdata⟩ := writeMessage_eq_ok_iff.mp hwrite
  have hlength : frame.length = 4 + (Serialize.toVec msg).length := by
    rw [hdata, List.length_append, Framing.length_toBeBytes]
  have hdrop : frame.drop 4 = Serialize.toVec msg := by
    rw [hdata]
    exact List.drop_left' (Framing.length_toBeBytes _ _)
  unfold readFrame at hread
  split at hread
  · cases hread
  · rename_i hshort
    -- the length is that of the frame
    have htake : (got ++ chunk).take 4 = frame.take 4 := by
      obtain ⟨after, heq⟩ := hstream
      have hleft : (got ++ chunk ++ after).take 4 = (got ++ chunk).take 4 :=
        List.take_append_of_le_length (by omega)
      have hright : (frame ++ rest).take 4 = frame.take 4 :=
        List.take_append_of_le_length (by omega)
      rw [← hleft, heq, hright]
    have hlen : Framing.fromBeBytes ((got ++ chunk).take 4) = (Serialize.toVec msg).length := by
      unfold Framing.IsFrame at hframe
      rw [htake]
      omega
    rw [hlen, if_pos hsize] at hread
    split at hread
    · rename_i hmissing
      have hwhole : Framing.IsFrame 4 (got ++ chunk) := by
        refine Framing.isFrame_of_missing hchunk hmissing ?_
        by_cases hless : got.length < 4
        · exact .inl hless
        · exact .inr (Session.missing_pos hgot)
      have heq := hwhole.eq_of_isPrefix hframe hstream (List.prefix_append frame rest)
      rw [heq, hdrop, hundoes msg] at hread
      exact (Option.some.inj hread).symm
    · cases hread

/-- The action of a stream that fails, or of a service that refuses. -/
def SessionAction.fails : SessionAction → Bool
  | .clientFail | .serverFail | .serverConnect false => true
  | _ => false

namespace Session

variable {E : Endpoints} {s s' : Session} {a : SessionAction}

/-- The server has the service that the client asks for, and each end reads what the other writes. -/
structure Available (E : Endpoints) : Prop where
  /-- Requests are parsed. -/
  request : Undoes E.requestFromSlice
  /-- Responses are parsed. -/
  response : Undoes E.responseFromSlice
  /-- The service is one of the server's. -/
  service : E.services.contains E.serviceName = true
  /-- The request is not larger than the server allows. -/
  fits : (escape E.serviceName.name).length + 19 ≤ maxMessageSize

/-- Nothing has gone wrong. -/
structure Well (s : Session) : Prop where
  /-- The client has not failed. -/
  client : s.client.failed = false
  /-- The server has not failed. -/
  server : s.server.failed = false
  /-- The server does not refuse. -/
  accepts : ∀ left, s.server ≠ .rejecting left
  /-- The server answers after it has connected. -/
  answers : s.toClient.sent = [] ∨ s.dialed.isSome = true

/-- The request can be written. -/
theorem Available.size (h : Available E) :
    (Serialize.toVec (⟨E.serviceName⟩ : TunnelRequest)).length ≤ maxMessageSize := by
  rw [length_toVec_request]
  exact h.fits

/-- A session begins well. -/
theorem well_start (h : Available E) : (start E).Well := by
  obtain ⟨bytes, hwrite⟩ := exists_writeMessage h.size
  unfold start
  rw [hwrite]
  exact ⟨rfl, rfl, fun left hleft => (by cases hleft), .inl rfl⟩

/-- What the server has written begins with an acceptance, if nothing has gone wrong. -/
theorem Well.acceptance (h : s.Well) (hsafe : s.Safe E) (hsent : s.toClient.sent ≠ []) :
    ∃ answer, writeMessage (⟨true, none⟩ : TunnelResponse) = .ok answer ∧
      s.toClient.sent <+: answer ++ s.fromService.received := by
  obtain ⟨answer, hanswer, hfront⟩ := hsafe.server.bound.down.resolve_left hsent
  rcases hanswer with ⟨-, hwrite⟩ | ⟨hnone, -⟩
  · exact ⟨answer, hwrite, hfront⟩
  · have hsome := h.answers.resolve_left hsent
    rw [hnone] at hsome
    cases hsome

/-- What the client has written begins with its request, if nothing has gone wrong. -/
theorem Well.requested (h : s.Well) (hsafe : s.Safe E) :
    ∃ request, writeMessage (⟨E.serviceName⟩ : TunnelRequest) = .ok request ∧
      s.ClientHolds E request s.client := by
  refine hsafe.clientHolds fun e hreturned => ?_
  have hfailed := h.client
  rw [hreturned] at hfailed
  cases hfailed

/-- A client that copies has not failed. -/
theorem failed_clientCopied (s : Session) (up down : Transfer UInt8) :
    (s.clientCopied up down).client.failed = false := by
  unfold clientCopied
  split <;> rfl

/-- A server that copies has not failed, and does not refuse. -/
theorem failed_serverCopied (s : Session) (up down : Transfer UInt8) :
    (s.serverCopied up down).server.failed = false ∧
      ∀ left, (s.serverCopied up down).server ≠ .rejecting left := by
  unfold serverCopied
  split
  · exact ⟨rfl, fun left hleft => by cases hleft⟩
  · exact ⟨rfl, fun left hleft => by cases hleft⟩

/-- An acceptance can be written. -/
theorem length_acceptance_le :
    (Serialize.toVec (⟨true, none⟩ : TunnelResponse)).length ≤ maxMessageSize := by
  rw [length_toVec_acceptance]
  decide

/-- A client whose stream does not fail does not fail. -/
theorem Well.client_step (h : s.Well) (hE : Available E) (hsafe : s.Safe E)
    (ha : a ≠ .clientFail) (hstep : s.stepClient E a = some s') : s'.client.failed = false := by
  obtain ⟨request, hwrite, hholds⟩ := h.requested hsafe
  cases stepClient_cases hstep with
  | write =>
    dsimp only
    split <;> rfl
  | @read got n hclient hpos hn hunread =>
    rw [hclient] at hholds
    obtain ⟨-, -, -, hreceived, hgot, -, -⟩ := hholds
    have hpipe : got ++ s.toClient.unread.take n = (s.toClient.read n).received := by
      rw [Pipe.received_read, hreceived]
    have hsent : s.toClient.sent ≠ [] := by
      intro hnil
      rw [Pipe.unread, hnil, List.drop_nil, List.length_nil] at hunread
      omega
    obtain ⟨answer, hanswer, hfront⟩ := h.acceptance hsafe hsent
    have hstream : got ++ s.toClient.unread.take n <+: answer ++ s.fromService.received := by
      rw [hpipe]
      exact (s.toClient.read n).received_isPrefix.trans hfront
    have hok {r : Except WireError TunnelResponse} :=
      readFrame_written (r := r) hE.response hanswer length_acceptance_le hgot
        ((List.length_take_le _ _).trans hn) hstream
    unfold clientGot
    split
    · rfl
    · rename_i e hread
      cases hok hread
    · rename_i response hread
      cases hok hread
      rfl
  | @eof got hclient hunread hshut =>
    rw [hclient] at hholds
    obtain ⟨-, -, -, hreceived, hgot, -, -⟩ := hholds
    -- the whole answer was read before the end
    have hread : s.toClient.sent = got := by
      rw [← hreceived, Pipe.received_eq_sent hunread]
    rcases hsafe.server.toClient_shut h.server hshut with ⟨answer, hanswer, hdown⟩ |
      ⟨hnone, hanswer⟩
    · obtain ⟨copied, -, hsent, -⟩ := hdown.finished
      refine absurd hgot (readFrame_ne_none E.responseFromSlice (isFrame_answer hanswer) ?_)
      rw [← hread, hsent]
      exact List.prefix_append _ _
    · refine absurd hgot (readFrame_ne_none E.responseFromSlice (isFrame_answer hanswer) ?_)
      rw [hread]
  | up => exact failed_clientCopied _ _ _
  | down => exact failed_clientCopied _ _ _
  | fail => exact absurd rfl ha

/-- A server whose streams do not fail and whose service takes the connection accepts, and does not
fail. -/
theorem Well.server_step (h : s.Well) (hE : Available E) (hsafe : s.Safe E) (ha : a ≠ .serverFail)
    (hconnect : a ≠ .serverConnect false) (hstep : s.stepServer E a = some s') : s'.Well := by
  have hmoves := (serverHolds_step hsafe.server hsafe.asked hstep).2.2
  have hclient : s'.client.failed = false := by
    rw [hmoves.client]
    exact h.client
  have hholds := hsafe.server
  cases stepServer_cases hstep with
  | @read got n hserver hpos hn =>
    rw [hserver] at hholds
    obtain ⟨-, hreceived, hgot, hsent, -⟩ := hholds
    have hpipe : got ++ s.toServer.unread.take n = (s.toServer.read n).received := by
      rw [Pipe.received_read, hreceived]
    obtain ⟨request, hwrite, hrequest⟩ := h.requested hsafe
    have hstream : got ++ s.toServer.unread.take n <+: request ++ s.fromApp.received := by
      rw [hpipe]
      exact (s.toServer.read n).received_isPrefix.trans hrequest.bound.up
    have hok {r : Except WireError TunnelRequest} :=
      readFrame_written (r := r) hE.request hwrite hE.size hgot
        ((List.length_take_le _ _).trans hn) hstream
    unfold serverGot at hclient ⊢
    split
    · exact ⟨h.client, rfl, fun left hleft => (by cases hleft), .inl hsent⟩
    · rename_i e hread
      cases hok hread
    · rename_i asked hread
      cases hok hread
      obtain ⟨localAddr, hlookup⟩ := FiniteMap.contains_iff.mp hE.service
      rw [hlookup]
      exact ⟨h.client, rfl, fun left hleft => (by cases hleft), .inl hsent⟩
  | @eof got hserver hunread hshut =>
    rw [hserver] at hholds
    obtain ⟨-, hreceived, hgot, -⟩ := hholds
    -- the whole request was read before the end
    have hread : s.toServer.sent = got := by
      rw [← hreceived, Pipe.received_eq_sent hunread]
    obtain ⟨request, hwrite, hrequest⟩ := h.requested hsafe
    obtain ⟨copied, -, hsent, -⟩ := (hrequest.toServer_shut h.client hshut).finished
    refine absurd hgot (readFrame_ne_none E.requestFromSlice (isFrame_writeMessage hwrite) ?_)
    rw [← hread, hsent]
    exact List.prefix_append _ _
  | @connect localAddr connects hserver =>
    cases connects with
    | false => exact absurd rfl hconnect
    | true =>
      obtain ⟨bytes, hwrite⟩ := exists_writeMessage length_acceptance_le
      unfold serverConnected
      rw [if_pos rfl, hwrite]
      exact ⟨h.client, rfl, fun left hleft => (by cases hleft), .inr rfl⟩
  | @reject left n hserver => exact absurd hserver (h.accepts left)
  | @rejected left n hserver => exact absurd hserver (h.accepts left)
  | accept hserver =>
    rw [hserver] at hholds
    refine ⟨hclient, ?_, ?_, .inr hholds.1⟩
    · dsimp only
      split <;> rfl
    · intro left hleft
      dsimp only at hleft
      split at hleft <;> cases hleft
  | up hserver =>
    rw [hserver] at hholds
    obtain ⟨hfailed, haccepts⟩ := failed_serverCopied _ _ _
    refine ⟨hclient, hfailed, haccepts, .inr ?_⟩
    rw [hmoves.dialed hholds.1.1]
    exact hholds.1.1
  | down hserver =>
    rw [hserver] at hholds
    obtain ⟨hfailed, haccepts⟩ := failed_serverCopied _ _ _
    refine ⟨hclient, hfailed, haccepts, .inr ?_⟩
    rw [hmoves.dialed hholds.1.1]
    exact hholds.1.1
  | fail => exact absurd rfl ha
  | logged => exact absurd rfl ha

/-- The other parties do not make anything go wrong. -/
theorem Well.of_same (h : s.Well) (hclient : s'.client.failed = false)
    (hserver : s'.server = s.server) (hdialed : s'.dialed = s.dialed)
    (htoClient : s'.toClient.sent = s.toClient.sent) : s'.Well := by
  refine ⟨hclient, ?_, ?_, ?_⟩
  · rw [hserver]
    exact h.server
  · rw [hserver]
    exact h.accepts
  · rw [htoClient, hdialed]
    exact h.answers

/-- The application and the service do not make anything go wrong. -/
theorem Well.outside (h : s.Well) (hstep : s.stepOutside a = some s') : s'.Well := by
  have hmoves := outsideMoves_step hstep
  refine h.of_same ?_ hmoves.server hmoves.dialed (by rw [hmoves.toClient])
  rw [hmoves.client]
  exact h.client

/-- If nothing has gone wrong, whoever has returned has copied everything. -/
theorem Well.orderly (h : s.Well) (hsafe : s.Safe E) : s.Orderly := by
  constructor
  · intro result hclient
    have hfailed := h.client
    rw [hclient] at hfailed
    cases result with
    | ok => rfl
    | failed e => cases hfailed
    | ioError => cases hfailed
    | logged => cases hfailed
  · intro result hserver
    have hfailed := h.server
    have hholds := hsafe.server
    rw [hserver] at hfailed hholds
    cases result with
    | ok =>
      rcases hholds with hcopies | ⟨hnone, hanswer, -⟩
      · exact hcopies
      · have hsome := h.answers.resolve_left (isFrame_answer hanswer).ne_nil
        rw [hnone] at hsome
        cases hsome
    | failed e => cases hfailed
    | ioError => cases hfailed
    | logged => cases hfailed

/-- **Step.** Nothing goes wrong in a step that does not fail. -/
theorem Well.step (h : s.Well) (hE : Available E) (hsafe : s.Safe E) (ha : a.fails = false)
    (hstep : s.step E a = some s') : s'.Well := by
  have hne {b : SessionAction} (hb : b.fails = true) : a ≠ b := by
    rintro rfl
    rw [ha] at hb
    cases hb
  rw [Session.step, Option.or_eq_some_iff, Option.or_eq_some_iff] at hstep
  rcases hstep with hstep | ⟨-, hstep | ⟨-, hstep⟩⟩
  · exact h.outside hstep
  · obtain ⟨request, -, hholds⟩ := h.requested hsafe
    have hmoves := (clientHolds_step hholds hstep).2
    exact h.of_same (h.client_step hE hsafe (hne rfl) hstep) hmoves.server hmoves.dialed
      hmoves.toClient.sent
  · exact h.server_step hE hsafe (hne rfl) (hne rfl) hstep

/-- **Run.** Nothing goes wrong in a run without failing steps. -/
theorem Well.run (h : s.Well) (hE : Available E) (hsafe : s.Safe E) {as : List SessionAction}
    (has : ∀ a ∈ as, a.fails = false) (hrun : s.run E as = some s') : s'.Well := by
  induction as generalizing s with
  | nil =>
    cases hrun
    exact h
  | cons a as ih =>
    obtain ⟨t, hstep, hrest⟩ := Option.bind_eq_some_iff.mp hrun
    refine ih ?_ (hsafe.step hstep) (fun b hb => has b (List.mem_cons_of_mem a hb)) hrest
    exact h.step hE hsafe (has a List.mem_cons_self) hstep

/-- Nothing goes wrong by work that does not fail. -/
theorem Works.well (hworks : s.Works E False s') (h : s.Well) (hE : Available E)
    (hsafe : s.Safe E) : s'.Well := by
  cases hworks with
  | client ha hstep =>
    obtain ⟨request, -, hholds⟩ := h.requested hsafe
    have hmoves := (clientHolds_step hholds hstep).2
    exact h.of_same (h.client_step hE hsafe (fun heq => (ha heq).1) hstep) hmoves.server
      hmoves.dialed hmoves.toClient.sent
  | server ha hconnect hstep =>
    exact h.server_step hE hsafe (fun heq => (ha heq).1) hconnect hstep
  | appRead _ hstep => exact h.outside hstep
  | serviceRead _ hstep => exact h.outside hstep
  | serviceShut _ hstep => exact h.outside hstep

/-- Nothing goes wrong by what is done without failing, or by what the service writes. -/
theorem Proceeds.well {t t' : Session × ℕ} (hproceeds : Proceeds E False t t') (h : t.1.Well)
    (hE : Available E) (hsafe : t.1.Safe E) : t'.1.Well := by
  cases hproceeds with
  | works hworks => exact hworks.well h hE hsafe
  | serviceWrite _ hstep => exact h.outside hstep

/-- **Success.** If the service is available and nothing has failed so far, then once the
application has shut its stream, both functions copy to the end and return `Ok` on every schedule
without failures on which application and service go on reading and the service writes no more than
so many bytes and shuts its stream in the end, and everything that was written has been delivered. -/
theorem session_succeeds (hE : Available E) {as : List SessionAction}
    (h : (start E).run E as = some s) (has : ∀ a ∈ as, a.fails = false)
    (happ : s.fromApp.shut = true) (left : ℕ) :
    Inevitable (Proceeds E False) (fun t => t.1.client = .returned .ok ∧
      t.1.server = .returned .ok ∧ t.1.toService.sent = t.1.fromApp.sent ∧
      t.1.toApp.sent = t.1.fromService.sent) (s, left) := by
  have hsafe := (safe_start E).run h
  have hwell := (well_start hE).run hE (safe_start E) has h
  have hkeep (t t' : Session × ℕ)
      (hI : (t.1.Safe E ∧ t.1.fromApp.shut = true) ∧ t.1.Well)
      (hproceeds : Proceeds E False t t') :
      (t'.1.Safe E ∧ t'.1.fromApp.shut = true) ∧ t'.1.Well :=
    ⟨hproceeds.keeps hI.1, hproceeds.well hI.2 hE hI.1.1⟩
  have hended : Inevitable (Proceeds E False) (fun t => t.1.Ended) (s, left) := by
    refine .of_measure remainingOf ⟨⟨hsafe, happ⟩, hwell⟩ hkeep
      (fun _ _ _ hproceeds => hproceeds.remainingOf_lt) ?_
    intro t hI hnot
    obtain ⟨s', hworks⟩ := hI.1.1.acts (.inr (hI.2.orderly hI.1.1)) hI.1.2 hnot
    exact ⟨(s', t.2), .works hworks⟩
  refine hended.mono ⟨⟨hsafe, happ⟩, hwell⟩ hkeep fun t hI hended => ?_
  obtain ⟨client, server, hclient, hserver⟩ := hended
  obtain rfl := (hI.2.orderly hI.1.1).1 client hclient
  have hserver' := hI.2.server
  rw [hserver] at hserver'
  cases server with
  | ok => exact ⟨hclient, hserver, hI.1.1.delivered hE.response hclient hserver⟩
  | failed e => cases hserver'
  | ioError => cases hserver'
  | logged => cases hserver'

/-- The sample server has the service. -/
theorem available_web : Available webEndpoints :=
  ⟨knownFromSlice_undoes toVec_request_injective _,
    knownFromSlice_undoes toVec_response_injective _, by decide, by decide⟩

/-- The three bytes arrive in the end, and so does what the service writes. -/
theorem session_succeeds_shut :
    Inevitable (Proceeds webEndpoints False) (fun t => t.1.client = .returned .ok ∧
      t.1.server = .returned .ok ∧ t.1.toService.sent = t.1.fromApp.sent ∧
      t.1.toApp.sent = t.1.fromService.sent) (shutSession, 5) :=
  session_succeeds available_web run_shutActions (by decide) (by decide +kernel) 5

end Session

end Punchgate
