import Mathlib.Data.Prod.Lex
import Punchgate.Library.Inevitable
import Punchgate.Session.Safety

/-!
# Tunnel sessions come to an end

Once the application and the service have nothing more to say and read what they are sent, both
functions return, in whatever order they act and however they cut the streams into chunks. Whoever
waits for room in a stream waits for its reader, who can act or waits for someone who can.
-/

namespace Punchgate

/-- How far the server is from knowing its answer. -/
def ServerPhase.stage : ServerPhase → ℕ
  | .reading _ => 2
  | .connecting _ => 1
  | _ => 0

/-- What the client still has to do, with the bytes that it holds. -/
def ClientPhase.work : ClientPhase → ℕ
  | .requesting left => 4 * left.length + 6
  | .awaiting _ => 6
  | .copying up down => 4 * up.buffer.length + 2 * down.buffer.length + up.rank + down.rank + 1
  | .returned _ => 0

/-- What the server still has to do, with the bytes that it holds. -/
def ServerPhase.work : ServerPhase → ℕ
  | .reading _ => 1
  | .connecting _ => 1
  | .rejecting left => 4 * left.length + 1
  | .accepting left => 4 * left.length + 6
  | .copying up down => 2 * up.buffer.length + 4 * down.buffer.length + up.rank + down.rank + 1
  | .returned _ => 0

namespace Session

variable {E : Endpoints} {s s' : Session} {a : SessionAction} {fails : Prop}

/-- One of the two functions acts, or the application or the service reads what there is, or the
service shuts its stream. Whether the service may refuse a connection is a parameter, and so is
whether a stream may fail whose other end is gone. -/
inductive Works (E : Endpoints) (fails : Prop) (s : Session) : Session → Prop
  | client {a : SessionAction} {s' : Session}
      (ha : a = .clientFail → fails ∧ ∃ result, s.server = .returned result)
      (h : s.stepClient E a = some s') : Works E fails s s'
  | server {a : SessionAction} {s' : Session}
      (ha : a = .serverFail → fails ∧ ∃ result, s.client = .returned result)
      (hconnect : a = .serverConnect false → fails) (h : s.stepServer E a = some s') :
      Works E fails s s'
  | appRead {n : ℕ} {s' : Session} (hpos : 0 < n) (h : s.stepOutside (.appRead n) = some s') :
      Works E fails s s'
  | serviceRead {n : ℕ} {s' : Session} (hpos : 0 < n)
      (h : s.stepOutside (.serviceRead n) = some s') : Works E fails s s'
  | serviceShut {s' : Session} (hshut : s.fromService.shut = false)
      (h : s.stepOutside .serviceShut = some s') : Works E fails s s'

/-- The two functions proceed, and so does the service, which has so many bytes left to write. -/
inductive Proceeds (E : Endpoints) (fails : Prop) : Session × ℕ → Session × ℕ → Prop
  | works {s s' : Session} {left : ℕ} (h : Works E fails s s') :
      Proceeds E fails (s, left) (s', left)
  | serviceWrite {s s' : Session} {left : ℕ} {bytes : List UInt8} (hbytes : bytes ≠ [])
      (h : s.stepOutside (.serviceWrite bytes) = some s') :
      Proceeds E fails (s, left + bytes.length) (s', left)

/-- Both functions have returned. -/
def Ended (s : Session) : Prop :=
  ∃ client server, s.client = .returned client ∧ s.server = .returned server

/-! ## Work that is left -/

/-- Each byte counts for the actions that it takes until it has arrived. -/
def work (s : Session) : ℕ :=
  5 * s.fromApp.unread.length + s.client.work + 3 * s.toServer.unread.length + s.server.work +
    s.toService.unread.length + 5 * s.fromService.unread.length + 3 * s.toClient.unread.length +
    s.toApp.unread.length + (!s.fromService.shut).toNat

/-- The first thing is to know the answer, whose length is not known before. -/
def remaining (s : Session) : ℕ ×ₗ ℕ := toLex (s.server.stage, s.work)

/-- Less work at the same stage is less. -/
theorem remaining_lt_of_work (hstage : s'.server.stage ≤ s.server.stage)
    (hwork : s'.work < s.work) : s'.remaining < s.remaining := by
  rw [remaining, remaining, Prod.Lex.toLex_lt_toLex]
  rcases hstage.lt_or_eq with h | h
  · exact Or.inl h
  · exact Or.inr ⟨h, hwork⟩

/-- A later stage is less. -/
theorem remaining_lt_of_stage (hstage : s'.server.stage < s.server.stage) :
    s'.remaining < s.remaining := by
  rw [remaining, remaining, Prod.Lex.toLex_lt_toLex]
  exact Or.inl hstage

/-- A client that gives up has nothing to do. -/
theorem work_dropClient (s : Session) (result : SessionEnd) :
    (s.dropClient result).work + s.client.work = s.work := by
  have hwork : (s.dropClient result).client.work = 0 := rfl
  simp only [work, hwork]
  simp only [dropClient, Pipe.unread_close]
  omega

/-- A server that gives up has nothing to do. -/
theorem work_dropServer (s : Session) (result : SessionEnd) :
    (s.dropServer result).work + s.server.work = s.work := by
  have hwork : (s.dropServer result).server.work = 0 := rfl
  have hunread : (s.dropServer result).toService.unread = s.toService.unread := by
    change (if s.dialed.isSome then s.toService.close else s.toService).unread = _
    split <;> rfl
  simp only [work, hwork, hunread]
  simp only [dropServer, Pipe.unread_close]
  omega

/-- A client that copies has to do what its transfers have to do, at most. -/
theorem work_clientCopied (s : Session) (up down : Transfer UInt8) :
    (s.clientCopied up down).work + s.client.work ≤
      s.work + (ClientPhase.copying up down).work := by
  unfold clientCopied
  split
  · have hdrop := s.work_dropClient .ok
    omega
  · simp only [work]
    omega

/-- A server that copies has to do what its transfers have to do, at most. -/
theorem work_serverCopied (s : Session) (up down : Transfer UInt8) :
    (s.serverCopied up down).work + s.server.work ≤
      s.work + (ServerPhase.copying up down).work := by
  unfold serverCopied
  split
  · have hdrop := s.work_dropServer .ok
    omega
  · simp only [work]
    omega

/-- A client that has read of the response has no more to do than before. -/
theorem work_clientGot (s : Session) (got : List UInt8) (h : s.client.work = 6) :
    (s.clientGot E got).work ≤ s.work := by
  unfold clientGot
  split
  · simp only [work, h]
    exact le_rfl
  · rename_i e _
    have hdrop := s.work_dropClient (.failed (.wire e))
    omega
  · rename_i response _
    split
    · simp only [work, h]
      simp only [ClientPhase.work, Transfer.buffer, Transfer.rank, List.length_nil]
      omega
    · have hdrop := s.work_dropClient (.failed (.rejected (response.reason.getD "unknown")))
      omega

/-- A client that copies leaves the server where it is. -/
theorem server_clientCopied (s : Session) (up down : Transfer UInt8) :
    (s.clientCopied up down).server = s.server := by
  unfold clientCopied
  split <;> rfl

/-- An action of the client leaves less to do, and the server where it is. -/
theorem work_stepClient (h : s.stepClient E a = some s') :
    s'.server = s.server ∧ s'.work < s.work := by
  cases stepClient_cases h with
  | @write left n hclient hpos hn =>
    refine ⟨rfl, ?_⟩
    have hphase : (if left.drop n = [] then ClientPhase.awaiting []
        else .requesting (left.drop n)).work ≤ 4 * (left.drop n).length + 6 := by
      split
      · exact Nat.le_add_left _ _
      · exact le_rfl
    have hleft : s.client.work = 4 * left.length + 6 := by rw [hclient]; rfl
    simp only [work, Pipe.unread_write, List.length_append, List.length_take]
    rw [List.length_drop] at hphase
    omega
  | @read got n hclient hpos _ hunread =>
    have hsix : s.client.work = 6 := by rw [hclient]; rfl
    have hgot := work_clientGot (E := E) { s with toClient := s.toClient.read n }
      (got ++ s.toClient.unread.take n) hsix
    have hread : Session.work { s with toClient := s.toClient.read n } + 3 * n = s.work := by
      simp only [work, Pipe.unread_read, List.length_drop]
      omega
    refine ⟨?_, by omega⟩
    unfold clientGot
    split
    · rfl
    · rfl
    · split <;> rfl
  | eof hclient =>
    have hdrop := s.work_dropClient (.failed (.wire .unexpectedEof))
    have hsix : s.client.work = 6 := by rw [hclient]; rfl
    exact ⟨rfl, by omega⟩
  | @up up down up' fromApp toServer b hclient hcopy =>
    obtain ⟨read, written, done, hsrc, hbuffer, hdst, hrank, hpos⟩ := Transfer.step_accounts hcopy
    have hcopied := work_clientCopied { s with fromApp := fromApp, toServer := toServer } up' down
    have hmoved : Session.work { s with fromApp := fromApp, toServer := toServer } + 5 * read =
        s.work + 3 * written := by
      simp only [work]
      omega
    have hbefore : s.client.work = (ClientPhase.copying up down).work := by rw [hclient]
    refine ⟨server_clientCopied _ _ _, ?_⟩
    dsimp only at hcopied
    rw [hbefore] at hcopied
    simp only [ClientPhase.work] at hcopied
    omega
  | @down up down down' toClient toApp b hclient hcopy =>
    obtain ⟨read, written, done, hsrc, hbuffer, hdst, hrank, hpos⟩ := Transfer.step_accounts hcopy
    have hcopied := work_clientCopied { s with toClient := toClient, toApp := toApp } up down'
    have hmoved : Session.work { s with toClient := toClient, toApp := toApp } + 3 * read =
        s.work + written := by
      simp only [work]
      omega
    have hbefore : s.client.work = (ClientPhase.copying up down).work := by rw [hclient]
    refine ⟨server_clientCopied _ _ _, ?_⟩
    dsimp only at hcopied
    rw [hbefore] at hcopied
    simp only [ClientPhase.work] at hcopied
    omega
  | fail hclient =>
    have hdrop := s.work_dropClient .ioError
    have hpos : 0 < s.client.work := by
      cases hphase : s.client with
      | returned result => exact absurd hphase (hclient result)
      | _ => simp [ClientPhase.work]
    exact ⟨rfl, by omega⟩

/-- A server that has read of the request waits for the rest, or it is at a later stage. -/
theorem remaining_serverGot (s : Session) (got : List UInt8) (h : ∃ got, s.server = .reading got) :
    (s.serverGot E got).server = .reading got ∧ (s.serverGot E got).work = s.work ∨
      (s.serverGot E got).server.stage < 2 := by
  obtain ⟨before, hserver⟩ := h
  unfold serverGot
  split
  · refine .inl ⟨rfl, ?_⟩
    simp only [work, hserver]
    rfl
  · exact .inr (by change 0 < 2; omega)
  · split
    · exact .inr (by change 1 < 2; omega)
    · split
      · exact .inr (by change 0 < 2; omega)
      · exact .inr (by change 0 < 2; omega)

/-- A server that copies, or is done, has its answer. -/
theorem stage_serverCopied (s : Session) (up down : Transfer UInt8) :
    (s.serverCopied up down).server.stage = 0 := by
  unfold serverCopied
  split <;> rfl

/-- A server that has connected, or not, has its answer. -/
theorem stage_serverConnected (s : Session) (localAddr : ServiceAddr) (connects : Bool) :
    (s.serverConnected localAddr connects).server.stage = 0 := by
  unfold serverConnected
  split
  · split <;> rfl
  · rfl

/-- A response of which a part is written. -/
theorem work_written {n : ℕ} {left : List UInt8} (hn : n ≤ left.length) :
    work { s with toClient := s.toClient.write (left.take n) } = s.work + 3 * n := by
  simp only [work, Pipe.unread_write, List.length_append, List.length_take]
  omega

/-- An action of the server leaves less to do. -/
theorem remaining_stepServer (h : s.stepServer E a = some s') : s'.remaining < s.remaining := by
  cases stepServer_cases h with
  | @read got n hserver hpos _ hunread =>
    have hstage : s.server.stage = 2 := by rw [hserver]; rfl
    rcases remaining_serverGot (E := E) { s with toServer := s.toServer.read n }
      (got ++ s.toServer.unread.take n) ⟨got, hserver⟩ with ⟨hreading, hwork⟩ | hless
    · refine remaining_lt_of_work ?_ ?_
      · rw [hreading, hstage]
        rfl
      · rw [hwork]
        simp only [work, Pipe.unread_read, List.length_drop]
        omega
    · exact remaining_lt_of_stage (by omega)
  | eof hserver =>
    refine remaining_lt_of_stage ?_
    rw [hserver]
    exact Nat.two_pos
  | @connect localAddr connects hserver =>
    refine remaining_lt_of_stage ?_
    rw [hserver, stage_serverConnected]
    exact Nat.one_pos
  | @reject left n hserver hpos hn =>
    have hwork : s.server.work = 4 * left.length + 1 := by rw [hserver]; rfl
    have hwritten := work_written (s := s) hn
    have hphase : (ServerPhase.rejecting (left.drop n)).work = 4 * (left.length - n) + 1 := by
      rw [← List.length_drop]
      rfl
    refine remaining_lt_of_work (Nat.zero_le _) ?_
    simp only [work] at hwritten ⊢
    omega
  | @rejected left n hserver hpos hn =>
    have hwork : s.server.work = 4 * left.length + 1 := by rw [hserver]; rfl
    have hwritten := work_written (s := s) hn
    have hdrop := work_dropServer { s with toClient := s.toClient.write (left.take n) } .ok
    dsimp only at hdrop
    exact remaining_lt_of_work (Nat.zero_le _) (by omega)
  | @accept left n hserver hpos hn =>
    have hwork : s.server.work = 4 * left.length + 6 := by rw [hserver]; rfl
    have hwritten := work_written (s := s) hn
    have hphase : (if left.drop n = [] then ServerPhase.copying (.running []) (.running [])
        else .accepting (left.drop n)).work ≤ 4 * (left.drop n).length + 6 := by
      split
      · change 2 * 0 + 4 * 0 + 2 + 2 + 1 ≤ _
        omega
      · exact le_rfl
    refine remaining_lt_of_work ?_ ?_
    · dsimp only
      split <;> exact Nat.zero_le _
    · rw [List.length_drop] at hphase
      simp only [work] at hwritten ⊢
      omega
  | @up up down up' toServer toService b hserver hcopy =>
    obtain ⟨read, written, done, hsrc, hbuffer, hdst, hrank, hpos⟩ := Transfer.step_accounts hcopy
    have hcopied := work_serverCopied { s with toServer := toServer, toService := toService } up'
      down
    have hmoved : Session.work { s with toServer := toServer, toService := toService } + 3 * read =
        s.work + written := by
      simp only [work]
      omega
    have hbefore : s.server.work = (ServerPhase.copying up down).work := by rw [hserver]
    refine remaining_lt_of_work ?_ ?_
    · rw [stage_serverCopied]
      exact Nat.zero_le _
    · dsimp only at hcopied
      rw [hbefore] at hcopied
      simp only [ServerPhase.work] at hcopied
      omega
  | @down up down down' fromService toClient b hserver hcopy =>
    obtain ⟨read, written, done, hsrc, hbuffer, hdst, hrank, hpos⟩ := Transfer.step_accounts hcopy
    have hcopied := work_serverCopied { s with fromService := fromService, toClient := toClient } up
      down'
    have hshut : fromService.shut = s.fromService.shut := Transfer.shut_step hcopy
    have hmoved : Session.work { s with fromService := fromService, toClient := toClient } +
        5 * read = s.work + 3 * written := by
      simp only [work, hshut]
      omega
    have hbefore : s.server.work = (ServerPhase.copying up down).work := by rw [hserver]
    refine remaining_lt_of_work ?_ ?_
    · rw [stage_serverCopied]
      exact Nat.zero_le _
    · dsimp only at hcopied
      rw [hbefore] at hcopied
      simp only [ServerPhase.work] at hcopied
      omega
  | fail hserver =>
    have hdrop := s.work_dropServer .ioError
    have hpos : 0 < s.server.work := by
      cases hphase : s.server with
      | returned result => exact absurd hphase (hserver result)
      | _ => simp [ServerPhase.work]
    exact remaining_lt_of_work (Nat.zero_le _) (by omega)
  | logged hserver =>
    have hdrop := s.work_dropServer .logged
    have hpos : 0 < s.server.work := by
      rw [hserver]
      exact Nat.succ_pos _
    exact remaining_lt_of_work (Nat.zero_le _) (by omega)

/-- **Termination.** Whatever is done, less is left to do. -/
theorem Works.remaining_lt (h : s.Works E fails s') : s'.remaining < s.remaining := by
  cases h with
  | client _ hstep =>
    obtain ⟨hserver, hwork⟩ := work_stepClient hstep
    exact remaining_lt_of_work (by rw [hserver]) hwork
  | server _ _ hstep => exact remaining_stepServer hstep
  | appRead hpos hstep =>
    simp only [stepOutside] at hstep
    split at hstep
    · cases hstep
      refine remaining_lt_of_work le_rfl ?_
      simp only [work, Pipe.unread_read, List.length_drop]
      omega
    · cases hstep
  | serviceRead hpos hstep =>
    simp only [stepOutside] at hstep
    split at hstep
    · cases hstep
      refine remaining_lt_of_work le_rfl ?_
      simp only [work, Pipe.unread_read, List.length_drop]
      omega
    · cases hstep
  | serviceShut hshut hstep =>
    simp only [stepOutside] at hstep
    split at hstep
    · cases hstep
      refine remaining_lt_of_work le_rfl ?_
      simp only [work, Pipe.unread_close, Pipe.shut_close, hshut]
      change _ + 0 < _ + 1
      omega
    · cases hstep

/-- The bytes that the service has left to write come first. -/
def remainingOf (t : Session × ℕ) : ℕ ×ₗ (ℕ ×ₗ ℕ) := toLex (t.2, t.1.remaining)

/-- Whatever is done or written, less is left to do. -/
theorem Proceeds.remainingOf_lt {t t' : Session × ℕ} (h : Proceeds E fails t t') :
    remainingOf t' < remainingOf t := by
  rw [remainingOf, remainingOf, Prod.Lex.toLex_lt_toLex]
  cases h with
  | works hworks => exact Or.inr ⟨rfl, hworks.remaining_lt⟩
  | serviceWrite hbytes _ =>
    have hpos := List.length_pos_of_ne_nil hbytes
    exact Or.inl (by dsimp only; omega)

/-! ## Something can be done -/

/-- A message that is not complete has something missing. -/
theorem missing_pos {T : Type} {fromSlice : List UInt8 → Except String T} {got : List UInt8}
    (h : readFrame fromSlice got = none) : 0 < Framing.missing 4 got := by
  unfold readFrame at h
  split at h
  · rename_i hshort
    rw [Framing.missing, if_pos hshort]
    omega
  · split at h
    · split at h
      · cases h
      · omega
    · cases h

/-- A message of which a frame was read is complete. -/
theorem readFrame_ne_none {T : Type} (fromSlice : List UInt8 → Except String T)
    {frame got : List UInt8} (hframe : Framing.IsFrame 4 frame) (hfront : frame <+: got) :
    readFrame fromSlice got ≠ none := by
  intro hnone
  have hpos := missing_pos hnone
  have hle := hfront.length_le
  unfold Framing.IsFrame at hframe
  have htake : got.take 4 = frame.take 4 := by
    obtain ⟨rest, rfl⟩ := hfront
    exact List.take_append_of_le_length (by omega)
  unfold Framing.missing at hpos
  rw [htake] at hpos
  split at hpos <;> omega

/-- A client that has returned has shut the stream to the server. -/
theorem Safe.toServer_shut_of_returned (h : s.Safe E) {result : SessionEnd}
    (hclient : s.client = .returned result) : s.toServer.shut = true := by
  rcases h.client with ⟨request, -, hholds⟩ | ⟨-, -, hshut, -⟩
  · rw [hclient] at hholds
    cases result with
    | ok => exact hholds.1.shut.mpr rfl
    | failed e => exact hholds.2
    | ioError => exact hholds.2
    | logged => exact hholds.2
  · exact hshut

/-- A server that has returned has shut the stream to the client. -/
theorem Safe.toClient_shut_of_returned (h : s.Safe E) {result : SessionEnd}
    (hserver : s.server = .returned result) : s.toClient.shut = true := by
  have hholds := h.server
  rw [hserver] at hholds
  cases result with
  | ok =>
    rcases hholds with ⟨-, _, _, -, -, -, hdown⟩ | ⟨-, -, -, -, -, hshut⟩
    · exact hdown.shut.mpr rfl
    · exact hshut
  | failed e => exact hholds.2
  | ioError => exact hholds.2
  | logged => exact hholds.2

/-- A client that has not given up has written a request, or a part of it. -/
theorem Safe.clientHolds (h : s.Safe E) (hclient : ∀ e, s.client ≠ .returned (.failed e)) :
    ∃ request, writeMessage (⟨E.serviceName⟩ : TunnelRequest) = .ok request ∧
      s.ClientHolds E request s.client :=
  h.client.resolve_right fun ⟨⟨e, hreturned⟩, _⟩ => hclient e hreturned

/-- Whoever has returned has copied everything before. -/
def Orderly (s : Session) : Prop :=
  (∀ result, s.client = .returned result → result = .ok) ∧
    ∀ result, s.server = .returned result → s.ServerCopies .finished .finished

/-- An action of the client that is possible. -/
theorem works_client (ha : a ≠ .clientFail) (h : (s.stepClient E a).isSome = true) :
    ∃ s', Works E fails s s' := by
  obtain ⟨s', hstep⟩ := Option.isSome_iff_exists.mp h
  exact ⟨s', .client (fun h => absurd h ha) hstep⟩

/-- An action of the server that is possible. -/
theorem works_server (ha : a ≠ .serverFail) (hconnect : a ≠ .serverConnect false)
    (h : (s.stepServer E a).isSome = true) : ∃ s', Works E fails s s' := by
  obtain ⟨s', hstep⟩ := Option.isSome_iff_exists.mp h
  exact ⟨s', .server (fun h => absurd h ha) (fun h => absurd h hconnect) hstep⟩

/-- A client finds that the server is gone. -/
theorem works_clientFail (hfails : fails) {result : SessionEnd}
    (hserver : s.server = .returned result) (hclient : ∀ result, s.client ≠ .returned result) :
    ∃ s', Works E fails s s' := by
  refine ⟨s.dropClient .ioError, .client (a := .clientFail) (fun _ => ⟨hfails, result, hserver⟩) ?_⟩
  cases hphase : s.client with
  | returned result => exact absurd hphase (hclient result)
  | _ => simp [stepClient, hphase]

/-- A server finds that the client is gone. -/
theorem works_serverFail (hfails : fails) {result : SessionEnd}
    (hclient : s.client = .returned result) (hserver : ∀ result, s.server ≠ .returned result) :
    ∃ s', Works E fails s s' := by
  have hsome : (s.stepServer E .serverFail).isSome = true := by
    cases hphase : s.server with
    | returned result => exact absurd hphase (hserver result)
    | _ => simp [stepServer, hphase]
  obtain ⟨s', hstep⟩ := Option.isSome_iff_exists.mp hsome
  exact ⟨s', .server (fun _ => ⟨hfails, result, hclient⟩) (fun h => by cases h) hstep⟩

/-- The application reads what there is. -/
theorem works_appRead (h : s.toApp.unread ≠ []) : ∃ s', Works E fails s s' :=
  ⟨_, .appRead Nat.one_pos (if_pos (List.length_pos_of_ne_nil h))⟩

/-- The service reads what there is. -/
theorem works_serviceRead (hsome : s.dialed.isSome = true) (h : s.toService.unread ≠ []) :
    ∃ s', Works E fails s s' :=
  ⟨_, .serviceRead Nat.one_pos (if_pos ⟨hsome, List.length_pos_of_ne_nil h⟩)⟩

/-- A client that waits for its answer reads what there is. -/
theorem works_clientRead {got : List UInt8} (hclient : s.client = .awaiting got)
    (hgot : readFrame E.responseFromSlice got = none) (hunread : s.toClient.unread ≠ []) :
    ∃ s', Works E fails s s' := by
  refine works_client (a := .clientRead 1) (by simp) ?_
  simp only [stepClient, hclient]
  rw [if_pos ⟨Nat.one_pos, missing_pos hgot, List.length_pos_of_ne_nil hunread⟩]
  rfl

/-- A client writes its request if there is room. -/
theorem works_clientWrite {left : List UInt8} (hclient : s.client = .requesting left)
    (hleft : left ≠ []) (hempty : s.toServer.unread = []) : ∃ s', Works E fails s s' := by
  have hroom : s.toServer.unread.length + 1 ≤ E.limits.toServer := by
    rw [hempty]
    exact E.limits.toServer.pos
  refine works_client (a := .clientWrite 1) (by simp) ?_
  simp only [stepClient, hclient]
  rw [if_pos ⟨Nat.one_pos, List.length_pos_of_ne_nil hleft, hroom⟩]
  rfl

/-- A client that copies to the application goes on, unless it waits for the application to read. -/
theorem works_clientDown {up down : Transfer UInt8} (hclient : s.client = .copying up down)
    (hdown : down ≠ .finished) (hsource : s.toClient.unread ≠ [] ∨ s.toClient.shut = true) :
    ∃ s', Works E fails s s' := by
  obtain ⟨a, hstep⟩ | hfull :=
    Transfer.exists_step E.limits.buffer E.limits.toApp s.toApp hdown hsource
  · exact works_client (a := .clientDown a) (by simp) (by simpa [stepClient, hclient] using hstep)
  · exact works_appRead hfull

/-- A server that waits for the request reads what there is. -/
theorem works_serverRead {got : List UInt8} (hserver : s.server = .reading got)
    (hgot : readFrame E.requestFromSlice got = none) (hunread : s.toServer.unread ≠ []) :
    ∃ s', Works E fails s s' := by
  refine works_server (a := .serverRead 1) (by simp) (by simp) ?_
  simp only [stepServer, hserver]
  rw [if_pos ⟨Nat.one_pos, missing_pos hgot, List.length_pos_of_ne_nil hunread⟩]
  rfl

/-- The service answers the attempt to connect. -/
theorem works_serverConnect {localAddr : ServiceAddr} (hserver : s.server = .connecting localAddr) :
    ∃ s', Works E fails s s' :=
  works_server (a := .serverConnect true) (by simp) (by simp) (by simp [stepServer, hserver])

/-- A server writes its answer if there is room. -/
theorem works_serverWrite {left : List UInt8}
    (hserver : s.server = .rejecting left ∨ s.server = .accepting left) (hleft : left ≠ [])
    (hempty : s.toClient.unread = []) : ∃ s', Works E fails s s' := by
  have hroom : s.toClient.unread.length + 1 ≤ E.limits.toClient := by
    rw [hempty]
    exact E.limits.toClient.pos
  refine works_server (a := .serverWrite 1) (by simp) (by simp) ?_
  rcases hserver with hserver | hserver
  · simp only [stepServer, hserver]
    rw [if_pos ⟨Nat.one_pos, List.length_pos_of_ne_nil hleft, hroom⟩]
    rfl
  · simp only [stepServer, hserver]
    rw [if_pos ⟨Nat.one_pos, List.length_pos_of_ne_nil hleft, hroom⟩]
    rfl

/-- A server that copies to the service goes on, unless it waits for the service to read. -/
theorem works_serverUp {up down : Transfer UInt8} (hserver : s.server = .copying up down)
    (hsome : s.dialed.isSome = true) (hup : up ≠ .finished)
    (hsource : s.toServer.unread ≠ [] ∨ s.toServer.shut = true) : ∃ s', Works E fails s s' := by
  obtain ⟨a, hstep⟩ | hfull :=
    Transfer.exists_step E.limits.buffer E.limits.toService s.toService hup hsource
  · exact works_server (a := .serverUp a) (by simp) (by simp)
      (by simpa [stepServer, hserver] using hstep)
  · exact works_serviceRead hsome hfull

/-- A server that copies has read the request. -/
theorem ServerCopies.framed {up down : Transfer UInt8} (h : s.ServerCopies up down) :
    ∃ frame, Framing.IsFrame 4 frame ∧ frame <+: s.toServer.received := by
  obtain ⟨-, request, -, hframe, -, hup, -⟩ := h
  exact ⟨request, hframe, (List.prefix_append _ _).trans hup.prefix_of_stripped⟩

/-- The server has not read a request of which a part is still to be written. -/
theorem Safe.not_framed (h : s.Safe E) {left : List UInt8} (hclient : s.client = .requesting left) :
    ¬∃ frame, Framing.IsFrame 4 frame ∧ frame <+: s.toServer.received := by
  rintro ⟨frame, hframe, hfront⟩
  obtain ⟨request, hwrite, hholds⟩ := h.clientHolds (by simp [hclient])
  rw [hclient] at hholds
  obtain ⟨hsplit, hleft, -⟩ := hholds
  have hsent := hfront.trans s.toServer.received_isPrefix
  have heq : frame = request := hframe.eq_of_isPrefix (isFrame_writeMessage hwrite)
    (hsent.trans (hsplit ▸ List.prefix_append _ _)) List.prefix_rfl
  have hle := hsent.length_le
  have hlength := congrArg List.length hsplit
  rw [List.length_append] at hlength
  have hpos := List.length_pos_of_ne_nil hleft
  rw [heq] at hle
  omega

/-- **The client reads.** While there is something for the client to read, something can be done. -/
theorem Safe.toClient_drains (h : s.Safe E) (hgone : fails ∨ s.Orderly) (hended : ¬s.Ended)
    (hunread : s.toClient.unread ≠ []) : ∃ s', Works E fails s s' := by
  cases hphase : s.client with
  | requesting left =>
    obtain ⟨request, -, hholds⟩ := h.clientHolds (by simp [hphase])
    rw [hphase] at hholds
    have hframed := h.not_framed hphase
    by_cases hempty : s.toServer.unread = []
    · exact works_clientWrite hphase hholds.2.1 hempty
    · -- the client waits for the server, which has not read all of the request
      have hserver := h.server
      cases hserverPhase : s.server with
      | reading got =>
        rw [hserverPhase] at hserver
        exact works_serverRead hserverPhase hserver.2.2.1 hempty
      | connecting localAddr => exact works_serverConnect hserverPhase
      | rejecting left =>
        rw [hserverPhase] at hserver
        exact absurd ⟨_, hserver.2.1, List.prefix_rfl⟩ hframed
      | accepting left =>
        rw [hserverPhase] at hserver
        exact absurd ⟨_, hserver.2.1, List.prefix_rfl⟩ hframed
      | copying up down =>
        rw [hserverPhase] at hserver
        exact absurd hserver.1.framed hframed
      | returned result =>
        rcases hgone with hfails | horderly
        · exact works_clientFail hfails hserverPhase (by simp [hphase])
        · exact absurd (horderly.2 result hserverPhase).framed hframed
  | awaiting got =>
    obtain ⟨request, -, hholds⟩ := h.clientHolds (by simp [hphase])
    rw [hphase] at hholds
    exact works_clientRead hphase hholds.2.2.2.2.1 hunread
  | copying up down =>
    obtain ⟨request, -, hholds⟩ := h.clientHolds (by simp [hphase])
    rw [hphase] at hholds
    obtain ⟨⟨-, frame, response, -, -, -, hcopies⟩, -⟩ := hholds
    refine works_clientDown hphase (fun hdown => ?_) (.inl hunread)
    rw [hdown] at hcopies
    exact hunread (hcopies.ended rfl).2
  | returned client =>
    rcases hgone with hfails | horderly
    · exact works_serverFail hfails hphase fun server hserver =>
        hended ⟨client, server, hphase, hserver⟩
    · obtain rfl := horderly.1 client hphase
      obtain ⟨request, -, hholds⟩ := h.clientHolds (by simp [hphase])
      rw [hphase] at hholds
      obtain ⟨-, frame, response, -, -, -, hcopies⟩ := hholds
      exact absurd (hcopies.ended rfl).2 hunread

/-- **The server reads.** While there is something for the server to read, something can be done. -/
theorem Safe.toServer_drains (h : s.Safe E) (hgone : fails ∨ s.Orderly) (hended : ¬s.Ended)
    (hunread : s.toServer.unread ≠ []) : ∃ s', Works E fails s s' := by
  have hholds := h.server
  cases hphase : s.server with
  | reading got =>
    rw [hphase] at hholds
    exact works_serverRead hphase hholds.2.2.1 hunread
  | connecting localAddr => exact works_serverConnect hphase
  | rejecting left =>
    rw [hphase] at hholds
    by_cases hempty : s.toClient.unread = []
    · exact works_serverWrite (.inl hphase) hholds.2.2.1 hempty
    · exact h.toClient_drains hgone hended hempty
  | accepting left =>
    rw [hphase] at hholds
    by_cases hempty : s.toClient.unread = []
    · exact works_serverWrite (.inr hphase) hholds.2.2.1 hempty
    · exact h.toClient_drains hgone hended hempty
  | copying up down =>
    rw [hphase] at hholds
    obtain ⟨⟨hsome, request, answer, -, -, hcopies, -⟩, -⟩ := hholds
    refine works_serverUp hphase hsome (fun hup => ?_) (.inl hunread)
    rw [hup] at hcopies
    exact hunread (hcopies.ended rfl).2
  | returned server =>
    rcases hgone with hfails | horderly
    · exact works_clientFail hfails hphase fun client hclient =>
        hended ⟨client, server, hclient, hphase⟩
    · obtain ⟨-, request, answer, -, -, hcopies, -⟩ := horderly.2 server hphase
      exact absurd (hcopies.ended rfl).2 hunread

/-- The server can act unless it waits for bytes of the client. -/
theorem Safe.server_acts (h : s.Safe E) (hgone : fails ∨ s.Orderly) (hended : ¬s.Ended)
    (hserver : ∀ result, s.server ≠ .returned result)
    (hreading : ∀ got, s.server = .reading got → s.toServer.unread ≠ [] ∨ s.toServer.shut = true)
    (hcopying : ∀ up down, s.server = .copying up down → s.toServer.shut = true) :
    ∃ s', Works E fails s s' := by
  by_cases hempty : s.toClient.unread = []
  · have hholds := h.server
    cases hphase : s.server with
    | reading got =>
      rw [hphase] at hholds
      by_cases hunread : s.toServer.unread = []
      · have hshut := (hreading got hphase).resolve_left (not_not_intro hunread)
        exact works_server (a := .serverEof) (by simp) (by simp)
          (by simp [stepServer, hphase, hunread, hshut])
      · exact works_serverRead hphase hholds.2.2.1 hunread
    | rejecting left =>
      rw [hphase] at hholds
      exact works_serverWrite (.inl hphase) hholds.2.2.1 hempty
    | connecting localAddr => exact works_serverConnect hphase
    | accepting left =>
      rw [hphase] at hholds
      exact works_serverWrite (.inr hphase) hholds.2.2.1 hempty
    | copying up down =>
      rw [hphase] at hholds
      obtain ⟨⟨hsome, -⟩, hunfinished⟩ := hholds
      by_cases hup : up = .finished
      · have hdown : down ≠ .finished := fun hdown => hunfinished ⟨hup, hdown⟩
        by_cases hsource : s.fromService.unread ≠ [] ∨ s.fromService.shut = true
        · obtain ⟨a, hstep⟩ | hfull :=
            Transfer.exists_step E.limits.buffer E.limits.toClient s.toClient hdown hsource
          · exact works_server (a := .serverDown a) (by simp) (by simp)
              (by simpa [stepServer, hphase] using hstep)
          · exact absurd hempty hfull
        · -- the service has nothing to say, and shuts its stream
          rw [not_or] at hsource
          exact ⟨{ s with fromService := s.fromService.close },
            .serviceShut (Bool.eq_false_iff.mpr hsource.2) (if_pos hsome)⟩
      · exact works_serverUp hphase hsome hup (.inr (hcopying up down hphase))
    | returned result => exact absurd hphase (hserver result)
  · exact h.toClient_drains hgone hended hempty

/-- **No deadlock.** Once the application has shut its stream, something can be done until both
functions have returned. -/
theorem Safe.acts (h : s.Safe E) (hgone : fails ∨ s.Orderly) (happ : s.fromApp.shut = true)
    (hended : ¬s.Ended) : ∃ s', Works E fails s s' := by
  cases hphase : s.client with
  | returned client =>
    have hshut := h.toServer_shut_of_returned hphase
    refine h.server_acts hgone hended
      (fun server hserver => hended ⟨client, server, hphase, hserver⟩) ?_ ?_
    · exact fun _ _ => Or.inr hshut
    · exact fun _ _ _ => hshut
  | requesting left =>
    obtain ⟨request, -, hholds⟩ := h.clientHolds (by simp [hphase])
    rw [hphase] at hholds
    by_cases hempty : s.toServer.unread = []
    · exact works_clientWrite hphase hholds.2.1 hempty
    · exact h.toServer_drains hgone hended hempty
  | awaiting got =>
    obtain ⟨request, hwrite, hholds⟩ := h.clientHolds (by simp [hphase])
    rw [hphase] at hholds
    obtain ⟨hsent, -, -, hreceived, hgot, -, -⟩ := hholds
    by_cases hunread : s.toClient.unread = []
    · by_cases hshut : s.toClient.shut = true
      · exact works_client (a := .clientEof) (by simp)
          (by simp [stepClient, hphase, hunread, hshut])
      · -- the client waits for an answer, so that the server is not done with it
        refine h.server_acts hgone hended (fun server hserver => ?_) (fun got' hserver => ?_)
          fun up down hserver => ?_
        · exact hshut (h.toClient_shut_of_returned hserver)
        · left
          intro hempty
          have hholds := h.server
          rw [hserver] at hholds
          refine readFrame_ne_none E.requestFromSlice (isFrame_writeMessage hwrite)
            ?_ hholds.2.2.1
          rw [← hholds.2.1, Pipe.received_eq_sent hempty, hsent]
        · have hholds := h.server
          rw [hserver] at hholds
          obtain ⟨⟨-, _, answer, -, hanswer, -, hdown⟩, -⟩ := hholds
          obtain ⟨copied, -, htoClient⟩ := hdown.copied
          refine absurd hgot (readFrame_ne_none E.responseFromSlice (isFrame_answer hanswer) ?_)
          rw [← hreceived, Pipe.received_eq_sent hunread, htoClient]
          exact List.prefix_append _ _
    · exact works_clientRead hphase hgot hunread
  | copying up down =>
    obtain ⟨request, -, hholds⟩ := h.clientHolds (by simp [hphase])
    rw [hphase] at hholds
    obtain ⟨⟨hcopies, -⟩, hunfinished⟩ := hholds
    by_cases hup : up = .finished
    · have hdown : down ≠ .finished := fun hdown => hunfinished ⟨hup, hdown⟩
      have htoServer : s.toServer.shut = true := hcopies.shut.mpr hup
      by_cases hsource : s.toClient.unread ≠ [] ∨ s.toClient.shut = true
      · exact works_clientDown hphase hdown hsource
      · rw [not_or] at hsource
        refine h.server_acts hgone hended (fun server hserver => ?_) ?_ ?_
        · exact hsource.2 (h.toClient_shut_of_returned hserver)
        · exact fun _ _ => Or.inr htoServer
        · exact fun _ _ _ => htoServer
    · obtain ⟨a, hstep⟩ | hfull :=
        Transfer.exists_step E.limits.buffer E.limits.toServer s.toServer hup (.inr happ)
      · exact works_client (a := .clientUp a) (by simp)
          (by simpa [stepClient, hphase] using hstep)
      · exact h.toServer_drains hgone hended hfull

/-! ## The end -/

/-- The application and the service keep a session safe, and the application has nothing more to
say. -/
theorem keeps_outside (h : s.Safe E ∧ s.fromApp.shut = true) (hstep : s.stepOutside a = some s') :
    s'.Safe E ∧ s'.fromApp.shut = true := by
  refine ⟨h.1.afterOutside hstep, ?_⟩
  rw [(outsideMoves_step hstep).fromApp.shut h.2]
  exact h.2

/-- Work keeps a session safe, and the application has nothing more to say. -/
theorem Works.keeps (hworks : Works E fails s s') (h : s.Safe E ∧ s.fromApp.shut = true) :
    s'.Safe E ∧ s'.fromApp.shut = true := by
  obtain ⟨hsafe, happ⟩ := h
  cases hworks with
  | client _ hstep =>
    refine ⟨hsafe.afterClient hstep, ?_⟩
    rcases hsafe.client with ⟨request, -, hholds⟩ | ⟨⟨e, hreturned⟩, -⟩
    · rw [(clientHolds_step hholds hstep).2.fromApp.shut]
      exact happ
    · rw [stepClient_returned hreturned] at hstep
      cases hstep
  | server _ _ hstep =>
    refine ⟨hsafe.afterServer hstep, ?_⟩
    rw [(serverHolds_step hsafe.server hsafe.asked hstep).2.2.fromApp]
    exact happ
  | appRead _ hstep => exact keeps_outside ⟨hsafe, happ⟩ hstep
  | serviceRead _ hstep => exact keeps_outside ⟨hsafe, happ⟩ hstep
  | serviceShut _ hstep => exact keeps_outside ⟨hsafe, happ⟩ hstep

/-- What is done or written keeps a session safe, and the application has nothing more to say. -/
theorem Proceeds.keeps {t t' : Session × ℕ} (hproceeds : Proceeds E fails t t')
    (h : t.1.Safe E ∧ t.1.fromApp.shut = true) : t'.1.Safe E ∧ t'.1.fromApp.shut = true := by
  cases hproceeds with
  | works hworks => exact hworks.keeps h
  | serviceWrite _ hstep => exact keeps_outside h hstep

/-- A session that has ended well has delivered everything. -/
theorem Safe.delivered (h : s.Safe E) (hresponse : Undoes E.responseFromSlice)
    (hclient : s.client = .returned .ok) (hserver : s.server = .returned .ok) :
    s.toService.sent = s.fromApp.sent ∧ s.toApp.sent = s.fromService.sent := by
  have hclient' : s.client.failed = false := by rw [hclient]; rfl
  have hserver' : s.server.failed = false := by rw [hserver]; rfl
  obtain ⟨request, -, hholds⟩ := h.clientHolds (by simp [hclient])
  rw [hclient] at hholds
  obtain ⟨-, frame, response, hframe, hread, haccepted, hdown⟩ := hholds
  have hback := h.toApp_shut hclient' hserver' hresponse (hdown.shut.mpr rfl)
  have hsome : s.dialed.isSome = true := by
    rcases (h.answered hframe hdown.prefix_of_stripped).1 with ⟨hsome, -⟩ | ⟨-, reason, hwrite⟩
    · exact hsome
    · rw [eq_of_readFrame hresponse hwrite hread] at haccepted
      cases haccepted
  have hserverHolds := h.server
  rw [hserver] at hserverHolds
  rcases hserverHolds with ⟨-, _, _, -, -, hup, -⟩ | ⟨hnone, -⟩
  · exact ⟨(h.toService_shut hclient' hserver' (hup.shut.mpr rfl)).2, hback.2⟩
  · rw [hnone] at hsome
    cases hsome

/-- **Sessions end.** Once the application has shut its stream, both functions return whatever the
order of actions, if no stream fails while its other end is there, application and service go on
reading, and the service writes no more than so many bytes and shuts its stream in the end. If both
have copied to the end, then everything has been delivered. -/
theorem session_ends (hresponse : Undoes E.responseFromSlice) {as : List SessionAction}
    (h : (start E).run E as = some s) (happ : s.fromApp.shut = true) (left : ℕ) :
    Inevitable (Proceeds E True) (fun t => t.1.Ended ∧
      (t.1.client = .returned .ok → t.1.server = .returned .ok →
        t.1.toService.sent = t.1.fromApp.sent ∧ t.1.toApp.sent = t.1.fromService.sent))
      (s, left) := by
  have hkept : s.Safe E ∧ s.fromApp.shut = true := ⟨(safe_start E).run h, happ⟩
  have hkeep (t t' : Session × ℕ) (hI : t.1.Safe E ∧ t.1.fromApp.shut = true)
      (hproceeds : Proceeds E True t t') : t'.1.Safe E ∧ t'.1.fromApp.shut = true :=
    hproceeds.keeps hI
  have hended : Inevitable (Proceeds E True) (fun t => t.1.Ended) (s, left) := by
    refine .of_measure remainingOf hkept hkeep (fun _ _ _ hproceeds => hproceeds.remainingOf_lt) ?_
    intro t hI hnot
    obtain ⟨s', hworks⟩ := hI.1.acts (.inl trivial) hI.2 hnot
    exact ⟨(s', t.2), .works hworks⟩
  exact hended.mono hkept hkeep fun _ hI hended => ⟨hended, hI.1.delivered hresponse⟩

/-- An application that writes three bytes and shuts its stream at once. -/
def shutActions : List SessionAction := [.appWrite [1, 2, 3], .appShut]

/-- Both actions are possible. -/
theorem run_shutActions_isSome :
    ((start webEndpoints).run webEndpoints shutActions).isSome = true := by
  decide +kernel

/-- The session after them. -/
noncomputable def shutSession : Session :=
  ((start webEndpoints).run webEndpoints shutActions).get run_shutActions_isSome

/-- The actions lead there. -/
theorem run_shutActions :
    (start webEndpoints).run webEndpoints shutActions = some shutSession :=
  (Option.some_get run_shutActions_isSome).symm

/-- Nothing else has happened, the service may write five bytes, and both functions return in the
end. -/
theorem session_ends_shut :
    Inevitable (Proceeds webEndpoints True) (fun t => t.1.Ended ∧
      (t.1.client = .returned .ok → t.1.server = .returned .ok →
        t.1.toService.sent = t.1.fromApp.sent ∧ t.1.toApp.sent = t.1.fromService.sent))
      (shutSession, 5) :=
  session_ends (knownFromSlice_undoes toVec_response_injective _) run_shutActions
    (by decide +kernel) 5

end Session

end Punchgate
