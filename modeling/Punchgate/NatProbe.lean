import Punchgate.Library.Partial
import Punchgate.Library.Pipe
import Punchgate.State.Event

/-!
# Detecting the NAT mapping

At startup the node asks STUN servers one after the other, over one socket, which address they see.
The socket takes datagrams from anyone at any time, and a request takes the first one that is there,
be it a late response to the request before. This file follows the probe and the network action by
action: wherever the probe waits, the network may act. How a message is decoded comes from a library
and is a parameter.
-/

namespace Punchgate

/-- `DEFAULT_STUN_SERVERS`. -/
def defaultStunServers : List String := ["stun.l.google.com:19302", "stun.cloudflare.com:3478"]

/-- `classify_mapping`. -/
def classifyMapping (addrs : List SocketAddr) : NatMapping :=
  match addrs with
  | [] => .endpointIndependent
  | first :: _ =>
    if addrs.all (·.port = first.port) then .endpointIndependent else .addressDependent

/-- `detect_nat_mapping`, after the servers were probed. -/
def detectNatMapping (probed : Except String (List SocketAddr)) : NatMapping :=
  match probed with
  | .ok addrs => if 2 ≤ addrs.length then classifyMapping addrs else .unknown
  | .error _ => .unknown

/-- A datagram: where it comes from, and what is in it. -/
structure Datagram where
  /-- The source. -/
  source : SocketAddr
  /-- The payload. -/
  payload : List UInt8
  deriving DecidableEq

/-- The STUN library. -/
structure StunApi where
  /-- A decoded message. -/
  Message : Type
  /-- `Message::write`. -/
  write : List UInt8 → Except String Message
  /-- `XorMappedAddress::get_from`. -/
  getFrom : Message → Except String SocketAddr

/-- What makes `stun_binding_request` fail. -/
inductive StunError
  | build
  | lookup
  | unresolved
  | send
  | timedOut
  | receive
  | unexpectedSource (source dest : SocketAddr)
  | decode (e : String)
  | extract (e : String)
  deriving DecidableEq

/-- Where `stun_binding_request` waits. -/
inductive RequestPhase
  /-- In `lookup_host`. No timer bounds it. -/
  | resolving
  /-- In `send_to`. No timer bounds it. -/
  | sending (dest : SocketAddr)
  /-- In `recv_from`, until the timer fires. -/
  | receiving (dest : SocketAddr)
  deriving DecidableEq

/-- `stun_binding_request` after a datagram is received. The buffer has 1024 bytes. -/
def checkResponse (api : StunApi) (dest : SocketAddr) (d : Datagram) :
    Except StunError SocketAddr :=
  if d.source = dest then
    match api.write (d.payload.take 1024) with
    | .error e => .error (.decode e)
    | .ok message =>
      match api.getFrom message with
      | .error e => .error (.extract e)
      | .ok addr => .ok addr
  else .error (.unexpectedSource d.source dest)

/-- The state of `probe_stun_servers`. -/
structure Probe where
  /-- The servers that have not been asked yet. -/
  servers : List String
  /-- The server that is asked, and how far its request is. -/
  asking : Option (String × RequestPhase)
  /-- The requests that were sent: to which server, and where to. -/
  requests : List (String × SocketAddr)
  /-- The datagrams that have arrived. -/
  socket : Pipe Datagram
  /-- The addresses that the servers have seen. -/
  results : List SocketAddr
  /-- The servers whose requests failed, and why, as it is logged. -/
  failures : List (String × StunError)
  deriving DecidableEq

/-- An action of the network or of the probe. -/
inductive ProbeAction
  | arrive (d : Datagram)
  /-- The request for the next server is built, or not. -/
  | ask (built : Bool)
  /-- The name of the server is resolved. -/
  | resolve (resolved : Option (List SocketAddr))
  | send (sent : Bool)
  | receive
  | timeOut
  | receiveError
  deriving DecidableEq

/-- Only the probe acts for itself. -/
def ProbeAction.isOwn : ProbeAction → Bool
  | arrive _ => false
  | _ => true

namespace Probe

variable (api : StunApi)

/-- The socket is bound. -/
def start (servers : List String) : Probe := ⟨servers, none, [], .new, [], []⟩

/-- The request whose response is awaited. -/
def awaited (s : Probe) : Option (String × SocketAddr) :=
  match s.asking with
  | some (server, .receiving dest) => some (server, dest)
  | _ => none

/-- The request to a server is over. -/
def finish (s : Probe) (server : String) (result : Except StunError SocketAddr) : Probe :=
  match result with
  | .ok addr => { s with asking := none, results := s.results ++ [addr] }
  | .error e => { s with asking := none, failures := s.failures ++ [(server, e)] }

/-- One action. The timer may fire although a datagram has just arrived. -/
def step (s : Probe) : ProbeAction → Option Probe
  | .arrive d => some { s with socket := s.socket.write [d] }
  | .ask built =>
    match s.asking, s.servers with
    | none, server :: servers =>
      some (if built then { s with servers := servers, asking := some (server, .resolving) }
        else { s with servers := servers }.finish server (.error .build))
    | _, _ => none
  | .resolve resolved =>
    match s.asking with
    | some (server, .resolving) =>
      match resolved with
      | none => some (s.finish server (.error .lookup))
      | some [] => some (s.finish server (.error .unresolved))
      | some (dest :: _) => some { s with asking := some (server, .sending dest) }
    | _ => none
  | .send sent =>
    match s.asking with
    | some (server, .sending dest) =>
      some (if sent then { s with
          asking := some (server, .receiving dest)
          requests := s.requests ++ [(server, dest)] }
        else s.finish server (.error .send))
    | _ => none
  | .receive =>
    match s.asking, s.socket.unread with
    | some (server, .receiving dest), d :: _ =>
      some ({ s with socket := s.socket.read 1 }.finish server (checkResponse api dest d))
    | _, _ => none
  | .timeOut =>
    match s.asking with
    | some (server, .receiving _) => some (s.finish server (.error .timedOut))
    | _ => none
  | .receiveError =>
    match s.asking with
    | some (server, .receiving _) => some (s.finish server (.error .receive))
    | _ => none

/-- The probe and the network. -/
def machine : Partial Probe ProbeAction := ⟨step api⟩

/-- All servers were asked, and no request is under way. -/
def Ended (s : Probe) : Prop := s.servers = [] ∧ s.asking = none

/-- What an ended probe finds. -/
def mapping (s : Probe) : NatMapping := detectNatMapping (.ok s.results)

/-- A response: the request, the datagram, and the address in it. -/
structure Response where
  /-- The server, and where the request was sent. -/
  request : String × SocketAddr
  /-- What was received. -/
  datagram : Datagram
  /-- The address that the server has seen. -/
  mapped : SocketAddr

/-- A datagram from where the request was sent, with an address in it. -/
structure Response.IsValid (r : Response) : Prop where
  /-- It comes from the server. -/
  source : r.datagram.source = r.request.2
  /-- The address is decoded from it. -/
  mapped : ∃ message, api.write (r.datagram.payload.take 1024) = .ok message ∧
    api.getFrom message = .ok r.mapped

end Probe

/-! ## Classification -/

/-- Addresses with one port are endpoint independent. -/
theorem classifyMapping_eq_endpointIndependent_iff {addrs : List SocketAddr} :
    classifyMapping addrs = .endpointIndependent ↔
      ∀ addr ∈ addrs, ∀ addr' ∈ addrs, addr.port = addr'.port := by
  cases addrs with
  | nil => simp [classifyMapping]
  | cons first addrs =>
    have hall : (first :: addrs).all (·.port = first.port) = true ↔
        ∀ addr ∈ first :: addrs, addr.port = first.port := by
      rw [List.all_eq_true]
      simp only [decide_eq_true_eq]
    rw [classifyMapping, ite_eq_left_iff]
    constructor
    · intro h addr haddr addr' haddr'
      by_cases hsame : (first :: addrs).all (·.port = first.port) = true
      · rw [hall] at hsame
        exact (hsame addr haddr).trans (hsame addr' haddr').symm
      · exact absurd (h hsame) (by decide)
    · intro h hsame
      exact absurd (hall.mpr fun addr haddr => h addr haddr first List.mem_cons_self) hsame

/-- The classification is never open. -/
theorem classifyMapping_eq_addressDependent_iff {addrs : List SocketAddr} :
    classifyMapping addrs = .addressDependent ↔ classifyMapping addrs ≠ .endpointIndependent := by
  unfold classifyMapping
  split
  · decide
  · split_ifs <;> decide

section Detect

variable {addrs : List SocketAddr}

/-- Two or more addresses with one port. -/
theorem detectNatMapping_eq_endpointIndependent_iff :
    detectNatMapping (.ok addrs) = .endpointIndependent ↔
      2 ≤ addrs.length ∧ ∀ addr ∈ addrs, ∀ addr' ∈ addrs, addr.port = addr'.port := by
  simp only [detectNatMapping]
  split_ifs with htwo
  · rw [classifyMapping_eq_endpointIndependent_iff]
    exact (and_iff_right htwo).symm
  · exact iff_of_false (by decide) fun h => htwo h.1

/-- Two addresses with different ports. -/
theorem detectNatMapping_eq_addressDependent_iff :
    detectNatMapping (.ok addrs) = .addressDependent ↔
      ∃ addr ∈ addrs, ∃ addr' ∈ addrs, addr.port ≠ addr'.port := by
  have hdiffer : (∃ addr ∈ addrs, ∃ addr' ∈ addrs, addr.port ≠ addr'.port) ↔
      classifyMapping addrs ≠ .endpointIndependent := by
    rw [Ne, classifyMapping_eq_endpointIndependent_iff]
    push Not
    rfl
  rw [hdiffer, ← classifyMapping_eq_addressDependent_iff]
  simp only [detectNatMapping]
  split_ifs with htwo
  · rfl
  · refine iff_of_false (by decide) fun h => htwo ?_
    rw [classifyMapping_eq_addressDependent_iff, ← hdiffer] at h
    obtain ⟨addr, haddr, addr', haddr', hne⟩ := h
    match addrs, htwo with
    | [_], _ =>
      rw [List.mem_singleton] at haddr haddr'
      exact absurd (haddr ▸ haddr' ▸ rfl) hne
    | _ :: _ :: _, _ => simp

end Detect

/-- A response that is accepted is a valid one. -/
theorem checkResponse_eq_ok_iff {api : StunApi} {request : String × SocketAddr} {d : Datagram}
    {addr : SocketAddr} :
    checkResponse api request.2 d = .ok addr ↔ Probe.Response.IsValid api ⟨request, d, addr⟩ := by
  unfold checkResponse
  constructor
  · intro h
    split at h
    · rename_i hsource
      split at h
      · cases h
      · rename_i message hwrite
        split at h
        · cases h
        · rename_i addr' hget
          cases h
          exact ⟨hsource, message, hwrite, hget⟩
    · cases h
  · rintro ⟨hsource, message, hwrite, hget⟩
    rw [if_pos hsource, hwrite]
    simp only
    rw [hget]

namespace Probe

variable {api : StunApi} {s t : Probe} {a : ProbeAction} {as : List ProbeAction}
  {servers : List String}

/-- What each action does, and where it is possible. -/
inductive Step (api : StunApi) (s : Probe) : ProbeAction → Probe → Prop
  | arrive (d : Datagram) : Step api s (.arrive d) { s with socket := s.socket.write [d] }
  | ask {server : String} {servers : List String} (hasking : s.asking = none)
      (hservers : s.servers = server :: servers) :
      Step api s (.ask true) { s with servers := servers, asking := some (server, .resolving) }
  | unbuilt {server : String} {servers : List String} (hasking : s.asking = none)
      (hservers : s.servers = server :: servers) :
      Step api s (.ask false) ({ s with servers := servers }.finish server (.error .build))
  | resolve {server : String} {dest : SocketAddr} {others : List SocketAddr}
      (hasking : s.asking = some (server, .resolving)) :
      Step api s (.resolve (some (dest :: others)))
        { s with asking := some (server, .sending dest) }
  | send {server : String} {dest : SocketAddr} (hasking : s.asking = some (server, .sending dest)) :
      Step api s (.send true) { s with
        asking := some (server, .receiving dest)
        requests := s.requests ++ [(server, dest)] }
  | receive {server : String} {dest : SocketAddr} {d : Datagram} {rest : List Datagram}
      (hasking : s.asking = some (server, .receiving dest))
      (hunread : s.socket.unread = d :: rest) :
      Step api s .receive
        ({ s with socket := s.socket.read 1 }.finish server (checkResponse api dest d))
  | failed {a : ProbeAction} {server : String} {phase : RequestPhase} {e : StunError}
      (hasking : s.asking = some (server, phase)) : Step api s a (s.finish server (.error e))

/-- **Inversion.** An action is one of these. -/
theorem step_cases (h : s.step api a = some t) : s.Step api a t := by
  cases a with
  | arrive d =>
    cases h
    exact .arrive d
  | ask built =>
    simp only [step] at h
    split at h
    · rename_i server servers hasking hservers
      cases built with
      | true =>
        cases h
        exact .ask hasking hservers
      | false =>
        cases h
        exact .unbuilt hasking hservers
    · cases h
  | resolve resolved =>
    simp only [step] at h
    split at h
    · rename_i server hasking
      split at h
      · cases h
        exact .failed hasking
      · cases h
        exact .failed hasking
      · cases h
        exact .resolve hasking
    · cases h
  | send sent =>
    simp only [step] at h
    split at h
    · rename_i server dest hasking
      cases sent with
      | true =>
        cases h
        exact .send hasking
      | false =>
        cases h
        exact .failed hasking
    · cases h
  | receive =>
    simp only [step] at h
    split at h
    · rename_i server dest d rest hasking hunread
      cases h
      exact .receive hasking hunread
    · cases h
  | timeOut =>
    simp only [step] at h
    split at h
    · rename_i server dest hasking
      cases h
      exact .failed hasking
    · cases h
  | receiveError =>
    simp only [step] at h
    split at h
    · rename_i server dest hasking
      cases h
      exact .failed hasking
    · cases h

/-! ## What the results rest on -/

/-- The results are explained by responses: to requests that are over, and each of them in the order
of the requests and of the datagrams. -/
structure Explained (api : StunApi) (s : Probe) (past : List (String × SocketAddr))
    (responses : List Response) : Prop where
  /-- Only the last request may not be over. -/
  sent : s.requests = past ++ s.awaited.toList
  /-- The responses are valid. -/
  valid : ∀ r ∈ responses, r.IsValid api
  /-- They are responses to the requests. -/
  requests : (responses.map (·.request)).Sublist past
  /-- They were received. -/
  received : (responses.map (·.datagram)).Sublist s.socket.received
  /-- No request takes more than one datagram. -/
  taken : s.socket.received.length ≤ past.length
  /-- The results are what they tell. -/
  results : s.results = responses.map (·.mapped)

variable {past : List (String × SocketAddr)} {responses : List Response}

/-- While no response is awaited, all requests are over. -/
theorem Explained.requests_eq (h : s.Explained api past responses) (hawaited : s.awaited = none) :
    s.requests = past := by
  rw [h.sent, hawaited]
  exact List.append_nil _

/-- A request ends with a failure. -/
theorem Explained.finish_error (h : s.Explained api past responses) (server : String)
    (e : StunError) :
    (s.finish server (.error e)).Explained api (past ++ s.awaited.toList) responses where
  sent := h.sent.trans (List.append_nil _).symm
  valid := h.valid
  requests := h.requests.trans (List.sublist_append_left _ _)
  received := h.received
  taken := by
    have htaken := h.taken
    rw [List.length_append]
    exact htaken.trans (Nat.le_add_right _ _)
  results := h.results

/-- A request ends with a datagram. -/
theorem Explained.receive {server : String} {dest : SocketAddr} {d : Datagram}
    {rest : List Datagram} (h : s.Explained api past responses)
    (hasking : s.asking = some (server, .receiving dest)) (hunread : s.socket.unread = d :: rest) :
    ∃ responses', ({ s with socket := s.socket.read 1 }.finish server
      (checkResponse api dest d)).Explained api (past ++ [(server, dest)]) responses' := by
  have hreceived : (s.socket.read 1).received = s.socket.received ++ [d] := by
    rw [Pipe.received_read, hunread]
    rfl
  have hsent : s.requests = past ++ [(server, dest)] := by
    rw [h.sent, awaited, hasking]
    rfl
  have htaken : (s.socket.read 1).received.length ≤ (past ++ [(server, dest)]).length := by
    rw [hreceived, List.length_append, List.length_append]
    exact Nat.add_le_add_right h.taken 1
  cases hcheck : checkResponse api dest d with
  | error e =>
    refine ⟨responses, hsent.trans (List.append_nil _).symm, h.valid, ?_, ?_, htaken, h.results⟩
    · exact h.requests.trans (List.sublist_append_left _ _)
    · rw [show (finish { s with socket := s.socket.read 1 } server (.error e)).socket.received = _
        from hreceived]
      exact h.received.trans (List.sublist_append_left _ _)
  | ok addr =>
    refine ⟨responses ++ [⟨(server, dest), d, addr⟩], hsent.trans (List.append_nil _).symm, ?_, ?_,
      ?_, htaken, ?_⟩
    · intro r hr
      rcases List.mem_append.mp hr with hold | hnew
      · exact h.valid r hold
      · rw [List.mem_singleton.mp hnew]
        have hchecked : checkResponse api (server, dest).2 d = .ok addr := hcheck
        exact checkResponse_eq_ok_iff.mp hchecked
    · rw [List.map_append]
      exact h.requests.append (List.Sublist.refl _)
    · rw [show (finish { s with socket := s.socket.read 1 } server (.ok addr)).socket.received = _
        from hreceived, List.map_append]
      exact h.received.append (List.Sublist.refl _)
    · rw [List.map_append, ← h.results]
      rfl

/-- Every action keeps the results explained. -/
theorem explained_step (h : ∃ past responses, s.Explained api past responses)
    (hstep : s.step api a = some t) : ∃ past responses, t.Explained api past responses := by
  obtain ⟨past, responses, h⟩ := h
  cases step_cases hstep with
  | arrive d =>
    refine ⟨past, responses, h.sent, h.valid, h.requests, ?_, ?_, h.results⟩
    · rw [Pipe.received_write]
      exact h.received
    · rw [Pipe.received_write]
      exact h.taken
  | ask hasking =>
    have hpast := h.requests_eq (by rw [awaited, hasking])
    exact ⟨past, responses, hpast.trans (List.append_nil _).symm, h.valid, h.requests, h.received,
      h.taken, h.results⟩
  | @unbuilt server servers hasking =>
    have hpast := h.requests_eq (by rw [awaited, hasking])
    exact ⟨past, responses, hpast.trans (List.append_nil _).symm, h.valid, h.requests, h.received,
      h.taken, h.results⟩
  | resolve hasking =>
    have hpast := h.requests_eq (by rw [awaited, hasking])
    exact ⟨past, responses, hpast.trans (List.append_nil _).symm, h.valid, h.requests, h.received,
      h.taken, h.results⟩
  | @send server dest hasking =>
    have hpast := h.requests_eq (by rw [awaited, hasking])
    exact ⟨past, responses, congrArg (· ++ [(server, dest)]) hpast, h.valid, h.requests, h.received,
      h.taken, h.results⟩
  | receive hasking hunread => exact ⟨_, h.receive hasking hunread⟩
  | failed => exact ⟨_, _, h.finish_error _ _⟩

/-- The failure that is logged for an outcome. -/
def failureOf (o : String × Except StunError SocketAddr) : Option (String × StunError) :=
  match o.2 with
  | .ok _ => none
  | .error e => some (o.1, e)

/-- What became of the requests to the servers, in their order, and what is left to do. -/
structure Accounts (servers : List String) (s : Probe)
    (outcomes : List (String × Except StunError SocketAddr)) : Prop where
  /-- Each server has one outcome, is asked, or is still to be asked. -/
  servers : servers = outcomes.map Prod.fst ++ s.asking.toList.map Prod.fst ++ s.servers
  /-- The addresses are the results. -/
  results : s.results = outcomes.filterMap fun o => o.2.toOption
  /-- The errors are the failures. -/
  failures : s.failures = outcomes.filterMap failureOf
  /-- Requests were sent in this order. -/
  requests : (s.requests.map Prod.fst).Sublist
    (outcomes.map Prod.fst ++ s.awaited.toList.map Prod.fst)

variable {outcomes : List (String × Except StunError SocketAddr)} {server : String}

/-- The end of a request is its outcome. -/
theorem Accounts.finish {phase : RequestPhase} (h : s.Accounts servers outcomes)
    (hasking : s.asking = some (server, phase)) (result : Except StunError SocketAddr) :
    (s.finish server result).Accounts servers (outcomes ++ [(server, result)]) := by
  have hservers := h.servers
  rw [hasking] at hservers
  have hrequests : (s.requests.map Prod.fst).Sublist (outcomes.map Prod.fst ++ [server]) := by
    refine h.requests.trans (List.Sublist.append (List.Sublist.refl _) ?_)
    rw [awaited, hasking]
    cases phase with
    | receiving dest => exact List.Sublist.refl _
    | _ => exact List.nil_sublist _
  cases result with
  | ok addr =>
    refine ⟨?_, ?_, ?_, ?_⟩
    · simpa [Probe.finish] using hservers
    · rw [List.filterMap_append, ← h.results]
      rfl
    · rw [List.filterMap_append, ← h.failures]
      exact (List.append_nil _).symm
    · simpa [Probe.finish, awaited] using hrequests
  | error e =>
    refine ⟨?_, ?_, ?_, ?_⟩
    · simpa [Probe.finish] using hservers
    · rw [List.filterMap_append, ← h.results]
      exact (List.append_nil _).symm
    · rw [List.filterMap_append, ← h.failures]
      rfl
    · simpa [Probe.finish, awaited] using hrequests

/-- The next server is asked. -/
theorem Accounts.ask {rest : List String} (h : s.Accounts servers outcomes)
    (hasking : s.asking = none) (hservers : s.servers = server :: rest) :
    ({ s with servers := rest, asking := some (server, .resolving) } : Probe).Accounts servers
      outcomes := by
  have hall := h.servers
  have hrequests := h.requests
  rw [hasking, hservers] at hall
  rw [awaited, hasking] at hrequests
  refine ⟨?_, h.results, h.failures, hrequests⟩
  simpa using hall

/-- Every action keeps the accounts. -/
theorem accounts_step (h : ∃ outcomes, s.Accounts servers outcomes)
    (hstep : s.step api a = some t) : ∃ outcomes, t.Accounts servers outcomes := by
  obtain ⟨outcomes, h⟩ := h
  cases step_cases hstep with
  | arrive d => exact ⟨outcomes, h.servers, h.results, h.failures, h.requests⟩
  | ask hasking hservers => exact ⟨outcomes, h.ask hasking hservers⟩
  | @unbuilt server rest hasking hservers =>
    exact ⟨_, (h.ask hasking hservers).finish rfl (.error .build)⟩
  | @resolve server dest others hasking =>
    have hservers := h.servers
    have hrequests := h.requests
    rw [hasking] at hservers
    rw [awaited, hasking] at hrequests
    exact ⟨outcomes, hservers, h.results, h.failures, hrequests⟩
  | @send server dest hasking =>
    have hservers := h.servers
    have hrequests := h.requests
    rw [hasking] at hservers
    rw [awaited, hasking] at hrequests
    refine ⟨outcomes, hservers, h.results, h.failures, ?_⟩
    rw [List.map_append]
    refine List.Sublist.append ?_ (List.Sublist.refl _)
    simpa using hrequests
  | @receive server dest d rest hasking =>
    have hread : ({ s with socket := s.socket.read 1 } : Probe).Accounts servers outcomes :=
      ⟨h.servers, h.results, h.failures, h.requests⟩
    exact ⟨_, hread.finish hasking _⟩
  | failed hasking => exact ⟨_, h.finish hasking _⟩

/-- What holds of a probe at all times. -/
theorem holds_run (h : (machine api).run (start servers) as = some s) :
    (∃ past responses, s.Explained api past responses) ∧
      ∃ outcomes, s.Accounts servers outcomes := by
  refine (machine api).invariant
    (P := fun s => (∃ past responses, s.Explained api past responses) ∧
      ∃ outcomes, s.Accounts servers outcomes)
    ⟨⟨[], [], rfl, nofun, List.Sublist.refl _, List.Sublist.refl _, le_rfl, rfl⟩,
      ⟨[], rfl, rfl, rfl, List.Sublist.refl _⟩⟩ ?_ h
  intro t a u ⟨hexplained, haccounts⟩ hstep
  exact ⟨explained_step hexplained hstep, accounts_step haccounts hstep⟩

/-! ## What the mapping tells -/

/-- Responses with an IPv4 address, as they are laid out: a header of 20 bytes, and the attribute
with the address, which is masked with the magic cookie. -/
def ipv4Responses : StunApi where
  Message := List UInt8
  write raw := if raw.length = 32 ∧ raw.take 2 = [1, 1] then .ok raw else .error "unexpected EOF"
  getFrom message :=
    match message.drop 20 with
    | [0, 0x20, 0, 8, 0, 1, p, q, a, b, c, d] =>
      .ok ⟨.v4 ⟨a ^^^ 0x21, b ^^^ 0x12, c ^^^ 0xA4, d ^^^ 0x42⟩,
        (p ^^^ 0x21).toUInt16 * 256 + (q ^^^ 0x12).toUInt16⟩
    | _ => .error "attribute not found"

/-- A response that tells port 40000 of `203.0.113.7`. -/
def responseFrom (source : SocketAddr) : Datagram where
  source := source
  payload := [1, 1, 0, 12, 0x21, 0x12, 0xA4, 0x42] ++ List.replicate 12 0 ++
    [0, 0x20, 0, 8, 0, 1, 0x9C ^^^ 0x21, 0x40 ^^^ 0x12, 203 ^^^ 0x21, 0 ^^^ 0x12, 113 ^^^ 0xA4,
      7 ^^^ 0x42]

/-- Both servers respond. -/
def answeredActions : List ProbeAction :=
  let first : SocketAddr := ⟨.v4 ⟨74, 125, 250, 129⟩, 19302⟩
  let second : SocketAddr := ⟨.v4 ⟨162, 159, 207, 0⟩, 3478⟩
  [.ask true, .resolve (some [first]), .send true, .arrive (responseFrom first), .receive,
    .ask true, .resolve (some [second]), .send true, .arrive (responseFrom second), .receive]

/-- Every action is possible. -/
theorem run_answeredActions_isSome :
    ((machine ipv4Responses).run (start defaultStunServers) answeredActions).isSome = true := by
  decide +kernel

/-- The probe at its end. -/
def answeredProbe : Probe :=
  ((machine ipv4Responses).run (start defaultStunServers) answeredActions).get
    run_answeredActions_isSome

/-- The actions lead there. -/
theorem run_answeredActions :
    (machine ipv4Responses).run (start defaultStunServers) answeredActions = some answeredProbe :=
  (Option.some_get run_answeredActions_isSome).symm

/-- **The mapping is evidence.** An ended probe has a mapping only because of responses that were
received from the servers, in the order of the requests and of the datagrams: the mapping is
endpoint independent if there are two or more and they tell the same port, and address dependent if
two of them tell different ports. -/
theorem mapping_evidence (h : (machine api).run (start servers) as = some s) (hended : s.Ended) :
    ∃ responses : List Response, (∀ r ∈ responses, r.IsValid api) ∧
      (responses.map (·.request)).Sublist s.requests ∧
      (s.requests.map Prod.fst).Sublist servers ∧
      (responses.map (·.datagram)).Sublist s.socket.sent ∧
      (s.mapping = .endpointIndependent ↔ 2 ≤ responses.length ∧
        ∀ r ∈ responses, ∀ r' ∈ responses, r.mapped.port = r'.mapped.port) ∧
      (s.mapping = .addressDependent ↔
        ∃ r ∈ responses, ∃ r' ∈ responses, r.mapped.port ≠ r'.mapped.port) := by
  obtain ⟨⟨past, responses, hexplained⟩, outcomes, haccounts⟩ := holds_run h
  have hawaited : s.awaited = none := by rw [awaited, hended.2]
  have hpast := hexplained.requests_eq hawaited
  refine ⟨responses, hexplained.valid, hpast ▸ hexplained.requests, ?_, ?_, ?_, ?_⟩
  · have hrequests := haccounts.requests
    rw [hawaited] at hrequests
    rw [haccounts.servers, List.append_assoc]
    exact hrequests.trans (List.Sublist.append (List.Sublist.refl _) (List.nil_sublist _))
  · exact hexplained.received.trans s.socket.received_isPrefix.sublist
  · rw [mapping, detectNatMapping_eq_endpointIndependent_iff, hexplained.results]
    simp
  · rw [mapping, detectNatMapping_eq_addressDependent_iff, hexplained.results]
    simp

/-- Two responses with one port. -/
theorem mapping_evidence_answered :
    ∃ responses : List Response, (∀ r ∈ responses, r.IsValid ipv4Responses) ∧
      (responses.map (·.request)).Sublist answeredProbe.requests ∧
      (answeredProbe.requests.map Prod.fst).Sublist defaultStunServers ∧
      (responses.map (·.datagram)).Sublist answeredProbe.socket.sent ∧
      (answeredProbe.mapping = .endpointIndependent ↔ 2 ≤ responses.length ∧
        ∀ r ∈ responses, ∀ r' ∈ responses, r.mapped.port = r'.mapped.port) ∧
      (answeredProbe.mapping = .addressDependent ↔
        ∃ r ∈ responses, ∃ r' ∈ responses, r.mapped.port ≠ r'.mapped.port) :=
  mapping_evidence run_answeredActions ⟨by decide +kernel, by decide +kernel⟩

/-- How many actions of its own the probe has left for a request at most. -/
def actionsLeft : RequestPhase → ℕ
  | .resolving => 3
  | .sending _ => 2
  | .receiving _ => 1

/-- How many actions of its own the probe has left at most. -/
def remaining (s : Probe) : ℕ :=
  4 * s.servers.length + (s.asking.map fun r => actionsLeft r.2).getD 0

/-- The end of a request is one of them. -/
theorem remaining_finish {phase : RequestPhase} (hasking : s.asking = some (server, phase))
    (result : Except StunError SocketAddr) :
    (s.finish server result).remaining + 1 ≤ s.remaining := by
  have hphase : 1 ≤ actionsLeft phase := by
    cases phase <;> simp [actionsLeft]
  have hbefore : s.remaining = 4 * s.servers.length + actionsLeft phase := by
    simp [remaining, hasking]
  cases result with
  | ok addr =>
    simp only [finish, remaining, Option.map_none, Option.getD_none] at hbefore ⊢
    omega
  | error e =>
    simp only [finish, remaining, Option.map_none, Option.getD_none] at hbefore ⊢
    omega

/-- Every action of the probe takes one, and the network takes none. -/
theorem remaining_step (hstep : s.step api a = some t) :
    t.remaining + (if a.isOwn then 1 else 0) ≤ s.remaining := by
  have hone : (if a.isOwn then 1 else 0) ≤ 1 := by split <;> omega
  cases step_cases hstep with
  | arrive d => exact le_rfl
  | ask hasking hservers =>
    simp only [remaining, hasking, hservers, actionsLeft, List.length_cons,
      Option.map_some, Option.map_none, Option.getD_some, Option.getD_none]
    omega
  | unbuilt hasking hservers =>
    simp only [remaining, finish, hasking, hservers, List.length_cons, Option.map_none,
      Option.getD_none]
    omega
  | resolve hasking =>
    simp only [remaining, hasking, actionsLeft, Option.map_some, Option.getD_some]
    omega
  | send hasking =>
    simp only [remaining, hasking, actionsLeft, Option.map_some, Option.getD_some]
    omega
  | @receive server dest d rest hasking =>
    have hread : ({ s with socket := s.socket.read 1 } : Probe).asking =
        some (server, .receiving dest) := hasking
    exact remaining_finish hread _
  | @failed _ server phase e hasking =>
    have hfinish := remaining_finish hasking (.error e)
    omega

/-- **One outcome for each server.** Whatever arrives and whatever fails, the probe takes at most
four actions for each server. The servers have their outcomes in their order, each of them one: the
results are those that succeeded, and the failures that are logged are the others. In the end all
servers have theirs. -/
theorem one_outcome_for_each_server (h : (machine api).run (start servers) as = some s) :
    as.countP (·.isOwn) ≤ 4 * servers.length ∧
      ∃ outcomes : List (String × Except StunError SocketAddr),
        servers = outcomes.map Prod.fst ++ s.asking.toList.map Prod.fst ++ s.servers ∧
        s.results = outcomes.filterMap (fun o => o.2.toOption) ∧
        s.failures = outcomes.filterMap failureOf ∧
        (s.Ended → outcomes.map Prod.fst = servers) := by
  have hcount : s.remaining + as.countP (·.isOwn) ≤ 4 * servers.length := by
    refine (machine api).run_induction
      (P := fun as s => s.remaining + as.countP (·.isOwn) ≤ 4 * servers.length) le_rfl ?_ h
    intro as t a u _ hle hstep
    have hless := remaining_step hstep
    rw [List.countP_append, List.countP_singleton]
    omega
  obtain ⟨-, outcomes, haccounts⟩ := holds_run h
  refine ⟨(Nat.le_add_left _ _).trans hcount, outcomes, haccounts.servers, haccounts.results,
    haccounts.failures, fun hended => ?_⟩
  have hservers := haccounts.servers
  rw [hended.1, hended.2, Option.toList_none, List.map_nil, List.append_nil,
    List.append_nil] at hservers
  exact hservers.symm

/-- Both servers have an outcome after eight actions. -/
theorem one_outcome_for_each_server_answered :
    answeredActions.countP (·.isOwn) ≤ 4 * defaultStunServers.length ∧
      ∃ outcomes : List (String × Except StunError SocketAddr),
        defaultStunServers = outcomes.map Prod.fst ++ answeredProbe.asking.toList.map Prod.fst ++
          answeredProbe.servers ∧
        answeredProbe.results = outcomes.filterMap (fun o => o.2.toOption) ∧
        answeredProbe.failures = outcomes.filterMap failureOf ∧
        (answeredProbe.Ended → outcomes.map Prod.fst = defaultStunServers) :=
  one_outcome_for_each_server run_answeredActions

end Probe

end Punchgate
