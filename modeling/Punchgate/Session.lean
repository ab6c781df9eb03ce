import Punchgate.Library.Pipe
import Punchgate.Wire

/-!
# Tunnel sessions

An application talks to a service through two functions that run at the two ends of a stream:
`client_tunnel_session` and `handle_tunnel`. They exchange a request and a response and then copy
bytes both ways. The four parties act in any order, and every read and write takes a chunk of any
size. The two functions wait while the stream that they write to is full.
-/

namespace Punchgate

/-- How many bytes have room where the two functions write them. -/
structure Limits where
  /-- In the buffer of each direction of `copy_bidirectional`. -/
  buffer : ℕ+
  /-- Between the client and the server. -/
  toServer : ℕ+
  /-- Between the server and the service. -/
  toService : ℕ+
  /-- Between the server and the client. -/
  toClient : ℕ+
  /-- Between the client and the application. -/
  toApp : ℕ+

/-- What the two ends of a session are given. -/
structure Endpoints where
  /-- The service the client asks for. -/
  serviceName : ServiceName
  /-- The services of the server. -/
  services : FiniteMap ServiceName ServiceAddr
  /-- `serde_json::from_slice` at the server. -/
  requestFromSlice : List UInt8 → Except String TunnelRequest
  /-- `serde_json::from_slice` at the client. -/
  responseFromSlice : List UInt8 → Except String TunnelResponse
  /-- How much the streams between the parties take. -/
  limits : Limits

/-- How a session function ends. -/
inductive SessionEnd
  /-- It returns `Ok(())` and has written all that it had to write. -/
  | ok
  | failed (e : TunnelError)
  /-- A stream fails, and the function returns the error. -/
  | ioError
  /-- A stream fails while the server copies. It logs the error and returns `Ok(())`. -/
  | logged
  deriving DecidableEq

/-- Where `client_tunnel_session` is. -/
inductive ClientPhase
  /-- In `write_message`, with this much left to write. -/
  | requesting (left : List UInt8)
  /-- In `read_message`, with this much read. -/
  | awaiting (got : List UInt8)
  /-- In `copy_bidirectional`. -/
  | copying (up down : Transfer UInt8)
  | returned (result : SessionEnd)
  deriving DecidableEq

/-- Where `handle_tunnel` is. -/
inductive ServerPhase
  /-- In `read_message`, with this much read. -/
  | reading (got : List UInt8)
  /-- In `write_message` for an unknown service. -/
  | rejecting (left : List UInt8)
  /-- In `TcpStream::connect`. -/
  | connecting (localAddr : ServiceAddr)
  /-- In `write_message` for a known service. -/
  | accepting (left : List UInt8)
  /-- In `copy_bidirectional`. -/
  | copying (up down : Transfer UInt8)
  | returned (result : SessionEnd)
  deriving DecidableEq

/-- The client has failed: it has returned an error. -/
def ClientPhase.failed : ClientPhase → Bool
  | .returned .ok => false
  | .returned _ => true
  | _ => false

/-- The server has failed: it has returned an error, or `Ok(())` after a stream failed while it
copied. -/
def ServerPhase.failed : ServerPhase → Bool
  | .returned .ok => false
  | .returned _ => true
  | _ => false

/-- A session: the two functions and the streams between the four parties. -/
structure Session where
  /-- The client's function. -/
  client : ClientPhase
  /-- The server's function. -/
  server : ServerPhase
  /-- The local service the server has connected to. -/
  dialed : Option ServiceAddr
  /-- From the application to the client. -/
  fromApp : Pipe UInt8
  /-- From the client to the server. -/
  toServer : Pipe UInt8
  /-- From the server to the service. -/
  toService : Pipe UInt8
  /-- From the service to the server. -/
  fromService : Pipe UInt8
  /-- From the server to the client. -/
  toClient : Pipe UInt8
  /-- From the client to the application. -/
  toApp : Pipe UInt8
  deriving DecidableEq

/-- What one of the parties does next. -/
inductive SessionAction
  | appWrite (bytes : List UInt8)
  | appShut
  | appRead (n : ℕ)
  | serviceWrite (bytes : List UInt8)
  | serviceShut
  | serviceRead (n : ℕ)
  | clientWrite (n : ℕ)
  | clientRead (n : ℕ)
  | clientEof
  | clientUp (a : CopyAction)
  | clientDown (a : CopyAction)
  | clientFail
  | serverRead (n : ℕ)
  | serverEof
  | serverConnect (connects : Bool)
  | serverWrite (n : ℕ)
  | serverUp (a : CopyAction)
  | serverDown (a : CopyAction)
  | serverFail
  deriving DecidableEq

/-- `read_message` with some bytes read: the message, or nothing while bytes are missing. -/
def readFrame {T : Type} (fromSlice : List UInt8 → Except String T) (got : List UInt8) :
    Option (Except WireError T) :=
  if got.length < 4 then none
  else if Framing.fromBeBytes (got.take 4) ≤ maxMessageSize then
    if Framing.missing 4 got = 0 then some ((fromSlice (got.drop 4)).mapError .json) else none
  else some (.error (.tooLarge (Framing.fromBeBytes (got.take 4))))

namespace Session

variable (E : Endpoints)

/-! ## The client -/

/-- The client returns and drops its streams. -/
def dropClient (s : Session) (result : SessionEnd) : Session :=
  { s with
    client := .returned result
    toServer := s.toServer.close
    toApp := s.toApp.close }

/-- A session before anything was sent. -/
def start : Session :=
  let s : Session :=
    { client := .requesting [], server := .reading [], dialed := none, fromApp := .new,
      toServer := .new, toService := .new, fromService := .new, toClient := .new, toApp := .new }
  match writeMessage (⟨E.serviceName⟩ : TunnelRequest) with
  | .ok bytes => { s with client := .requesting bytes }
  | .error e => s.dropClient (.failed (.wire e))

/-- The client has read some bytes of the response. -/
def clientGot (s : Session) (got : List UInt8) : Session :=
  match readFrame E.responseFromSlice got with
  | none => { s with client := .awaiting got }
  | some (.error e) => s.dropClient (.failed (.wire e))
  | some (.ok response) =>
    if response.accepted then { s with client := .copying (.running []) (.running []) }
    else s.dropClient (.failed (.rejected (response.reason.getD "unknown")))

/-- The client copies until both directions are finished. -/
def clientCopied (s : Session) (up down : Transfer UInt8) : Session :=
  if up = .finished ∧ down = .finished then s.dropClient .ok
  else { s with client := .copying up down }

/-- An action of the client. -/
def stepClient (s : Session) : SessionAction → Option Session
  | .clientWrite n =>
    match s.client with
    | .requesting left =>
      if 0 < n ∧ n ≤ left.length ∧ s.toServer.unread.length + n ≤ E.limits.toServer then
        some { s with
          client := if left.drop n = [] then .awaiting [] else .requesting (left.drop n)
          toServer := s.toServer.write (left.take n) }
      else none
    | _ => none
  | .clientRead n =>
    match s.client with
    | .awaiting got =>
      if 0 < n ∧ n ≤ Framing.missing 4 got ∧ n ≤ s.toClient.unread.length then
        some (clientGot E { s with toClient := s.toClient.read n }
          (got ++ s.toClient.unread.take n))
      else none
    | _ => none
  | .clientEof =>
    match s.client with
    | .awaiting _ =>
      if s.toClient.unread = [] ∧ s.toClient.shut then
        some (s.dropClient (.failed (.wire .unexpectedEof)))
      else none
    | _ => none
  | .clientUp a =>
    match s.client with
    | .copying up down =>
      (up.step E.limits.buffer E.limits.toServer s.fromApp s.toServer a).map
        fun (up, fromApp, toServer) =>
        { s with fromApp := fromApp, toServer := toServer }.clientCopied up down
    | _ => none
  | .clientDown a =>
    match s.client with
    | .copying up down =>
      (down.step E.limits.buffer E.limits.toApp s.toClient s.toApp a).map
        fun (down, toClient, toApp) =>
        { s with toClient := toClient, toApp := toApp }.clientCopied up down
    | _ => none
  | .clientFail =>
    match s.client with
    | .returned _ => none
    | _ => some (s.dropClient .ioError)
  | _ => none

/-! ## The server -/

/-- The server returns and drops its streams. -/
def dropServer (s : Session) (result : SessionEnd) : Session :=
  { s with
    server := .returned result
    toClient := s.toClient.close
    toService := if s.dialed.isSome then s.toService.close else s.toService }

/-- The server has read some bytes of the request. -/
def serverGot (s : Session) (got : List UInt8) : Session :=
  match readFrame E.requestFromSlice got with
  | none => { s with server := .reading got }
  | some (.error e) => s.dropServer (.failed (.wire e))
  | some (.ok request) =>
    match E.services.get? request.serviceName with
    | some localAddr => { s with server := .connecting localAddr }
    | none =>
      match writeMessage (⟨false, some ("unknown service: " ++ request.serviceName.name)⟩ :
          TunnelResponse) with
      | .ok bytes => { s with server := .rejecting bytes }
      | .error e => s.dropServer (.failed (.wire e))

/-- The server has connected to a local service, or not. -/
def serverConnected (s : Session) (localAddr : ServiceAddr) (connects : Bool) : Session :=
  if connects then
    match writeMessage (⟨true, none⟩ : TunnelResponse) with
    | .ok bytes => { s with server := .accepting bytes, dialed := some localAddr }
    | .error e => { s with dialed := some localAddr }.dropServer (.failed (.wire e))
  else s.dropServer (.failed (.connect localAddr))

/-- The server copies until both directions are finished. -/
def serverCopied (s : Session) (up down : Transfer UInt8) : Session :=
  if up = .finished ∧ down = .finished then s.dropServer .ok
  else { s with server := .copying up down }

/-- An action of the server. -/
def stepServer (s : Session) : SessionAction → Option Session
  | .serverRead n =>
    match s.server with
    | .reading got =>
      if 0 < n ∧ n ≤ Framing.missing 4 got ∧ n ≤ s.toServer.unread.length then
        some (serverGot E { s with toServer := s.toServer.read n }
          (got ++ s.toServer.unread.take n))
      else none
    | _ => none
  | .serverEof =>
    match s.server with
    | .reading _ =>
      if s.toServer.unread = [] ∧ s.toServer.shut then
        some (s.dropServer (.failed (.wire .unexpectedEof)))
      else none
    | _ => none
  | .serverConnect connects =>
    match s.server with
    | .connecting localAddr => some (s.serverConnected localAddr connects)
    | _ => none
  | .serverWrite n =>
    match s.server with
    | .rejecting left =>
      if 0 < n ∧ n ≤ left.length ∧ s.toClient.unread.length + n ≤ E.limits.toClient then
        let s := { s with toClient := s.toClient.write (left.take n) }
        some (if left.drop n = [] then s.dropServer .ok
          else { s with server := .rejecting (left.drop n) })
      else none
    | .accepting left =>
      if 0 < n ∧ n ≤ left.length ∧ s.toClient.unread.length + n ≤ E.limits.toClient then
        some { s with
          server := if left.drop n = [] then .copying (.running []) (.running [])
            else .accepting (left.drop n)
          toClient := s.toClient.write (left.take n) }
      else none
    | _ => none
  | .serverUp a =>
    match s.server with
    | .copying up down =>
      (up.step E.limits.buffer E.limits.toService s.toServer s.toService a).map
        fun (up, toServer, toService) =>
        { s with toServer := toServer, toService := toService }.serverCopied up down
    | _ => none
  | .serverDown a =>
    match s.server with
    | .copying up down =>
      (down.step E.limits.buffer E.limits.toClient s.fromService s.toClient a).map
        fun (down, fromService, toClient) =>
        { s with fromService := fromService, toClient := toClient }.serverCopied up down
    | _ => none
  | .serverFail =>
    match s.server with
    | .returned _ => none
    | .copying _ _ => some (s.dropServer .logged)
    | _ => some (s.dropServer .ioError)
  | _ => none

/-! ## The whole session -/

/-- An action of the application or of the service. -/
def stepOutside (s : Session) : SessionAction → Option Session
  | .appWrite bytes =>
    if s.fromApp.shut then none else some { s with fromApp := s.fromApp.write bytes }
  | .appShut => some { s with fromApp := s.fromApp.close }
  | .appRead n =>
    if n ≤ s.toApp.unread.length then some { s with toApp := s.toApp.read n } else none
  | .serviceWrite bytes =>
    if s.dialed.isSome ∧ s.fromService.shut = false then
      some { s with fromService := s.fromService.write bytes }
    else none
  | .serviceShut =>
    if s.dialed.isSome then some { s with fromService := s.fromService.close } else none
  | .serviceRead n =>
    if s.dialed.isSome ∧ n ≤ s.toService.unread.length then
      some { s with toService := s.toService.read n }
    else none
  | _ => none

/-- One action of a session. -/
def step (s : Session) (a : SessionAction) : Option Session :=
  (s.stepOutside a).or ((s.stepClient E a).or (s.stepServer E a))

/-- A sequence of actions. -/
def run (s : Session) : List SessionAction → Option Session
  | [] => some s
  | a :: as => (s.step E a).bind fun s => s.run as

end Session

end Punchgate
