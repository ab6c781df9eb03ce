import Punchgate.Library.Family
import Punchgate.Session.Safety
import Punchgate.Specs

/-!
# Tunnels between nodes

`connect_tunnel` accepts one client after the other, opens a stream for it, and leaves both to a
session. `accept_loop` takes the streams at the node on the other side. The sessions of all tunnels
run side by side.
-/

namespace Punchgate

/-- Why `connect_tunnel` returns. It does not return otherwise. -/
inductive ListenerEnd
  | bind
  | accept
  | openStream
  | aborted
  deriving DecidableEq

/-- Where `connect_tunnel` is. -/
inductive ListenerPhase
  /-- In `TcpListener::bind`, or in `TcpListener::local_addr` right after it. -/
  | binding
  /-- In `TcpListener::accept`. -/
  | accepting
  /-- In `Control::open_stream`, for a client. -/
  | opening (client : ℕ)
  | ended (why : ListenerEnd)
  deriving DecidableEq

/-- `connect_tunnel`, with the clients of its listener in the order in which they have connected. -/
structure ConnectTunnel where
  /-- The peer, the service and the address to bind. -/
  spec : TunnelSpec
  /-- Where it is. -/
  phase : ListenerPhase
  /-- The clients that are not accepted yet. -/
  waiting : List ℕ
  /-- How many clients have connected. -/
  connected : ℕ
  deriving DecidableEq

/-- What happens to a listener. -/
inductive ListenerAction
  | bind (binds : Bool)
  /-- A client connects. -/
  | connect
  | accept (accepts : Bool)
  | openStream (opens : Bool)
  /-- `shutdown_all` aborts the task. -/
  | abort
  deriving DecidableEq

/-- The loop has been left. -/
def ListenerPhase.isEnded : ListenerPhase → Bool
  | .ended _ => true
  | _ => false

/-- An action that ends the loop. -/
def ListenerAction.fatal : ListenerAction → Bool
  | .bind binds => !binds
  | .connect => false
  | .accept accepts => !accepts
  | .openStream opens => !opens
  | .abort => true

namespace ConnectTunnel

/-- A task that has just been spawned. -/
def spawned (spec : TunnelSpec) : ConnectTunnel := ⟨spec, .binding, [], 0⟩

/-- It returns and drops its listener, and with it the clients that wait. -/
def finish (l : ConnectTunnel) (why : ListenerEnd) : ConnectTunnel :=
  { l with phase := .ended why, waiting := [] }

/-- One action, and the client for which a session is spawned. -/
def step (l : ConnectTunnel) : ListenerAction → Option (ConnectTunnel × Option ℕ)
  | .bind binds =>
    match l.phase with
    | .binding => some (if binds then { l with phase := .accepting } else l.finish .bind, none)
    | _ => none
  | .connect =>
    match l.phase with
    | .accepting | .opening _ =>
      some ({ l with waiting := l.waiting ++ [l.connected], connected := l.connected + 1 }, none)
    | _ => none
  | .accept accepts =>
    match l.phase, l.waiting, accepts with
    | .accepting, client :: rest, true =>
      some ({ l with phase := .opening client, waiting := rest }, none)
    | .accepting, _, false => some (l.finish .accept, none)
    | _, _, _ => none
  | .openStream opens =>
    match l.phase with
    | .opening client =>
      if opens then some ({ l with phase := .accepting }, some client)
      else some (l.finish .openStream, none)
    | _ => none
  | .abort =>
    match l.phase with
    | .ended _ => none
    | _ => some (l.finish .aborted, none)

/-- The clients that have no session yet. -/
def pending (l : ConnectTunnel) : List ℕ :=
  match l.phase with
  | .opening client => client :: l.waiting
  | _ => l.waiting

end ConnectTunnel

/-- The actions of `handle_tunnel`. -/
def SessionAction.ofServer : SessionAction → Bool
  | .serverRead _ | .serverEof | .serverConnect _ | .serverWrite _ | .serverUp _ | .serverDown _
  | .serverFail => true
  | _ => false

/-- What the nodes of a network are given. -/
structure Deployment where
  /-- The services of each peer. -/
  services : PeerId → FiniteMap ServiceName ServiceAddr
  /-- `serde_json::from_slice` at servers. -/
  requestFromSlice : List UInt8 → Except String TunnelRequest
  /-- `serde_json::from_slice` at clients. -/
  responseFromSlice : List UInt8 → Except String TunnelResponse
  /-- How much the streams of a session take. -/
  limits : Limits

/-- What the two ends of a session of a tunnel are given. -/
def Deployment.endpoints (d : Deployment) (spec : TunnelSpec) : Endpoints :=
  ⟨spec.serviceName, d.services spec.remotePeer, d.requestFromSlice, d.responseFromSlice, d.limits⟩

/-- Which tunnel and which of its clients a session is for. -/
structure SessionKey where
  /-- The tunnel. -/
  spec : TunnelSpec
  /-- The number of its listener. -/
  listener : ℕ
  /-- The number of the client. -/
  client : ℕ
  deriving DecidableEq

/-- The tunnels of a network. -/
structure Network where
  /-- The tasks that run `connect_tunnel`. -/
  listeners : List ConnectTunnel
  /-- The sessions in the order in which they were spawned. -/
  sessions : List (SessionKey × Session)
  /-- The sessions whose streams were taken by `accept_loop`. -/
  handled : Finset ℕ

/-- What happens in a network. -/
inductive NetworkAction
  | listener (k : ℕ) (a : ListenerAction)
  /-- `accept_loop` takes the stream of a session. -/
  | handle (i : ℕ)
  | session (i : ℕ) (a : SessionAction)

/-- What happens to a session. -/
def NetworkAction.ofSession : NetworkAction → Option (ℕ × SessionAction)
  | .session i a => some (i, a)
  | _ => none

namespace Network

/-- The tasks are spawned. -/
def start (specs : List TunnelSpec) : Network := ⟨specs.map .spawned, [], ∅⟩

/-- A listener acts. -/
def stepListener (d : Deployment) (n : Network) (k : ℕ) (a : ListenerAction) : Option Network :=
  (n.listeners[k]?).bind fun l => (l.step a).map fun r =>
    { n with
      listeners := n.listeners.set k r.1
      sessions := n.sessions ++ r.2.toList.map fun client =>
        (⟨l.spec, k, client⟩, Session.start (d.endpoints l.spec)) }

/-- One of the parties of a session acts. -/
def stepSession (d : Deployment) (n : Network) (i : ℕ) (a : SessionAction) : Option Network :=
  (n.sessions[i]?).bind fun x => (x.2.step (d.endpoints x.1.spec) a).map fun s =>
    { n with sessions := n.sessions.set i (x.1, s) }

/-- One action of a network. The server's part of a session waits for `accept_loop`. -/
def step (d : Deployment) (n : Network) : NetworkAction → Option Network
  | .listener k a => n.stepListener d k a
  | .handle i =>
    if i < n.sessions.length ∧ i ∉ n.handled then some { n with handled := insert i n.handled }
    else none
  | .session i a => if a.ofServer = true → i ∈ n.handled then n.stepSession d i a else none

/-- A network as a partial machine. -/
def machine (d : Deployment) : Partial Network NetworkAction where
  step := Network.step d

/-- What the sessions are for. -/
def keys (n : Network) : List SessionKey := n.sessions.map Prod.fst

/-- The clients of a listener that have a session. -/
def served (n : Network) (k : ℕ) : List ℕ :=
  (n.keys.filter fun key => key.listener = k).map SessionKey.client

end Network

/-- A session as a partial machine. -/
def Session.machine (E : Endpoints) : Partial Session SessionAction where
  step s a := s.step E a

/-- Its runs are the runs of the session. -/
theorem Session.run_machine (E : Endpoints) (s : Session) (as : List SessionAction) :
    (Session.machine E).run s as = s.run E as := by
  induction as generalizing s with
  | nil => rfl
  | cons a as ih =>
    rw [Partial.run, Session.run]
    exact congrArg _ (funext ih)

namespace Network

variable {d : Deployment} {n n' : Network} {specs : List TunnelSpec} {as : List NetworkAction}
  {i k : ℕ} {key : SessionKey} {s : Session} {l : ConnectTunnel}

/-! ## Sessions -/

/-- What a listener does to a network. -/
theorem stepListener_cases {a : ListenerAction} (h : n.stepListener d k a = some n') :
    ∃ l l' opened, n.listeners[k]? = some l ∧ l.step a = some (l', opened) ∧
      n' = { n with
        listeners := n.listeners.set k l'
        sessions := n.sessions ++ opened.toList.map fun client =>
          (⟨l.spec, k, client⟩, Session.start (d.endpoints l.spec)) } := by
  obtain ⟨l, hl, h⟩ := Option.bind_eq_some_iff.mp h
  obtain ⟨⟨l', opened⟩, hstep, heq⟩ := Option.map_eq_some_iff.mp h
  exact ⟨l, l', opened, hl, hstep, heq.symm⟩

/-- What a session does to a network. -/
theorem stepSession_cases {a : SessionAction} (h : n.stepSession d i a = some n') :
    ∃ key s s', n.sessions[i]? = some (key, s) ∧ s.step (d.endpoints key.spec) a = some s' ∧
      n' = { n with sessions := n.sessions.set i (key, s') } := by
  obtain ⟨⟨key, s⟩, hs, h⟩ := Option.bind_eq_some_iff.mp h
  obtain ⟨s', hstep, heq⟩ := Option.map_eq_some_iff.mp h
  exact ⟨key, s, s', hs, hstep, heq.symm⟩

/-- The sessions of a network are a family. -/
theorem isFamily (d : Deployment) : (machine d).IsFamily Network.sessions
    (fun key => Session.machine (d.endpoints key.spec))
    (fun key => Session.start (d.endpoints key.spec)) NetworkAction.ofSession where
  acts {n n' a i b} hlabel hstep := by
    cases a with
    | session j c =>
      cases hlabel
      change (if _ then _ else _) = _ at hstep
      split at hstep
      · obtain ⟨key, s, s', hs, hact, rfl⟩ := stepSession_cases hstep
        exact ⟨key, s, s', hs, hact, rfl⟩
      · cases hstep
    | listener j c => cases hlabel
    | handle j => cases hlabel
  grows {n n' a} hlabel hstep := by
    cases a with
    | listener k c =>
      obtain ⟨l, l', opened, hl, -, rfl⟩ := stepListener_cases hstep
      cases opened with
      | none => exact .inl (List.append_nil _)
      | some client => exact .inr ⟨⟨l.spec, k, client⟩, rfl⟩
    | handle j =>
      change (if _ then _ else _) = _ at hstep
      split at hstep
      · cases hstep
        exact .inl rfl
      · cases hstep
    | session j c => cases hlabel

/-- A session is where its own actions have led it. -/
theorem session_run (h : (machine d).run (start specs) as = some n)
    (hi : n.sessions[i]? = some (key, s)) :
    (Session.start (d.endpoints key.spec)).run (d.endpoints key.spec)
      (Partial.actionsOf NetworkAction.ofSession i as) = some s := by
  have hrun := (isFamily d).member_run rfl h hi
  rwa [Session.run_machine] at hrun

end Network

/-! ## Listeners -/

namespace ConnectTunnel

variable {l l' : ConnectTunnel} {a : ListenerAction} {opened : Option ℕ} {m : ℕ}

/-- What each action does, and where it is possible. -/
inductive Step (l : ConnectTunnel) : ListenerAction → ConnectTunnel → Option ℕ → Prop
  | bound (hphase : l.phase = .binding) : Step l (.bind true) { l with phase := .accepting } none
  | unbound (hphase : l.phase = .binding) : Step l (.bind false) (l.finish .bind) none
  | connect (hphase : l.phase = .accepting ∨ ∃ client, l.phase = .opening client) :
      Step l .connect
        { l with waiting := l.waiting ++ [l.connected], connected := l.connected + 1 } none
  | accepted {client : ℕ} {rest : List ℕ} (hphase : l.phase = .accepting)
      (hwaiting : l.waiting = client :: rest) :
      Step l (.accept true) { l with phase := .opening client, waiting := rest } none
  | unaccepted (hphase : l.phase = .accepting) : Step l (.accept false) (l.finish .accept) none
  | opened {client : ℕ} (hphase : l.phase = .opening client) :
      Step l (.openStream true) { l with phase := .accepting } (some client)
  | unopened {client : ℕ} (hphase : l.phase = .opening client) :
      Step l (.openStream false) (l.finish .openStream) none
  | abort : Step l .abort (l.finish .aborted) none

/-- **Inversion.** An action of a listener is one of these. -/
theorem step_cases (h : l.step a = some (l', opened)) : l.Step a l' opened := by
  cases a with
  | bind binds =>
    simp only [step] at h
    split at h
    · rename_i hphase
      cases binds with
      | true =>
        cases h
        exact .bound hphase
      | false =>
        cases h
        exact .unbound hphase
    · cases h
  | connect =>
    simp only [step] at h
    split at h
    · rename_i hphase
      cases h
      exact .connect (.inl hphase)
    · rename_i client hphase
      cases h
      exact .connect (.inr ⟨client, hphase⟩)
    · cases h
  | accept accepts =>
    simp only [step] at h
    split at h
    · rename_i client rest hphase hwaiting
      cases h
      exact .accepted hphase hwaiting
    · rename_i hphase
      cases h
      exact .unaccepted hphase
    · cases h
  | openStream opens =>
    simp only [step] at h
    split at h
    · rename_i client hphase
      cases opens with
      | true =>
        cases h
        exact .opened hphase
      | false =>
        cases h
        exact .unopened hphase
    · cases h
  | abort =>
    simp only [step] at h
    split at h
    · cases h
    · cases h
      exact .abort

/-- Sessions were spawned for the first `m` clients. Until the loop is left, the others are still to
come. -/
structure Orderly (l : ConnectTunnel) (m : ℕ) : Prop where
  /-- Only clients that have connected have sessions. -/
  le : m ≤ l.connected
  /-- Nobody is skipped. -/
  pending : l.phase.isEnded = false → List.range m ++ l.pending = List.range l.connected

/-- A task that has just been spawned has no clients. -/
theorem orderly_spawned (spec : TunnelSpec) : (spawned spec).Orderly 0 := ⟨le_rfl, fun _ => rfl⟩

/-- The loop may be left at any time. -/
theorem Orderly.finish (h : l.Orderly m) (why : ListenerEnd) : (l.finish why).Orderly m :=
  ⟨h.le, fun hlive => (by cases hlive)⟩

/-- Only the phase changes, and the clients that are pending stay so. -/
theorem Orderly.of_pending (h : l.Orderly m) (hlive : l.phase.isEnded = false)
    (hconnected : l'.connected = l.connected) (hpending : l'.pending = l.pending) :
    l'.Orderly m :=
  ⟨hconnected ▸ h.le, fun _ => by rw [hpending, hconnected, h.pending hlive]⟩

/-- The first client that is pending is the next one. -/
theorem Orderly.next (h : l.Orderly m) (hlive : l.phase.isEnded = false) {client : ℕ}
    {rest : List ℕ} (hpending : l.pending = client :: rest) :
    client = m ∧ m < l.connected ∧ List.range (m + 1) ++ rest = List.range l.connected := by
  have hall := h.pending hlive
  rw [hpending] at hall
  have hlen := congrArg List.length hall
  rw [List.length_append, List.length_cons, List.length_range, List.length_range] at hlen
  have hget := congrArg (fun xs => xs[m]?) hall
  rw [List.getElem?_append_right (by rw [List.length_range]), List.length_range, Nat.sub_self,
    List.getElem?_range (by omega)] at hget
  have hclient : client = m := Option.some.inj hget
  refine ⟨hclient, by omega, ?_⟩
  rw [List.range_succ, List.append_assoc, ← hall, hclient]
  rfl

/-- A listener that has ended does nothing. -/
theorem step_ended (h : l.phase.isEnded = true) : l.step a = none := by
  cases hphase : l.phase with
  | ended why => cases a <;> simp [step, hphase]
  | _ =>
    rw [hphase] at h
    cases h

/-- What an action does to the phase and to the tunnel. One that ends the loop spawns nothing. -/
theorem step_phase (h : l.step a = some (l', opened)) :
    l'.spec = l.spec ∧ l'.phase.isEnded = a.fatal ∧ (a.fatal = true → opened = none) := by
  cases step_cases h with
  | connect hphase =>
    refine ⟨rfl, ?_, fun _ => rfl⟩
    rcases hphase with hphase | ⟨client, hphase⟩
    · simp [hphase, ListenerPhase.isEnded, ListenerAction.fatal]
    · simp [hphase, ListenerPhase.isEnded, ListenerAction.fatal]
  | opened => exact ⟨rfl, rfl, fun hfatal => (by cases hfatal)⟩
  | _ => exact ⟨rfl, rfl, fun _ => rfl⟩

/-- **Step.** A session is spawned for the next client or for none. -/
theorem Orderly.step (h : l.Orderly m) (hstep : l.step a = some (l', opened)) :
    (opened = none ∧ l'.Orderly m) ∨ (opened = some m ∧ l'.Orderly (m + 1)) := by
  cases step_cases hstep with
  | bound hphase =>
    refine .inl ⟨rfl, h.of_pending (by rw [hphase]; rfl) rfl ?_⟩
    simp [ConnectTunnel.pending, hphase]
  | unbound => exact .inl ⟨rfl, h.finish .bind⟩
  | connect hphase =>
    -- the new client waits behind all others
    have hmore (hlive : l.phase.isEnded = false) : List.range m ++ (l.pending ++ [l.connected]) =
        List.range (l.connected + 1) := by
      rw [← List.append_assoc, h.pending hlive, List.range_succ]
    refine .inl ⟨rfl, Nat.le_succ_of_le h.le, fun hlive => ?_⟩
    rw [← hmore hlive]
    rcases hphase with hphase | ⟨client, hphase⟩
    · simp only [ConnectTunnel.pending, hphase]
    · simp only [ConnectTunnel.pending, hphase, List.cons_append]
  | accepted hphase hwaiting =>
    refine .inl ⟨rfl, h.of_pending (by rw [hphase]; rfl) rfl ?_⟩
    simp only [ConnectTunnel.pending, hphase, hwaiting]
  | unaccepted => exact .inl ⟨rfl, h.finish .accept⟩
  | @opened client hphase =>
    have hpending : l.pending = client :: l.waiting := by rw [ConnectTunnel.pending, hphase]
    obtain ⟨rfl, hlt, hrest⟩ := h.next (by rw [hphase]; rfl) hpending
    exact .inr ⟨rfl, hlt, fun _ => hrest⟩
  | unopened => exact .inl ⟨rfl, h.finish .openStream⟩
  | abort => exact .inl ⟨rfl, h.finish .aborted⟩

end ConnectTunnel

namespace Network

variable {d : Deployment} {n n' : Network} {specs : List TunnelSpec}
  {as bs : List NetworkAction} {i k : ℕ} {key : SessionKey} {s : Session} {l : ConnectTunnel}

/-- An action is that of a listener, or it changes neither listeners nor what sessions are for. -/
theorem step_cases {a : NetworkAction} (h : (machine d).step n a = some n') :
    (∃ k c l l' opened, a = .listener k c ∧ n.listeners[k]? = some l ∧
      l.step c = some (l', opened) ∧ n'.listeners = n.listeners.set k l' ∧
      n'.keys = n.keys ++ opened.toList.map fun client => ⟨l.spec, k, client⟩) ∨
    n'.listeners = n.listeners ∧ n'.keys = n.keys := by
  cases a with
  | listener k c =>
    obtain ⟨l, l', opened, hl, hstep, rfl⟩ := stepListener_cases h
    refine .inl ⟨k, c, l, l', opened, rfl, hl, hstep, rfl, ?_⟩
    rw [keys, List.map_append, List.map_map]
    rfl
  | handle j =>
    change (if _ then _ else _) = _ at h
    split at h
    · cases h
      exact .inr ⟨rfl, rfl⟩
    · cases h
  | session j c =>
    change (if _ then _ else _) = _ at h
    split at h
    · obtain ⟨key, s, s', hs, -, rfl⟩ := stepSession_cases h
      refine .inr ⟨rfl, ?_⟩
      exact Partial.map_set_of_eq hs rfl
    · cases h

/-- A session that is spawned serves one more client of its listener. -/
theorem served_of_keys {spec : TunnelSpec} {opened : Option ℕ}
    (hkeys : n'.keys = n.keys ++ opened.toList.map fun client => ⟨spec, k, client⟩) (j : ℕ) :
    n'.served j = n.served j ++ if j = k then opened.toList else [] := by
  rw [served, served, hkeys, List.filter_append, List.map_append]
  congr 1
  cases opened with
  | none => split <;> rfl
  | some client =>
    by_cases hj : j = k
    · simp [hj]
    · simp [hj, Ne.symm hj]

/-- What holds of the listeners and of what the sessions are for. -/
structure Tended (specs : List TunnelSpec) (n : Network) : Prop where
  /-- The listeners are those of the tunnels. -/
  tunnels : n.listeners.map ConnectTunnel.spec = specs
  /-- A session is for the tunnel of its listener. -/
  keys : ∀ key ∈ n.keys, specs[key.listener]? = some key.spec
  /-- The listeners serve their clients in order. -/
  orderly : ∀ k l, n.listeners[k]? = some l → ∃ m, n.served k = List.range m ∧ l.Orderly m

/-- There are no sessions at the start. -/
theorem tended_start (specs : List TunnelSpec) : (start specs).Tended specs where
  tunnels := by
    rw [start, List.map_map]
    exact List.map_id _
  keys key hkey := (by cases hkey)
  orderly k l hl := by
    obtain ⟨spec, -, rfl⟩ := Option.map_eq_some_iff.mp (List.getElem?_map ▸ hl)
    exact ⟨0, rfl, ConnectTunnel.orderly_spawned spec⟩

/-- **Step.** Every action keeps the listeners in order. -/
theorem Tended.step (h : n.Tended specs) {a : NetworkAction}
    (hstep : (machine d).step n a = some n') : n'.Tended specs := by
  rcases step_cases hstep with ⟨k, c, l, l', opened, -, hl, hact, hlisteners, hkeys⟩ |
    ⟨hlisteners, hkeys⟩
  · obtain ⟨hspec, -⟩ := ConnectTunnel.step_phase hact
    obtain ⟨hk, hget⟩ := List.getElem?_eq_some_iff.mp hl
    have hserved := served_of_keys hkeys
    constructor
    · rw [hlisteners, Partial.map_set_of_eq hl hspec, h.tunnels]
    · intro key hkey
      rw [hkeys] at hkey
      rcases List.mem_append.mp hkey with hkey | hnew
      · exact h.keys key hkey
      · obtain ⟨client, -, rfl⟩ := List.mem_map.mp hnew
        rw [← h.tunnels, List.getElem?_map, hl]
        rfl
    · intro j lj hj
      rw [hserved j]
      rw [hlisteners] at hj
      by_cases hjk : j = k
      · subst hjk
        rw [List.getElem?_set_self hk] at hj
        cases hj
        rw [if_pos rfl]
        obtain ⟨m, hm, horderly⟩ := h.orderly j l hl
        rw [hm]
        rcases horderly.step hact with ⟨rfl, hnext⟩ | ⟨rfl, hnext⟩
        · exact ⟨m, List.append_nil _, hnext⟩
        · exact ⟨m + 1, List.range_succ.symm, hnext⟩
      · rw [List.getElem?_set_ne (Ne.symm hjk)] at hj
        rw [if_neg hjk, List.append_nil]
        exact h.orderly j lj hj
  · have hserved (j : ℕ) : n'.served j = n.served j := by rw [served, served, hkeys]
    refine ⟨hlisteners ▸ h.tunnels, hkeys ▸ h.keys, fun j l hl => ?_⟩
    rw [hserved j]
    exact h.orderly j l (hlisteners ▸ hl)

/-- The listeners are in order after every run. -/
theorem Tended.run (h : n.Tended specs) (hrun : (machine d).run n as = some n') :
    n'.Tended specs :=
  (machine d).invariant h (fun _ _ _ h => h.step) hrun

/-- **Isolation.** However the sessions of a network interleave, and whatever its listeners do, a
session is for the tunnel of its listener and is where its own actions have led it. What its service
reads is what its own application has written, and the other way round. -/
theorem network_isolates_sessions (h : (machine d).run (start specs) as = some n)
    (hi : n.sessions[i]? = some (key, s)) :
    specs[key.listener]? = some key.spec ∧
      (Session.start (d.endpoints key.spec)).run (d.endpoints key.spec)
        (Partial.actionsOf NetworkAction.ofSession i as) = some s ∧
      s.toService.received <+: s.fromApp.sent ∧ s.toApp.received <+: s.fromService.sent := by
  have hkey : key ∈ n.keys := List.mem_map_of_mem (List.mem_of_getElem? hi)
  have hrun := session_run h hi
  exact ⟨((tended_start specs).run h).keys key hkey, hrun,
    ((Session.safe_start _).run hrun).transparent⟩

/-- Every peer exposes the one service. -/
noncomputable def webDeployment : Deployment where
  services _ := Session.webEndpoints.services
  requestFromSlice := Session.webEndpoints.requestFromSlice
  responseFromSlice := Session.webEndpoints.responseFromSlice
  limits := Session.usualLimits

/-- A tunnel to the service at peer 1. -/
def webTunnelSpec : TunnelSpec := ⟨⟨1⟩, ⟨"web"⟩, ⟨.domain "localhost", 8080⟩⟩

/-- Two clients of the tunnel connect. The second runs its session while the first only asks. -/
def webTraffic : List NetworkAction :=
  [.listener 0 (.bind true), .listener 0 .connect, .listener 0 .connect,
    .listener 0 (.accept true), .listener 0 (.openStream true), .listener 0 (.accept true),
    .session 0 (.clientWrite 20), .listener 0 (.openStream true), .handle 1] ++
    Session.webActions.map (.session 1)

/-- Every action is possible. -/
theorem run_webTraffic_isSome :
    ((machine webDeployment).run (start [webTunnelSpec]) webTraffic).isSome = true := by
  decide +kernel

/-- The network afterwards. -/
noncomputable def webNetwork : Network :=
  ((machine webDeployment).run (start [webTunnelSpec]) webTraffic).get run_webTraffic_isSome

/-- The actions lead there. -/
theorem run_webTraffic :
    (machine webDeployment).run (start [webTunnelSpec]) webTraffic = some webNetwork :=
  (Option.some_get run_webTraffic_isSome).symm

/-- The session of the second client is the one that runs alone. -/
theorem network_isolates_sessions_web : ∃ key s, webNetwork.sessions[1]? = some (key, s) ∧
    [webTunnelSpec][key.listener]? = some key.spec ∧
    (Session.start (webDeployment.endpoints key.spec)).run (webDeployment.endpoints key.spec)
      (Partial.actionsOf NetworkAction.ofSession 1 webTraffic) = some s ∧
    s.toService.received <+: s.fromApp.sent ∧ s.toApp.received <+: s.fromService.sent := by
  have hsome : webNetwork.sessions[1]?.isSome = true := by decide +kernel
  obtain ⟨⟨key, s⟩, hi⟩ := Option.isSome_iff_exists.mp hsome
  exact ⟨key, s, hi, network_isolates_sessions run_webTraffic hi⟩

/-- A listener whose calls have all succeeded has not ended. -/
theorem live_of_run (h : (machine d).run (start specs) as = some n)
    (hcalls : ∀ a, .listener k a ∈ as → a.fatal = false) :
    ∀ l, n.listeners[k]? = some l → l.phase.isEnded = false := by
  refine (machine d).run_induction (P := fun as n => (∀ a, .listener k a ∈ as → a.fatal = false) →
    ∀ l, n.listeners[k]? = some l → l.phase.isEnded = false) ?_ ?_ h hcalls
  · intro _ l hl
    obtain ⟨spec, -, rfl⟩ := Option.map_eq_some_iff.mp (List.getElem?_map ▸ hl)
    rfl
  · intro as u a v _ ih hstep hcalls l hl
    have hbefore := ih fun c hc => hcalls c (List.mem_append_left _ hc)
    rcases step_cases hstep with ⟨j, c, lj, l', opened, rfl, hlj, hact, hlisteners, -⟩ |
      ⟨hlisteners, -⟩
    · rw [hlisteners] at hl
      by_cases hj : k = j
      · subst hj
        rw [List.getElem?_set_self (List.getElem?_eq_some_iff.mp hlj).1] at hl
        cases hl
        rw [(ConnectTunnel.step_phase hact).2.1]
        exact hcalls c (List.mem_append_right _ (List.mem_singleton_self _))
      · rw [List.getElem?_set_ne (Ne.symm hj)] at hl
        exact hbefore l hl
    · exact hbefore l (hlisteners ▸ hl)

/-- **Order.** The clients of a listener get sessions in the order in which they have connected, each
at most one. Nobody is skipped, and as long as all calls of the listener succeed, whoever has no
session yet is waiting for it. -/
theorem listeners_serve_in_order (h : (machine d).run (start specs) as = some n)
    (hl : n.listeners[k]? = some l) :
    ∃ m, n.served k = List.range m ∧ m ≤ l.connected ∧
      ((∀ a, .listener k a ∈ as → a.fatal = false) →
        List.range m ++ l.pending = List.range l.connected) := by
  obtain ⟨m, hserved, horderly⟩ := ((tended_start specs).run h).orderly k l hl
  exact ⟨m, hserved, horderly.le, fun hcalls => horderly.pending (live_of_run h hcalls l hl)⟩

/-- Both clients of the tunnel are served. -/
theorem listeners_serve_in_order_web : ∃ m, webNetwork.served 0 = List.range m ∧ m ≤ 2 ∧
    ((∀ a, .listener 0 a ∈ webTraffic → a.fatal = false) →
      List.range m ++ [] = List.range 2) := by
  have hl : webNetwork.listeners[0]? = some ⟨webTunnelSpec, .accepting, [], 2⟩ := by decide +kernel
  exact listeners_serve_in_order run_webTraffic hl

/-- A listener that has ended serves nobody. -/
theorem served_of_ended (hl : n.listeners[k]? = some l) (hended : l.phase.isEnded = true)
    (hrun : (machine d).run n bs = some n') : n'.served k = n.served k := by
  have hkeep : n'.listeners[k]? = some l ∧ n'.served k = n.served k := by
    refine (machine d).invariant (P := fun m => m.listeners[k]? = some l ∧
      m.served k = n.served k) ⟨hl, rfl⟩ ?_ hrun
    intro u a v ⟨hl, hserved⟩ hstep
    rcases step_cases hstep with ⟨j, c, lj, l', opened, -, hlj, hact, hlisteners, hkeys⟩ |
      ⟨hlisteners, hkeys⟩
    · have hj : k ≠ j := by
        intro hj
        subst hj
        cases hl.symm.trans hlj
        rw [ConnectTunnel.step_ended hended] at hact
        cases hact
      rw [hlisteners, List.getElem?_set_ne (Ne.symm hj), served_of_keys hkeys, if_neg hj,
        List.append_nil]
      exact ⟨hl, hserved⟩
    · rw [hlisteners, served, hkeys]
      exact ⟨hl, hserved⟩
  exact hkeep.2

/-- **Failure.** When a listener cannot bind, accept a client or open a stream, or when it is
aborted, that is the end of the tunnel: no client gets a session afterwards, whatever happens. -/
theorem failed_listener_serves_nobody {a : ListenerAction} (ha : a.fatal = true)
    (h : (machine d).run (start specs) (as ++ .listener k a :: bs) = some n') :
    ∃ n, (machine d).run (start specs) as = some n ∧ n'.served k = n.served k := by
  rw [Partial.run_append] at h
  obtain ⟨n, hrun, h⟩ := Option.bind_eq_some_iff.mp h
  obtain ⟨u, hstep, hrest⟩ := Option.bind_eq_some_iff.mp h
  refine ⟨n, hrun, ?_⟩
  obtain ⟨l, l', opened, hl, hact, rfl⟩ := stepListener_cases hstep
  obtain ⟨-, hended, hopened⟩ := ConnectTunnel.step_phase hact
  rw [served_of_ended (List.getElem?_set_self (List.getElem?_eq_some_iff.mp hl).1)
    (hended.trans ha) hrest]
  simp [hopened ha, served, keys]

/-- A stream cannot be opened for the first client, and the second one is not served either. -/
theorem failed_listener_serves_nobody_unopened :
    ∃ n n', (machine webDeployment).run (start [webTunnelSpec]) [.listener 0 (.bind true),
        .listener 0 .connect, .listener 0 .connect, .listener 0 (.accept true)] = some n ∧
      (machine webDeployment).run (start [webTunnelSpec]) [.listener 0 (.bind true),
        .listener 0 .connect, .listener 0 .connect, .listener 0 (.accept true),
        .listener 0 (.openStream false)] = some n' ∧
      n'.served 0 = n.served 0 := by
  have hsome : ((machine webDeployment).run (start [webTunnelSpec]) ([.listener 0 (.bind true),
      .listener 0 .connect, .listener 0 .connect, .listener 0 (.accept true)] ++
      .listener 0 (.openStream false) :: [])).isSome = true := by decide +kernel
  obtain ⟨n', h⟩ := Option.isSome_iff_exists.mp hsome
  obtain ⟨n, hrun, hserved⟩ := failed_listener_serves_nobody (by rfl) h
  exact ⟨n, n', hrun, h, hserved⟩

end Network

end Punchgate
