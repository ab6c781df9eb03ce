import Punchgate.Library.Mealy
import Punchgate.State.Peer
import Punchgate.State.Tunnel

/-!
# The composed machine

`AppState` runs the peer machine first and tells the tunnel machine about a change
of phase before it passes the event on.
-/

namespace Punchgate

/-- `TunnelState` as a Mealy machine: every input is an event together with the
environment it is processed in. -/
def TunnelState.machine : Mealy.Machine TunnelState (Env × Event) Command where
  step s i := s.transition i.1 i.2

/-- `AppState`. -/
structure AppState where
  /-- The peer machine. -/
  peer : PeerState
  /-- The tunnel machine. -/
  tunnel : TunnelState
  deriving DecidableEq

namespace AppState

/-- `AppState::phase`. -/
def phase (s : AppState) : Phase := s.peer.phase

/-- The bridge event of a transition: the change of phase, when there is one. -/
def bridge (old new : Phase) : List Event := if old = new then [] else [.phaseChanged old new]

/-- `AppState::transition`. -/
def transition (env : Env) (s : AppState) (event : Event) : AppState × List Command :=
  let (peer, peerCmds) := s.peer.transition env event
  let inputs := (bridge s.peer.phase peer.phase ++ [event]).map (env, ·)
  (⟨peer, TunnelState.machine.after s.tunnel inputs⟩,
    peerCmds ++ TunnelState.machine.outputs s.tunnel inputs)

end AppState

end Punchgate
