import Punchgate.Types

/-!
# Reconnect backoff

The growing delays between attempts to reach a bootstrap peer again.
-/

namespace Punchgate

/-- `BACKOFF_INITIAL`. -/
def backoffInitial : Duration := Duration.fromSecs 1

/-- `BACKOFF_MAX`. -/
def backoffMax : Duration := Duration.fromSecs 60

/-- `ReconnectBackoff`. -/
structure ReconnectBackoff where
  /-- The next delay of each peer. -/
  delays : FiniteMap PeerId Duration
  /-- The address of each bootstrap peer. -/
  addrs : FiniteMap PeerId Multiaddr
  deriving DecidableEq

namespace ReconnectBackoff

/-- `ReconnectBackoff::new`. -/
def new (bootstrap : List (PeerId × Multiaddr)) : ReconnectBackoff :=
  ⟨∅, FiniteMap.ofList bootstrap⟩

/-- `ReconnectBackoff::schedule_reconnect`. -/
def scheduleReconnect (b : ReconnectBackoff) (peer : PeerId) :
    ReconnectBackoff × Option (Multiaddr × Duration) :=
  match b.addrs.get? peer with
  | none => (b, none)
  | some addr =>
    let current := b.delays.getD peer backoffInitial
    ({ b with delays := b.delays.insert peer (min (current * 2) backoffMax) }, some (addr, current))

/-- `ReconnectBackoff::reset`. -/
def reset (b : ReconnectBackoff) (peer : PeerId) : ReconnectBackoff :=
  { b with delays := b.delays.erase peer }

end ReconnectBackoff

end Punchgate
