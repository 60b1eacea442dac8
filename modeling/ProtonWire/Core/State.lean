import ProtonWire.Frontend.Messages

/-!
# The core's state

`crates/core/src/state.rs`: the VPN state and the sequence of events, under one lock.

* `DaemonCore`, `DaemonCore.state`: the core and its snapshot;
* `DaemonCore.setVpnState`, `DaemonCore.notice`: a change takes the lock and a sequence number, and
  holds the lock while the event is published.
-/

namespace ProtonWire

/-- Where the thread that holds the core's lock is: about to publish its event, or in `publish`,
about to mark the session whose queue was full. -/
inductive Emitter where
  | free
  | publishing (envelope : EventEnvelope)
  | marking

/-- `DaemonCore`. -/
structure DaemonCore where
  version : String
  networkIntegration : NetworkIntegration
  seq : Word64
  vpnState : VpnState
  activeOwnerUid : Option ℕ
  emitter : Emitter

namespace DaemonCore

/-- `DaemonCore::new`. -/
def new (version : String) (networkIntegration : NetworkIntegration) : DaemonCore where
  version := version
  networkIntegration := networkIntegration
  seq := 0
  vpnState := .disconnected
  activeOwnerUid := none
  emitter := .free

variable (core : DaemonCore)

/-- `latest_event_seq`: read without the lock. -/
def latestEventSeq : Word64 := core.seq

/-- `state`, under the lock. -/
def state : DaemonState where
  protocolVersion := protocolVersion
  daemonVersion := core.version
  vpnState := core.vpnState
  networkIntegration := core.networkIntegration
  activeOwnerUid := core.activeOwnerUid
  latestEventSeq := some core.seq

/-- `emit_locked`, up to the publication: `fetch_add` wraps. -/
def emitLocked (event : DaemonEvent) : DaemonCore :=
  { core with seq := core.seq + 1, emitter := .publishing ⟨core.seq + 1, event⟩ }

/-- `set_vpn_state`, under the lock: no event without a change. -/
def setVpnState (to_ : VpnState) : DaemonCore :=
  if core.vpnState = to_ then core
  else emitLocked { core with vpnState := to_ } (.stateChanged core.vpnState to_)

/-- `notice`, under the lock. -/
def notice (level : NoticeLevel) (message : String) : DaemonCore :=
  core.emitLocked (.notice level message)

end DaemonCore

end ProtonWire
