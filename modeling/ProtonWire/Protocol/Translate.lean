import ProtonWire.Lib.Upsert
import ProtonWire.Net.RouteTxn

/-!
# Peer translation

`crates/protocol/src/translate.rs` and the parameters of `crates/protocol/src/params.rs`: a
connection request becomes the configuration of the tunnel engine. A peer has an address and ports
for each transport; a candidate of the engine has one address and the ports of three transports.

* `TunnelParams`, `PeerParams`: the request;
* `PeerInfo`, `InitialConnectionConfig`: the engine's types;
* `KeyCodec`: the decoding of keys, which other crates do;
* `KeyCodec.decodePeer`, `KeyCodec.translateWithPolicy`: the translation;
* `stablePeerId`: the caller's id of a candidate (`crates/protocol/src/engine.rs`).
-/

namespace ProtonWire.Translate

open Upsert (upsert)

/-! ## The request -/

/-- The requested protocol; Smart lets the engine choose. -/
inductive Protocol where
  | smart
  | wireGuardUdp
  | wireGuardTcp
  | stealth
  deriving DecidableEq

/-- The transports a candidate has port lists for. -/
inductive Transport where
  | udp
  | tcp
  | tls
  deriving DecidableEq

/-- An entry address and its ports. -/
structure TransportEndpoint where
  entryIp : IpAddr
  ports : List UInt16
  deriving DecidableEq

/-- A physical server that may be connected to. -/
structure PeerParams where
  id : String
  publicKeyBase64 : String
  udp : Option TransportEndpoint
  tcp : Option TransportEndpoint
  tls : Option TransportEndpoint
  priority : Int32
  exitLabel : Option String
  deriving DecidableEq

/-- The endpoint of a transport. -/
def PeerParams.endpoint (peer : PeerParams) : Transport → Option TransportEndpoint
  | .udp => peer.udp
  | .tcp => peer.tcp
  | .tls => peer.tls

/-- The endpoint of a transport, when it has ports. -/
def PeerParams.served (peer : PeerParams) (transport : Transport) : Option TransportEndpoint :=
  (peer.endpoint transport).filter fun endpoint => !endpoint.ports.isEmpty

/-- The strategy for the name in the TLS handshake. -/
inductive SniStrategy where
  | random
  | top
  deriving DecidableEq

/-- The connection request. -/
structure TunnelParams where
  peers : List PeerParams
  protocol : Protocol
  networkAvailable : Bool
  clientPrivateKey : Option String
  sniStrategy : SniStrategy

/-- Whether the peer has ports for the protocol. -/
def PeerParams.serves (peer : PeerParams) : Protocol → Bool
  | .smart =>
    peer.udp.any (!·.ports.isEmpty) || peer.tcp.any (!·.ports.isEmpty) ||
    peer.tls.any (!·.ports.isEmpty)
  | .wireGuardUdp => peer.udp.any (!·.ports.isEmpty)
  | .wireGuardTcp => peer.tcp.any (!·.ports.isEmpty)
  | .stealth => peer.tls.any (!·.ports.isEmpty)

/-- Whether some peer has ports for the requested protocol. -/
def TunnelParams.servesRequestedProtocol (params : TunnelParams) : Bool :=
  params.peers.any (·.serves params.protocol)

inductive ProtocolError where
  | unavailable (protocol : Protocol)
  | missingKey (text : String)
  | invalidKey (text : String)
  | invalidPeer (id text : String)
  deriving DecidableEq

/-! ## The engine's types -/

/-- A candidate of the engine. -/
structure PeerInfo where
  peerId : String
  serverIp : IpAddr
  serverPublicKey : Vector UInt8 32
  udpPorts : List UInt16
  tcpPorts : List UInt16
  tlsPorts : List UInt16
  priority : Int32
  exitLabel : Option String
  serverName : Option String
  deriving DecidableEq

namespace PeerInfo

/-- The ports of a transport. -/
def ports (info : PeerInfo) : Transport → List UInt16
  | .udp => info.udpPorts
  | .tcp => info.tcpPorts
  | .tls => info.tlsPorts

/-- The candidate with the ports of a transport. -/
def install (transport : Transport) (ports : List UInt16) (info : PeerInfo) : PeerInfo :=
  match transport with
  | .udp => { info with udpPorts := ports }
  | .tcp => { info with tcpPorts := ports }
  | .tls => { info with tlsPorts := ports }

/-- The candidate with the ports of the other transports cleared. -/
def clearOthers (transport : Transport) (info : PeerInfo) : PeerInfo :=
  match transport with
  | .udp => { info with tcpPorts := [], tlsPorts := [] }
  | .tcp => { info with udpPorts := [], tlsPorts := [] }
  | .tls => { info with udpPorts := [], tcpPorts := [] }

/-- Whether the candidate has ports for the protocol. -/
def serves (info : PeerInfo) : Protocol → Bool
  | .smart => !info.udpPorts.isEmpty || !info.tcpPorts.isEmpty || !info.tlsPorts.isEmpty
  | .wireGuardUdp => !info.udpPorts.isEmpty
  | .wireGuardTcp => !info.tcpPorts.isEmpty
  | .stealth => !info.tlsPorts.isEmpty

end PeerInfo

/-- The mode of the connection: without a local agent, and with a key or none. -/
inductive ConnectionMode where
  | noLocalAgent (wgPrivateKey : Option (Vector UInt8 32))
  deriving DecidableEq

/-- The engine's own enumeration of the strategies. -/
inductive EngineSniStrategy where
  | random
  | top
  deriving DecidableEq

/-- The engine's configuration. -/
structure InitialConnectionConfig where
  peers : List PeerInfo
  networkAvailable : Bool
  pcapFile : Option String
  connectionMode : ConnectionMode
  sniStrategy : EngineSniStrategy
  deriving DecidableEq

/-! ## The translation -/

/-- Where the client's key comes from. -/
inductive KeyPolicy where
  | required
  | fromCache
  deriving DecidableEq

/-- The decoding of keys: base64, with the text of its errors, and the engine's key of some
octets. -/
structure KeyCodec where
  decode : String → Except String (List UInt8)
  peerKey : List UInt8 → Option (Vector UInt8 32)

/-- A key of the engine is 32 octets, unchanged. -/
def KeyCodec.Lawful (K : KeyCodec) : Prop := ∀ bytes key, K.peerKey bytes = some key ↔
    key.toList = bytes

/-- 32 octets as an array. -/
def toArray32 (bytes : List UInt8) : Option (Vector UInt8 32) :=
  if h : bytes.length = 32 then some ⟨bytes.toArray, h⟩ else none

namespace KeyCodec

/-- A candidate of the peer, without ports. -/
def freshInfo (peer : PeerParams) (key : Vector UInt8 32) (entryIp : IpAddr) : PeerInfo where
  peerId := peer.id
  serverIp := entryIp
  serverPublicKey := key
  udpPorts := []
  tcpPorts := []
  tlsPorts := []
  priority := peer.priority
  exitLabel := peer.exitLabel
  serverName := none

/-- A transport with ports goes to the candidate of its address. -/
def addTransport (peer : PeerParams) (key : Vector UInt8 32) (candidates : List PeerInfo)
    (transport : Transport) :
    List PeerInfo :=
  match peer.served transport with
  | none => candidates
  | some endpoint =>
    upsert (fun info => info.serverIp = endpoint.entryIp)
    (PeerInfo.install transport endpoint.ports)
      (freshInfo peer key endpoint.entryIp) candidates

/-- The candidates of the peer, under its own id. -/
def gather (peer : PeerParams) (key : Vector UInt8 32) : List PeerInfo :=
  [.udp, .tcp, .tls].foldl (addTransport peer key) []

/-- Several candidates have their place behind the id. -/
def suffixIds (candidates : List PeerInfo) : List PeerInfo :=
  if 1 < candidates.length then
    candidates.mapIdx fun index info => { info with peerId := info.peerId ++ "/" ++ toString index }
  else candidates

variable (K : KeyCodec)

/-- Decode a peer into the candidates of its addresses. -/
def decodePeer (peer : PeerParams) : Except ProtocolError (List PeerInfo) :=
  match K.decode peer.publicKeyBase64 with
  | .error text => .error (.invalidPeer peer.id ("key is not base64: " ++ text))
  | .ok bytes =>
    match K.peerKey bytes with
    | none => .error (.invalidPeer peer.id "key is not 32 bytes")
    | some key =>
      let candidates := suffixIds (gather peer key)
      if candidates.isEmpty then .error (.invalidPeer peer.id "the peer serves no transport")
      else .ok candidates

/-- A peer that cannot be decoded is left out; its error is kept for the case that none remains. -/
def translateStep (translated : List PeerInfo × Option ProtocolError) (peer : PeerParams) :
    List PeerInfo × Option ProtocolError :=
  match K.decodePeer peer with
  | .ok infos => (translated.1 ++ infos, translated.2)
  | .error error => (translated.1, some error)

/-- Translate the peers; one must remain. -/
def translatePeers (peers : List PeerParams) : Except ProtocolError (List PeerInfo) :=
  let translated := peers.foldl K.translateStep ([], none)
  if translated.1.isEmpty then .error (translated.2.getD (.invalidPeer "" "the peer set is empty"))
  else .ok translated.1

/-- Whether some candidate has ports for the protocol. -/
def servesTranslated (peers : List PeerInfo) (protocol : Protocol) : Bool :=
  peers.any (·.serves protocol)

/-- The candidates that have ports for the transport, without the ports of the others. -/
def constrainTo (transport : Transport) (peers : List PeerInfo) : List PeerInfo :=
  (peers.map (PeerInfo.clearOthers transport)).filter fun info => !(info.ports transport).isEmpty

/-- No candidates are a refusal. -/
def unlessEmpty (protocol : Protocol) (constrained : List PeerInfo) :
    Except ProtocolError (List PeerInfo) :=
  if constrained.isEmpty then .error (.unavailable protocol) else .ok constrained

/-- A protocol other than Smart is the only one the engine sees. -/
def constrainTransports (peers : List PeerInfo) (protocol : Protocol) :
    Except ProtocolError (List PeerInfo) :=
  match protocol with
  | .smart => .ok peers
  | .wireGuardUdp => unlessEmpty protocol (constrainTo .udp peers)
  | .wireGuardTcp => unlessEmpty protocol (constrainTo .tcp peers)
  | .stealth => unlessEmpty protocol (constrainTo .tls peers)

/-- Decode the client's key. -/
def decodeClientKey (key : String) : Except ProtocolError (Vector UInt8 32) :=
  match K.decode key with
  | .error text => .error (.invalidKey ("client key is not base64: " ++ text))
  | .ok bytes =>
    match toArray32 bytes with
    | none => .error (.invalidKey "client key is not 32 bytes")
    | some key => .ok key

/-- The client's key, when the request has one. -/
def clientKey : Option String → Except ProtocolError (Option (Vector UInt8 32))
  | some key => (K.decodeClientKey key).map some
  | none => .ok none

/-- The mode the key and the policy give. -/
def connectionMode : Option (Vector UInt8 32) → KeyPolicy → Except ProtocolError ConnectionMode
  | some key, _ => .ok (.noLocalAgent (some key))
  | none, .fromCache => .ok (.noLocalAgent none)
  | none, .required => .error (.missingKey
      ("the client private key is required in agent-less mode (production LocalAgent mode takes it from the " ++
        "persistent cache)"))

/-- The engine's name of the strategy. -/
def sniStrategy : SniStrategy → EngineSniStrategy
  | .random => .random
  | .top => .top

/-- Translate the request under a key policy. -/
def translateWithPolicy (params : TunnelParams) (keyPolicy : KeyPolicy) :
    Except ProtocolError InitialConnectionConfig :=
  if !params.peers.isEmpty && !params.servesRequestedProtocol then
  .error (.unavailable params.protocol)
  else do
    let peers ← K.translatePeers params.peers
    -- a peer that was left out may have been the only one with the ports
    if !servesTranslated peers params.protocol then .error (.unavailable params.protocol)
    else do
      let peers ← constrainTransports peers params.protocol
      let wgPrivateKey ← K.clientKey params.clientPrivateKey
      let connectionMode ← connectionMode wgPrivateKey keyPolicy
      .ok { peers, networkAvailable := params.networkAvailable, pcapFile := none, connectionMode,
            sniStrategy := sniStrategy params.sniStrategy }

/-- Translate the request, which must have the client's key. -/
def translate (params : TunnelParams) : Except ProtocolError InitialConnectionConfig :=
  K.translateWithPolicy params .required

end KeyCodec

/-! ## The caller's id -/

/-- The text before and behind the last occurrence of a character. -/
def rsplitOnce (c : Char) (text : List Char) : Option (List Char × List Char) :=
  match text.reverse.dropWhile (· ≠ c) with
  | [] => none
  | _ :: stem => some (stem.reverse, (text.reverse.takeWhile (· ≠ c)).reverse)

/-- The id without the place of the candidate: a slash and digits at its end. -/
def stablePeerId (peerId : String) : String :=
  match rsplitOnce '/' peerId.toList with
  | some (stem, suffix) => if !suffix.isEmpty && suffix.all Char.isDigit then String.ofList stem
    else peerId
  | none => peerId

end ProtonWire.Translate
