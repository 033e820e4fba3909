import SshClientWasm.Library.Cutter

/-!
# Messages of the secure tunnel

Field values are those of the three generated message classes. A message that
is being sent is the object handed to `messageClass.create`, whose properties
may be absent; a received message is read through the class prototype, which
supplies a default for every absent field of its schema. The generated encoder
and decoder are a parameter of the model.
-/
namespace SshClientWasm.Tunnel

open Library

namespace TunnelMessageType

def unknown : Int32 := 0
def data : Int32 := 1
def streamStart : Int32 := 2
def streamReset : Int32 := 3
def sessionReset : Int32 := 4
def serviceIds : Int32 := 5
def connectionStart : Int32 := 6
def connectionReset : Int32 := 7

end TunnelMessageType

inductive ClientMode
  | source
  | destination
  deriving DecidableEq, Repr

inductive ProtocolVersion
  | v1
  | v2
  | v3
  deriving DecidableEq, Repr

/-- `SecureTunnelConfig`; an absent `protocol` stands for V2. -/
structure SecureTunnelConfig where
  region : String
  accessToken : String
  clientMode : ClientMode
  serviceId : Option String
  protocol : Option ProtocolVersion
  deriving DecidableEq, Repr

namespace SecureTunnelConfig

def version (c : SecureTunnelConfig) : ProtocolVersion := c.protocol.getD .v2

/-- The service id where the source tests it for truth: absent or nonempty. -/
def truthyServiceId (c : SecureTunnelConfig) : Option String :=
  c.serviceId.filter (· ≠ "")

end SecureTunnelConfig

/-- The properties of an outgoing message object; `none` is an absent one. -/
structure MessageFields where
  type : Int32
  streamId : Option Int32 := none
  ignorable : Option Bool := none
  payload : Option Bytes := none
  serviceId : Option String := none
  availableServiceIds : List String := []
  connectionId : Option UInt32 := none
  deriving DecidableEq, Repr

/-- A decoded message, read through the prototype of its class. The fields that
a version's schema lacks are left at their defaults. -/
structure TunnelMessage where
  type : Int32
  streamId : Int32
  ignorable : Bool
  payload : Bytes
  serviceId : String
  availableServiceIds : List String
  connectionId : UInt32
  deriving DecidableEq, Repr

/-- The message a version's class holds after `create`: the schema of V1 has
neither service ids nor a connection id, that of V2 no connection id. -/
def MessageFields.read (m : MessageFields) (v : ProtocolVersion) : TunnelMessage where
  type := m.type
  streamId := m.streamId.getD 0
  ignorable := m.ignorable.getD false
  payload := m.payload.getD []
  serviceId := if v = .v1 then "" else m.serviceId.getD ""
  availableServiceIds := if v = .v1 then [] else m.availableServiceIds
  connectionId := if v = .v3 then m.connectionId.getD 0 else 0

/-- A generated message class: `encode(create(..)).finish()` and `decode`, which
throws on bytes it cannot read. -/
structure Codec where
  encode : MessageFields → Bytes
  decode : Bytes → Except String TunnelMessage

/-- Decoding the encoding of a message that fits a frame returns its fields. -/
def Codec.RoundTrips (c : Codec) (v : ProtocolVersion) : Prop :=
  ∀ m : MessageFields, (c.encode m).length ≤ 65535 → c.decode (c.encode m) = .ok (m.read v)

end SshClientWasm.Tunnel
