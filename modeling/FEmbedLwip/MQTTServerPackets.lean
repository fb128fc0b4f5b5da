/-
`MQTTPacket`, the side of a server: what it writes, and how it reads what a
client has written. Packets with several topic filters are here, too.

The arrays that a deserializer fills have `maxcount` members. It does not look
at that number, so a member behind the last is `none`. As in `MQTTPacket`, one
that gives up returns what it has counted of the remaining length, which may
be 1. A field is read out of bounds (`none`), or not there (`some none`).
-/
import FEmbedLwip.MQTTPacketFacts

namespace FEmbed

namespace MQTTPacket

/-! ## Serializers -/

/-- `MQTTSerialize_subscribeLength`. -/
def subscribeLength (topicFilters : List MQTTString) : Nat :=
  topicFilters.foldl (fun len topicFilter => len + (2 + strlen topicFilter + 1)) 2

/-- `MQTTSerialize_unsubscribeLength`. -/
def unsubscribeLength (topicFilters : List MQTTString) : Nat :=
  topicFilters.foldl (fun len topicFilter => len + (2 + strlen topicFilter)) 2

/-- A topic filter with the QoS that is asked for. -/
def writeSubscription (topicFilter : MQTTString) (requestedQoS : Int) : Option Bytes :=
  (writeMQTTString topicFilter).map (· ++ [UInt8.ofInt requestedQoS])

/-- The members of a packet, one after the other. -/
def writeMembers {β : Type} (member : β → Option Bytes) : List β → Option Bytes
  | [] => some []
  | b :: bs => do
    let first ← member b
    return first ++ (← writeMembers member bs)

/-- `MQTTSerialize_subscribe`. -/
def serializeSubscriptions (buflen : Nat) (dup : Bool) (packetid : Nat) (subscriptions : List (MQTTString × Int)) :
    Option (Except Int Bytes) :=
  let remLen := subscribeLength (subscriptions.map (·.1))
  if len remLen > buflen then some (.error bufferTooShort)
  else do
    let members ← writeMembers (fun x => writeSubscription x.1 x.2) subscriptions
    return .ok (header .subscribe dup 1 false :: encode remLen ++ writeInt packetid ++ members)

/-- `MQTTSerialize_unsubscribe`. -/
def serializeUnsubscriptions (buflen : Nat) (dup : Bool) (packetid : Nat) (topicFilters : List MQTTString) :
    Option (Except Int Bytes) :=
  let remLen := unsubscribeLength topicFilters
  if len remLen > buflen then some (.error bufferTooShort)
  else do
    let members ← writeMembers writeMQTTString topicFilters
    return .ok (header .unsubscribe dup 1 false :: encode remLen ++ writeInt packetid ++ members)

/-- `MQTTSerialize_connack`: room is looked for as if the two bytes of the
header were all. -/
def serializeConnack (buflen : Nat) (connackRc : Nat) (sessionPresent : Bool) : Except Int Bytes :=
  if buflen < 2 then .error bufferTooShort
  else .ok (header .connack false 0 false :: encode 2 ++ [if sessionPresent then 1 else 0, UInt8.ofNat connackRc])

/-- `MQTTSerialize_suback`: the two bytes of the header are not counted. -/
def serializeSuback (buflen packetid : Nat) (grantedQoSs : List Int) : Except Int Bytes :=
  if buflen < 2 + grantedQoSs.length then .error bufferTooShort
  else .ok (header .suback false 0 false :: encode (2 + grantedQoSs.length) ++ writeInt packetid ++ grantedQoSs.map UInt8.ofInt)

/-- `MQTTSerialize_unsuback`, which looks for room as `serializeConnack` does. -/
def serializeUnsuback (buflen packetid : Nat) : Except Int Bytes :=
  if buflen < 2 then .error bufferTooShort
  else .ok (header .unsuback false 0 false :: encode 2 ++ writeInt packetid)

/-! ## Deserializers -/

/-- A string, and the index after it. -/
def stringField (buf : Bytes) (cur end_ : Nat) : Option (Option (MQTTString × Nat)) := do
  let (s, cur, fits) ← readMQTTLenString buf cur end_
  return if fits then some ({ lenstring := s }, cur) else none

/-- `MQTTPacket_checkVersion`: no more of the name is compared than there is. -/
def checkVersion (protocol : Bytes) (version : Nat) : Bool :=
  (version = 3 ∧ protocol.take 6 = [77, 81, 73, 115, 100, 112].take protocol.length) ∨
    (version = 4 ∧ protocol.take 4 = [77, 81, 84, 84].take protocol.length)

/-- A bit of the flags of a CONNECT. -/
def flagBit (flags : UInt8) (bit : Nat) : Bool := flags.toNat / 2 ^ bit % 2 = 1

/-- The will of a CONNECT. -/
def connectWill (flags : UInt8) (data : ConnectData) (buf : Bytes) (cur end_ : Nat) : Option (Option (ConnectData × Nat)) := do
  let data := { data with willFlag := flagBit flags 2 }
  if ¬ flagBit flags 2 then
    return some (data, cur)
  match ← stringField buf cur end_ with
  | none => return none
  | some (topicName, cur) =>
    match ← stringField buf cur end_ with
    | none => return none
    | some (message, cur) =>
      return some ({ data with will := {
        topicName := topicName
        message := message
        retained := flagBit flags 5
        qos := flags.toNat / 8 % 4 } }, cur)

/-- A user name or a password: three bytes at least are wanted. -/
def credential (buf : Bytes) (cur end_ : Nat) : Option (Option (MQTTString × Nat)) :=
  if end_ < cur + 3 then some none else stringField buf cur end_

/-- The user name and the password of a CONNECT. -/
def connectCredentials (flags : UInt8) (data : ConnectData) (buf : Bytes) (cur end_ : Nat) : Option (Option ConnectData) := do
  if flagBit flags 7 then
    match ← credential buf cur end_ with
    | none => return none
    | some (username, cur) =>
      if flagBit flags 6 then
        match ← credential buf cur end_ with
        | none => return none
        | some (password, _) => return some { data with username := username, password := password }
      else return some { data with username := username }
  else return if flagBit flags 6 then none else some data

/-- `MQTTDeserialize_connect`, of a buffer with `length` bytes of data: the data
after it has returned 1. It does not write the version. -/
def deserializeConnect (data : ConnectData) (buf : Bytes) (length : Nat) : Option (Option ConnectData) := do
  if headerType (← buf[0]?) ≠ MsgType.connect.code then
    return none
  let (n, _) ← decodeBuf buf.tail
  match ← stringField buf (1 + n) length with
  | none => return none
  | some (protocol, cur) =>
    if ¬ checkVersion (protocol.lenstring.data.getD []) (← buf[cur]?).toNat then
      return none
    let flags ← buf[cur + 1]?
    let keepAliveInterval ← readInt buf (cur + 2)
    match ← stringField buf (cur + 4) length with
    | none => return none
    | some (clientID, cur) =>
      let data := { data with
        cleansession := flagBit flags 1
        keepAliveInterval := keepAliveInterval
        clientID := clientID }
      match ← connectWill flags data buf cur length with
      | none => return none
      | some (data, cur) => connectCredentials flags data buf cur length

/-- The loop of the two deserializers below, with `room` for so many members
more: whether it got to the end, and the members. Every member has a byte. -/
def readMembers {β : Type} (member : Nat → Option (Option (β × Nat))) (end_ : Nat) : Nat → Nat → Nat → Option (Bool × List β)
  | 0, _, _ => some (true, [])
  | fuel + 1, room, cur =>
    if cur < end_ then
      match room with
      | 0 => none
      | room + 1 => do
        match ← member cur with
        | none => return (false, [])
        | some (b, cur) =>
          let (whole, bs) ← readMembers member end_ fuel room cur
          return (whole, b :: bs)
    else some (true, [])

/-- What `MQTTDeserialize_subscribe` and `MQTTDeserialize_unsubscribe` return,
the flag and the packet identifier where they were written, and the members. -/
structure Members (β : Type) where
  rc : Int
  dup : Bool := false
  packetid : Option Nat := none
  members : List β := []
  deriving DecidableEq, Repr

/-- What they share; a packet of another type is `wrongType`. -/
def deserializeMembers {β : Type} (type : MsgType) (wrongType : Int) (member : Bytes → Nat → Nat → Option (Option (β × Nat)))
    (maxcount : Nat) (buf : Bytes) : Option (Members β) := do
  let b ← buf[0]?
  if headerType b ≠ type.code then
    return { rc := wrongType }
  let (n, mylen) ← decodeBuf buf.tail
  let end_ := 1 + n + mylen
  let packetid ← readInt buf (1 + n)
  let (whole, members) ← readMembers (fun cur => member buf cur end_) end_ end_ maxcount (1 + n + 2)
  return { rc := if whole then 1 else n, dup := headerDup b, packetid := some packetid, members := members }

/-- A topic filter with the QoS that is asked for, and the index after it. -/
def subscriptionField (charSigned : Bool) (buf : Bytes) (cur end_ : Nat) : Option (Option ((MQTTString × Int) × Nat)) := do
  match ← stringField buf cur end_ with
  | none => return none
  | some (topicFilter, cur) =>
    if cur ≥ end_ then
      return none
    return some ((topicFilter, charValue charSigned (← buf[cur]?)), cur + 1)

/-- `MQTTDeserialize_subscribe`. -/
def deserializeSubscribe (charSigned : Bool) (maxcount : Nat) (buf : Bytes) : Option (Members (MQTTString × Int)) :=
  deserializeMembers .subscribe (-1) (subscriptionField charSigned) maxcount buf

/-- `MQTTDeserialize_unsubscribe`. -/
def deserializeUnsubscribe (maxcount : Nat) (buf : Bytes) : Option (Members MQTTString) :=
  deserializeMembers .unsubscribe 0 stringField maxcount buf

end MQTTPacket

end FEmbed
