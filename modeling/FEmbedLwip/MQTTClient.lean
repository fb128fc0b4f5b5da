/-
`MQTT::Client`, the client this repository has made of the Paho one: its
session, its message handlers, and the work it does on the wire. The build is
the one with `MQTTCLIENT_QOS1` and `MQTTCLIENT_QOS2`.

The template's parameters, and what else is called, are a `MQTTPlatform`: its
timers are values of `T`, and whatever it does may take time. `sendbuf` and
`pubbuf` hold the packet written last, without what is behind it.

`events` is history: the packets that were sent and received, with the state
outside at that time, those that did not arrive whole, the messages that `cycle`
delivered and the calls of handlers, and the sessions that were cleaned and closed.
Nothing reads it.
-/
import FEmbedLwip.MQTTPacket

namespace FEmbed

/-! ## Function pointers -/

inductive Method where
  | defaultHandler
  | messageHandler
  deriving DecidableEq, Repr

/-- A `FunctionCallback`, or a method of a `MessageCallback`. -/
inductive Callback where
  | function (f : Nat)
  | method (object : Nat) (m : Method)
  deriving DecidableEq, Repr

/-- The union in an `FP`, when it is not null. -/
inductive FPCode where
  | function (f : Nat)
  | method (m : Method)
  deriving DecidableEq, Repr

/-- `FP`: `c_callback` and `method_callback` share their place. -/
structure FP where
  objCallback : Option Nat := none
  code : Option FPCode := none
  deriving DecidableEq, Repr

namespace FP

/-- `attach(item, method)`. -/
def attachMethod (item : Nat) (m : Method) (_fp : FP) : FP := { objCallback := some item, code := some (.method m) }

/-- `attach(function)`: the object stays. -/
def attachFunction (f : Nat) (fp : FP) : FP := { fp with code := some (.function f) }

def attached (fp : FP) : Bool := fp.objCallback.isSome || fp.code.isSome

def detach (_fp : FP) : FP := {}

/-- What `operator()` calls, or does not (`some none`); `none` where one kind
of pointer is used as the other. -/
def target (fp : FP) : Option (Option Callback) :=
  match fp.code, fp.objCallback with
  | none, _ => some none
  | some (.method m), some object => some (some (.method object m))
  | some (.function f), none => some (some (.function f))
  | _, _ => none

end FP

/-! ## The client -/

structure MessageHandler where
  topicFilter : Option Bytes := none
  fp : FP := {}
  deriving DecidableEq, Repr

/-- `Message`: the payload is what of it is in the read buffer. -/
structure Message where
  qos : Nat
  retained : Bool
  dup : Bool
  id : Nat
  payload : Bytes
  payloadlen : Nat
  deriving DecidableEq, Repr

/-- What a client has recorded of its session. -/
structure SessionState where
  topicFilters : List (Option Bytes)
  inflightMsgid : Nat
  incomingQoS2messages : List Nat
  deriving DecidableEq, Repr

inductive MQTTEvent (σ : Type) where
  | sent (packet : Bytes) (env : σ)
  | received (packet : Bytes) (env : σ)
  /-- The rest of a packet did not come. -/
  | cutShort (env : σ)
  | delivered (topicName : MQTTLenString) (message : Message)
  | called (cb : Callback) (topicName : MQTTLenString) (message : Message)
  | cleaned
  /-- A session was closed, and left this behind. -/
  | closed (left : SessionState)

structure MQTTClient (σ T : Type) where
  sendbuf : Bytes
  readbuf : Bytes
  lastReceived : T
  keepAliveInterval : Nat
  pingOutstanding : Nat
  cleansession : Bool
  /-- `packetid.next`. -/
  packetid : Nat
  messageHandlers : List MessageHandler
  defaultMessageHandler : FP
  isconnected : Bool
  pubbuf : Bytes
  inflightLen : Int
  inflightMsgid : Nat
  inflightQoS : Nat
  pubrel : Bool
  incomingQoS2messages : List Nat
  events : List (MQTTEvent σ)

/-- What the client is made for and calls. A `read` gives its result and the
bytes it has stored. -/
structure MQTTPlatform (σ T : Type) where
  maxMqttPacketSize : Nat
  maxMessageHandlers : Nat
  maxIncomingQoS2Messages : Nat
  read : Nat → Int → σ → (Int × Bytes) × σ
  write : Bytes → Int → σ → Int × σ
  timer : σ → T × σ
  timerMs : Int → σ → T × σ
  countdown : Int → σ → T × σ
  countdownMs : Nat → σ → T × σ
  expired : T → σ → Bool × σ
  leftMs : T → σ → Int × σ
  malloc : Nat → σ → Bool × σ
  callback : Callback → MQTTLenString → Message → σ → σ
  /-- A variable that was not written. -/
  indeterminate : σ → Nat × σ

namespace MQTTClient

open Live

variable {σ T : Type} (p : MQTTPlatform σ T)

def success : Int := 0

def failure : Int := -1

def bufferOverflow : Int := -2

/-- One more event. -/
def happened (event : σ → MQTTEvent σ) : Prog (Live σ (MQTTClient σ T)) Unit := do
  let e ← Prog.gets (·.env)
  set fun c => { c with events := c.events ++ [event e] }

/-! ## The session -/

def cleanSession : Prog (Live σ (MQTTClient σ T)) Unit := do
  set fun c => { c with
    messageHandlers := c.messageHandlers.map fun h => { h with topicFilter := none }
    inflightMsgid := 0
    inflightQoS := 0
    pubrel := false
    incomingQoS2messages := c.incomingQoS2messages.map fun _ => 0 }
  happened fun _ => .cleaned

/-- What there is of the session. -/
def recorded (c : MQTTClient σ T) : SessionState where
  topicFilters := c.messageHandlers.map (·.topicFilter)
  inflightMsgid := c.inflightMsgid
  incomingQoS2messages := c.incomingQoS2messages

def closeSession : Prog (Live σ (MQTTClient σ T)) Unit := do
  let wasConnected := (← obj).isconnected
  set fun c => { c with pingOutstanding := 0, isconnected := false }
  if (← obj).cleansession then
    cleanSession
  if wasConnected then
    let left := (← obj).recorded
    happened fun _ => .closed left

/-- The constructor, on memory that holds anything. -/
def construct : Prog (Live σ (MQTTClient σ T)) Unit := do
  let t ← call p.timer
  set fun c => { c with
    lastReceived := t
    packetid := 0
    messageHandlers := List.replicate p.maxMessageHandlers {}
    defaultMessageHandler := {}
    cleansession := true
    incomingQoS2messages := List.replicate p.maxIncomingQoS2Messages 0 }
  closeSession

/-- `packetid.getNext()`. -/
def getNext : Prog (Live σ (MQTTClient σ T)) Nat := do
  set fun c => { c with packetid := if c.packetid = 65535 then 1 else c.packetid + 1 }
  return (← obj).packetid

def isQoS2msgidFree (id : Nat) (c : MQTTClient σ T) : Bool := !c.incomingQoS2messages.contains id

/-- The first place that holds `old` gets `new`. -/
def replaceFirst (old new : Nat) : List Nat → Option (List Nat)
  | [] => none
  | id :: rest => if id = old then some (new :: rest) else (replaceFirst old new rest).map (id :: ·)

def useQoS2msgid (id : Nat) : Prog (Live σ (MQTTClient σ T)) Bool := do
  match replaceFirst 0 id (← obj).incomingQoS2messages with
  | some ids =>
    set fun c => { c with incomingQoS2messages := ids }
    return true
  | none => return false

def freeQoS2msgid (id : Nat) : Prog (Live σ (MQTTClient σ T)) Unit :=
  set fun c => { c with incomingQoS2messages := (replaceFirst id 0 c.incomingQoS2messages).getD c.incomingQoS2messages }

/-! ## Message handlers -/

/-- `setDefaultMessageHandler(MessageCallback *)`. -/
def setDefaultMessageHandler (mh : Option Nat) : Prog (Live σ (MQTTClient σ T)) Unit :=
  set fun c => { c with defaultMessageHandler :=
    match mh with
    | some object => c.defaultMessageHandler.attachMethod object .defaultHandler
    | none => c.defaultMessageHandler.detach }

/-- `setDefaultMessageHandler(FunctionCallback)`. -/
def setDefaultFunction (mh : Option Nat) : Prog (Live σ (MQTTClient σ T)) Unit :=
  set fun c => { c with defaultMessageHandler :=
    match mh with
    | some f => c.defaultMessageHandler.attachFunction f
    | none => c.defaultMessageHandler.detach }

/-- The slot with a topic filter, or an empty one for `none`. -/
def slotOf (topicFilter : Option Bytes) (hs : List MessageHandler) : Option Nat :=
  hs.findIdx? (·.topicFilter == topicFilter)

/-- What both `setMessageHandler` do; `attach` is none for a null callback. The
copy of the topic filter goes where `malloc` says, which may be nowhere. -/
def setHandler (topicFilter : Bytes) (attach : Option (FP → FP)) : Prog (Live σ (MQTTClient σ T)) Int := do
  let hs := (← obj).messageHandlers
  let existing := slotOf (some topicFilter) hs
  match attach with
  | none =>
    match existing with
    | some i =>
      set fun c => { c with messageHandlers := hs.modify i fun h => { topicFilter := none, fp := h.fp.detach } }
      return success
    | none => return failure
  | some attach =>
    match existing.or (slotOf none hs) with
    | some i =>
      if ¬ (← call (p.malloc (topicFilter.length + 1))) then
        Prog.undefined
      else
        set fun c => { c with messageHandlers := hs.modify i fun h => { topicFilter := some topicFilter, fp := attach h.fp } }
        return success
    | none => return failure

/-- `setMessageHandler(topicFilter, MessageCallback *)`. -/
def setMessageHandler (topicFilter : Bytes) (callback : Option Nat) : Prog (Live σ (MQTTClient σ T)) Int :=
  setHandler p topicFilter (callback.map fun object => FP.attachMethod object .messageHandler)

/-- `setMessageHandler(topicFilter, FunctionCallback)`. -/
def setMessageFunction (topicFilter : Bytes) (funcCb : Option Nat) : Prog (Live σ (MQTTClient σ T)) Int :=
  setHandler p topicFilter (funcCb.map FP.attachFunction)

/-- The loop of `isTopicMatched` and its result: what is left of the filter
and of the name. -/
def topicLoop : Bytes → Bytes → Bool
  | [], n => n.isEmpty
  | _ :: _, [] => false
  | c :: f, b :: n =>
    if b = 47 ∧ c ≠ 47 then false
    else if c ≠ 43 ∧ c ≠ 35 ∧ c ≠ b then false
    else if c = 43 then topicLoop f (n.dropWhile (· != 47))
    else if c = 35 then topicLoop f []
    else topicLoop f n

/-- `isTopicMatched`; `none` is a read through the null pointer. -/
def isTopicMatched (topicFilter : Bytes) (topicName : MQTTLenString) : Option Bool :=
  match topicName.data with
  | some data => some (topicLoop topicFilter data)
  | none => if topicFilter = [] ∨ topicName.len = 0 then some (topicFilter = [] ∧ topicName.len = 0) else none

/-- The test of `deliverMessage`. -/
def topicMatches (topicFilter : Bytes) (topicName : MQTTLenString) : Option Bool :=
  match MQTTPacket.equals topicName topicFilter with
  | some true => some true
  | some false => isTopicMatched topicFilter topicName
  | none => none

/-- `fp(md)`. -/
def callHandler (fp : FP) (topicName : MQTTLenString) (message : Message) : Prog (Live σ (MQTTClient σ T)) Unit := do
  match fp.target with
  | none => Prog.undefined
  | some none => return ()
  | some (some cb) =>
    happened fun _ => .called cb topicName message
    tell (p.callback cb topicName message)

/-- The loop of `deliverMessage`: whether a handler was called. -/
def deliverLoop (topicName : MQTTLenString) (message : Message) :
    List MessageHandler → Bool → Prog (Live σ (MQTTClient σ T)) Bool
  | [], found => return found
  | h :: hs, found => do
    match h.topicFilter with
    | none => deliverLoop topicName message hs found
    | some topicFilter =>
      match topicMatches topicFilter topicName with
      | none => Prog.undefined
      | some hit =>
        if hit ∧ h.fp.attached then
          callHandler p h.fp topicName message
          deliverLoop topicName message hs true
        else deliverLoop topicName message hs found

def deliverMessage (topicName : MQTTLenString) (message : Message) : Prog (Live σ (MQTTClient σ T)) Int := do
  let found ← deliverLoop p topicName message (← obj).messageHandlers false
  let c ← obj
  if found then
    return success
  else if c.defaultMessageHandler.attached then
    callHandler p c.defaultMessageHandler topicName message
    return success
  else return failure

/-- `deliverMessage`, as `cycle` calls it. -/
def deliver (topicName : MQTTLenString) (message : Message) : Prog (Live σ (MQTTClient σ T)) Unit := do
  happened fun _ => .delivered topicName message
  let _ ← deliverMessage p topicName message

/-! ## The wire -/

/-- `sendPacket`, of the packet in the buffer. -/
def sendPacket (timer : T) : Prog (Live σ (MQTTClient σ T)) Int := do
  let packet := (← obj).sendbuf
  let sent ← Prog.loop (fun (sent : Int) => do
    if ¬ sent < (packet.length : Int) then
      return .exit sent
    if ← call (p.expired timer) then
      return .exit sent
    let left ← call (p.leftMs timer)
    let rc ← call (p.write (packet.drop sent.toNat) left)
    if rc < 0 then
      return .exit sent
    return .next (sent + rc)) (0 : Int)
  if sent = packet.length then
    happened fun e => .sent packet e
    return success
  else return failure

/-- Send a packet that was serialized, or an error. -/
def sendSerialized (packet : Except Int Bytes) (timer : T) : Prog (Live σ (MQTTClient σ T)) (Except Int Int) := do
  match packet with
  | .error len => return .error len
  | .ok bs =>
    set fun c => { c with sendbuf := bs }
    return .ok (← sendPacket p timer)

/-- `decodePacket`: the value. -/
def decodePacket (timeout : Int) : Prog (Live σ (MQTTClient σ T)) Nat :=
  go 4 1 0
where
  go : Nat → Nat → Nat → Prog (Live σ (MQTTClient σ T)) Nat
    | 0, _, value => return value
    | k + 1, multiplier, value => do
      let (rc, bs) ← call (p.read 1 timeout)
      if rc ≠ 1 then
        return value
      let c := bs.headD 0
      let value := value + c.toNat % 128 * multiplier
      if c.toNat / 128 = 0 then
        return value
      go k (multiplier * 128) value

/-- Bytes that were stored in the read buffer. -/
def store (i : Nat) (bs : Bytes) : Prog (Live σ (MQTTClient σ T)) Unit := do
  match poke (← obj).readbuf i bs with
  | none => Prog.undefined
  | some buf => set fun c => { c with readbuf := buf }

/-- How long a received packet counts. -/
def receiveSeconds (keepAliveInterval : Nat) : Nat := if keepAliveInterval / 2 > 60 then 60 else keepAliveInterval / 2

/-- `readPacket`, once the whole packet is in the buffer. -/
def packetRead (len : Nat) : Prog (Live σ (MQTTClient σ T)) Int := do
  let c ← obj
  if c.keepAliveInterval > 0 then
    let t ← call (p.countdown (receiveSeconds c.keepAliveInterval))
    set fun c => { c with lastReceived := t }
  happened fun e => .received (c.readbuf.take len) e
  return MQTTPacket.headerType (c.readbuf.headD 0)

def readPacket (timer : T) : Prog (Live σ (MQTTClient σ T)) Int := do
  let (rc, bs) ← call (p.read 1 (← call (p.leftMs timer)))
  store 0 bs
  if rc ≠ 1 then
    return rc
  let remLen ← decodePacket p (← call (p.leftMs timer))
  store 1 (MQTTPacket.encode remLen)
  let len := 1 + (MQTTPacket.encode remLen).length
  if (remLen : Int) > p.maxMqttPacketSize - len then
    return bufferOverflow
  if remLen > 0 then
    let (rc', bs) ← call (p.read remLen (← call (p.leftMs timer)))
    store len bs
    if rc' ≠ remLen then
      happened .cutShort
      -- `rc` is still the 1 of the header byte.
      return rc
    packetRead p (len + remLen)
  else packetRead p len

def keepalive : Prog (Live σ (MQTTClient σ T)) Int := do
  let c ← obj
  if c.keepAliveInterval = 0 then
    return success
  if ← call (p.expired c.lastReceived) then
    if c.pingOutstanding > 5 then
      return failure
    let timer ← call (p.timerMs 1000)
    match ← sendSerialized p (MQTTPacket.serializePingreq p.maxMqttPacketSize) timer with
    | .error _ => return success
    | .ok rc =>
      if rc = success then
        let t ← call (p.countdown 15)
        set fun c => { c with lastReceived := t, pingOutstanding := c.pingOutstanding + 1 }
      return rc
  return success

/-! ## `cycle` -/

/-- How a case of the `switch` ends: on to `keepalive`, or to `exit` with `rc`. -/
abbrev CycleExit := Except Int Unit

/-- A variable that was written, or not. -/
def orIndeterminate (written : Option Nat) : Prog (Live σ (MQTTClient σ T)) Nat :=
  match written with
  | some n => return n
  | none => call p.indeterminate

/-- The message in a PUBLISH. -/
def toMessage (pub : MQTTPacket.Publish) (readbuf : Bytes) : Prog (Live σ (MQTTClient σ T)) Message := do
  let id ← orIndeterminate p pub.packetid
  return {
    qos := pub.qos
    retained := pub.retained
    dup := pub.dup
    id := id
    payload := match pub.payload with
      | some i => (readbuf.drop i).take (sizeT pub.payloadlen)
      | none => []
    payloadlen := sizeT pub.payloadlen }

/-- The answer to a PUBLISH with a QoS. -/
def acknowledge (msg : Message) (sendTimer : T) : Prog (Live σ (MQTTClient σ T)) CycleExit := do
  let packet : Except Int Bytes :=
    if msg.qos = 1 then MQTTPacket.serializeAck p.maxMqttPacketSize .puback false msg.id
    else if msg.qos = 2 then MQTTPacket.serializeAck p.maxMqttPacketSize .pubrec false msg.id
    else .error 0
  match ← sendSerialized p packet sendTimer with
  | .error _ => return .error failure
  | .ok rc => return if rc = failure then .error failure else .ok ()

/-- `case PUBLISH`. -/
def cyclePublish (sendTimer : T) : Prog (Live σ (MQTTClient σ T)) CycleExit := do
  let c ← obj
  match MQTTPacket.deserializePublish c.readbuf with
  | none => Prog.undefined
  | some pub =>
    if pub.rc ≠ 1 then
      return .error success
    let msg ← toMessage p pub c.readbuf
    if msg.qos ≠ 2 then
      deliver p pub.topicName msg
    else if isQoS2msgidFree msg.id c then
      if ← useQoS2msgid msg.id then
        deliver p pub.topicName msg
    if msg.qos ≠ 0 then
      acknowledge p msg sendTimer
    else return .ok ()

/-- `case PUBREC` and `case PUBREL`. -/
def cycleRelease (packetType : MsgType) (sendTimer : T) : Prog (Live σ (MQTTClient σ T)) CycleExit := do
  match MQTTPacket.deserializeAck (← obj).readbuf with
  | none => Prog.undefined
  | some ack =>
    let mypacketid ← orIndeterminate p ack.packetid
    if ack.rc ≠ 1 then
      return .error failure
    let answer : MsgType := if packetType = .pubrec then .pubrel else .pubcomp
    match ← sendSerialized p (MQTTPacket.serializeAck p.maxMqttPacketSize answer false mypacketid) sendTimer with
    | .error _ => return .error failure
    | .ok rc =>
      if rc ≠ success then
        return .error failure
      if packetType = .pubrel then
        freeQoS2msgid mypacketid
      return .ok ()

/-- The `switch` on the packet's type. -/
def cycleSwitch (packetType : Int) (sendTimer : T) : Prog (Live σ (MQTTClient σ T)) CycleExit := do
  if packetType = 0 ∨ packetType = MsgType.connack.code ∨ packetType = MsgType.puback.code ∨
      packetType = MsgType.suback.code ∨ packetType = MsgType.pubcomp.code then
    return .ok ()
  else if packetType = MsgType.publish.code then
    cyclePublish p sendTimer
  else if packetType = MsgType.pubrec.code then
    cycleRelease p .pubrec sendTimer
  else if packetType = MsgType.pubrel.code then
    cycleRelease p .pubrel sendTimer
  else if packetType = MsgType.pingresp.code then
    set fun c => { c with pingOutstanding := 0 }
    return .ok ()
  else return .error packetType

/-- `cycle`, from its label `exit`. -/
def cycleExit (packetType rc : Int) : Prog (Live σ (MQTTClient σ T)) Int := do
  if rc = success then
    return packetType
  if (← obj).isconnected then
    closeSession
  return rc

def cycle (timer : T) : Prog (Live σ (MQTTClient σ T)) Int := do
  let sendTimer ← call p.timer
  let packetType ← readPacket p timer
  match ← cycleSwitch p packetType sendTimer with
  | .error rc => cycleExit packetType rc
  | .ok () =>
    let rc ← keepalive p
    cycleExit packetType (if rc = success then success else failure)

/-! ## Operations -/

def yield_ (timeoutMs : Nat) : Prog (Live σ (MQTTClient σ T)) Int := do
  let timer ← call (p.countdownMs timeoutMs)
  Prog.loop (fun _ => do
    if ← call (p.expired timer) then
      return .exit success
    if (← cycle p timer) < 0 then
      return .exit failure
    return .next ()) ()

def waitfor (packetType : MsgType) (timer : T) : Prog (Live σ (MQTTClient σ T)) Int :=
  Prog.loop (fun rc => do
    if ← call (p.expired timer) then
      return .exit rc
    let rc ← cycle p timer
    if rc ≠ packetType.code ∧ rc ≥ 0 then
      return .next rc
    return .exit rc) failure

def unsubscribe (topicFilter : Bytes) : Prog (Live σ (MQTTClient σ T)) Int := do
  let timer ← call p.timer
  if ¬ (← obj).isconnected then
    return failure
  let id ← getNext
  match ← sendSerialized p (MQTTPacket.serializeUnsubscribe p.maxMqttPacketSize false id topicFilter) timer with
  | .error _ => return failure
  | .ok rc =>
    if rc ≠ success then
      return rc
    if (← waitfor p .unsuback timer) = MsgType.unsuback.code then
      match MQTTPacket.deserializeUnsuback (← obj).readbuf with
      | none => Prog.undefined
      | some ack =>
        if ack.rc = 1 then
          let _ ← setMessageFunction p topicFilter none
        return rc
    else return failure

def disconnect : Prog (Live σ (MQTTClient σ T)) Int := do
  let timer ← call p.timer
  let rc ← match ← sendSerialized p (MQTTPacket.serializeDisconnect p.maxMqttPacketSize) timer with
    | .error _ => pure failure
    | .ok rc => pure rc
  closeSession
  return rc

end MQTTClient

end FEmbed
