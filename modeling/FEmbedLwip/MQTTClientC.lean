/-
The client of `MQTTClient-C`, on any `Network` and any timers.

Its calls and the turns of its task (`MQTTRun`) are serialized by its mutex, so a
run is a sequence of them. What is outside is a `MQTTPlatformC`; a callback does
not call the client.

`events` is history, and nothing reads it: when a CONNECT was due, the bytes
the network took and the writes that failed, the packets that came whole, with
the read buffer as they left it, and the messages with the handlers that were
called.
-/
import FEmbedLwip.MQTTSession
import FEmbedLwip.MQTTPacketReader

namespace FEmbed

/-- One of `messageHandlers`. -/
structure MessageHandlerC where
  topicFilter : Option Bytes := none
  fp : Option Nat := none
  deriving DecidableEq, Repr

inductive MQTTEventC where
  | connecting
  | took (bs : Bytes)
  /-- A write failed; it does not say what it took. -/
  | broken
  | received (readbuf : Bytes)
  | delivered (topicName : MQTTLenString) (message : Message) (called : List Nat)
  /-- A handler was set, or taken away. -/
  | handler (topicFilter : Bytes) (fp : Option Nat)
  | defaultHandler (fp : Option Nat)
  | cleaned
  deriving DecidableEq, Repr

/-- `MQTTClient`. -/
structure MQTTClientC (T : Type) where
  nextPacketid : Nat
  commandTimeoutMs : Nat
  buf : Bytes
  readbuf : Bytes
  keepAliveInterval : Nat
  pingOutstanding : Bool
  isconnected : Bool
  cleansession : Bool
  messageHandlers : List MessageHandlerC
  defaultMessageHandler : Option Nat
  lastSent : T
  lastReceived : T
  events : List MQTTEventC
  deriving DecidableEq, Repr

/-- What the client is made for and calls. -/
structure MQTTPlatformC (σ T : Type) where
  mqttread : Nat → Int → σ → (Int × Bytes) × σ
  mqttwrite : Bytes → Int → σ → Int × σ
  timerInit : σ → T × σ
  timerCountdown : Nat → σ → T × σ
  timerCountdownMS : Nat → σ → T × σ
  timerIsExpired : T → σ → Bool × σ
  timerLeftMS : T → σ → Int × σ
  fp : Nat → MQTTLenString → Message → σ → σ
  /-- A variable that was not written. -/
  indeterminate : σ → Nat × σ

namespace MQTTClientC

open Live
open MQTTClient (success failure bufferOverflow CycleExit topicMatches ConnackData)

variable {σ T : Type} (p : MQTTPlatformC σ T)

/-- One more event. -/
def happened (event : MQTTEventC) : Prog (Live σ (MQTTClientC T)) Unit :=
  set fun c => { c with events := c.events ++ [event] }

def getNextPacketId : Prog (Live σ (MQTTClientC T)) Nat := do
  set fun c => { c with nextPacketid := if c.nextPacketid = 65535 then 1 else c.nextPacketid + 1 }
  return (← obj).nextPacketid

/-! ## The wire -/

/-- One `mqttwrite`: `length` bytes are offered, wherever in the buffer the first is. -/
def offer (sent length : Nat) (timeout : Int) : Prog (Live σ (MQTTClientC T)) Int := do
  let c ← obj
  if c.buf.length < sent + length then
    Prog.undefined
  else
    let bs := (c.buf.drop sent).take length
    let rc ← call (p.mqttwrite bs timeout)
    if rc ≥ 0 then
      happened (.took (bs.take rc.toNat))
    else happened .broken
    return rc

def sendPacket (length : Nat) (timer : T) : Prog (Live σ (MQTTClientC T)) Int := do
  let sent ← Prog.loop (fun (sent : Int) => do
    if ¬ sent < (length : Int) then
      return .exit sent
    if ← call (p.timerIsExpired timer) then
      return .exit sent
    let left ← call (p.timerLeftMS timer)
    let rc ← offer p sent.toNat length left
    if rc < 0 then
      return .exit sent
    return .next (sent + rc)) (0 : Int)
  if sent = length then
    let t ← call (p.timerCountdown (← obj).keepAliveInterval)
    set fun c => { c with lastSent := t }
    return success
  else return failure

/-- Send a packet that was serialized to `buf`, or an error. -/
def sendSerialized (packet : Except Int Bytes) (timer : T) : Prog (Live σ (MQTTClientC T)) (Except Int Int) := do
  match packet with
  | .error len => return .error len
  | .ok bs =>
    match poke (← obj).buf 0 bs with
    | none => Prog.undefined
    | some buf =>
      set fun c => { c with buf := buf }
      return .ok (← sendPacket p bs.length timer)

/-- Bytes that were stored in the read buffer. -/
def store (i : Nat) (bs : Bytes) : Prog (Live σ (MQTTClientC T)) Unit := do
  match poke (← obj).readbuf i bs with
  | none => Prog.undefined
  | some readbuf => set fun c => { c with readbuf := readbuf }

/-- `readPacket`, once the whole packet is in the buffer. -/
def packetRead : Prog (Live σ (MQTTClientC T)) Int := do
  let c ← obj
  if c.keepAliveInterval > 0 then
    let t ← call (p.timerCountdown c.keepAliveInterval)
    set fun c => { c with lastReceived := t }
  happened (.received c.readbuf)
  return MQTTPacket.headerType (c.readbuf.headD 0)

/-- The reader of the client's packets. -/
def reader (timer : T) : PacketReader (Live σ (MQTTClientC T)) Int where
  timerLeftMS := call (p.timerLeftMS timer)
  mqttread i n timeout := do
    let (rc, bs) ← call (p.mqttread n timeout)
    store i bs
    return rc
  mqttreadByte timeout := do
    let (rc, bs) ← call (p.mqttread 1 timeout)
    return (rc, bs.headD 0)
  store := store
  readbufSize := Prog.gets (·.self.readbuf.length)
  packetRead := packetRead p

def readPacket (timer : T) : Prog (Live σ (MQTTClientC T)) Int := (reader p timer).readPacket

/-! ## Message handlers -/

/-- The handlers that the loop of `deliverMessage` calls; `none` is a read
through the null pointer. -/
def matching (topicName : MQTTLenString) : List MessageHandlerC → Option (List Nat)
  | [] => some []
  | h :: hs => do
    let rest ← matching topicName hs
    match h.topicFilter with
    | none => return rest
    | some topicFilter =>
      if ← topicMatches topicFilter topicName then
        return h.fp.toList ++ rest
      else return rest

/-- The handlers that `deliverMessage` calls: they, or the default handler. -/
def addressees (topicName : MQTTLenString) (c : MQTTClientC T) : Option (List Nat) := do
  let called ← matching topicName c.messageHandlers
  return if called = [] then c.defaultMessageHandler.toList else called

/-- Handlers are called, one after the other. -/
def callAll (topicName : MQTTLenString) (message : Message) : List Nat → Prog (Live σ (MQTTClientC T)) Unit
  | [] => return ()
  | f :: fs => do
    tell (p.fp f topicName message)
    callAll topicName message fs

def deliverMessage (topicName : MQTTLenString) (message : Message) : Prog (Live σ (MQTTClientC T)) Int := do
  match addressees topicName (← obj) with
  | none => Prog.undefined
  | some called =>
    happened (.delivered topicName message called)
    callAll p topicName message called
    return if called = [] then failure else success

/-- `MQTTSetMessageHandler`. -/
def setMessageHandler (topicFilter : Bytes) (messageHandler : Option Nat) : Prog (Live σ (MQTTClientC T)) Int := do
  let hs := (← obj).messageHandlers
  let existing := hs.findIdx? (·.topicFilter == some topicFilter)
  match messageHandler with
  | none =>
    match existing with
    | some i =>
      set fun c => { c with messageHandlers := hs.set i {} }
      happened (.handler topicFilter none)
      return success
    | none => return failure
  | some f =>
    match existing.or (hs.findIdx? (·.topicFilter == none)) with
    | some i =>
      set fun c => { c with messageHandlers := hs.set i { topicFilter := some topicFilter, fp := some f } }
      happened (.handler topicFilter (some f))
      return success
    | none => return failure

/-! ## The session -/

/-- `MQTTClientInit`, on memory that holds anything: `buf` and `readbuf` are the
caller's. -/
def init (commandTimeoutMs : Nat) : Prog (Live σ (MQTTClientC T)) Unit := do
  let lastSent ← call p.timerInit
  let lastReceived ← call p.timerInit
  set fun c => { c with
    messageHandlers := c.messageHandlers.map fun h => { h with topicFilter := none }
    commandTimeoutMs := commandTimeoutMs
    isconnected := false
    cleansession := false
    pingOutstanding := false
    defaultMessageHandler := none
    nextPacketid := 1
    lastSent := lastSent
    lastReceived := lastReceived
    events := [] }

/-- `MQTTCleanSession`. -/
def cleanSession : Prog (Live σ (MQTTClientC T)) Unit := do
  set fun c => { c with messageHandlers := c.messageHandlers.map fun h => { h with topicFilter := none } }
  happened .cleaned

/-- `MQTTCloseSession`. -/
def closeSession : Prog (Live σ (MQTTClientC T)) Unit := do
  set fun c => { c with pingOutstanding := false, isconnected := false }
  if (← obj).cleansession then
    cleanSession

/-! ## `cycle` -/

/-- The timers that `keepalive` looks at. -/
def keepaliveExpired : Prog (Live σ (MQTTClientC T)) Bool := do
  let c ← obj
  if ← call (p.timerIsExpired c.lastSent) then
    return true
  else call (p.timerIsExpired c.lastReceived)

def keepalive : Prog (Live σ (MQTTClientC T)) Int := do
  if (← obj).keepAliveInterval = 0 then
    return success
  if ← keepaliveExpired p then
    let c ← obj
    if c.pingOutstanding then
      return failure
    let timer ← call (p.timerCountdownMS 1000)
    match ← sendSerialized p (MQTTPacket.serializePingreq c.buf.length) timer with
    | .error _ => return success
    | .ok rc =>
      if rc = success then
        set fun c => { c with pingOutstanding := true }
      return rc
  return success

/-- A variable that was written, or not. -/
def orIndeterminate (written : Option Nat) : Prog (Live σ (MQTTClientC T)) Nat :=
  match written with
  | some n => return n
  | none => call p.indeterminate

/-- The message in a PUBLISH. -/
def toMessage (pub : MQTTPacket.Publish) (readbuf : Bytes) : Prog (Live σ (MQTTClientC T)) Message := do
  let id ← orIndeterminate p pub.packetid
  return {
    qos := pub.qos
    retained := pub.retained
    dup := pub.dup
    id := id
    payload := match pub.payload with
      | some i => (readbuf.drop i).take (sizeT pub.payloadlen)
      | none => []
    payloadlen := sizeT pub.payloadlen }

/-- The answer to a PUBLISH with a QoS. -/
def acknowledge (msg : Message) (timer : T) : Prog (Live σ (MQTTClientC T)) CycleExit := do
  let size := (← obj).buf.length
  let packet : Except Int Bytes :=
    if msg.qos = 1 then MQTTPacket.serializeAck size .puback false msg.id
    else if msg.qos = 2 then MQTTPacket.serializeAck size .pubrec false msg.id
    else .error 0
  match ← sendSerialized p packet timer with
  | .error _ => return .error failure
  | .ok rc => return if rc = failure then .error failure else .ok ()

/-- `case PUBLISH`. -/
def cyclePublish (timer : T) : Prog (Live σ (MQTTClientC T)) CycleExit := do
  let readbuf := (← obj).readbuf
  match MQTTPacket.deserializePublish readbuf with
  | none => Prog.undefined
  | some pub =>
    if pub.rc ≠ 1 then
      return .error success
    let msg ← toMessage p pub readbuf
    let _ ← deliverMessage p pub.topicName msg
    if msg.qos ≠ 0 then
      acknowledge p msg timer
    else return .ok ()

/-- `case PUBREC` and `case PUBREL`. -/
def cycleRelease (answer : MsgType) (timer : T) : Prog (Live σ (MQTTClientC T)) CycleExit := do
  let c ← obj
  match MQTTPacket.deserializeAck c.readbuf with
  | none => Prog.undefined
  | some ack =>
    let mypacketid ← orIndeterminate p ack.packetid
    if ack.rc ≠ 1 then
      return .error failure
    match ← sendSerialized p (MQTTPacket.serializeAck c.buf.length answer false mypacketid) timer with
    | .error _ => return .error failure
    | .ok rc => return if rc = success then .ok () else .error failure

/-- The `switch` on the packet's type. -/
def cycleSwitch (packetType : Int) (timer : T) : Prog (Live σ (MQTTClientC T)) CycleExit := do
  if packetType = 0 ∨ packetType = MsgType.connack.code ∨ packetType = MsgType.puback.code ∨
      packetType = MsgType.suback.code ∨ packetType = MsgType.unsuback.code ∨ packetType = MsgType.pubcomp.code then
    return .ok ()
  else if packetType = MsgType.publish.code then
    cyclePublish p timer
  else if packetType = MsgType.pubrec.code then
    cycleRelease p .pubrel timer
  else if packetType = MsgType.pubrel.code then
    cycleRelease p .pubcomp timer
  else if packetType = MsgType.pingresp.code then
    set fun c => { c with pingOutstanding := false }
    return .ok ()
  else return .error packetType

/-- `cycle`, from its label `exit`. -/
def cycleExit (packetType rc : Int) : Prog (Live σ (MQTTClientC T)) Int := do
  if rc = success then
    return packetType
  if (← obj).isconnected then
    closeSession
  return rc

def cycle (timer : T) : Prog (Live σ (MQTTClientC T)) Int := do
  let packetType ← readPacket p timer
  match ← cycleSwitch p packetType timer with
  | .error rc => cycleExit packetType rc
  | .ok () =>
    let rc ← keepalive p
    cycleExit packetType (if rc = success then success else failure)

/-! ## Operations -/

/-- `MQTTYield`. -/
def yield_ (timeoutMs : Nat) : Prog (Live σ (MQTTClientC T)) Int := do
  let timer ← call (p.timerCountdownMS timeoutMs)
  Prog.loop (fun _ => do
    if (← cycle p timer) < 0 then
      return .exit failure
    if ← call (p.timerIsExpired timer) then
      return .exit success
    return .next ()) ()

/-- One turn of `MQTTRun`. -/
def runTurn : Prog (Live σ (MQTTClientC T)) Int := do
  let timer ← call (p.timerCountdownMS 500)
  cycle p timer

def waitfor (packetType : MsgType) (timer : T) : Prog (Live σ (MQTTClientC T)) Int :=
  Prog.loop (fun rc => do
    if ← call (p.timerIsExpired timer) then
      return .exit rc
    let rc ← cycle p timer
    if rc ≠ packetType.code ∧ rc ≥ 0 then
      return .next rc
    return .exit rc) failure

/-- The wait for the CONNACK: the result, and the data where they were written. -/
def awaitConnack (timer : T) : Prog (Live σ (MQTTClientC T)) (Int × Option ConnackData) := do
  if (← waitfor p .connack timer) = MsgType.connack.code then
    match MQTTPacket.deserializeConnack (← obj).readbuf with
    | none => Prog.undefined
    | some ack =>
      let data : ConnackData := { rc := (ack.connackRc.getD 0 : Nat), sessionPresent := ack.sessionPresent.getD false }
      return (if ack.rc = 1 then data.rc else failure, some data)
  else return (failure, none)

/-- `MQTTConnectWithResults`; no `options` are the default ones. -/
def connectWithResults (options : Option ConnectData) : Prog (Live σ (MQTTClientC T)) (Int × Option ConnackData) := do
  if (← obj).isconnected then
    return (failure, none)
  let timer ← call (p.timerCountdownMS (← obj).commandTimeoutMs)
  let options := options.getD {}
  set fun c => { c with keepAliveInterval := options.keepAliveInterval, cleansession := options.cleansession }
  let t ← call (p.timerCountdown options.keepAliveInterval)
  set fun c => { c with lastReceived := t }
  happened .connecting
  match MQTTPacket.serializeConnect (← obj).buf.length options with
  | none => Prog.undefined
  | some packet =>
    match ← sendSerialized p packet timer with
    | .error _ => return (failure, none)
    | .ok rc =>
      if rc ≠ success then
        return (rc, none)
      let (rc, data) ← awaitConnack p timer
      if rc = success then
        set fun c => { c with isconnected := true, pingOutstanding := false }
      return (rc, data)

/-- What follows the label `exit` of a request. -/
def requestExit (rc : Int) : Prog (Live σ (MQTTClientC T)) Int := do
  if rc = failure then
    closeSession
  return rc

/-- `MQTTSubscribeWithResults`, once the packet is sent: the result, and the
granted QoS where the SUBACK was looked at. -/
def awaitSuback (charSigned : Bool) (topicFilter : Bytes) (messageHandler : Option Nat) (timer : T) :
    Prog (Live σ (MQTTClientC T)) (Int × Option Int) := do
  if (← waitfor p .suback timer) = MsgType.suback.code then
    match MQTTPacket.deserializeSuback charSigned 1 (← obj).readbuf with
    | none => Prog.undefined
    | some ack =>
      -- A second code is stored behind `data->grantedQoS`.
      if ack.grantedQoSs.length > 1 then
        Prog.undefined
      else
        let grantedQoS := ack.grantedQoSs.headD 0
        if ack.rc = 1 ∧ grantedQoS ≠ 0x80 then
          return (← setMessageHandler topicFilter messageHandler, some grantedQoS)
        else return (success, some grantedQoS)
  else return (failure, none)

/-- `MQTTSubscribeWithResults`. -/
def subscribeWithResults (charSigned : Bool) (topicFilter : Bytes) (qos : Nat) (messageHandler : Option Nat) :
    Prog (Live σ (MQTTClientC T)) (Int × Option Int) := do
  if ¬ (← obj).isconnected then
    return (← requestExit failure, none)
  let timer ← call (p.timerCountdownMS (← obj).commandTimeoutMs)
  let id ← getNextPacketId
  match ← sendSerialized p (MQTTPacket.serializeSubscribe (← obj).buf.length false id topicFilter qos) timer with
  | .error _ => return (← requestExit failure, none)
  | .ok rc =>
    if rc ≠ success then
      return (← requestExit rc, none)
    let (rc, grantedQoS) ← awaitSuback p charSigned topicFilter messageHandler timer
    return (← requestExit rc, grantedQoS)

/-- `MQTTUnsubscribe`. -/
def unsubscribe (topicFilter : Bytes) : Prog (Live σ (MQTTClientC T)) Int := do
  if ¬ (← obj).isconnected then
    return ← requestExit failure
  let timer ← call (p.timerCountdownMS (← obj).commandTimeoutMs)
  let id ← getNextPacketId
  match ← sendSerialized p (MQTTPacket.serializeUnsubscribe (← obj).buf.length false id topicFilter) timer with
  | .error _ => requestExit failure
  | .ok rc =>
    if rc ≠ success then
      return ← requestExit rc
    if (← waitfor p .unsuback timer) = MsgType.unsuback.code then
      match MQTTPacket.deserializeUnsuback (← obj).readbuf with
      | none => Prog.undefined
      | some ack =>
        if ack.rc = 1 then
          let _ ← setMessageHandler topicFilter none
        requestExit success
    else requestExit failure

/-- The wait for the acknowledgement of a PUBLISH. -/
def awaitAck (packetType : MsgType) (timer : T) : Prog (Live σ (MQTTClientC T)) Int := do
  if (← waitfor p packetType timer) = packetType.code then
    match MQTTPacket.deserializeAck (← obj).readbuf with
    | none => Prog.undefined
    | some ack => return if ack.rc = 1 then success else failure
  else return failure

/-- The id of a message: a QoS gives it one. -/
def publishId (message : Message) : Prog (Live σ (MQTTClientC T)) Nat :=
  if message.qos = 1 ∨ message.qos = 2 then getNextPacketId
  else return message.id

/-- What `MQTTPublish` waits for. -/
def awaitAcks (qos : Nat) (timer : T) : Prog (Live σ (MQTTClientC T)) Int :=
  if qos = 1 then awaitAck p .puback timer
  else if qos = 2 then awaitAck p .pubcomp timer
  else return success

/-- `MQTTPublish`: the result, and the id of the message. -/
def publish (topicName : Bytes) (message : Message) : Prog (Live σ (MQTTClientC T)) (Int × Nat) := do
  if ¬ (← obj).isconnected then
    return (← requestExit failure, message.id)
  let timer ← call (p.timerCountdownMS (← obj).commandTimeoutMs)
  let id ← publishId message
  let packet := MQTTPacket.serializePublish (← obj).buf.length false message.qos message.retained id topicName message.payload
  match ← sendSerialized p packet timer with
  | .error _ => return (← requestExit failure, id)
  | .ok rc =>
    if rc ≠ success then
      return (← requestExit rc, id)
    let rc ← awaitAcks p message.qos timer
    return (← requestExit rc, id)

/-- `MQTTDisconnect`. -/
def disconnect : Prog (Live σ (MQTTClientC T)) Int := do
  let timer ← call (p.timerCountdownMS (← obj).commandTimeoutMs)
  let sent ← sendSerialized p (MQTTPacket.serializeDisconnect (← obj).buf.length) timer
  closeSession
  return match sent with
    | .error _ => failure
    | .ok rc => rc

/-- What a program does with its client, and its task. -/
inductive Op where
  | connect (options : Option ConnectData)
  | disconnect
  | yield_ (timeoutMs : Nat)
  | runTurn
  | publish (topicName : Bytes) (message : Message)
  | subscribe (topicFilter : Bytes) (qos : Nat) (messageHandler : Option Nat)
  | unsubscribe (topicFilter : Bytes)
  | setMessageHandler (topicFilter : Bytes) (messageHandler : Option Nat)
  /-- An assignment to `defaultMessageHandler`. -/
  | setDefault (messageHandler : Option Nat)
  deriving DecidableEq, Repr

/-- What they return. -/
def Op.run (charSigned : Bool) : Op → Prog (Live σ (MQTTClientC T)) Int
  | .connect options => do return (← connectWithResults p options).1
  | .disconnect => MQTTClientC.disconnect p
  | .yield_ timeoutMs => MQTTClientC.yield_ p timeoutMs
  | .runTurn => MQTTClientC.runTurn p
  | .publish topicName message => do return (← MQTTClientC.publish p topicName message).1
  | .subscribe topicFilter qos messageHandler => do
    return (← subscribeWithResults p charSigned topicFilter qos messageHandler).1
  | .unsubscribe topicFilter => MQTTClientC.unsubscribe p topicFilter
  | .setMessageHandler topicFilter messageHandler => MQTTClientC.setMessageHandler topicFilter messageHandler
  | .setDefault messageHandler => do
    set fun c => { c with defaultMessageHandler := messageHandler }
    happened (.defaultHandler messageHandler)
    return success

end MQTTClientC

end FEmbed
