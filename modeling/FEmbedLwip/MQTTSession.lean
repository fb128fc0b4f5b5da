/-
The operations of `MQTT::Client` that ask something of the broker: `connect`,
`publish` and `subscribe`. Each sends a packet and runs `cycle` until a packet of
the type it waits for comes, of whatever id.
-/
import FEmbedLwip.Lives
import FEmbedLwip.MQTTClient

namespace FEmbed.MQTTClient

open Live

variable {σ T : Type} (p : MQTTPlatform σ T)

/-! ## `publish` -/

/-- What follows the packet of a `publish` with a QoS: a variable that the
acknowledgement does not fill is compared all the same. -/
def awaitAck (packetType : MsgType) (timer : T) : Prog (Live σ (MQTTClient σ T)) Int := do
  if (← waitfor p packetType timer) = packetType.code then
    match MQTTPacket.deserializeAck (← obj).readbuf with
    | none => Prog.undefined
    | some ack =>
      if ack.rc ≠ 1 then
        return failure
      let mypacketid ← orIndeterminate p ack.packetid
      if (← obj).inflightMsgid = mypacketid then
        set fun c => { c with inflightMsgid := 0 }
      return success
  else return failure

/-- `publish(len, timer, qos)`, of the packet in the buffer. -/
def publishPacket (timer : T) (qos : Nat) : Prog (Live σ (MQTTClient σ T)) Int := do
  let rc ← sendPacket p timer
  if rc ≠ success then
    return rc
  if qos = 1 then
    awaitAck p .puback timer
  else if qos = 2 then
    awaitAck p .pubcomp timer
  else return rc

/-- `publish(topicName, payload, payloadlen, id, qos, retained)`: the result, and
the id. -/
def publishId (topicName payload : Bytes) (id qos : Nat) (retained : Bool) : Prog (Live σ (MQTTClient σ T)) (Int × Nat) := do
  let timer ← call p.timer
  if ¬ (← obj).isconnected then
    return (failure, id)
  let id ← if qos = 1 ∨ qos = 2 then getNext else pure id
  match MQTTPacket.serializePublish p.maxMqttPacketSize false qos retained id topicName payload with
  | .error _ => return (failure, id)
  | .ok bs =>
    set fun c => { c with sendbuf := bs }
    if ¬ (← obj).cleansession then
      set fun c => { c with pubbuf := bs, inflightMsgid := id, inflightLen := bs.length, inflightQoS := qos, pubrel := false }
    let rc ← publishPacket p timer qos
    return (rc, id)

/-- `publish(topicName, payload, payloadlen, qos, retained)`. -/
def publish (topicName payload : Bytes) (qos : Nat) (retained : Bool) : Prog (Live σ (MQTTClient σ T)) Int := do
  let (rc, _) ← publishId p topicName payload 0 qos retained
  return rc

/-- `publish(topicName, message)`. -/
def publishMessage (topicName : Bytes) (message : Message) : Prog (Live σ (MQTTClient σ T)) Int :=
  publish p topicName message.payload message.qos message.retained

/-! ## `connect` -/

/-- `connackData`. -/
structure ConnackData where
  rc : Int
  sessionPresent : Bool
  deriving DecidableEq, Repr

/-- The wait for the CONNACK: the result, and the data where they were written. -/
def awaitConnack (timer : T) : Prog (Live σ (MQTTClient σ T)) (Int × Option ConnackData) := do
  if (← waitfor p .connack timer) = MsgType.connack.code then
    match MQTTPacket.deserializeConnack (← obj).readbuf with
    | none => Prog.undefined
    | some ack =>
      let data : ConnackData := { rc := (ack.connackRc.getD 0 : Nat), sessionPresent := ack.sessionPresent.getD false }
      return (if ack.rc = 1 then data.rc else failure, some data)
  else return (failure, none)

/-- "resend any inflight publish": the result of `connect` so far, or that of the publish. -/
def resend (timer : T) (rc : Int) : Prog (Live σ (MQTTClient σ T)) Int := do
  let c ← obj
  if c.inflightMsgid > 0 ∧ c.inflightQoS = 2 ∧ c.pubrel then
    match MQTTPacket.serializeAck p.maxMqttPacketSize .pubrel false c.inflightMsgid with
    | .error _ => return failure
    | .ok bs =>
      set fun c => { c with sendbuf := bs }
      publishPacket p timer c.inflightQoS
  else if c.inflightMsgid > 0 then
    set fun c => { c with sendbuf := c.pubbuf.take c.inflightLen.toNat }
    publishPacket p timer c.inflightQoS
  else return rc

/-- `connect`, from its label `exit`. -/
def connectExit (rc : Int) (data : Option ConnackData) : Prog (Live σ (MQTTClient σ T)) (Int × Option ConnackData) := do
  if rc = success then
    set fun c => { c with isconnected := true, pingOutstanding := 0 }
  return (rc, data)

/-- `connect(options, data)`. -/
def connect (options : ConnectData) : Prog (Live σ (MQTTClient σ T)) (Int × Option ConnackData) := do
  let connectTimer ← call (p.timerMs 5000)
  if (← obj).isconnected then
    return (failure, none)
  set fun c => { c with keepAliveInterval := options.keepAliveInterval, cleansession := options.cleansession }
  match MQTTPacket.serializeConnect p.maxMqttPacketSize options with
  | none => Prog.undefined
  | some packet =>
    match ← sendSerialized p packet connectTimer with
    | .error _ => return (failure, none)
    | .ok rc =>
      if rc ≠ success then
        return (rc, none)
      if options.keepAliveInterval > 0 then
        let t ← call (p.countdown (receiveSeconds options.keepAliveInterval))
        set fun c => { c with lastReceived := t }
      let (rc, data) ← awaitConnack p connectTimer
      let rc ← resend p connectTimer rc
      connectExit rc data

/-! ## `subscribe` -/

/-- What both `subscribe` do, one to `register` the handler: the result, and the
granted QoS where the SUBACK was looked at. -/
def subscribeTo (charSigned : Bool) (topicFilter : Bytes) (qos : Nat) (register : Prog (Live σ (MQTTClient σ T)) Int) :
    Prog (Live σ (MQTTClient σ T)) (Int × Option Int) := do
  let timer ← call p.timer
  if ¬ (← obj).isconnected then
    return (failure, none)
  let id ← getNext
  match ← sendSerialized p (MQTTPacket.serializeSubscribe p.maxMqttPacketSize false id topicFilter qos) timer with
  | .error _ => return (failure, none)
  | .ok rc =>
    if rc ≠ success then
      return (rc, none)
    if (← waitfor p .suback timer) = MsgType.suback.code then
      match MQTTPacket.deserializeSuback charSigned 1 (← obj).readbuf with
      | none => Prog.undefined
      | some ack =>
        -- A second code is stored behind `data.grantedQoS`.
        if ack.grantedQoSs.length > 1 then
          Prog.undefined
        else
          let grantedQoS := ack.grantedQoSs.headD 0
          if ack.rc = 1 ∧ grantedQoS ≠ 0x80 then
            return (← register, some grantedQoS)
          else return (rc, some grantedQoS)
    else return (failure, none)

/-- `subscribe(topicFilter, qos, MessageCallback *, data)`. -/
def subscribe (charSigned : Bool) (topicFilter : Bytes) (qos : Nat) (callback : Option Nat) :
    Prog (Live σ (MQTTClient σ T)) (Int × Option Int) :=
  subscribeTo p charSigned topicFilter qos (setMessageHandler p topicFilter callback)

/-- `subscribe(topicFilter, qos, FunctionCallback, data)`. -/
def subscribeFunction (charSigned : Bool) (topicFilter : Bytes) (qos : Nat) (funcCb : Option Nat) :
    Prog (Live σ (MQTTClient σ T)) (Int × Option Int) :=
  subscribeTo p charSigned topicFilter qos (setMessageFunction p topicFilter funcCb)

/-! ## The operations of a client -/

/-- The calls a program makes on its client. -/
inductive ClientOp where
  | connect (options : ConnectData)
  | disconnect
  | yield_ (timeoutMs : Nat)
  | publish (topicName payload : Bytes) (id qos : Nat) (retained : Bool)
  | subscribe (topicFilter : Bytes) (qos : Nat) (callback : Option Nat)
  | subscribeFunction (topicFilter : Bytes) (qos : Nat) (funcCb : Option Nat)
  | unsubscribe (topicFilter : Bytes)
  | setMessageHandler (topicFilter : Bytes) (callback : Option Nat)
  | setMessageFunction (topicFilter : Bytes) (funcCb : Option Nat)
  | setDefaultMessageHandler (mh : Option Nat)
  | setDefaultFunction (mh : Option Nat)
  deriving DecidableEq, Repr

/-- What they return, as a number. -/
def ClientOp.run (charSigned : Bool) : ClientOp → Prog (Live σ (MQTTClient σ T)) Int
  | .connect options => do return (← MQTTClient.connect p options).1
  | .disconnect => MQTTClient.disconnect p
  | .yield_ timeoutMs => MQTTClient.yield_ p timeoutMs
  | .publish topicName payload id qos retained => do return (← publishId p topicName payload id qos retained).1
  | .subscribe topicFilter qos callback => do return (← MQTTClient.subscribe p charSigned topicFilter qos callback).1
  | .subscribeFunction topicFilter qos funcCb => do
    return (← MQTTClient.subscribeFunction p charSigned topicFilter qos funcCb).1
  | .unsubscribe topicFilter => MQTTClient.unsubscribe p topicFilter
  | .setMessageHandler topicFilter callback => MQTTClient.setMessageHandler p topicFilter callback
  | .setMessageFunction topicFilter funcCb => MQTTClient.setMessageFunction p topicFilter funcCb
  | .setDefaultMessageHandler mh => do
    MQTTClient.setDefaultMessageHandler mh
    return success
  | .setDefaultFunction mh => do
    MQTTClient.setDefaultFunction mh
    return success

/-- A call of a run. -/
abbrev ClientCall (σ T : Type) := Prog.Call (Live σ (MQTTClient σ T)) ClientOp Int

end FEmbed.MQTTClient
