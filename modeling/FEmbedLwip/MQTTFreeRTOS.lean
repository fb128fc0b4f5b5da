/-
The client of `MQTTClient-C` on FreeRTOS: how it reads packets from a socket,
and from a TLS connection.

`readPacket` asks for a header byte, for a byte of the remaining length at a
time, and for the rest. `esp_read` takes each from the socket. `esp_ssl_read`
takes the whole packet when the header is asked for, and hands out its parts in
the calls after that, which it counts.
-/
import FEmbedLwip.MQTTPacketReader
import FEmbedLwip.MQTTPacketFacts

namespace FEmbed

/-! ## Memory -/

namespace MQTTFreeRTOS

/-- What the functions point into: `readbuf` of the client, and `i` of `decodePacket`. -/
inductive Object where
  | readbuf
  | i
  deriving DecidableEq, Repr

structure Pointer where
  object : Object
  index : Nat
  deriving DecidableEq, Repr

def Pointer.add (dst : Pointer) (n : Nat) : Pointer := { dst with index := dst.index + n }

end MQTTFreeRTOS

/-- What `select` finds within a time. -/
structure Selected where
  ready : Int
  readset : Bool
  errset : Bool
  deriving DecidableEq, Repr

/-- What is outside: `recv` and `SSL_read` return a number, and write bytes. -/
structure FreeRTOSPlatform (σ T : Type) where
  select : Nat → σ → Selected × σ
  recv : Nat → σ → (Int × Bytes) × σ
  sslRead : Nat → σ → (Int × Bytes) × σ
  /-- `vTaskSetTimeOutState` and `xTaskCheckForTimeOut`. -/
  setTimeOutState : σ → σ
  checkForTimeOut : σ → Bool × σ
  timerLeftMS : T → σ → Nat × σ
  timerCountdown : Nat → σ → T × σ

/-- `MQTTClient` and its `Network`, as far as reading goes, with the local `i`
and the static `read_buffer`. -/
structure MQTTFreeRTOS (T : Type) where
  readbuf : Bytes
  keepAliveInterval : Nat
  lastReceived : T
  readCount : Nat
  i : UInt8
  readBuffer : Option MQTTFreeRTOS.Pointer
  deriving DecidableEq, Repr

namespace MQTTFreeRTOS

open Live

variable {σ T : Type}

def bytes (c : MQTTFreeRTOS T) : Object → Bytes
  | .readbuf => c.readbuf
  | .i => [c.i]

def put (c : MQTTFreeRTOS T) (bs : Bytes) : Object → MQTTFreeRTOS T
  | .readbuf => { c with readbuf := bs }
  | .i => { c with i := bs.headD c.i }

/-- Bytes are written, all inside of the object. -/
def store (dst : Pointer) (bs : Bytes) : Prog (Live σ (MQTTFreeRTOS T)) Unit := do
  match poke ((← obj).bytes dst.object) dst.index bs with
  | none => Prog.undefined
  | some bs => set (·.put bs dst.object)

/-- `len` bytes are read, all inside of the object. -/
def load (src : Pointer) (len : Nat) : Prog (Live σ (MQTTFreeRTOS T)) Bytes := do
  let bs := ((← obj).bytes src.object).drop src.index
  if bs.length < len then
    Prog.undefined
  else return bs.take len

def loadByte (src : Pointer) : Prog (Live σ (MQTTFreeRTOS T)) UInt8 := do
  return (← load src 1).headD 0

/-! ## Reading -/

variable (p : FreeRTOSPlatform σ T)

/-- The loop of `esp_read`. -/
def espReceive (buffer : Pointer) (len : Nat) : Prog (Live σ (MQTTFreeRTOS T)) Int :=
  Prog.loop (fun recvLen : Nat => do
    let (rc, bs) ← call (p.recv (len - recvLen))
    store (buffer.add recvLen) bs
    if rc < 0 then
      return .exit rc
    let recvLen := recvLen + rc.toNat
    if recvLen < len then
      if ← call p.checkForTimeOut then
        return .exit recvLen
      else return .next recvLen
    else return .exit recvLen) 0

/-- `esp_read`. -/
def espRead (buffer : Pointer) (len timeoutMs : Nat) : Prog (Live σ (MQTTFreeRTOS T)) Int := do
  tell p.setTimeOutState
  let selected ← call (p.select timeoutMs)
  if selected.ready > 0 ∧ selected.readset then
    espReceive p buffer len
  else return 0

/-- A loop of `esp_ssl_read`: what comes later is written where the first was. -/
def sslReceive (buffer : Pointer) (len : Nat) : Prog (Live σ (MQTTFreeRTOS T)) Int :=
  Prog.loop (fun recvLen : Nat => do
    let (rc, bs) ← call (p.sslRead len)
    store buffer bs
    if rc < 0 then
      return .exit rc
    let recvLen := recvLen + rc.toNat
    if recvLen < len then
      if ← call p.checkForTimeOut then
        return .exit recvLen
      else return .next recvLen
    else return .exit recvLen) 0

/-- `read_buffer`, once it was set. -/
def readBufferSet : Prog (Live σ (MQTTFreeRTOS T)) Pointer := do
  match (← obj).readBuffer with
  | none => Prog.undefined
  | some buffer => return buffer

/-- The packet is taken from the connection: "read mqtt packet for the first time". -/
def sslFirst (buffer : Pointer) : Prog (Live σ (MQTTFreeRTOS T)) Int := do
  set fun c => { c with readBuffer := some buffer }
  let rc ← sslReceive p buffer 2
  if rc < 0 then
    return rc
  let len := (← loadByte (buffer.add 1)).toNat
  let rc ← if len > 0 then sslReceive p (buffer.add 2) len else pure 0
  if rc < 0 then
    return rc
  set fun c => { c with readCount := c.readCount + 1 }
  return 1

/-- "read same mqtt packet for the second time". -/
def sslSecond (buffer : Pointer) : Prog (Live σ (MQTTFreeRTOS T)) Int := do
  let timedOut ← call p.checkForTimeOut
  let readBuffer ← readBufferSet
  if timedOut then
    set fun c => { c with readCount := 0 }
    store readBuffer [0]
    return 0
  set fun c => { c with readCount := c.readCount + 1 }
  store buffer [← loadByte (readBuffer.add 1)]
  return 1

/-- "read same mqtt packet for the third time". -/
def sslThird (buffer : Pointer) (len : Nat) : Prog (Live σ (MQTTFreeRTOS T)) Int := do
  set fun c => { c with readCount := 0 }
  let timedOut ← call p.checkForTimeOut
  let readBuffer ← readBufferSet
  if timedOut then
    store readBuffer [0]
    return 0
  store buffer (← load (readBuffer.add 2) len)
  return len

/-- `esp_ssl_read`. -/
def espSslRead (buffer : Pointer) (len timeoutMs : Nat) : Prog (Live σ (MQTTFreeRTOS T)) Int := do
  tell p.setTimeOutState
  match (← obj).readCount with
  | 0 =>
    let selected ← call (p.select timeoutMs)
    if selected.ready > 0 ∧ ¬ selected.errset ∧ selected.readset then
      sslFirst p buffer
    else return 0
  | 1 => sslSecond p buffer
  | 2 => sslThird p buffer len
  | _ => return 0

/-! ## Packets -/

/-- `mqttread` of a `Network`. -/
abbrev MqttRead (σ T : Type) := Pointer → Nat → Nat → Prog (Live σ (MQTTFreeRTOS T)) Int

/-- `readPacket`, once the whole packet is in the buffer. -/
def packetRead : Prog (Live σ (MQTTFreeRTOS T)) Int := do
  let header ← loadByte ⟨.readbuf, 0⟩
  let keepAliveInterval := (← obj).keepAliveInterval
  if keepAliveInterval > 0 then
    let t ← call (p.timerCountdown keepAliveInterval)
    set fun c => { c with lastReceived := t }
  return MQTTPacket.headerType header

/-- The reader of the client's packets. -/
def reader (mqttread : MqttRead σ T) (timer : T) : PacketReader (Live σ (MQTTFreeRTOS T)) Nat where
  timerLeftMS := call (p.timerLeftMS timer)
  mqttread i n timeout := mqttread ⟨.readbuf, i⟩ n timeout
  mqttreadByte timeout := do
    let rc ← mqttread ⟨.i, 0⟩ 1 timeout
    return (rc, (← obj).i)
  store i bs := store ⟨.readbuf, i⟩ bs
  readbufSize := Prog.gets (·.self.readbuf.length)
  packetRead := packetRead p

/-- `readPacket`. -/
def readPacket (mqttread : MqttRead σ T) (timer : T) : Prog (Live σ (MQTTFreeRTOS T)) Int := (reader p mqttread timer).readPacket

/-- `n` calls of `readPacket`: what each returns, and leaves in `readbuf`. -/
def readPackets (mqttread : MqttRead σ T) (timer : T) : Nat → Prog (Live σ (MQTTFreeRTOS T)) (List (Int × Bytes))
  | 0 => return []
  | n + 1 => do
    let rc ← readPacket p mqttread timer
    let readbuf := (← obj).readbuf
    return (rc, readbuf) :: (← readPackets mqttread timer n)

end MQTTFreeRTOS

end FEmbed
