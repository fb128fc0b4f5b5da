/-
`readPacket` of `MQTTClient-C`, with any `Network`: how it takes a packet apart.

Where the bytes go is left to the reader: the client on a platform has a read
buffer, and the one for FreeRTOS has memory that the network points into.
-/
import FEmbedLwip.MQTTClient

namespace FEmbed

open Prog (Guarantee)

/-- What `readPacket` calls, for one client and timer. -/
structure PacketReader (S τ : Type) where
  timerLeftMS : Prog S τ
  /-- So many bytes into `readbuf`, from an index on. -/
  mqttread : Nat → Nat → τ → Prog S Int
  /-- One byte into `i` of `decodePacket`, and what `i` is then. -/
  mqttreadByte : τ → Prog S (Int × UInt8)
  store : Nat → Bytes → Prog S Unit
  readbufSize : Prog S Nat
  /-- What is done once the whole packet is in the buffer. -/
  packetRead : Prog S Int

namespace PacketReader

variable {S τ : Type} (r : PacketReader S τ)

/-- `decodePacket`: the value; its result is not looked at. -/
def decodePacket (timeout : τ) : Prog S Nat :=
  go 4 1 0
where
  go : Nat → Nat → Nat → Prog S Nat
    | 0, _, value => return value
    | k + 1, multiplier, value => do
      let (rc, i) ← r.mqttreadByte timeout
      if rc ≠ 1 then
        return value
      let value := value + i.toNat % 128 * multiplier
      if i.toNat / 128 = 0 then
        return value
      go k (multiplier * 128) value

/-- `readPacket`, once the remaining length is known. -/
def readRest (remLen : Nat) : Prog S Int := do
  r.store 1 (MQTTPacket.encode remLen)
  let len := 1 + (MQTTPacket.encode remLen).length
  if remLen > (← r.readbufSize) - len then
    return MQTTClient.bufferOverflow
  if remLen > 0 then
    let rc ← r.mqttread len remLen (← r.timerLeftMS)
    if rc ≠ remLen then
      return 0
    r.packetRead
  else r.packetRead

/-- `readPacket`. -/
def readPacket : Prog S Int := do
  let rc ← r.mqttread 0 1 (← r.timerLeftMS)
  if rc ≠ 1 then
    return rc
  r.readRest (← r.decodePacket (← r.timerLeftMS))

/-- `readPacket`, when the header was read. -/
theorem returns_readPacket {r : PacketReader S τ} {s s₁ s₂ s₃ : S} {left left' : τ} (hleft : r.timerLeftMS.Returns s left s₁)
    (hheader : (r.mqttread 0 1 left).Returns s₁ 1 s₂) (hleft' : r.timerLeftMS.Returns s₂ left' s₃) {rc : Int} {t : S} :
    r.readPacket.Returns s rc t ↔ (r.decodePacket left' >>= r.readRest).Returns s₃ rc t := by
  rw [readPacket, Prog.returns_bind_of hleft, Prog.returns_bind_of hheader, if_neg (by decide), Prog.returns_bind_of hleft']

/-! ## What holds of all that is called -/

/-- A property of programs that what they make up has too. -/
structure Composes (P : ∀ {α : Type}, Prog S α → Prop) : Prop where
  pure : ∀ {α : Type} {a : α}, P (pure a)
  bind : ∀ {α β : Type} {x : Prog S β} {f : β → Prog S α}, P x → (∀ b, P (f b)) → P (x >>= f)

theorem composes_guarantees (G : Guarantee S) : Composes fun {_} => Prog.Guarantees G := ⟨.pure, .bind⟩

theorem composes_keeps (I : S → Prop) : Composes fun {_} => Prog.Keeps I := ⟨.pure fun _ => id, .bind⟩

theorem Composes.digits {P : ∀ {α : Type}, Prog S α → Prop} (hP : Composes P) {r : PacketReader S τ} {timeout : τ}
    (hbyte : P (r.mqttreadByte timeout)) {k multiplier value : Nat} : P (decodePacket.go r timeout k multiplier value) := by
  induction k generalizing multiplier value with
  | zero => exact hP.pure
  | succ k ih =>
    refine hP.bind hbyte fun _ => iteInduction (fun _ => hP.pure) fun _ => ?_
    exact iteInduction (fun _ => hP.pure) fun _ => ih

/-- All that a reader calls has a property. -/
structure All (P : ∀ {α : Type}, Prog S α → Prop) : Prop where
  timerLeftMS : P r.timerLeftMS
  mqttread : ∀ i n timeout, P (r.mqttread i n timeout)
  mqttreadByte : ∀ timeout, P (r.mqttreadByte timeout)
  store : ∀ i bs, P (r.store i bs)
  readbufSize : P r.readbufSize
  packetRead : P r.packetRead

namespace All

variable {r} {P : ∀ {α : Type}, Prog S α → Prop} (hP : Composes P) (h : r.All P)

include hP h

theorem readRest {remLen : Nat} : P (r.readRest remLen) := by
  refine hP.bind (h.store ..) fun _ => hP.bind h.readbufSize fun _ => iteInduction (fun _ => hP.pure) fun _ => ?_
  refine iteInduction (fun _ => hP.bind h.timerLeftMS fun _ => hP.bind (h.mqttread ..) fun _ => ?_) fun _ => h.packetRead
  exact iteInduction (fun _ => hP.pure) fun _ => h.packetRead

theorem readPacket : P r.readPacket := by
  refine hP.bind h.timerLeftMS fun _ => hP.bind (h.mqttread ..) fun _ => iteInduction (fun _ => hP.pure) fun _ => ?_
  exact hP.bind h.timerLeftMS fun _ => hP.bind (hP.digits (h.mqttreadByte _)) fun _ => h.readRest hP

end All

end PacketReader

end FEmbed
