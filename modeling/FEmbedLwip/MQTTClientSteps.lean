/-
What the steps of the C client keep, its operations keep.

`Steps` lists the steps: writes to fields that are no history, calls of the
platform, and each kind of event. A guarantee of all of them is a guarantee of
every operation.
-/
import FEmbedLwip.MQTTClientC

namespace FEmbed

open Live
open Prog (Guarantee Guarantees)

namespace MQTTClientC

variable {σ T : Type}

/-- The calls of a platform that neither write nor deliver. -/
inductive Silent (p : MQTTPlatformC σ T) : {α : Type} → (σ → α × σ) → Prop
  | mqttread (n : Nat) (timeout : Int) : Silent p (p.mqttread n timeout)
  | timerInit : Silent p p.timerInit
  | timerCountdown (n : Nat) : Silent p (p.timerCountdown n)
  | timerCountdownMS (n : Nat) : Silent p (p.timerCountdownMS n)
  | timerIsExpired (timer : T) : Silent p (p.timerIsExpired timer)
  | timerLeftMS (timer : T) : Silent p (p.timerLeftMS timer)
  | indeterminate : Silent p p.indeterminate

/-- A guarantee of each step. -/
structure Steps (p : MQTTPlatformC σ T) (G : Guarantee (Live σ (MQTTClientC T))) : Prop where
  kept : ∀ {f : MQTTClientC T → MQTTClientC T}, (∀ c, (f c).messageHandlers = c.messageHandlers) →
    (∀ c, (f c).defaultMessageHandler = c.defaultMessageHandler) → (∀ c, (f c).events = c.events) →
    (set f : Prog (Live σ (MQTTClientC T)) Unit).Guarantees G
  silent : ∀ {α : Type} {f : σ → α × σ}, Silent p f → (call f : Prog (Live σ (MQTTClientC T)) α).Guarantees G
  fp : ∀ f topicName message, (tell (p.fp f topicName message) : Prog (Live σ (MQTTClientC T)) Unit).Guarantees G
  offer : ∀ sent length left, (offer p sent length left).Guarantees G
  connecting : (happened .connecting : Prog (Live σ (MQTTClientC T)) Unit).Guarantees G
  received : ∀ readbuf, (happened (.received readbuf) : Prog (Live σ (MQTTClientC T)) Unit).Guarantees G
  delivered : ∀ {s : Live σ (MQTTClientC T)} {topicName message called}, addressees topicName s.self = some called →
    G.rel s ⟨{ s.self with events := s.self.events ++ [.delivered topicName message called] }, s.env⟩
  cleanSession : (cleanSession : Prog (Live σ (MQTTClientC T)) Unit).Guarantees G
  setMessageHandler : ∀ topicFilter fp, (setMessageHandler topicFilter fp : Prog (Live σ (MQTTClientC T)) Int).Guarantees G
  setDefault : ∀ (s : Live σ (MQTTClientC T)) fp,
    G.rel s ⟨{ s.self with defaultMessageHandler := fp, events := s.self.events ++ [.defaultHandler fp] }, s.env⟩

namespace Steps

variable {p : MQTTPlatformC σ T} {G : Guarantee (Live σ (MQTTClientC T))} (h : Steps p G)

include h

theorem sendPacket_keeps {length : Nat} {t : T} : (sendPacket p length t).Guarantees G := by
  refine .bind (.loop (fun sent => .ite .pure ?_) _) fun sent => .ite ?_ .pure
  · refine .bind (h.silent (.timerIsExpired _)) fun _ => .ite .pure (.bind (h.silent (.timerLeftMS _)) fun _ => .bind (h.offer _ _ _) fun _ => ?_)
    exact .ite .pure .pure
  · refine .bind guarantees_obj fun _ => .bind (h.silent (.timerCountdown _)) fun _ => .bind ?_ fun _ => .pure
    exact h.kept (fun _ => rfl) (fun _ => rfl) fun _ => rfl

theorem sendSerialized_keeps {packet : Except Int Bytes} {t : T} : (sendSerialized p packet t).Guarantees G := by
  cases packet with
  | error len => exact .pure
  | ok bs =>
    refine .bind guarantees_obj fun c => ?_
    cases poke c.buf 0 bs with
    | none => exact .undefined
    | some buf =>
      refine .bind (h.kept (fun _ => rfl) (fun _ => rfl) fun _ => rfl) fun _ => ?_
      exact .bind h.sendPacket_keeps fun _ => .pure

theorem store_keeps {i : Nat} {bs : Bytes} : (store i bs : Prog (Live σ (MQTTClientC T)) Unit).Guarantees G := by
  refine .bind guarantees_obj fun c => ?_
  cases poke c.readbuf i bs with
  | none => exact .undefined
  | some readbuf => exact h.kept (fun _ => rfl) (fun _ => rfl) fun _ => rfl

theorem packetRead_keeps : (packetRead p).Guarantees G := by
  refine .bind guarantees_obj fun c => .ite ?_ (.bind (h.received _) fun _ => .pure)
  refine .bind (h.silent (.timerCountdown _)) fun _ => .bind ?_ fun _ => .bind (h.received _) fun _ => .pure
  exact h.kept (fun _ => rfl) (fun _ => rfl) fun _ => rfl

theorem readPacket_keeps {t : T} : (readPacket p t).Guarantees G := by
  have parts : (reader p t).All (fun {_} => Guarantees G) := {
    timerLeftMS := h.silent (.timerLeftMS t)
    mqttread _ _ _ := .bind (h.silent (.mqttread _ _)) fun _ => .bind h.store_keeps fun _ => .pure
    mqttreadByte _ := .bind (h.silent (.mqttread _ _)) fun _ => .pure
    store _ _ := h.store_keeps
    readbufSize := .gets
    packetRead := h.packetRead_keeps }
  exact parts.readPacket (PacketReader.composes_guarantees G)

theorem closeSession_keeps : (closeSession : Prog (Live σ (MQTTClientC T)) Unit).Guarantees G := by
  refine .bind (h.kept (fun _ => rfl) (fun _ => rfl) fun _ => rfl) fun _ => ?_
  exact .bind guarantees_obj fun c => .ite h.cleanSession .pure

theorem callAll_keeps {topicName : MQTTLenString} {message : Message} {called : List Nat} :
    (callAll p topicName message called).Guarantees G := by
  induction called with
  | nil => exact .pure
  | cons f fs ih => exact .bind (h.fp f topicName message) fun _ => ih

theorem deliverMessage_keeps {topicName : MQTTLenString} {message : Message} :
    (deliverMessage p topicName message).Guarantees G := by
  intro s rc s' hdeliver
  rw [deliverMessage, returns_obj_bind] at hdeliver
  split at hdeliver
  · exact absurd hdeliver Prog.returns_undefined
  · next called hcalled =>
    obtain ⟨u, s₁, hevent, hdeliver⟩ := Prog.returns_bind.mp hdeliver
    obtain rfl := returns_set.mp hevent
    have hcall := Guarantees.bind h.callAll_keeps (fun _ => .pure) _ _ _ hdeliver
    exact G.trans (h.delivered hcalled) hcall

theorem keepalive_keeps : (keepalive p).Guarantees G := by
  refine .bind guarantees_obj fun _ => .ite .pure (.bind ?_ fun _ => .ite ?_ .pure)
  · exact .bind guarantees_obj fun _ => .bind (h.silent (.timerIsExpired _)) fun _ => .ite .pure (h.silent (.timerIsExpired _))
  · refine .bind guarantees_obj fun c => .ite .pure (.bind (h.silent (.timerCountdownMS _)) fun t => .bind h.sendSerialized_keeps fun r => ?_)
    cases r with
    | error len => exact .pure
    | ok rc => exact .ite (.bind (h.kept (fun _ => rfl) (fun _ => rfl) fun _ => rfl) fun _ => .pure) .pure

theorem orIndeterminate_keeps {written : Option Nat} : (orIndeterminate p written).Guarantees G := by
  cases written with
  | none => exact h.silent .indeterminate
  | some n => exact .pure

theorem cyclePublish_keeps {t : T} : (cyclePublish p t).Guarantees G := by
  refine .bind guarantees_obj fun c => ?_
  dsimp only
  cases MQTTPacket.deserializePublish c.readbuf with
  | none => exact .undefined
  | some pub =>
    refine .ite .pure (.bind (.bind h.orIndeterminate_keeps fun _ => .pure) fun msg => ?_)
    refine .bind h.deliverMessage_keeps fun _ => .ite (.bind guarantees_obj fun _ => .bind h.sendSerialized_keeps fun r => ?_) .pure
    cases r <;> exact .pure

theorem cycleRelease_keeps {answer : MsgType} {t : T} : (cycleRelease p answer t).Guarantees G := by
  refine .bind guarantees_obj fun c => ?_
  cases MQTTPacket.deserializeAck c.readbuf with
  | none => exact .undefined
  | some ack =>
    refine .bind h.orIndeterminate_keeps fun _ => .ite .pure (.bind h.sendSerialized_keeps fun r => ?_)
    cases r <;> exact .pure

theorem cycle_keeps {t : T} : (cycle p t).Guarantees G := by
  have exit {packetType rc : Int} : (cycleExit packetType rc : Prog (Live σ (MQTTClientC T)) Int).Guarantees G :=
    .ite .pure (.bind guarantees_obj fun _ => .ite (.bind h.closeSession_keeps fun _ => .pure) .pure)
  refine .bind h.readPacket_keeps fun packetType => .bind ?_ fun r => ?_
  · refine .ite .pure (.ite h.cyclePublish_keeps (.ite h.cycleRelease_keeps (.ite h.cycleRelease_keeps (.ite ?_ .pure))))
    exact .bind (h.kept (fun _ => rfl) (fun _ => rfl) fun _ => rfl) fun _ => .pure
  · cases r with
    | error rc => exact exit
    | ok u => exact .bind h.keepalive_keeps fun _ => exit

theorem waitfor_keeps {packetType : MsgType} {t : T} : (waitfor p packetType t).Guarantees G :=
  .loop (fun _ => .bind (h.silent (.timerIsExpired _)) fun _ => .ite .pure (.bind h.cycle_keeps fun _ => .ite .pure .pure)) _

theorem requestExit_keeps {rc : Int} : (requestExit rc : Prog (Live σ (MQTTClientC T)) Int).Guarantees G :=
  .ite (.bind h.closeSession_keeps fun _ => .pure) .pure

theorem getNextPacketId_keeps : (getNextPacketId : Prog (Live σ (MQTTClientC T)) Nat).Guarantees G :=
  .bind (h.kept (fun _ => rfl) (fun _ => rfl) fun _ => rfl) fun _ => .bind guarantees_obj fun _ => .pure

theorem connect_keeps {options : Option ConnectData} : (connectWithResults p options).Guarantees G := by
  refine .bind guarantees_obj fun _ => .ite .pure (.bind guarantees_obj fun _ => .bind (h.silent (.timerCountdownMS _)) fun t => ?_)
  refine .bind (h.kept (fun _ => rfl) (fun _ => rfl) fun _ => rfl) fun _ => .bind (h.silent (.timerCountdown _)) fun _ => ?_
  refine .bind (h.kept (fun _ => rfl) (fun _ => rfl) fun _ => rfl) fun _ => ?_
  refine .bind h.connecting fun _ => .bind guarantees_obj fun c => ?_
  cases MQTTPacket.serializeConnect c.buf.length (options.getD {}) with
  | none => exact .undefined
  | some packet =>
    refine .bind h.sendSerialized_keeps fun r => ?_
    cases r with
    | error len => exact .pure
    | ok rc =>
      refine .ite .pure (.bind (.bind h.waitfor_keeps fun _ => .ite (.bind guarantees_obj fun c => ?_) .pure) fun out => ?_)
      · cases MQTTPacket.deserializeConnack c.readbuf with
        | none => exact .undefined
        | some ack => exact .pure
      · exact .ite (.bind (h.kept (fun _ => rfl) (fun _ => rfl) fun _ => rfl) fun _ => .pure) .pure

theorem subscribe_keeps {charSigned : Bool} {topicFilter : Bytes} {qos : Nat} {messageHandler : Option Nat} :
    (subscribeWithResults p charSigned topicFilter qos messageHandler).Guarantees G := by
  have exit {α : Type} {rc : Int} {f : Int → α} :
      (do return f (← requestExit rc) : Prog (Live σ (MQTTClientC T)) α).Guarantees G := .bind h.requestExit_keeps fun _ => .pure
  refine .bind guarantees_obj fun _ => .ite exit (.bind guarantees_obj fun _ => .bind (h.silent (.timerCountdownMS _)) fun t => ?_)
  refine .bind h.getNextPacketId_keeps fun _ => .bind guarantees_obj fun _ => .bind h.sendSerialized_keeps fun r => ?_
  cases r with
  | error len => exact exit
  | ok rc =>
    refine .ite exit (.bind (.bind h.waitfor_keeps fun _ => .ite (.bind guarantees_obj fun c => ?_) .pure) fun out => exit)
    cases MQTTPacket.deserializeSuback charSigned 1 c.readbuf with
    | none => exact .undefined
    | some ack => exact .ite .undefined (.ite (.bind (h.setMessageHandler _ _) fun _ => .pure) .pure)

theorem unsubscribe_keeps {topicFilter : Bytes} : (unsubscribe p topicFilter).Guarantees G := by
  refine .bind guarantees_obj fun _ => .ite h.requestExit_keeps (.bind guarantees_obj fun _ => .bind (h.silent (.timerCountdownMS _)) fun t => ?_)
  refine .bind h.getNextPacketId_keeps fun _ => .bind guarantees_obj fun _ => .bind h.sendSerialized_keeps fun r => ?_
  cases r with
  | error len => exact h.requestExit_keeps
  | ok rc =>
    refine .ite h.requestExit_keeps (.bind h.waitfor_keeps fun _ => .ite (.bind guarantees_obj fun c => ?_) h.requestExit_keeps)
    cases MQTTPacket.deserializeUnsuback c.readbuf with
    | none => exact .undefined
    | some ack => exact .ite (.bind (h.setMessageHandler _ _) fun _ => h.requestExit_keeps) h.requestExit_keeps

theorem publish_keeps {topicName : Bytes} {message : Message} : (publish p topicName message).Guarantees G := by
  have exit {rc : Int} {id : Nat} : (do return (← requestExit rc, id) : Prog (Live σ (MQTTClientC T)) (Int × Nat)).Guarantees G :=
    .bind h.requestExit_keeps fun _ => .pure
  have await {packetType : MsgType} {t : T} : (awaitAck p packetType t).Guarantees G := by
    refine .bind h.waitfor_keeps fun _ => .ite (.bind guarantees_obj fun c => ?_) .pure
    cases MQTTPacket.deserializeAck c.readbuf with
    | none => exact .undefined
    | some ack => exact .pure
  refine .bind guarantees_obj fun _ => .ite exit (.bind guarantees_obj fun _ => .bind (h.silent (.timerCountdownMS _)) fun t => ?_)
  refine .bind (.ite h.getNextPacketId_keeps .pure) fun id => .bind guarantees_obj fun _ => .bind h.sendSerialized_keeps fun r => ?_
  cases r with
  | error len => exact exit
  | ok rc => exact .ite exit (.bind (.ite await (.ite await .pure)) fun _ => exit)

theorem run_keeps {charSigned : Bool} {op : Op} : (op.run p charSigned).Guarantees G := by
  cases op with
  | connect => exact .bind h.connect_keeps fun _ => .pure
  | disconnect =>
    refine .bind guarantees_obj fun _ => .bind (h.silent (.timerCountdownMS _)) fun _ => .bind guarantees_obj fun _ => ?_
    exact .bind h.sendSerialized_keeps fun _ => .bind h.closeSession_keeps fun _ => .pure
  | yield_ =>
    refine .bind (h.silent (.timerCountdownMS _)) fun t => .loop (fun _ => .bind h.cycle_keeps fun _ => .ite .pure ?_) _
    exact .bind (h.silent (.timerIsExpired _)) fun _ => .ite .pure .pure
  | runTurn => exact .bind (h.silent (.timerCountdownMS _)) fun t => h.cycle_keeps
  | publish => exact .bind h.publish_keeps fun _ => .pure
  | subscribe => exact .bind h.subscribe_keeps fun _ => .pure
  | unsubscribe => exact h.unsubscribe_keeps
  | setMessageHandler => exact h.setMessageHandler _ _
  | setDefault fp =>
    intro s rc s' hset
    have hset : (do
      set fun c => { c with defaultMessageHandler := fp }
      happened (.defaultHandler fp)
      return MQTTClient.success : Prog (Live σ (MQTTClientC T)) Int).Returns s rc s' := hset
    rw [returns_set_bind, happened, returns_set_bind] at hset
    obtain ⟨-, rfl⟩ := Prog.returns_pure.mp hset
    exact h.setDefault s fp

end Steps

end MQTTClientC

end FEmbed
