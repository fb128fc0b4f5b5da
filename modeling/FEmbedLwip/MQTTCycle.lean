/-
What `cycle` and the operations around it may change: a guarantee that admits
the assignments they make is respected by all of them (`AllowsCycle`), or by
those that report no failure, where it admits only sends that succeed.
What is sent is known exactly (`sendSerialized_returns`).
-/
import FEmbedLwip.MQTTClient
import Mathlib.Logic.Relation

namespace FEmbed

open Live
open Prog (Guarantee Guarantees)
open Relation (ReflTransGen)

namespace MQTTClient

variable {σ T : Type} {p : MQTTPlatform σ T}

/-! ## Logs -/

/-- The type of a packet. -/
def packetType (packet : Bytes) : Nat := MQTTPacket.headerType (packet.headD 0)

/-- What happened from `s₀` to `s`. -/
def since (s₀ s : Live σ (MQTTClient σ T)) : List (MQTTEvent σ) := s.self.events.drop s₀.self.events.length

theorem since_eq {s₀ s : Live σ (MQTTClient σ T)} {log : List (MQTTEvent σ)} (h : s.self.events = s₀.self.events ++ log) :
    since s₀ s = log := by
  rw [since, h, List.drop_left]

theorem since_trans {s₀ s s' : Live σ (MQTTClient σ T)} (h : s.self.events = s₀.self.events ++ since s₀ s)
    (h' : s'.self.events = s.self.events ++ since s s') : since s₀ s' = since s₀ s ++ since s s' :=
  since_eq (by rw [h', ← List.append_assoc, ← h])

/-! ## Sending -/

theorem returns_happened {event : σ → MQTTEvent σ} {s : Live σ (MQTTClient σ T)} {u s'} :
    (happened event).Returns s u s' ↔ s' = ⟨{ s.self with events := s.self.events ++ [event s.env] }, s.env⟩ := by
  rw [happened, Prog.returns_gets_bind]
  exact returns_set

theorem returns_happened_bind {α : Type} {event : σ → MQTTEvent σ} {f : Unit → Prog (Live σ (MQTTClient σ T)) α}
    {s : Live σ (MQTTClient σ T)} {a s'} :
    (happened event >>= f).Returns s a s' ↔
      (f ()).Returns ⟨{ s.self with events := s.self.events ++ [event s.env] }, s.env⟩ a s' :=
  Prog.returns_bind_of (returns_happened.mpr rfl)

/-- A call, by what is outside before and after it. -/
inductive Outside (p : MQTTPlatform σ T) : σ → σ → Prop
  | read (n t e) : Outside p e (p.read n t e).2
  | write (bs t e) : Outside p e (p.write bs t e).2
  | timer (e) : Outside p e (p.timer e).2
  | timerMs (ms e) : Outside p e (p.timerMs ms e).2
  | countdown (n e) : Outside p e (p.countdown n e).2
  | countdownMs (n e) : Outside p e (p.countdownMs n e).2
  | expired (t e) : Outside p e (p.expired t e).2
  | leftMs (t e) : Outside p e (p.leftMs t e).2
  | callback (cb n m e) : Outside p e (p.callback cb n m e)
  | indeterminate (e) : Outside p e (p.indeterminate e).2

/-- The client stays what it is. -/
def outsideOnly (p : MQTTPlatform σ T) : Guarantee (Live σ (MQTTClient σ T)) where
  rel s s' := s'.self = s.self ∧ ReflTransGen (Outside p) s.env s'.env
  refl _ := ⟨rfl, .refl⟩
  trans h h' := ⟨h'.1.trans h.1, h.2.trans h'.2⟩

theorem guarantees_outside {α : Type} {f : σ → α × σ} (h : ∀ e, Outside p e (f e).2) :
    (call f : Prog (Live σ (MQTTClient σ T)) α).Guarantees (outsideOnly p) :=
  guarantees_call fun s => ⟨rfl, .single (h s.env)⟩

/-- A packet is recorded as sent if and only if it was sent. -/
theorem sendPacket_returns {t : T} {s : Live σ (MQTTClient σ T)} {rc : Int} {s'} (h : (sendPacket p t).Returns s rc s') :
    ∃ e, ReflTransGen (Outside p) s.env e ∧
      ((rc = success ∧ s' = ⟨{ s.self with events := s.self.events ++ [.sent s.self.sendbuf e] }, e⟩) ∨
        (rc = failure ∧ s' = ⟨s.self, e⟩)) := by
  have turn (sent : Int) : Guarantees (outsideOnly p) (do
      if ¬ sent < (s.self.sendbuf.length : Int) then
        return .exit sent
      if ← call (p.expired t) then
        return .exit sent
      let left ← call (p.leftMs t)
      let rc ← call (p.write (s.self.sendbuf.drop sent.toNat) left)
      if rc < 0 then
        return .exit sent
      return .next (sent + rc) : Prog (Live σ (MQTTClient σ T)) (Turn Int Int)) := by
    refine .ite .pure (.bind (guarantees_outside fun _ => .expired ..) fun _ => .ite .pure ?_)
    refine .bind (guarantees_outside fun _ => .leftMs ..) fun _ => .bind (guarantees_outside fun _ => .write ..) fun _ => ?_
    exact .ite .pure .pure
  rw [sendPacket, returns_obj_bind] at h
  obtain ⟨sent, u, hloop, h⟩ := Prog.returns_bind.mp h
  obtain ⟨hself, he⟩ := Guarantees.loop turn 0 s sent u hloop
  obtain ⟨c, e⟩ := u
  obtain rfl : c = s.self := hself
  refine ⟨e, he, ?_⟩
  rcases Prog.returns_ite.mp h with ⟨_, h⟩ | ⟨_, h⟩
  · rw [returns_happened_bind] at h
    obtain ⟨rfl, rfl⟩ := Prog.returns_pure.mp h
    exact .inl ⟨rfl, rfl⟩
  · obtain ⟨rfl, rfl⟩ := Prog.returns_pure.mp h
    exact .inr ⟨rfl, rfl⟩

theorem sendSerialized_returns {bs : Bytes} {t : T} {s : Live σ (MQTTClient σ T)} {r : Except Int Int} {s'}
    (h : (sendSerialized p (.ok bs) t).Returns s r s') :
    ∃ e, ReflTransGen (Outside p) s.env e ∧
      ((r = .ok success ∧ s' = ⟨{ s.self with sendbuf := bs, events := s.self.events ++ [.sent bs e] }, e⟩) ∨
        (r = .ok failure ∧ s' = ⟨{ s.self with sendbuf := bs }, e⟩)) := by
  rw [sendSerialized, returns_set_bind] at h
  obtain ⟨rc, u, hsend, h⟩ := Prog.returns_bind.mp h
  obtain ⟨rfl, rfl⟩ := Prog.returns_pure.mp h
  obtain ⟨e, he, ⟨rfl, rfl⟩ | ⟨rfl, rfl⟩⟩ := sendPacket_returns hsend
  · exact ⟨e, he, .inl ⟨rfl, rfl⟩⟩
  · exact ⟨e, he, .inr ⟨rfl, rfl⟩⟩

theorem sendSerialized_error {len : Int} {t : T} {s : Live σ (MQTTClient σ T)} {r : Except Int Int} {s'}
    (h : (sendSerialized p (.error len) t).Returns s r s') : r = .error len ∧ s' = s := Prog.returns_pure.mp h

/-! ## Closing -/

/-- The client after `cleanSession`. -/
def cleaned (c : MQTTClient σ T) : MQTTClient σ T :=
  { c with
    messageHandlers := c.messageHandlers.map fun h => { h with topicFilter := none }
    inflightMsgid := 0
    inflightQoS := 0
    pubrel := false
    incomingQoS2messages := c.incomingQoS2messages.map fun _ => 0
    events := c.events ++ [.cleaned] }

/-- The client after `closeSession`, but for the last event. -/
def disconnected (c : MQTTClient σ T) : MQTTClient σ T :=
  let c' : MQTTClient σ T := { c with pingOutstanding := 0, isconnected := false }
  if c.cleansession then cleaned c' else c'

/-- The client after `closeSession`. -/
def ended (c : MQTTClient σ T) : MQTTClient σ T :=
  let c' := disconnected c
  if c.isconnected then { c' with events := c'.events ++ [.closed c'.recorded] } else c'

theorem cleanSession_returns {s : Live σ (MQTTClient σ T)} {u s'} :
    (cleanSession).Returns s u s' ↔ s' = ⟨cleaned s.self, s.env⟩ := by
  rw [cleanSession, returns_set_bind, returns_happened]
  rfl

theorem closeSession_returns {s : Live σ (MQTTClient σ T)} {u s'} :
    (closeSession).Returns s u s' ↔ s' = ⟨ended s.self, s.env⟩ := by
  have key {c : MQTTClient σ T} :
      (if s.self.isconnected = true then do
          let left := (← obj).recorded
          happened fun _ => .closed left
        else pure () : Prog (Live σ (MQTTClient σ T)) Unit).Returns ⟨c, s.env⟩ u s' ↔
      s' = ⟨if s.self.isconnected then { c with events := c.events ++ [.closed c.recorded] } else c, s.env⟩ := by
    by_cases h : s.self.isconnected = true
    · rw [if_pos h, if_pos h, returns_obj_bind, returns_happened]
    · rw [if_neg h, if_neg h, Prog.returns_pure]
      exact and_iff_right rfl
  unfold closeSession ended disconnected
  rw [returns_obj_bind, returns_set_bind, returns_obj_bind]
  dsimp only
  by_cases hclean : s.self.cleansession = true
  · rw [if_pos hclean, if_pos hclean, Prog.returns_bind_of (a := ()) (cleanSession_returns.mpr rfl)]
    exact key
  · rw [if_neg hclean, if_neg hclean]
    exact key

theorem ended_isconnected (c : MQTTClient σ T) : (ended c).isconnected = false := by
  unfold ended disconnected
  dsimp only
  split <;> split <;> rfl

/-! ## Reading -/

theorem store_poke {i : Nat} {bs : Bytes} {s : Live σ (MQTTClient σ T)} {u s'} (h : (store i bs).Returns s u s') :
    ∃ readbuf, poke s.self.readbuf i bs = some readbuf ∧ s' = ⟨{ s.self with readbuf := readbuf }, s.env⟩ := by
  rw [store, returns_obj_bind] at h
  split at h
  · exact absurd h Prog.returns_undefined
  · exact ⟨_, ‹_›, returns_set.mp h⟩

theorem store_returns {i : Nat} {bs : Bytes} {s : Live σ (MQTTClient σ T)} {u s'} (h : (store i bs).Returns s u s') :
    ∃ readbuf, s' = ⟨{ s.self with readbuf := readbuf }, s.env⟩ := by
  obtain ⟨readbuf, _, hs'⟩ := store_poke h
  exact ⟨readbuf, hs'⟩

theorem decodePacket_returns {timeout : Int} {s : Live σ (MQTTClient σ T)} {n s'} (h : (decodePacket p timeout).Returns s n s') :
    s'.self = s.self ∧ ReflTransGen (Outside p) s.env s'.env := by
  have go (k m v : Nat) : (decodePacket.go p timeout k m v).Guarantees (outsideOnly p) := by
    induction k generalizing m v with
    | zero => exact .pure
    | succ k ih => exact .bind (guarantees_outside fun _ => .read ..) fun _ => .ite .pure (.ite .pure (ih _ _))
  exact go 4 1 0 s n s' h

/-! ## What does not write -/

/-- A call that writes nothing, by what is outside before and after it. -/
inductive Mute (p : MQTTPlatform σ T) : σ → σ → Prop
  | read (n t e) : Mute p e (p.read n t e).2
  | timer (e) : Mute p e (p.timer e).2
  | timerMs (ms e) : Mute p e (p.timerMs ms e).2
  | countdown (n e) : Mute p e (p.countdown n e).2
  | countdownMs (n e) : Mute p e (p.countdownMs n e).2
  | expired (t e) : Mute p e (p.expired t e).2
  | leftMs (t e) : Mute p e (p.leftMs t e).2
  | callback (cb n m e) : Mute p e (p.callback cb n m e)
  | indeterminate (e) : Mute p e (p.indeterminate e).2

theorem Mute.outside {e e' : σ} (h : Mute p e e') : Outside p e e' := by
  cases h with
  | read n t => exact .read n t e
  | timer => exact .timer e
  | timerMs ms => exact .timerMs ms e
  | countdown n => exact .countdown n e
  | countdownMs n => exact .countdownMs n e
  | expired t => exact .expired t e
  | leftMs t => exact .leftMs t e
  | callback cb n m => exact .callback cb n m e
  | indeterminate => exact .indeterminate e

theorem Outside.mute_or_write {e e' : σ} (h : Outside p e e') : Mute p e e' ∨ ∃ bs t, e' = (p.write bs t e).2 := by
  cases h with
  | read n t => exact .inl (.read n t e)
  | write bs t => exact .inr ⟨bs, t, rfl⟩
  | timer => exact .inl (.timer e)
  | timerMs ms => exact .inl (.timerMs ms e)
  | countdown n => exact .inl (.countdown n e)
  | countdownMs n => exact .inl (.countdownMs n e)
  | expired t => exact .inl (.expired t e)
  | leftMs t => exact .inl (.leftMs t e)
  | callback cb n m => exact .inl (.callback cb n m e)
  | indeterminate => exact .inl (.indeterminate e)

/-- A guarantee that admits such calls, those of handlers too. -/
structure AllowsCalls (p : MQTTPlatform σ T) (G : Guarantee (Live σ (MQTTClient σ T))) : Prop where
  mute : ∀ s e, Mute p s.env e → G.rel s ⟨s.self, e⟩
  called : ∀ s cb n m, G.rel s ⟨{ s.self with events := s.self.events ++ [.called cb n m] }, s.env⟩

section Calls

variable {G : Guarantee (Live σ (MQTTClient σ T))} (A : AllowsCalls p G)

include A

theorem AllowsCalls.call {α : Type} {f : σ → α × σ} (h : ∀ e, Mute p e (f e).2) :
    (call f : Prog (Live σ (MQTTClient σ T)) α).Guarantees G :=
  guarantees_call fun s => A.mute s _ (h s.env)

theorem AllowsCalls.callHandler {fp : FP} {topicName : MQTTLenString} {m : Message} :
    (callHandler p fp topicName m).Guarantees G := by
  rw [MQTTClient.callHandler]
  split
  · exact .undefined
  · exact .pure
  · exact .bind (.bind .gets fun _ => guarantees_set fun s => A.called s ..) fun _ =>
      guarantees_tell fun s => A.mute s _ (.callback ..)

theorem AllowsCalls.deliverLoop {topicName : MQTTLenString} {m : Message} {hs : List MessageHandler} {found : Bool} :
    (deliverLoop p topicName m hs found).Guarantees G := by
  induction hs generalizing found with
  | nil => exact .pure
  | cons h hs ih =>
    rw [MQTTClient.deliverLoop]
    split
    · exact ih
    · split
      · exact .undefined
      · exact .ite (.bind A.callHandler fun _ => ih) ih

theorem AllowsCalls.deliverMessage {topicName : MQTTLenString} {m : Message} : (deliverMessage p topicName m).Guarantees G := by
  refine .bind guarantees_obj fun _ => .bind A.deliverLoop fun _ => .bind guarantees_obj fun _ => ?_
  exact .ite .pure (.ite (.bind A.callHandler fun _ => .pure) .pure)

theorem AllowsCalls.orIndeterminate {written : Option Nat} : (orIndeterminate p written).Guarantees G := by
  cases written with
  | some n => exact .pure
  | none => exact A.call fun _ => .indeterminate ..

end Calls

/-- A guarantee that admits what else is done for a packet from the broker before
it is answered. -/
structure AllowsDelivery (p : MQTTPlatform σ T) (G : Guarantee (Live σ (MQTTClient σ T))) : Prop extends AllowsCalls p G where
  delivered : ∀ s n m, G.rel s ⟨{ s.self with events := s.self.events ++ [.delivered n m] }, s.env⟩
  incoming : ∀ s ids, G.rel s ⟨{ s.self with incomingQoS2messages := ids }, s.env⟩

section Delivery

variable {G : Guarantee (Live σ (MQTTClient σ T))} (A : AllowsDelivery p G)

include A

theorem AllowsDelivery.deliver {topicName : MQTTLenString} {m : Message} : (deliver p topicName m).Guarantees G :=
  .bind (.bind .gets fun _ => guarantees_set fun s => A.delivered s ..) fun _ => .bind A.deliverMessage fun _ => .pure

theorem AllowsDelivery.useQoS2msgid {id : Nat} : (useQoS2msgid id : Prog (Live σ (MQTTClient σ T)) Bool).Guarantees G := by
  refine .bind guarantees_obj fun _ => ?_
  split
  · exact .bind (guarantees_set fun s => A.incoming s _) fun _ => .pure
  · exact .pure

end Delivery

/-- A guarantee that admits what else `cycle` does but for its sends. -/
structure AllowsReading (p : MQTTPlatform σ T) (G : Guarantee (Live σ (MQTTClient σ T))) : Prop extends AllowsDelivery p G where
  readbuf : ∀ s bs, bs.length = s.self.readbuf.length → G.rel s ⟨{ s.self with readbuf := bs }, s.env⟩
  received : ∀ s packet, G.rel s ⟨{ s.self with events := s.self.events ++ [.received packet s.env] }, s.env⟩
  cutShort : ∀ s, G.rel s ⟨{ s.self with events := s.self.events ++ [.cutShort s.env] }, s.env⟩
  lastReceived : ∀ s t, G.rel s ⟨{ s.self with lastReceived := t }, s.env⟩
  pingOutstanding : ∀ s n, G.rel s ⟨{ s.self with pingOutstanding := n }, s.env⟩
  closed : ∀ s, G.rel s ⟨{ s.self with pingOutstanding := 0, isconnected := false }, s.env⟩
  cleaned : (cleanSession : Prog (Live σ (MQTTClient σ T)) Unit).Guarantees G
  ended : ∀ s left, G.rel s ⟨{ s.self with events := s.self.events ++ [.closed left] }, s.env⟩

section Reading

variable {G : Guarantee (Live σ (MQTTClient σ T))} (A : AllowsReading p G)

include A

theorem AllowsReading.closeSession : (closeSession : Prog (Live σ (MQTTClient σ T)) Unit).Guarantees G := by
  have record (left : SessionState) : (happened fun _ => .closed left : Prog (Live σ (MQTTClient σ T)) Unit).Guarantees G :=
    .bind .gets fun _ => guarantees_set fun s => A.ended s left
  refine .bind guarantees_obj fun _ => .bind (guarantees_set A.closed) fun _ => .bind guarantees_obj fun _ => ?_
  have last {c : Bool} : (if c then (obj >>= fun c => happened fun _ => .closed c.recorded) else pure () :
      Prog (Live σ (MQTTClient σ T)) Unit).Guarantees G := .ite (.bind guarantees_obj fun _ => record _) .pure
  exact .ite (.bind A.cleaned fun _ => last) last

theorem AllowsReading.decodePacket {timeout : Int} : (decodePacket p timeout).Guarantees G := by
  have go (k m v : Nat) : (decodePacket.go p timeout k m v).Guarantees G := by
    induction k generalizing m v with
    | zero => exact .pure
    | succ k ih => exact .bind (A.call fun _ => .read ..) fun _ => .ite .pure (.ite .pure (ih _ _))
  exact go 4 1 0

theorem AllowsReading.store {i : Nat} {bs : Bytes} : (store i bs : Prog (Live σ (MQTTClient σ T)) Unit).Guarantees G := by
  intro s u s' h
  obtain ⟨buf, hbuf, rfl⟩ := store_poke h
  exact A.readbuf s buf (poke_length hbuf)

theorem AllowsReading.packetRead {n : Nat} : (packetRead p n).Guarantees G := by
  have record (packet : Bytes) : (happened fun e => .received packet e : Prog (Live σ (MQTTClient σ T)) Unit).Guarantees G := by
    rintro s _ s' h
    rw [returns_happened.mp h]
    exact A.received s packet
  refine .bind guarantees_obj fun _ => .ite ?_ (.bind (record _) fun _ => .pure)
  refine .bind (A.call fun _ => .countdown ..) fun _ => ?_
  exact .bind (guarantees_set fun s => A.lastReceived s _) fun _ => .bind (record _) fun _ => .pure

theorem AllowsReading.readPacket {t : T} : (readPacket p t).Guarantees G := by
  have left : (Live.call (p.leftMs t) : Prog (Live σ (MQTTClient σ T)) Int).Guarantees G := A.call fun _ => .leftMs ..
  have read (n : Nat) (ms : Int) : (Live.call (p.read n ms) : Prog (Live σ (MQTTClient σ T)) _).Guarantees G :=
    A.call fun _ => .read ..
  refine .bind left fun _ => .bind (read _ _) fun _ => .bind A.store fun _ => .ite .pure ?_
  refine .bind left fun _ => .bind A.decodePacket fun _ => .bind A.store fun _ => .ite .pure ?_
  refine .ite ?_ A.packetRead
  have cut : (happened .cutShort : Prog (Live σ (MQTTClient σ T)) Unit).Guarantees G := by
    rintro s _ s' h
    rw [returns_happened.mp h]
    exact A.cutShort s
  exact .bind left fun _ => .bind (read _ _) fun _ => .bind A.store fun _ => .ite (.bind cut fun _ => .pure) A.packetRead

theorem AllowsReading.cycleExit {packetType rc : Int} :
    (cycleExit packetType rc : Prog (Live σ (MQTTClient σ T)) Int).Guarantees G :=
  .ite .pure (.bind guarantees_obj fun _ => .ite (.bind A.closeSession fun _ => .pure) .pure)

end Reading

/-! ## What sends -/

/-- A guarantee that admits sends of the packets of the kind `sendable`, which
acknowledgements are; those that fail too, where it is `lossy`. -/
structure AllowsSends (p : MQTTPlatform σ T) (G : Guarantee (Live σ (MQTTClient σ T))) (sendable : Bytes → Prop) (lossy : Prop) :
    Prop extends AllowsDelivery p G where
  ack : ∀ {type dup id bs}, type ≠ .pingreq → MQTTPacket.serializeAck p.maxMqttPacketSize type dup id = .ok bs → sendable bs
  buffered : ∀ s bs, sendable bs → G.rel s ⟨{ s.self with sendbuf := bs }, s.env⟩
  sends : ∀ {t s rc s'}, sendable s.self.sendbuf → lossy ∨ rc ≠ failure → (sendPacket p t).Returns s rc s' → G.rel s s'

theorem ne_failure {rc : Int} (h : 0 ≤ rc) : rc ≠ failure := by
  rintro rfl
  exact absurd h (by decide)

section Sends

variable {G : Guarantee (Live σ (MQTTClient σ T))} {sendable : Bytes → Prop} {lossy : Prop} (A : AllowsSends p G sendable lossy)

include A

/-- The packet is sent, or there is none. -/
theorem AllowsSends.sendSerialized {packet : Except Int Bytes} {t : T} {s : Live σ (MQTTClient σ T)} {r : Except Int Int} {s'}
    (hpacket : ∀ bs, packet = .ok bs → sendable bs) (h : (sendSerialized p packet t).Returns s r s') :
    (∃ len, r = .error len ∧ G.rel s s') ∨ ∃ rc, r = .ok rc ∧ (lossy ∨ rc ≠ failure → G.rel s s') := by
  cases packet with
  | error len =>
    obtain ⟨rfl, rfl⟩ := sendSerialized_error h
    exact .inl ⟨len, rfl, G.refl _⟩
  | ok bs =>
    have hbs : sendable bs := hpacket bs rfl
    rw [MQTTClient.sendSerialized, returns_set_bind] at h
    obtain ⟨rc, u, hsend, h⟩ := Prog.returns_bind.mp h
    obtain ⟨rfl, rfl⟩ := Prog.returns_pure.mp h
    exact .inr ⟨rc, rfl, fun hwell => G.trans (A.buffered s bs hbs) (A.sends hbs hwell hsend)⟩

theorem AllowsSends.acknowledge {msg : Message} {t : T} {s : Live σ (MQTTClient σ T)} {r : CycleExit} {s'}
    (hwell : lossy ∨ r ≠ .error failure) (h : (acknowledge p msg t).Returns s r s') : G.rel s s' := by
  obtain ⟨r', u, hsend, h⟩ := Prog.returns_bind.mp h
  have hpacket : ∀ bs, (if msg.qos = 1 then MQTTPacket.serializeAck p.maxMqttPacketSize .puback false msg.id
      else if msg.qos = 2 then MQTTPacket.serializeAck p.maxMqttPacketSize .pubrec false msg.id else .error 0 : Except Int Bytes) =
      .ok bs → sendable bs := by
    intro bs hbs
    split at hbs
    · exact A.ack (by decide) hbs
    · split at hbs
      · exact A.ack (by decide) hbs
      · exact nomatch hbs
  obtain ⟨len, rfl, hsent⟩ | ⟨rc, rfl, hsent⟩ := A.sendSerialized hpacket hsend
  · obtain ⟨-, rfl⟩ := Prog.returns_pure.mp h
    exact hsent
  · obtain ⟨rfl, rfl⟩ := Prog.returns_pure.mp h
    exact hsent (hwell.imp_right fun hr hrc => hr (if_pos hrc))

theorem AllowsSends.cyclePublish {t : T} {s : Live σ (MQTTClient σ T)} {r : CycleExit} {s'} (hwell : lossy ∨ r ≠ .error failure)
    (h : (cyclePublish p t).Returns s r s') : G.rel s s' := by
  rw [MQTTClient.cyclePublish, returns_obj_bind] at h
  split at h
  · exact absurd h Prog.returns_undefined
  rcases Prog.returns_ite.mp h with ⟨-, h⟩ | ⟨-, h⟩
  · exact Guarantees.pure _ r s' h
  obtain ⟨msg, u, hmsg, h⟩ := Prog.returns_bind.mp h
  refine G.trans (Guarantees.bind A.orIndeterminate (fun _ => .pure) _ msg u hmsg) ?_
  have answer {v : Live σ (MQTTClient σ T)}
      (h : (if msg.qos ≠ 0 then MQTTClient.acknowledge p msg t else pure (.ok ())).Returns v r s') : G.rel v s' := by
    rcases Prog.returns_ite.mp h with ⟨-, h⟩ | ⟨-, h⟩
    · exact A.acknowledge hwell h
    · exact Guarantees.pure _ r s' h
  rcases Prog.returns_ite.mp h with ⟨-, h⟩ | ⟨-, h⟩
  · obtain ⟨_, v, hdeliver, h⟩ := Prog.returns_bind.mp h
    exact G.trans (A.deliver _ _ v hdeliver) (answer h)
  rcases Prog.returns_ite.mp h with ⟨-, h⟩ | ⟨-, h⟩
  · obtain ⟨used, v, huse, h⟩ := Prog.returns_bind.mp h
    refine G.trans (A.useQoS2msgid _ _ v huse) ?_
    rcases Prog.returns_ite.mp h with ⟨-, h⟩ | ⟨-, h⟩
    · obtain ⟨_, w, hdeliver, h⟩ := Prog.returns_bind.mp h
      exact G.trans (A.deliver _ _ w hdeliver) (answer h)
    · exact answer h
  · exact answer h

theorem AllowsSends.cycleRelease {packetType : MsgType} {t : T} {s : Live σ (MQTTClient σ T)} {r : CycleExit} {s'}
    (hwell : lossy ∨ r ≠ .error failure) (h : (cycleRelease p packetType t).Returns s r s') : G.rel s s' := by
  rw [MQTTClient.cycleRelease, returns_obj_bind] at h
  split at h
  · exact absurd h Prog.returns_undefined
  obtain ⟨id, u, hid, h⟩ := Prog.returns_bind.mp h
  refine G.trans (A.orIndeterminate _ id u hid) ?_
  rcases Prog.returns_ite.mp h with ⟨-, h⟩ | ⟨-, h⟩
  · exact Guarantees.pure u r s' h
  obtain ⟨r', v, hsend, h⟩ := Prog.returns_bind.mp h
  obtain ⟨len, rfl, hsent⟩ | ⟨rc, rfl, hsent⟩ := A.sendSerialized (fun bs hbs => A.ack (by split <;> decide) hbs) hsend
  · obtain ⟨-, rfl⟩ := Prog.returns_pure.mp h
    exact hsent
  rcases Prog.returns_ite.mp h with ⟨-, h⟩ | ⟨hrc, h⟩
  · obtain ⟨rfl, rfl⟩ := Prog.returns_pure.mp h
    exact hsent (hwell.imp_right fun hr => absurd rfl hr)
  · refine G.trans (hsent (.inr (ne_failure (not_not.mp hrc ▸ Int.le_refl 0)))) ?_
    exact Guarantees.ite (.bind (guarantees_set fun s => A.incoming s _) fun _ => .pure) .pure v r s' h

end Sends

/-- A guarantee that admits all that `cycle` does. -/
structure AllowsCycle (p : MQTTPlatform σ T) (G : Guarantee (Live σ (MQTTClient σ T))) (sendable : Bytes → Prop) (lossy : Prop) :
    Prop extends AllowsReading p G, AllowsSends p G sendable lossy where
  pingreq : ∀ {bs}, MQTTPacket.serializePingreq p.maxMqttPacketSize = .ok bs → sendable bs

section Cycle

variable {G : Guarantee (Live σ (MQTTClient σ T))} {sendable : Bytes → Prop} {lossy : Prop} (A : AllowsCycle p G sendable lossy)

include A

theorem AllowsCycle.keepalive {s : Live σ (MQTTClient σ T)} {rc : Int} {s'} (hwell : lossy ∨ 0 ≤ rc)
    (h : (keepalive p).Returns s rc s') : G.rel s s' := by
  rw [MQTTClient.keepalive, returns_obj_bind] at h
  rcases Prog.returns_ite.mp h with ⟨-, h⟩ | ⟨-, h⟩
  · exact Guarantees.pure s rc s' h
  obtain ⟨expired, u, hexpired, h⟩ := Prog.returns_bind.mp h
  refine G.trans (A.call (fun _ => .expired ..) s expired u hexpired) ?_
  rcases Prog.returns_ite.mp h with ⟨-, h⟩ | ⟨-, h⟩
  · rcases Prog.returns_ite.mp h with ⟨-, h⟩ | ⟨-, h⟩
    · exact Guarantees.pure _ rc s' h
    obtain ⟨t, v, htimer, h⟩ := Prog.returns_bind.mp h
    refine G.trans (A.call (fun _ => .timerMs ..) u t v htimer) ?_
    obtain ⟨r, w, hsend, h⟩ := Prog.returns_bind.mp h
    obtain ⟨len, rfl, hsent⟩ | ⟨rc', rfl, hsent⟩ := A.sendSerialized (fun _ => A.pingreq) hsend
    · exact G.trans hsent (Guarantees.pure w rc s' h)
    · rcases Prog.returns_ite.mp h with ⟨hrc, h⟩ | ⟨-, h⟩
      · refine G.trans (hsent (.inr (ne_failure (hrc ▸ Int.le_refl 0)))) ?_
        refine Guarantees.bind (A.call fun _ => .countdown ..) (fun t => .bind (guarantees_set fun s => ?_) fun _ => .pure) w rc s' h
        exact G.trans (A.lastReceived s t) (A.pingOutstanding ⟨{ s.self with lastReceived := t }, s.env⟩ _)
      · obtain ⟨rfl, rfl⟩ := Prog.returns_pure.mp h
        exact hsent (hwell.imp_right ne_failure)
  · exact Guarantees.pure _ rc s' h

theorem AllowsCycle.cycleSwitch {packetType : Int} {t : T} {s : Live σ (MQTTClient σ T)} {r : CycleExit} {s'}
    (hwell : lossy ∨ r ≠ .error failure) (h : (cycleSwitch p packetType t).Returns s r s') : G.rel s s' := by
  rcases Prog.returns_ite.mp h with ⟨-, h⟩ | ⟨-, h⟩
  · exact Guarantees.pure s r s' h
  rcases Prog.returns_ite.mp h with ⟨-, h⟩ | ⟨-, h⟩
  · exact A.cyclePublish hwell h
  rcases Prog.returns_ite.mp h with ⟨-, h⟩ | ⟨-, h⟩
  · exact A.cycleRelease hwell h
  rcases Prog.returns_ite.mp h with ⟨-, h⟩ | ⟨-, h⟩
  · exact A.cycleRelease hwell h
  exact Guarantees.ite (.bind (guarantees_set fun s => A.pingOutstanding s 0) fun _ => .pure) .pure s r s' h

omit A in
/-- An error is what `cycle` returns. -/
theorem cycleExit_out {packetType rc : Int} {s : Live σ (MQTTClient σ T)} {out : Int} {s'}
    (h : (cycleExit packetType rc).Returns s out s') : rc = success ∨ out = rc := by
  rcases Prog.returns_ite.mp h with ⟨hrc, -⟩ | ⟨-, h⟩
  · exact .inl hrc
  rw [returns_obj_bind] at h
  rcases Prog.returns_ite.mp h with ⟨-, h⟩ | ⟨-, h⟩
  · obtain ⟨_, _, -, h⟩ := Prog.returns_bind.mp h
    exact .inr (Prog.returns_pure.mp h).1
  · exact .inr (Prog.returns_pure.mp h).1

theorem AllowsCycle.cycle {t : T} {s : Live σ (MQTTClient σ T)} {rc : Int} {s'} (hwell : lossy ∨ 0 ≤ rc)
    (h : (cycle p t).Returns s rc s') : G.rel s s' := by
  obtain ⟨sendTimer, u, htimer, h⟩ := Prog.returns_bind.mp h
  obtain ⟨packetType, v, hread, h⟩ := Prog.returns_bind.mp h
  obtain ⟨r, w, hswitch, h⟩ := Prog.returns_bind.mp h
  refine G.trans (G.trans (A.call (fun _ => .timer ..) s sendTimer u htimer) (A.readPacket u packetType v hread)) ?_
  cases r with
  | error rc' =>
    refine G.trans (A.cycleSwitch (hwell.imp_right fun hpos => ?_) hswitch) (A.cycleExit w rc s' h)
    rintro ⟨⟩
    rcases cycleExit_out h with hrc | rfl
    · exact absurd hrc (by decide)
    · exact absurd hpos (by decide)
  | ok _ =>
    obtain ⟨rc', x, hkeepalive, h⟩ := Prog.returns_bind.mp h
    have hpos : 0 ≤ rc → 0 ≤ rc' := by
      intro hpos
      by_cases hzero : rc' = success
      · exact Int.le_of_eq hzero.symm
      · have hrc := cycleExit_out h
        rw [if_neg hzero] at hrc
        rcases hrc with hrc | rfl
        · exact absurd hrc (by decide)
        · exact absurd hpos (by decide)
    refine G.trans (A.cycleSwitch (hwell.imp_right fun _ => by simp) hswitch) ?_
    exact G.trans (A.keepalive (hwell.imp_right hpos) hkeepalive) (A.cycleExit x rc s' h)

theorem AllowsCycle.waitfor {packetType : MsgType} {t : T} {s : Live σ (MQTTClient σ T)} {rc : Int} {s'} (hwell : lossy ∨ 0 ≤ rc)
    (h : (waitfor p packetType t).Returns s rc s') : G.rel s s' := by
  refine h.loop_inv (fun (_ : Int) u => G.rel s u) (fun (out : Int) u => lossy ∨ 0 ≤ out → G.rel s u) ?_ (G.refl s) hwell
  intro last u r u' hsofar h
  rw [returns_call_bind] at h
  have hasked : G.rel s ⟨u.self, (p.expired t u.env).2⟩ := G.trans hsofar (A.mute u _ (.expired ..))
  rcases Prog.returns_ite.mp h with ⟨-, h⟩ | ⟨-, h⟩
  · obtain ⟨rfl, rfl⟩ := Prog.returns_pure.mp h
    exact fun _ => hasked
  obtain ⟨rc', w, hcycle, h⟩ := Prog.returns_bind.mp h
  rcases Prog.returns_ite.mp h with ⟨hnext, h⟩ | ⟨-, h⟩
  · obtain ⟨rfl, rfl⟩ := Prog.returns_pure.mp h
    exact G.trans hasked (A.cycle (.inr hnext.2) hcycle)
  · obtain ⟨rfl, rfl⟩ := Prog.returns_pure.mp h
    exact fun hwell' => G.trans hasked (A.cycle hwell' hcycle)

theorem AllowsCycle.yield_ {n : Nat} {s : Live σ (MQTTClient σ T)} {rc : Int} {s'} (hwell : lossy ∨ 0 ≤ rc)
    (h : (yield_ p n).Returns s rc s') : G.rel s s' := by
  obtain ⟨t, u, htimer, h⟩ := Prog.returns_bind.mp h
  refine G.trans (A.call (fun _ => .countdownMs ..) s t u htimer) ?_
  refine h.loop_inv (fun (_ : Unit) v => G.rel u v) (fun (out : Int) v => lossy ∨ 0 ≤ out → G.rel u v) ?_ (G.refl u) hwell
  intro last v r v' hsofar h
  rw [returns_call_bind] at h
  have hasked : G.rel u ⟨v.self, (p.expired t v.env).2⟩ := G.trans hsofar (A.mute v _ (.expired ..))
  rcases Prog.returns_ite.mp h with ⟨-, h⟩ | ⟨-, h⟩
  · obtain ⟨rfl, rfl⟩ := Prog.returns_pure.mp h
    exact fun _ => hasked
  obtain ⟨rc', x, hcycle, h⟩ := Prog.returns_bind.mp h
  rcases Prog.returns_ite.mp h with ⟨-, h⟩ | ⟨hpos, h⟩
  · obtain ⟨rfl, rfl⟩ := Prog.returns_pure.mp h
    exact fun hwell' => G.trans hasked (A.cycle (hwell'.imp_right fun hfail => absurd hfail (by decide)) hcycle)
  · obtain ⟨rfl, rfl⟩ := Prog.returns_pure.mp h
    exact G.trans hasked (A.cycle (.inr (Int.not_lt.mp hpos)) hcycle)

end Cycle

/-- A guarantee that admits each step of a send, of packets of the kind `sendable`. -/
structure Allows (p : MQTTPlatform σ T) (G : Guarantee (Live σ (MQTTClient σ T))) (sendable : Bytes → Prop) : Prop
    extends AllowsDelivery p G where
  write : ∀ s bs t, G.rel s ⟨s.self, (p.write bs t s.env).2⟩
  ack : ∀ {type dup id bs}, type ≠ .pingreq → MQTTPacket.serializeAck p.maxMqttPacketSize type dup id = .ok bs → sendable bs
  buffered : ∀ s bs, sendable bs → G.rel s ⟨{ s.self with sendbuf := bs }, s.env⟩
  sent : ∀ s, sendable s.self.sendbuf →
    G.rel s ⟨{ s.self with events := s.self.events ++ [.sent s.self.sendbuf s.env] }, s.env⟩

section Steps

variable {G : Guarantee (Live σ (MQTTClient σ T))} {sendable : Bytes → Prop} (A : Allows p G sendable)

include A

theorem Allows.outside {s : Live σ (MQTTClient σ T)} {e : σ} (h : Outside p s.env e) : G.rel s ⟨s.self, e⟩ := by
  rcases h.mute_or_write with h | ⟨bs, t, rfl⟩
  · exact A.mute s e h
  · exact A.write s bs t

theorem Allows.reaches {s : Live σ (MQTTClient σ T)} {e : σ} (h : ReflTransGen (Outside p) s.env e) : G.rel s ⟨s.self, e⟩ := by
  induction h with
  | refl => exact G.refl s
  | tail _ hstep ih => exact G.trans ih (A.outside hstep)

theorem Allows.sends : AllowsSends p G sendable True where
  toAllowsDelivery := A.toAllowsDelivery
  ack := A.ack
  buffered := A.buffered
  sends {_ s _ _} hsendable _ h := by
    obtain ⟨e, he, ⟨_, rfl⟩ | ⟨_, rfl⟩⟩ := sendPacket_returns h
    · exact G.trans (A.reaches he) (A.sent ⟨s.self, e⟩ hsendable)
    · exact A.reaches he

theorem Allows.sendSerialized {packet : Except Int Bytes} {t : T} (hpacket : ∀ bs, packet = .ok bs → sendable bs) :
    (sendSerialized p packet t).Guarantees G := by
  intro s r s' h
  obtain ⟨_, _, hsent⟩ | ⟨_, _, hsent⟩ := A.sends.sendSerialized hpacket h
  · exact hsent
  · exact hsent (.inl trivial)

end Steps

/-- A guarantee that admits each step of `cycle`, and every packet. -/
structure AllowsAll (p : MQTTPlatform σ T) (G : Guarantee (Live σ (MQTTClient σ T))) : Prop
    extends AllowsReading p G, Allows p G fun _ => True

theorem AllowsAll.cycles {G : Guarantee (Live σ (MQTTClient σ T))} (A : AllowsAll p G) : AllowsCycle p G (fun _ => True) True where
  toAllowsReading := A.toAllowsReading
  ack _ _ := trivial
  buffered := A.buffered
  sends := A.toAllows.sends.sends
  pingreq _ := trivial

/-! ## How the cases of `cycle` fail -/

theorem acknowledge_error {msg : Message} {t : T} {s : Live σ (MQTTClient σ T)} {rc s'}
    (h : (acknowledge p msg t).Returns s (.error rc) s') : rc = failure := by
  obtain ⟨r, u, _, h⟩ := Prog.returns_bind.mp h
  cases r with
  | error => exact Except.error.inj (Prog.returns_pure.mp h).1
  | ok rc' =>
    have h := (Prog.returns_pure.mp h).1
    split at h
    · exact Except.error.inj h
    · exact nomatch h

theorem cyclePublish_error {t : T} {s : Live σ (MQTTClient σ T)} {rc s'}
    (h : (cyclePublish p t).Returns s (.error rc) s') : rc = success ∨ rc = failure := by
  rw [cyclePublish, returns_obj_bind] at h
  split at h
  · exact absurd h Prog.returns_undefined
  rcases Prog.returns_ite.mp h with ⟨_, h⟩ | ⟨_, h⟩
  · exact .inl (Except.error.inj (Prog.returns_pure.mp h).1)
  obtain ⟨msg, u, _, h⟩ := Prog.returns_bind.mp h
  have answer {v : Live σ (MQTTClient σ T)}
      (h : (if msg.qos ≠ 0 then acknowledge p msg t else pure (.ok ())).Returns v (.error rc) s') : rc = failure := by
    rcases Prog.returns_ite.mp h with ⟨_, h⟩ | ⟨_, h⟩
    · exact acknowledge_error h
    · exact nomatch (Prog.returns_pure.mp h).1
  refine .inr ?_
  rcases Prog.returns_ite.mp h with ⟨_, h⟩ | ⟨_, h⟩
  · obtain ⟨_, _, _, h⟩ := Prog.returns_bind.mp h
    exact answer h
  rcases Prog.returns_ite.mp h with ⟨_, h⟩ | ⟨_, h⟩
  · obtain ⟨used, _, _, h⟩ := Prog.returns_bind.mp h
    rcases Prog.returns_ite.mp h with ⟨_, h⟩ | ⟨_, h⟩
    · obtain ⟨_, _, _, h⟩ := Prog.returns_bind.mp h
      exact answer h
    · exact answer h
  · exact answer h

theorem cycleRelease_error {packetType : MsgType} {t : T} {s : Live σ (MQTTClient σ T)} {rc s'}
    (h : (cycleRelease p packetType t).Returns s (.error rc) s') : rc = failure := by
  rw [cycleRelease, returns_obj_bind] at h
  split at h
  · exact absurd h Prog.returns_undefined
  obtain ⟨id, u, _, h⟩ := Prog.returns_bind.mp h
  rcases Prog.returns_ite.mp h with ⟨_, h⟩ | ⟨_, h⟩
  · exact Except.error.inj (Prog.returns_pure.mp h).1
  obtain ⟨r, v, _, h⟩ := Prog.returns_bind.mp h
  cases r with
  | error => exact Except.error.inj (Prog.returns_pure.mp h).1
  | ok rc' =>
    rcases Prog.returns_ite.mp h with ⟨_, h⟩ | ⟨_, h⟩
    · exact Except.error.inj (Prog.returns_pure.mp h).1
    · rcases Prog.returns_ite.mp h with ⟨_, h⟩ | ⟨_, h⟩
      · obtain ⟨_, _, _, h⟩ := Prog.returns_bind.mp h
        exact nomatch (Prog.returns_pure.mp h).1
      · exact nomatch (Prog.returns_pure.mp h).1

end MQTTClient

end FEmbed
