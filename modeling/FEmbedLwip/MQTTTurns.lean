/-
One turn of `cycle`: what came in, what was done for it, and how the client was
left. `waitfor` and `yield` are sequences of such turns.

A turn leaves the client's `Standing` what it is, or it closes the session.
-/
import FEmbedLwip.MQTTSession
import FEmbedLwip.MQTTCycle

namespace FEmbed

open Live
open Prog (Guarantee Guarantees)
open Relation (ReflTransGen)

namespace MQTTClient

variable {σ T : Type} {p : MQTTPlatform σ T}

/-! ## What comes in -/

/-- What a cycle can find on the wire. -/
inductive Arrival where
  | packet (bs : Bytes)
  | cutShort
  deriving DecidableEq, Repr

/-- The number that `readPacket` returns for it. -/
def Arrival.code : Arrival → Nat
  | .packet bs => packetType bs
  | .cutShort => 1

/-- The arrivals of a log. -/
def arrivals (log : List (MQTTEvent σ)) : List Arrival :=
  log.filterMap fun
    | .received packet _ => some (.packet packet)
    | .cutShort _ => some .cutShort
    | _ => none

theorem arrivals_append (log log' : List (MQTTEvent σ)) : arrivals (log ++ log') = arrivals log ++ arrivals log' :=
  List.filterMap_append ..

/-- The `switch` of `cycle` has a case for it. -/
def listed (code : Int) : Prop :=
  code = 0 ∨ code ∈ [MsgType.connack, .publish, .puback, .pubrec, .pubrel, .pubcomp, .suback, .pingresp].map fun type =>
    (type.code : Int)

instance (code : Int) : Decidable (listed code) := inferInstanceAs (Decidable (_ ∨ _))

/-- The network gives no more bytes than it is asked for. -/
def Reads (p : MQTTPlatform σ T) : Prop := ∀ n t e, (p.read n t e).1.1 ≤ n

/-! ## Reading -/

/-- At most the read buffer was written. -/
def Idle (p : MQTTPlatform σ T) (s s' : Live σ (MQTTClient σ T)) : Prop :=
  ∃ readbuf e, s' = ⟨{ s.self with readbuf := readbuf }, e⟩ ∧ ReflTransGen (Outside p) s.env e

theorem Idle.refl (s : Live σ (MQTTClient σ T)) : Idle p s s := ⟨_, _, rfl, .refl⟩

theorem Idle.call {s u : Live σ (MQTTClient σ T)} {e : σ} (h : Idle p s u) (ho : Outside p u.env e) : Idle p s ⟨u.self, e⟩ := by
  obtain ⟨_, _, rfl, he⟩ := h
  exact ⟨_, _, rfl, he.tail ho⟩

theorem Idle.store {s u v : Live σ (MQTTClient σ T)} (h : Idle p s u) {i : Nat} {bs : Bytes} {x : Unit}
    (hv : (store i bs).Returns u x v) : Idle p s v := by
  obtain ⟨_, _, rfl, he⟩ := h
  obtain ⟨_, rfl⟩ := store_returns hv
  exact ⟨_, _, rfl, he⟩

theorem Idle.decodePacket {s u v : Live σ (MQTTClient σ T)} (h : Idle p s u) {timeout : Int} {n : Nat}
    (hv : (decodePacket p timeout).Returns u n v) : Idle p s v := by
  obtain ⟨_, _, rfl, he⟩ := h
  obtain ⟨hself, he'⟩ := decodePacket_returns hv
  obtain ⟨self, e⟩ := v
  obtain rfl := hself
  exact ⟨_, _, rfl, he.trans he'⟩

/-- `readPacket`: its result, what it records, and the state it leaves. -/
inductive PacketRead (p : MQTTPlatform σ T) (s : Live σ (MQTTClient σ T)) :
    Int → List (MQTTEvent σ) → Live σ (MQTTClient σ T) → Prop
  | nothing {rc : Int} {s'} (hrc : rc ≤ 0) (hs' : Idle p s s') : PacketRead p s rc [] s'
  | cutShort {s'} (hs' : Idle p s s') :
      PacketRead p s 1 [.cutShort s'.env] ⟨{ s'.self with events := s'.self.events ++ [.cutShort s'.env] }, s'.env⟩
  /-- The timer is armed where there is an interval. -/
  | packet {bs rest e t} (he : ReflTransGen (Outside p) s.env e)
      (ht : 0 < s.self.keepAliveInterval → ∃ e', ReflTransGen (Outside p) s.env e' ∧
        t = (p.countdown (receiveSeconds s.self.keepAliveInterval) e').1) :
      PacketRead p s (packetType bs) [.received bs e] ⟨{ s.self with
        readbuf := bs ++ rest, lastReceived := t, events := s.self.events ++ [.received bs e] }, e⟩

theorem Idle.packetRead {s u v : Live σ (MQTTClient σ T)} (h : Idle p s u) {n : Nat} (hn : 0 < n) {rc : Int}
    (hv : (packetRead p n).Returns u rc v) : ∃ evs, PacketRead p s rc evs v := by
  obtain ⟨readbuf, e, rfl, he⟩ := h
  have hhead : (readbuf.take n).headD 0 = readbuf.headD 0 := by
    cases readbuf with
    | nil => simp
    | cons b bs => obtain ⟨m, rfl⟩ := Nat.exists_eq_succ_of_ne_zero hn.ne'; rfl
  have key {e' : σ} {t : T} (he' : ReflTransGen (Outside p) s.env e') (ht : 0 < s.self.keepAliveInterval →
      ∃ e', ReflTransGen (Outside p) s.env e' ∧ t = (p.countdown (receiveSeconds s.self.keepAliveInterval) e').1) :
      PacketRead p s (MQTTPacket.headerType (readbuf.headD 0)) [.received (readbuf.take n) e'] ⟨{ s.self with
        readbuf := readbuf, lastReceived := t, events := s.self.events ++ [.received (readbuf.take n) e'] }, e'⟩ := by
    have hread : PacketRead p s (packetType (readbuf.take n)) [.received (readbuf.take n) e'] ⟨{ s.self with
        readbuf := readbuf.take n ++ readbuf.drop n, lastReceived := t,
        events := s.self.events ++ [.received (readbuf.take n) e'] }, e'⟩ := .packet he' ht
    rwa [List.take_append_drop, packetType, hhead] at hread
  rw [MQTTClient.packetRead, returns_obj_bind] at hv
  rcases Prog.returns_ite.mp hv with ⟨_, hv⟩ | ⟨hzero, hv⟩
  · rw [returns_call_bind, returns_set_bind, returns_happened_bind] at hv
    obtain ⟨rfl, rfl⟩ := Prog.returns_pure.mp hv
    exact ⟨_, key (he.tail (.countdown ..)) fun _ => ⟨e, he, rfl⟩⟩
  · rw [returns_happened_bind] at hv
    obtain ⟨rfl, rfl⟩ := Prog.returns_pure.mp hv
    exact ⟨_, key (t := s.self.lastReceived) he fun hpos => absurd hpos hzero⟩

theorem readPacket_returns (hread : Reads p) {t : T} {s s₁ : Live σ (MQTTClient σ T)} (h₀ : Idle p s s₁) {rc s'}
    (h : (readPacket p t).Returns s₁ rc s') : ∃ evs, PacketRead p s rc evs s' := by
  rw [readPacket, returns_call_bind, returns_call_bind] at h
  have h₁ := (h₀.call (.leftMs t _)).call (.read 1 (p.leftMs t s₁.env).1 _)
  have hrc : (p.read 1 (p.leftMs t s₁.env).1 (p.leftMs t s₁.env).2).1.1 ≤ 1 := hread ..
  generalize (p.read 1 (p.leftMs t s₁.env).1 (p.leftMs t s₁.env).2).1 = r at h hrc
  obtain ⟨_, u, hstore, h⟩ := Prog.returns_bind.mp h
  have h₂ := h₁.store hstore
  rcases Prog.returns_ite.mp h with ⟨hone, h⟩ | ⟨hone, h⟩
  · obtain ⟨rfl, rfl⟩ := Prog.returns_pure.mp h
    exact ⟨_, .nothing (by omega) h₂⟩
  rw [returns_call_bind] at h
  obtain ⟨remLen, v, hdec, h⟩ := Prog.returns_bind.mp h
  obtain ⟨_, w, hstore', h⟩ := Prog.returns_bind.mp h
  have h₃ := ((h₂.call (.leftMs t _)).decodePacket hdec).store hstore'
  rcases Prog.returns_ite.mp h with ⟨_, h⟩ | ⟨_, h⟩
  · obtain ⟨rfl, rfl⟩ := Prog.returns_pure.mp h
    exact ⟨_, .nothing (by decide) h₃⟩
  rcases Prog.returns_ite.mp h with ⟨_, h⟩ | ⟨_, h⟩
  · rw [returns_call_bind, returns_call_bind] at h
    obtain ⟨_, x, hstore'', h⟩ := Prog.returns_bind.mp h
    have h₄ := ((h₃.call (.leftMs t _)).call (.read remLen (p.leftMs t w.env).1 _)).store hstore''
    rcases Prog.returns_ite.mp h with ⟨_, h⟩ | ⟨_, h⟩
    · rw [returns_happened_bind] at h
      obtain ⟨rfl, rfl⟩ := Prog.returns_pure.mp h
      rw [not_not.mp hone]
      exact ⟨_, .cutShort h₄⟩
    · exact h₄.packetRead (by omega) h
  · exact h₃.packetRead (by omega) h

/-! ## What is done for a packet -/

/-- What only the session's own operations change. -/
structure Standing where
  messageHandlers : List MessageHandler
  defaultMessageHandler : FP
  isconnected : Bool
  cleansession : Bool
  keepAliveInterval : Nat
  packetid : Nat
  pubbuf : Bytes
  inflightLen : Int
  inflightMsgid : Nat
  inflightQoS : Nat
  pubrel : Bool
  deriving DecidableEq, Repr

def standing (c : MQTTClient σ T) : Standing where
  messageHandlers := c.messageHandlers
  defaultMessageHandler := c.defaultMessageHandler
  isconnected := c.isconnected
  cleansession := c.cleansession
  keepAliveInterval := c.keepAliveInterval
  packetid := c.packetid
  pubbuf := c.pubbuf
  inflightLen := c.inflightLen
  inflightMsgid := c.inflightMsgid
  inflightQoS := c.inflightQoS
  pubrel := c.pubrel

/-- From `s` to `s'` the client has worked: it has its standing and the buffer
it read into, `evs` happened, and the incoming ids are `ids`. -/
structure Worked (s : Live σ (MQTTClient σ T)) (evs : List (MQTTEvent σ)) (ids : List Nat) (s' : Live σ (MQTTClient σ T)) :
    Prop where
  standing : standing s'.self = standing s.self
  readbuf : s'.self.readbuf = s.self.readbuf
  events : s'.self.events = s.self.events ++ evs
  incoming : s'.self.incomingQoS2messages = ids

theorem Worked.refl (s : Live σ (MQTTClient σ T)) : Worked s [] s.self.incomingQoS2messages s :=
  ⟨rfl, rfl, (List.append_nil _).symm, rfl⟩

theorem Worked.trans {s t u : Live σ (MQTTClient σ T)} {evs evs' : List (MQTTEvent σ)} {ids ids' : List Nat}
    (h : Worked s evs ids t) (h' : Worked t evs' ids' u) : Worked s (evs ++ evs') ids' u :=
  ⟨h'.standing.trans h.standing, h'.readbuf.trans h.readbuf, by rw [h'.events, h.events, List.append_assoc], h'.incoming⟩

/-- An acknowledgement was sent, or could not be. -/
inductive Answered (p : MQTTPlatform σ T) (type : MsgType) (id : Nat) : List (MQTTEvent σ) → CycleExit → Prop
  | sent {bs e} (hbs : MQTTPacket.serializeAck p.maxMqttPacketSize type false id = .ok bs) :
      Answered p type id [.sent bs e] (.ok ())
  | failed : Answered p type id [] (.error failure)

/-- What becomes of a message: it is given to `deliverMessage`, and one with
QoS 2 has taken a place then; or its place was taken before, or there is none. -/
inductive Taken (topicName : MQTTLenString) (msg : Message) (ids : List Nat) : List (MQTTEvent σ) → List Nat → Prop
  | plain (hqos : msg.qos ≠ 2) : Taken topicName msg ids [.delivered topicName msg] ids
  | placed {ids'} (hqos : msg.qos = 2) (hnew : msg.id ∉ ids) (hids : replaceFirst 0 msg.id ids = some ids') :
      Taken topicName msg ids [.delivered topicName msg] ids'
  | known (hqos : msg.qos = 2) (hold : msg.id ∈ ids) : Taken topicName msg ids [] ids
  | full (hqos : msg.qos = 2) (hnew : msg.id ∉ ids) (hfull : replaceFirst 0 msg.id ids = none) : Taken topicName msg ids [] ids

/-- The answer to a message. -/
def answerTo (msg : Message) : Option MsgType :=
  if msg.qos = 1 then some .puback else if msg.qos = 2 then some .pubrec else none

/-- The end of a PUBLISH: with no QoS there is no answer. -/
inductive Acked (p : MQTTPlatform σ T) (msg : Message) : List (MQTTEvent σ) → CycleExit → Prop
  | none (hqos : msg.qos = 0) : Acked p msg [] (.ok ())
  | bad (hqos : msg.qos ≠ 0) : Acked p msg [] (.error failure)
  | answered {type acks r} (htype : answerTo msg = some type) (hans : Answered p type msg.id acks r) : Acked p msg acks r

/-- The message that is made of a PUBLISH in the read buffer. -/
structure Tells (pub : MQTTPacket.Publish) (readbuf : Bytes) (msg : Message) : Prop where
  qos : msg.qos = pub.qos
  retained : msg.retained = pub.retained
  dup : msg.dup = pub.dup
  id : ∀ id ∈ pub.packetid, msg.id = id
  payload : ∀ i ∈ pub.payload, msg.payload = (readbuf.drop i).take (sizeT pub.payloadlen)
  payloadlen : msg.payloadlen = sizeT pub.payloadlen

/-- Only handlers were called. -/
def OnlyCalls (evs : List (MQTTEvent σ)) : Prop := ∀ ev ∈ evs, ∃ cb topicName msg, ev = .called cb topicName msg

/-- What the `switch` does for a packet type, with this in the read buffer and these incoming ids. -/
inductive Served (p : MQTTPlatform σ T) (readbuf : Bytes) (ids : List Nat) :
    Int → List (MQTTEvent σ) → List Nat → CycleExit → Prop
  | idle {code : Int} (hlisted : listed code) (hcode : ∀ type ∈ [MsgType.publish, .pubrec, .pubrel], code ≠ type.code) :
      Served p readbuf ids code [] ids (.ok ())
  | unlisted {code : Int} (hcode : ¬ listed code) : Served p readbuf ids code [] ids (.error code)
  | unread {pub} (hpub : MQTTPacket.deserializePublish readbuf = some pub) (hrc : pub.rc ≠ 1) :
      Served p readbuf ids MsgType.publish.code [] ids (.error success)
  | publish {pub msg taken ids' calls acks r} (hpub : MQTTPacket.deserializePublish readbuf = some pub) (hrc : pub.rc = 1)
      (htells : Tells pub readbuf msg) (htaken : Taken pub.topicName msg ids taken ids') (hcalls : OnlyCalls calls)
      (hack : Acked p msg acks r) :
      Served p readbuf ids MsgType.publish.code (taken ++ (calls ++ acks)) ids' r
  | pubrec {ack id acks r} (hack : MQTTPacket.deserializeAck readbuf = some ack) (hid : ∀ id' ∈ ack.packetid, id = id')
      (hans : Answered p .pubrel id acks r) : Served p readbuf ids MsgType.pubrec.code acks ids r
  | pubrel {ack id acks r} (hack : MQTTPacket.deserializeAck readbuf = some ack) (hid : ∀ id' ∈ ack.packetid, id = id')
      (hans : Answered p .pubcomp id acks r) : Served p readbuf ids MsgType.pubrel.code acks
        (match r with
          | .ok () => (replaceFirst id 0 ids).getD ids
          | .error _ => ids) r

theorem Worked.outside {s : Live σ (MQTTClient σ T)} (e : σ) : Worked s [] s.self.incomingQoS2messages ⟨s.self, e⟩ :=
  ⟨rfl, rfl, (List.append_nil _).symm, rfl⟩

theorem sendAck_returns {type : MsgType} {id : Nat} {t : T} {s : Live σ (MQTTClient σ T)} {r : Except Int Int} {s'}
    (h : (sendSerialized p (MQTTPacket.serializeAck p.maxMqttPacketSize type false id) t).Returns s r s') :
    (∃ acks, Answered p type id acks (.ok ()) ∧ r = .ok success ∧ Worked s acks s.self.incomingQoS2messages s') ∨
    (r ≠ .ok success ∧ (∀ rc, r = .ok rc → rc = failure) ∧ Worked s [] s.self.incomingQoS2messages s') := by
  generalize hpacket : MQTTPacket.serializeAck p.maxMqttPacketSize type false id = packet at h
  cases packet with
  | error len =>
    obtain ⟨rfl, rfl⟩ := sendSerialized_error h
    exact .inr ⟨fun h => (nomatch h), fun _ h => (nomatch h), .refl s'⟩
  | ok bs =>
    obtain ⟨e, _, ⟨rfl, rfl⟩ | ⟨rfl, rfl⟩⟩ := sendSerialized_returns h
    · exact .inl ⟨_, .sent hpacket, rfl, rfl, rfl, rfl, rfl⟩
    · refine .inr ⟨fun h => absurd h (by decide), fun rc h => (Except.ok.inj h).symm, rfl, rfl, ?_, rfl⟩
      exact (List.append_nil _).symm

/-- The answer to a message that asks for one. -/
theorem answer_returns {msg : Message} {type : MsgType} {t : T} {s : Live σ (MQTTClient σ T)} {r : CycleExit} {s'}
    (hqos : msg.qos ≠ 0) (htype : answerTo msg = some type)
    (h : (sendSerialized p (MQTTPacket.serializeAck p.maxMqttPacketSize type false msg.id) t >>= fun
      | .error _ => return .error failure
      | .ok rc => return if rc = failure then .error failure else .ok () :
        Prog (Live σ (MQTTClient σ T)) CycleExit).Returns s r s') :
    ∃ acks, Acked p msg acks r ∧ Worked s acks s.self.incomingQoS2messages s' := by
  obtain ⟨x, u, hsend, h⟩ := Prog.returns_bind.mp h
  rcases sendAck_returns hsend with ⟨acks, hans, rfl, hw⟩ | ⟨_, hfail, hw⟩
  · obtain ⟨rfl, rfl⟩ := Prog.returns_pure.mp h
    exact ⟨acks, .answered htype hans, hw⟩
  · cases x with
    | error len =>
      obtain ⟨rfl, rfl⟩ := Prog.returns_pure.mp h
      exact ⟨[], .bad hqos, hw⟩
    | ok rc =>
      obtain rfl := hfail rc rfl
      obtain ⟨rfl, rfl⟩ := Prog.returns_pure.mp h
      exact ⟨[], .bad hqos, hw⟩

theorem acknowledge_returns {msg : Message} {t : T} {s : Live σ (MQTTClient σ T)} {r : CycleExit} {s'} (hqos : msg.qos ≠ 0)
    (h : (acknowledge p msg t).Returns s r s') : ∃ acks, Acked p msg acks r ∧ Worked s acks s.self.incomingQoS2messages s' := by
  rw [acknowledge] at h
  by_cases h₁ : msg.qos = 1
  · rw [if_pos h₁] at h
    exact answer_returns hqos (if_pos h₁) h
  rw [if_neg h₁] at h
  by_cases h₂ : msg.qos = 2
  · rw [if_pos h₂] at h
    exact answer_returns hqos ((if_neg h₁).trans (if_pos h₂)) h
  rw [if_neg h₂] at h
  obtain ⟨x, u, hsend, h⟩ := Prog.returns_bind.mp h
  obtain ⟨rfl, rfl⟩ := sendSerialized_error hsend
  obtain ⟨rfl, rfl⟩ := Prog.returns_pure.mp h
  exact ⟨[], .bad hqos, .refl s'⟩

/-- Handlers are called, and nothing else happens. -/
def calling : Guarantee (Live σ (MQTTClient σ T)) where
  rel s s' := ∃ calls, OnlyCalls calls ∧ Worked s calls s.self.incomingQoS2messages s'
  refl s := ⟨[], by simp [OnlyCalls], .refl s⟩
  trans := by
    rintro s t u ⟨calls, hc, hw⟩ ⟨calls', hc', hw'⟩
    rw [hw.incoming] at hw'
    refine ⟨calls ++ calls', fun ev hev => ?_, hw.trans hw'⟩
    rcases List.mem_append.mp hev with hev | hev
    · exact hc ev hev
    · exact hc' ev hev

theorem calling_allows : AllowsCalls p (calling : Guarantee (Live σ (MQTTClient σ T))) where
  mute s e _ := ⟨[], by simp [OnlyCalls], .outside e⟩
  called s cb n m := ⟨[.called cb n m], by simp [OnlyCalls], rfl, rfl, rfl, rfl⟩

theorem deliver_returns {topicName : MQTTLenString} {msg : Message} {s : Live σ (MQTTClient σ T)} {u s'}
    (h : (deliver p topicName msg).Returns s u s') :
    ∃ calls, OnlyCalls calls ∧ Worked s (.delivered topicName msg :: calls) s.self.incomingQoS2messages s' := by
  rw [deliver, returns_happened_bind] at h
  obtain ⟨rc, t, hdel, h⟩ := Prog.returns_bind.mp h
  obtain ⟨_, rfl⟩ := Prog.returns_pure.mp h
  obtain ⟨calls, hc, hw⟩ := calling_allows.deliverMessage _ rc _ hdel
  refine ⟨calls, hc, hw.standing, hw.readbuf, ?_, hw.incoming⟩
  rw [hw.events, List.append_assoc, List.singleton_append]

theorem useQoS2msgid_returns {id : Nat} {s : Live σ (MQTTClient σ T)} {used : Bool} {s'}
    (h : (useQoS2msgid id).Returns s used s') :
    (used = true ∧ ∃ ids, replaceFirst 0 id s.self.incomingQoS2messages = some ids ∧ Worked s [] ids s') ∨
    (used = false ∧ replaceFirst 0 id s.self.incomingQoS2messages = none ∧ s' = s) := by
  rw [useQoS2msgid, returns_obj_bind] at h
  split at h
  · rename_i ids hids
    rw [returns_set_bind] at h
    obtain ⟨rfl, rfl⟩ := Prog.returns_pure.mp h
    exact .inl ⟨rfl, ids, hids, rfl, rfl, (List.append_nil _).symm, rfl⟩
  · rename_i hids
    obtain ⟨rfl, rfl⟩ := Prog.returns_pure.mp h
    exact .inr ⟨rfl, hids, rfl⟩

theorem orIndeterminate_returns {written : Option Nat} {s : Live σ (MQTTClient σ T)} {n : Nat} {s'}
    (h : (orIndeterminate p written).Returns s n s') : (∀ id ∈ written, n = id) ∧ ∃ e, s' = ⟨s.self, e⟩ := by
  cases written with
  | some id =>
    obtain ⟨rfl, rfl⟩ := Prog.returns_pure.mp h
    exact ⟨fun id' hid => Option.mem_some_iff.mp hid, _, rfl⟩
  | none =>
    obtain ⟨-, rfl⟩ := returns_call.mp h
    exact ⟨fun _ hid => (nomatch hid), _, rfl⟩

theorem cyclePublish_returns {t : T} {s : Live σ (MQTTClient σ T)} {r : CycleExit} {s'}
    (h : (cyclePublish p t).Returns s r s') : ∃ evs ids,
      Served p s.self.readbuf s.self.incomingQoS2messages MsgType.publish.code evs ids r ∧ Worked s evs ids s' := by
  rw [cyclePublish, returns_obj_bind] at h
  split at h
  · exact absurd h Prog.returns_undefined
  rename_i pub hpub
  rcases Prog.returns_ite.mp h with ⟨hrc, h⟩ | ⟨hrc, h⟩
  · obtain ⟨rfl, rfl⟩ := Prog.returns_pure.mp h
    exact ⟨[], _, .unread hpub hrc, .refl s'⟩
  obtain ⟨msg, u, hmsg, h⟩ := Prog.returns_bind.mp h
  rw [toMessage] at hmsg
  obtain ⟨id, v, hor, hmsg⟩ := Prog.returns_bind.mp hmsg
  obtain ⟨hid, e, rfl⟩ := orIndeterminate_returns hor
  obtain ⟨hm, rfl⟩ := Prog.returns_pure.mp hmsg
  have htells : Tells pub s.self.readbuf msg := by
    rw [hm]
    refine ⟨rfl, rfl, rfl, hid, fun i hi => ?_, rfl⟩
    rw [Option.mem_def.mp hi]
  clear hm hmsg hor hid
  -- What follows the delivery, whatever it was.
  have answer {taken calls : List (MQTTEvent σ)} {ids : List Nat} {w : Live σ (MQTTClient σ T)}
      (htaken : Taken pub.topicName msg s.self.incomingQoS2messages taken ids) (hcalls : OnlyCalls calls)
      (hw : Worked s (taken ++ calls) ids w) (h : (if msg.qos ≠ 0 then acknowledge p msg t else pure (.ok ())).Returns w r s') :
      ∃ evs ids, Served p s.self.readbuf s.self.incomingQoS2messages MsgType.publish.code evs ids r ∧ Worked s evs ids s' := by
    rcases Prog.returns_ite.mp h with ⟨hne, h⟩ | ⟨hzero, h⟩
    · obtain ⟨acks, hack, hw'⟩ := acknowledge_returns hne h
      rw [hw.incoming] at hw'
      have hall := hw.trans hw'
      rw [List.append_assoc] at hall
      exact ⟨_, _, .publish hpub (not_not.mp hrc) htells htaken hcalls hack, hall⟩
    · obtain ⟨rfl, rfl⟩ := Prog.returns_pure.mp h
      refine ⟨_, _, .publish hpub (not_not.mp hrc) htells htaken hcalls (.none (not_not.mp hzero)), ?_⟩
      rw [List.append_nil]
      exact hw
  have hstart : Worked s [] s.self.incomingQoS2messages ⟨s.self, e⟩ := .outside e
  rcases Prog.returns_ite.mp h with ⟨hne, h⟩ | ⟨htwo, h⟩
  · obtain ⟨_, w, hdel, h⟩ := Prog.returns_bind.mp h
    obtain ⟨calls, hcalls, hw⟩ := deliver_returns hdel
    exact answer (.plain hne) hcalls (hstart.trans hw) h
  rcases Prog.returns_ite.mp h with ⟨hfree, h⟩ | ⟨hfree, h⟩
  · have hnew : msg.id ∉ s.self.incomingQoS2messages := by simpa [isQoS2msgidFree] using hfree
    obtain ⟨used, w, huse, h⟩ := Prog.returns_bind.mp h
    rcases useQoS2msgid_returns huse with ⟨rfl, ids, hids, hw⟩ | ⟨rfl, hnone, rfl⟩
    · rw [if_pos rfl] at h
      obtain ⟨_, x, hdel, h⟩ := Prog.returns_bind.mp h
      obtain ⟨calls, hcalls, hw'⟩ := deliver_returns hdel
      rw [hw.incoming] at hw'
      exact answer (.placed (not_not.mp htwo) hnew hids) hcalls (hstart.trans (hw.trans hw')) h
    · exact answer (.full (not_not.mp htwo) hnew hnone) (show OnlyCalls [] by simp [OnlyCalls]) hstart h
  · have hold : msg.id ∈ s.self.incomingQoS2messages := by simpa [isQoS2msgidFree] using hfree
    exact answer (.known (not_not.mp htwo) hold) (show OnlyCalls [] by simp [OnlyCalls]) hstart h

theorem cycleRelease_returns {type : MsgType} (htype : type = .pubrec ∨ type = .pubrel) {t : T} {s : Live σ (MQTTClient σ T)}
    {r : CycleExit} {s'} (h : (cycleRelease p type t).Returns s r s') : ∃ evs ids,
      Served p s.self.readbuf s.self.incomingQoS2messages type.code evs ids r ∧ Worked s evs ids s' := by
  rw [cycleRelease, returns_obj_bind] at h
  split at h
  · exact absurd h Prog.returns_undefined
  rename_i ack hack
  obtain ⟨id, u, hor, h⟩ := Prog.returns_bind.mp h
  obtain ⟨hid, e, rfl⟩ := orIndeterminate_returns hor
  have hstart : Worked s [] s.self.incomingQoS2messages ⟨s.self, e⟩ := .outside e
  -- Nothing was sent, and the session will be closed.
  have failed {w : Live σ (MQTTClient σ T)} (hw : Worked s [] s.self.incomingQoS2messages w) : ∃ evs ids,
      Served p s.self.readbuf s.self.incomingQoS2messages type.code evs ids (.error failure) ∧ Worked s evs ids w := by
    rcases htype with rfl | rfl
    · exact ⟨[], _, .pubrec hack hid .failed, hw⟩
    · exact ⟨[], _, .pubrel hack hid .failed, hw⟩
  rcases Prog.returns_ite.mp h with ⟨_, h⟩ | ⟨_, h⟩
  · obtain ⟨rfl, rfl⟩ := Prog.returns_pure.mp h
    exact failed hstart
  obtain ⟨x, w, hsend, h⟩ := Prog.returns_bind.mp h
  rcases sendAck_returns hsend with ⟨acks, hans, rfl, hw⟩ | ⟨hno, hfail, hw⟩
  · dsimp only at h
    rw [if_neg (not_not.mpr rfl)] at h
    rcases htype with rfl | rfl
    · obtain ⟨rfl, rfl⟩ := Prog.returns_pure.mp h
      exact ⟨acks, _, .pubrec hack hid hans, hstart.trans hw⟩
    · rw [if_pos rfl, freeQoS2msgid, returns_set_bind] at h
      obtain ⟨rfl, rfl⟩ := Prog.returns_pure.mp h
      refine ⟨acks, _, .pubrel hack hid hans, hw.standing, hw.readbuf, hw.events, ?_⟩
      dsimp only
      rw [hw.incoming]
  · cases x with
    | error len =>
      obtain ⟨rfl, rfl⟩ := Prog.returns_pure.mp h
      exact failed (hstart.trans hw)
    | ok rc =>
      have hrc : rc ≠ success := fun h => hno (by rw [h])
      dsimp only at h
      rw [if_pos hrc] at h
      obtain ⟨rfl, rfl⟩ := Prog.returns_pure.mp h
      exact failed (hstart.trans hw)

theorem cycleSwitch_returns {packetType : Int} {t : T} {s : Live σ (MQTTClient σ T)} {r : CycleExit} {s'}
    (h : (cycleSwitch p packetType t).Returns s r s') : ∃ evs ids,
      Served p s.self.readbuf s.self.incomingQoS2messages packetType evs ids r ∧ Worked s evs ids s' := by
  rcases Prog.returns_ite.mp h with ⟨hidle, h⟩ | ⟨hother, h⟩
  · obtain ⟨rfl, rfl⟩ := Prog.returns_pure.mp h
    refine ⟨[], _, .idle ?_ ?_, .refl s'⟩
    · rcases hidle with rfl | rfl | rfl | rfl | rfl <;> decide
    · rcases hidle with rfl | rfl | rfl | rfl | rfl <;> decide
  rcases Prog.returns_ite.mp h with ⟨rfl, h⟩ | ⟨hpublish, h⟩
  · exact cyclePublish_returns h
  rcases Prog.returns_ite.mp h with ⟨rfl, h⟩ | ⟨hpubrec, h⟩
  · exact cycleRelease_returns (.inl rfl) h
  rcases Prog.returns_ite.mp h with ⟨rfl, h⟩ | ⟨hpubrel, h⟩
  · exact cycleRelease_returns (.inr rfl) h
  rcases Prog.returns_ite.mp h with ⟨hpong, h⟩ | ⟨hpingresp, h⟩
  · rw [returns_set_bind] at h
    obtain ⟨rfl, rfl⟩ := Prog.returns_pure.mp h
    rw [hpong]
    exact ⟨[], _, .idle (by decide) (by decide), rfl, rfl, (List.append_nil _).symm, rfl⟩
  · obtain ⟨rfl, rfl⟩ := Prog.returns_pure.mp h
    refine ⟨[], _, .unlisted fun hl => ?_, .refl s'⟩
    simp only [listed, List.map_cons, List.map_nil, List.mem_cons, List.not_mem_nil, or_false] at hl
    tauto

/-! ## One turn -/

/-- The broker was pinged, or not. -/
inductive Pinged (p : MQTTPlatform σ T) : List (MQTTEvent σ) → Prop
  | none : Pinged p []
  | sent {bs e} (hbs : MQTTPacket.serializePingreq p.maxMqttPacketSize = .ok bs) : Pinged p [.sent bs e]

theorem keepalive_returns {s : Live σ (MQTTClient σ T)} {rc : Int} {s'} (h : (keepalive p).Returns s rc s') :
    ∃ pings, Pinged p pings ∧ Worked s pings s.self.incomingQoS2messages s' := by
  have silent (e : σ) : ∃ pings, Pinged p pings ∧ Worked s pings s.self.incomingQoS2messages ⟨s.self, e⟩ :=
    ⟨[], .none, .outside e⟩
  rw [keepalive, returns_obj_bind] at h
  rcases Prog.returns_ite.mp h with ⟨_, h⟩ | ⟨_, h⟩
  · obtain ⟨rfl, rfl⟩ := Prog.returns_pure.mp h
    exact silent _
  rw [returns_call_bind] at h
  rcases Prog.returns_ite.mp h with ⟨_, h⟩ | ⟨_, h⟩
  · rcases Prog.returns_ite.mp h with ⟨_, h⟩ | ⟨_, h⟩
    · obtain ⟨rfl, rfl⟩ := Prog.returns_pure.mp h
      exact silent _
    rw [returns_call_bind] at h
    obtain ⟨r, u, hsend, h⟩ := Prog.returns_bind.mp h
    generalize hpacket : MQTTPacket.serializePingreq p.maxMqttPacketSize = packet at hsend
    cases packet with
    | error len =>
      obtain ⟨rfl, rfl⟩ := sendSerialized_error hsend
      obtain ⟨rfl, rfl⟩ := Prog.returns_pure.mp h
      exact silent _
    | ok bs =>
      obtain ⟨e, _, ⟨rfl, rfl⟩ | ⟨rfl, rfl⟩⟩ := sendSerialized_returns hsend
      · dsimp only at h
        rw [if_pos rfl, returns_call_bind, returns_set_bind] at h
        obtain ⟨rfl, rfl⟩ := Prog.returns_pure.mp h
        exact ⟨_, .sent hpacket, rfl, rfl, rfl, rfl⟩
      · dsimp only at h
        rw [if_neg (by decide)] at h
        obtain ⟨rfl, rfl⟩ := Prog.returns_pure.mp h
        exact ⟨[], .none, rfl, rfl, (List.append_nil _).symm, rfl⟩
  · obtain ⟨rfl, rfl⟩ := Prog.returns_pure.mp h
    exact silent _

/-- A turn up to its label `exit`: what came in, what was done for it, and the ping. -/
inductive Attended (p : MQTTPlatform σ T) (s : Live σ (MQTTClient σ T)) (code : Int) (r : CycleExit) (w : Live σ (MQTTClient σ T)) :
    Prop
  | intro {arr u evs ids pings} (read : PacketRead p s code arr u)
      (served : Served p u.self.readbuf u.self.incomingQoS2messages code evs ids r) (pinged : Pinged p pings)
      (worked : Worked u (evs ++ pings) ids w)

/-- The client after `cycle` has failed. -/
def shut (c : MQTTClient σ T) : MQTTClient σ T := if c.isconnected then ended c else c

/-- A turn, by what it returns: it is done with a packet that it knows, or it
shuts the session. -/
inductive Cycled (p : MQTTPlatform σ T) (s : Live σ (MQTTClient σ T)) : Int → Live σ (MQTTClient σ T) → Prop
  | kept {code : Int} {r w} (h : Attended p s code r w) (hr : r = .ok () ∨ r = .error success) (hlisted : listed code) :
      Cycled p s code w
  | failed {code rc : Int} {r w} (h : Attended p s code r w) (hne : rc ≠ success) (hrc : rc = failure ∨ rc = code ∧ ¬ listed code) :
      Cycled p s rc ⟨shut w.self, w.env⟩

theorem cycleExit_returns {packetType rc : Int} {s : Live σ (MQTTClient σ T)} {x s'}
    (h : (cycleExit packetType rc).Returns s x s') :
    (rc = success ∧ x = packetType ∧ s' = s) ∨ (rc ≠ success ∧ x = rc ∧ s' = ⟨shut s.self, s.env⟩) := by
  rcases Prog.returns_ite.mp h with ⟨hrc, h⟩ | ⟨hrc, h⟩
  · exact .inl ⟨hrc, Prog.returns_pure.mp h⟩
  rw [returns_obj_bind] at h
  rw [shut]
  rcases Prog.returns_ite.mp h with ⟨hcon, h⟩ | ⟨hcon, h⟩
  · obtain ⟨_, u, hclose, h⟩ := Prog.returns_bind.mp h
    obtain ⟨rfl, rfl⟩ := Prog.returns_pure.mp h
    rw [if_pos hcon]
    exact .inr ⟨hrc, rfl, closeSession_returns.mp hclose⟩
  · obtain ⟨rfl, rfl⟩ := Prog.returns_pure.mp h
    rw [if_neg hcon]
    exact .inr ⟨hrc, rfl, rfl⟩

/-- How a case of the `switch` fails: with an error, or with the type it does not know. -/
theorem Served.error {readbuf : Bytes} {ids ids' : List Nat} {code rc : Int} {evs : List (MQTTEvent σ)}
    (h : Served p readbuf ids code evs ids' (.error rc)) :
    (rc = success ∧ listed code) ∨ rc = failure ∨ (rc = code ∧ ¬ listed code) := by
  have answered {type : MsgType} {id : Nat} {acks : List (MQTTEvent σ)} (h : Answered p type id acks (.error rc)) :
      rc = failure := by cases h; rfl
  generalize hr : (Except.error rc : CycleExit) = r at h
  cases h with
  | idle => exact nomatch hr
  | unlisted hcode =>
    obtain rfl := Except.error.inj hr
    exact .inr (.inr ⟨rfl, hcode⟩)
  | unread =>
    obtain rfl := Except.error.inj hr
    exact .inl ⟨rfl, by decide⟩
  | publish _ _ _ _ _ hack =>
    subst hr
    cases hack with
    | bad => exact .inr (.inl rfl)
    | answered _ hans => exact .inr (.inl (answered hans))
  | pubrec _ _ hans =>
    subst hr
    exact .inr (.inl (answered hans))
  | pubrel _ _ hans =>
    subst hr
    exact .inr (.inl (answered hans))

/-- The `switch` goes on only with a type that it knows. -/
theorem Served.listed {readbuf : Bytes} {ids ids' : List Nat} {code : Int} {evs : List (MQTTEvent σ)}
    (h : Served p readbuf ids code evs ids' (.ok ())) : listed code := by
  generalize hr : (Except.ok () : CycleExit) = r at h
  cases h with
  | idle hlisted => exact hlisted
  | unlisted => exact nomatch hr
  | unread => exact nomatch hr
  | publish => decide
  | pubrec => decide
  | pubrel => decide

theorem cycle_returns (hread : Reads p) {t : T} {s : Live σ (MQTTClient σ T)} {rc s'} (h : (cycle p t).Returns s rc s') :
    Cycled p s rc s' := by
  rw [cycle, returns_call_bind] at h
  have h₀ : Idle p s ⟨s.self, (p.timer s.env).2⟩ := (Idle.refl s).call (.timer _)
  obtain ⟨code, u, hpacket, h⟩ := Prog.returns_bind.mp h
  obtain ⟨r, v, hswitch, h⟩ := Prog.returns_bind.mp h
  obtain ⟨arr, hr⟩ := readPacket_returns hread h₀ hpacket
  obtain ⟨evs, ids, hserved, hw⟩ := cycleSwitch_returns hswitch
  cases r with
  | error rc' =>
    have hatt : Attended p s code (.error rc') v := ⟨hr, hserved, .none, by rw [List.append_nil]; exact hw⟩
    rcases cycleExit_returns h with ⟨rfl, rfl, rfl⟩ | ⟨hne, rfl, rfl⟩
    · rcases hserved.error with ⟨_, hl⟩ | hno | ⟨hcode, hl⟩
      · exact .kept hatt (.inr rfl) hl
      · exact absurd hno (by decide)
      · exact absurd (.inl hcode.symm) hl
    · rcases hserved.error with ⟨hok, _⟩ | hfail | hcode
      · exact absurd hok hne
      · exact .failed hatt hne (.inl hfail)
      · exact .failed hatt hne (.inr hcode)
  | ok =>
    obtain ⟨krc, w, hkeep, h⟩ := Prog.returns_bind.mp h
    obtain ⟨pings, hp, hw'⟩ := keepalive_returns hkeep
    rw [hw.incoming] at hw'
    have hatt : Attended p s code (.ok ()) w := ⟨hr, hserved, hp, hw.trans hw'⟩
    rcases cycleExit_returns h with ⟨_, rfl, rfl⟩ | ⟨hne, rfl, rfl⟩
    · exact .kept hatt (.inl rfl) hserved.listed
    · refine .failed hatt hne (.inl ?_)
      split at hne
      · exact absurd rfl hne
      · exact if_neg ‹_›

/-! ## What a turn leaves -/

theorem since_self (s : Live σ (MQTTClient σ T)) : since s s = [] := since_eq (List.append_nil _).symm

/-- What is on the wire now is what is read. -/
inductive Arrived (s : Live σ (MQTTClient σ T)) (code : Int) (arr : List (MQTTEvent σ)) (readbuf : Bytes) : Prop
  | nothing (hcode : code ≤ 0) (harr : arr = [])
  | arrival {a} (hcode : code = Arrival.code a) (harr : arrivals arr = [a]) (hbuf : ∀ bs, a = .packet bs → bs <+: readbuf)

theorem PacketRead.worked {s u : Live σ (MQTTClient σ T)} {code : Int} {arr : List (MQTTEvent σ)} (h : PacketRead p s code arr u) :
    standing u.self = standing s.self ∧ u.self.events = s.self.events ++ arr ∧
      u.self.incomingQoS2messages = s.self.incomingQoS2messages ∧ Arrived s code arr u.self.readbuf := by
  cases h with
  | nothing hrc hs' =>
    obtain ⟨readbuf, e, rfl, _⟩ := hs'
    exact ⟨rfl, (List.append_nil _).symm, rfl, .nothing hrc rfl⟩
  | cutShort hs' =>
    obtain ⟨readbuf, e, rfl, _⟩ := hs'
    exact ⟨rfl, rfl, rfl, .arrival (a := .cutShort) rfl rfl fun _ h => nomatch h⟩
  | @packet bs rest =>
    refine ⟨rfl, rfl, rfl, .arrival (a := .packet bs) rfl rfl fun bs' h => ?_⟩
    obtain rfl := Arrival.packet.inj h
    exact List.prefix_append ..

theorem arrivals_of_onlyCalls {evs : List (MQTTEvent σ)} (h : OnlyCalls evs) : arrivals evs = [] := by
  rw [arrivals, List.filterMap_eq_nil_iff]
  intro ev hev
  obtain ⟨_, _, _, rfl⟩ := h ev hev
  rfl

theorem Answered.arrivals {type : MsgType} {id : Nat} {acks : List (MQTTEvent σ)} {r : CycleExit} (h : Answered p type id acks r) :
    MQTTClient.arrivals acks = [] := by
  cases h with
  | sent => rfl
  | failed => rfl

theorem Acked.arrivals {msg : Message} {acks : List (MQTTEvent σ)} {r : CycleExit} (h : Acked p msg acks r) :
    MQTTClient.arrivals acks = [] := by
  cases h with
  | none => rfl
  | bad => rfl
  | answered _ hans => exact hans.arrivals

theorem Taken.arrivals {topicName : MQTTLenString} {msg : Message} {ids ids' : List Nat} {taken : List (MQTTEvent σ)}
    (h : Taken topicName msg ids taken ids') : MQTTClient.arrivals taken = [] := by
  cases h with
  | plain => rfl
  | placed => rfl
  | known => rfl
  | full => rfl

theorem Served.arrivals {readbuf : Bytes} {ids ids' : List Nat} {code : Int} {evs : List (MQTTEvent σ)} {r : CycleExit}
    (h : Served p readbuf ids code evs ids' r) : MQTTClient.arrivals evs = [] := by
  cases h with
  | idle => rfl
  | unlisted => rfl
  | unread => rfl
  | publish _ _ _ htaken hcalls hack =>
    rw [arrivals_append, arrivals_append, htaken.arrivals, arrivals_of_onlyCalls hcalls, hack.arrivals]
    rfl
  | pubrec _ _ hans => exact hans.arrivals
  | pubrel _ _ hans => exact hans.arrivals

theorem Attended.left {s w : Live σ (MQTTClient σ T)} {code : Int} {r : CycleExit} (h : Attended p s code r w) :
    standing w.self = standing s.self ∧ w.self.events = s.self.events ++ since s w ∧
      ∃ arr, arrivals (since s w) = arrivals arr ∧ Arrived s code arr w.self.readbuf := by
  obtain @⟨arr, u, evs, ids, pings, hread, hserved, hpinged, hworked⟩ := h
  obtain ⟨hst, hev, hids, harr⟩ := hread.worked
  have hevents : w.self.events = s.self.events ++ (arr ++ (evs ++ pings)) := by
    rw [hworked.events, hev, List.append_assoc]
  have hping : arrivals pings = [] := by
    cases hpinged with
    | none => rfl
    | sent => rfl
  have hsince := since_eq hevents
  refine ⟨hworked.standing.trans hst, by rw [hsince]; exact hevents, arr, ?_, by rw [hworked.readbuf]; exact harr⟩
  rw [hsince, arrivals_append, arrivals_append, hserved.arrivals, hping, List.append_nil, List.append_nil]

/-- What the end of a session adds to the history. -/
def endEvents (c : MQTTClient σ T) : List (MQTTEvent σ) :=
  if c.isconnected then (if c.cleansession then [.cleaned] else []) ++ [.closed (disconnected c).recorded] else []

theorem shut_eq (c : MQTTClient σ T) : shut c = if c.isconnected then { disconnected c with events := c.events ++ endEvents c } else c := by
  unfold shut ended endEvents
  by_cases hcon : c.isconnected = true
  · simp only [if_pos hcon]
    rw [← List.append_assoc]
    congr 2
    unfold disconnected
    dsimp only
    split
    · rfl
    · exact (List.append_nil _).symm
  · simp only [if_neg hcon]

theorem shut_isconnected (c : MQTTClient σ T) : (shut c).isconnected = false := by
  unfold shut
  split
  · exact ended_isconnected c
  · exact Bool.eq_false_iff.mpr ‹_›

theorem shut_readbuf (c : MQTTClient σ T) : (shut c).readbuf = c.readbuf := by
  unfold shut ended disconnected
  dsimp only
  split
  · split <;> rfl
  · rfl

/-- The table without its filters. -/
def cleared (hs : List MessageHandler) : List MessageHandler := hs.map fun h => { h with topicFilter := none }

theorem shut_handlers (c : MQTTClient σ T) :
    (shut c).messageHandlers = if c.isconnected ∧ c.cleansession then cleared c.messageHandlers else c.messageHandlers := by
  unfold shut ended disconnected
  dsimp only
  by_cases hcon : c.isconnected = true <;> by_cases hclean : c.cleansession = true <;> simp [hcon, hclean, cleaned, cleared]

theorem shut_cleansession (c : MQTTClient σ T) : (shut c).cleansession = c.cleansession := by
  unfold shut ended disconnected
  dsimp only
  by_cases hcon : c.isconnected = true <;> by_cases hclean : c.cleansession = true <;> simp [hcon, hclean, cleaned]

theorem shut_events (c : MQTTClient σ T) : (shut c).events = c.events ++ endEvents c := by
  rw [shut_eq]
  split
  · rfl
  · rename_i hcon
    rw [endEvents, if_neg hcon, List.append_nil]

theorem arrivals_endEvents (c : MQTTClient σ T) : arrivals (endEvents c) = [] := by
  unfold endEvents
  split
  · split <;> rfl
  · rfl

theorem Cycled.events {s s' : Live σ (MQTTClient σ T)} {rc : Int} (h : Cycled p s rc s') :
    s'.self.events = s.self.events ++ since s s' := by
  cases h with
  | kept h => exact h.left.2.1
  | @failed _ _ _ w h =>
    have hev : (shut w.self).events = s.self.events ++ (since s w ++ endEvents w.self) := by
      rw [shut_events, h.left.2.1, List.append_assoc]
    rw [since_eq (s := ⟨shut w.self, w.env⟩) hev]
    exact hev

/-- A turn that does not fail, by what arrived. -/
inductive Passed (s : Live σ (MQTTClient σ T)) (rc : Int) (s' : Live σ (MQTTClient σ T)) : Prop
  | idle (hrc : rc = 0) (harr : arrivals (since s s') = []) (hst : standing s'.self = standing s.self)
  | listed {a} (hrc : rc = Arrival.code a) (harr : arrivals (since s s') = [a]) (hbuf : ∀ bs, a = .packet bs → bs <+: s'.self.readbuf)
      (hlisted : listed a.code) (hst : standing s'.self = standing s.self)
  | unlisted {a} (hrc : rc = Arrival.code a) (harr : arrivals (since s s') = [a])
      (hbuf : ∀ bs, a = .packet bs → bs <+: s'.self.readbuf) (hunlisted : ¬ MQTTClient.listed a.code)
      (hclosed : s'.self.isconnected = false) (hst : s.self.isconnected = false → standing s'.self = standing s.self)
      (hclean : s'.self.cleansession = s.self.cleansession)
      (htable : s'.self.messageHandlers =
        if s.self.isconnected ∧ s.self.cleansession then cleared s.self.messageHandlers else s.self.messageHandlers)

theorem Cycled.passed {s s' : Live σ (MQTTClient σ T)} {rc : Int} (h : Cycled p s rc s') (hrc : 0 ≤ rc) : Passed s rc s' := by
  cases h with
  | kept h hr hlisted =>
    obtain ⟨hst, _, arr, harr, hread⟩ := h.left
    cases hread with
    | nothing hcode hnil => exact .idle (by omega) (by rw [harr, hnil]; rfl) hst
    | arrival hcode harr' hbuf =>
      subst hcode
      exact .listed rfl (harr.trans harr') hbuf hlisted hst
  | @failed code _ r w h hne hrc' =>
    rcases hrc' with rfl | ⟨rfl, hunlisted⟩
    · exact absurd hrc (by decide)
    obtain ⟨hst, hev, arr, harr, hread⟩ := h.left
    have hev : (shut w.self).events = s.self.events ++ (since s w ++ endEvents w.self) := by
      rw [shut_events, ← List.append_assoc, ← hev]
    have hsince : arrivals (since s ⟨shut w.self, w.env⟩) = arrivals arr := by
      rw [since_eq (s := ⟨shut w.self, w.env⟩) hev, arrivals_append, arrivals_endEvents, List.append_nil, harr]
    cases hread with
    | nothing hcode hnil => exact absurd (Int.le_antisymm hcode hrc) hne
    | arrival hcode harr' hbuf =>
      subst hcode
      refine .unlisted rfl (hsince.trans harr') ?_ hunlisted (shut_isconnected w.self) (fun hcon => ?_) ?_ ?_
      · rw [shut_readbuf]
        exact hbuf
      · have hw : w.self.isconnected = false := (congrArg Standing.isconnected hst).trans hcon
        rw [shut, if_neg (by rw [hw]; decide)]
        exact hst
      · rw [shut_cleansession]
        exact congrArg Standing.cleansession hst
      · rw [shut_handlers, show w.self.isconnected = s.self.isconnected from congrArg Standing.isconnected hst,
          show w.self.cleansession = s.self.cleansession from congrArg Standing.cleansession hst,
          show w.self.messageHandlers = s.self.messageHandlers from congrArg Standing.messageHandlers hst]

/-! ## Turn after turn -/

/-- Turns, by what they returned. What is outside may change before each. -/
inductive Cycles (p : MQTTPlatform σ T) : Live σ (MQTTClient σ T) → List Int → Live σ (MQTTClient σ T) → Prop
  | nil {s e} : Cycles p s [] ⟨s.self, e⟩
  | cons {s e rc s' rcs s''} (h : Cycled p ⟨s.self, e⟩ rc s') (rest : Cycles p s' rcs s'') : Cycles p s (rc :: rcs) s''

theorem Cycles.snoc {s s' : Live σ (MQTTClient σ T)} {rcs : List Int} {rc : Int} (h : Cycles p s (rcs ++ [rc]) s') :
    ∃ t u e, Cycles p s rcs t ∧ Cycled p t rc u ∧ s' = ⟨u.self, e⟩ := by
  induction rcs generalizing s with
  | nil =>
    cases h with
    | cons h rest => cases rest; exact ⟨_, _, _, .nil, h, rfl⟩
  | cons rc' rcs ih =>
    cases h with
    | cons h rest =>
      obtain ⟨t, u, e, hrcs, hu, rfl⟩ := ih rest
      exact ⟨t, u, e, .cons h hrcs, hu, rfl⟩

/-- At most one packet arrives in a turn. -/
theorem Cycled.single {s s' : Live σ (MQTTClient σ T)} {rc : Int} (h : Cycled p s rc s') : (arrivals (since s s')).length ≤ 1 := by
  have one {code : Int} {arr : List (MQTTEvent σ)} {readbuf : Bytes} (h : Arrived s code arr readbuf) : (arrivals arr).length ≤ 1 := by
    cases h with
    | nothing _ hnil => rw [hnil]; exact Nat.zero_le 1
    | arrival _ hone => rw [hone]; exact Nat.le_refl 1
  cases h with
  | kept h =>
    obtain ⟨_, _, arr, harr, harrived⟩ := h.left
    rw [harr]
    exact one harrived
  | @failed _ _ _ w h =>
    obtain ⟨_, hev, arr, harr, harrived⟩ := h.left
    have hshut : (shut w.self).events = s.self.events ++ (since s w ++ endEvents w.self) := by
      rw [shut_events, ← List.append_assoc, ← hev]
    rw [since_eq (s := ⟨shut w.self, w.env⟩) hshut, arrivals_append, arrivals_endEvents, List.append_nil, harr]
    exact one harrived

theorem waitfor_returns (hread : Reads p) {type : MsgType} {t : T} {s : Live σ (MQTTClient σ T)} {rc s'}
    (h : (waitfor p type t).Returns s rc s') :
    ∃ rcs, Cycles p s rcs s' ∧ rc = rcs.getLast?.getD failure ∧ ∀ r ∈ rcs.dropLast, 0 ≤ r ∧ r ≠ type.code := by
  refine Prog.Returns.loop_induct (fun rc₀ s => ∃ rcs, Cycles p s rcs s' ∧ rc = rcs.getLast?.getD rc₀ ∧
    ∀ r ∈ rcs.dropLast, 0 ≤ r ∧ r ≠ type.code) ?_ ?_ h
  · intro rc₀ s hexit
    rw [returns_call_bind] at hexit
    rcases Prog.returns_ite.mp hexit with ⟨_, hexit⟩ | ⟨_, hexit⟩
    · obtain ⟨hrc, rfl⟩ := Prog.returns_pure.mp hexit
      obtain rfl := Turn.exit.inj hrc
      exact ⟨[], .nil, rfl, by simp⟩
    · obtain ⟨rc', u, hcycle, hexit⟩ := Prog.returns_bind.mp hexit
      rcases Prog.returns_ite.mp hexit with ⟨_, hexit⟩ | ⟨_, hexit⟩
      · exact nomatch (Prog.returns_pure.mp hexit).1
      · obtain ⟨hrc, rfl⟩ := Prog.returns_pure.mp hexit
        obtain rfl := Turn.exit.inj hrc
        exact ⟨[rc], .cons (cycle_returns hread hcycle) .nil, rfl, by simp⟩
  · intro rc₀ s rc' u hnext _ ih
    obtain ⟨rcs, hrcs, hlast, hinit⟩ := ih
    rw [returns_call_bind] at hnext
    rcases Prog.returns_ite.mp hnext with ⟨_, hnext⟩ | ⟨_, hnext⟩
    · exact nomatch (Prog.returns_pure.mp hnext).1
    · obtain ⟨rc'', v, hcycle, hnext⟩ := Prog.returns_bind.mp hnext
      rcases Prog.returns_ite.mp hnext with ⟨hgo, hnext⟩ | ⟨_, hnext⟩
      · obtain ⟨hrc, rfl⟩ := Prog.returns_pure.mp hnext
        obtain rfl := Turn.next.inj hrc
        refine ⟨rc' :: rcs, .cons (cycle_returns hread hcycle) hrcs, ?_, fun r hr => ?_⟩
        · rw [hlast, List.getLast?_cons, Option.getD_some]
        · cases rcs with
          | nil => exact nomatch hr
          | cons r' rcs =>
            rw [List.dropLast_cons_of_ne_nil (by simp)] at hr
            rcases List.mem_cons.mp hr with rfl | hr
            · exact ⟨hgo.2, hgo.1⟩
            · exact hinit r hr
      · exact nomatch (Prog.returns_pure.mp hnext).1

theorem yield_returns (hread : Reads p) {n : Nat} {s : Live σ (MQTTClient σ T)} {rc s'} (h : (yield_ p n).Returns s rc s') :
    ∃ rcs, Cycles p s rcs s' ∧ (rc = success → ∀ r ∈ rcs, 0 ≤ r) := by
  rw [yield_, returns_call_bind] at h
  refine Prog.Returns.loop_induct (fun _ u => ∀ s : Live σ (MQTTClient σ T), s.self = u.self →
    ∃ rcs, Cycles p s rcs s' ∧ (rc = success → ∀ r ∈ rcs, 0 ≤ r)) ?_ ?_ h s rfl
  · rintro _ u hexit s hs
    rw [returns_call_bind] at hexit
    rcases Prog.returns_ite.mp hexit with ⟨_, hexit⟩ | ⟨_, hexit⟩
    · obtain ⟨hrc, rfl⟩ := Prog.returns_pure.mp hexit
      rw [← hs]
      exact ⟨[], .nil, by simp⟩
    · obtain ⟨rc', v, hcycle, hexit⟩ := Prog.returns_bind.mp hexit
      rcases Prog.returns_ite.mp hexit with ⟨_, hexit⟩ | ⟨_, hexit⟩
      · obtain ⟨hrc, rfl⟩ := Prog.returns_pure.mp hexit
        obtain rfl := Turn.exit.inj hrc
        have hc := cycle_returns hread hcycle
        rw [← hs] at hc
        exact ⟨[rc'], .cons hc .nil, fun h => absurd h (by decide)⟩
      · exact nomatch (Prog.returns_pure.mp hexit).1
  · rintro _ u _ v hnext _ ih s hs
    rw [returns_call_bind] at hnext
    rcases Prog.returns_ite.mp hnext with ⟨_, hnext⟩ | ⟨_, hnext⟩
    · exact nomatch (Prog.returns_pure.mp hnext).1
    · obtain ⟨rc', w, hcycle, hnext⟩ := Prog.returns_bind.mp hnext
      rcases Prog.returns_ite.mp hnext with ⟨_, hnext⟩ | ⟨hge, hnext⟩
      · exact nomatch (Prog.returns_pure.mp hnext).1
      · obtain ⟨_, rfl⟩ := Prog.returns_pure.mp hnext
        obtain ⟨rcs, hrcs, hok⟩ := ih v rfl
        have hc := cycle_returns hread hcycle
        rw [← hs] at hc
        refine ⟨rc' :: rcs, .cons hc hrcs, fun h r hr => ?_⟩
        rcases List.mem_cons.mp hr with rfl | hr
        · omega
        · exact hok h r hr

/-- Turns that do not fail, by what arrived. -/
structure PassedAll (s : Live σ (MQTTClient σ T)) (rcs : List Int) (s' : Live σ (MQTTClient σ T)) : Prop where
  events : s'.self.events = s.self.events ++ since s s'
  codes : ∀ a ∈ arrivals (since s s'), (a.code : Int) ∈ rcs
  connected : s'.self.isconnected ↔ s.self.isconnected ∧ ∀ a ∈ arrivals (since s s'), listed a.code
  standing : (∀ a ∈ arrivals (since s s'), listed a.code) → standing s'.self = standing s.self
  unconnected : s.self.isconnected = false → MQTTClient.standing s'.self = MQTTClient.standing s.self
  cleansession : s'.self.cleansession = s.self.cleansession
  table : (∃ a ∈ arrivals (since s s'), ¬ listed a.code) → s.self.isconnected → s'.self.messageHandlers =
    if s.self.cleansession then cleared s.self.messageHandlers else s.self.messageHandlers

theorem Passed.all {s s' : Live σ (MQTTClient σ T)} {rc : Int} (h : Passed s rc s')
    (hev : s'.self.events = s.self.events ++ since s s') : PassedAll s [rc] s' := by
  cases h with
  | idle hrc harr hst =>
    refine ⟨hev, by simp [harr], ?_, fun _ => hst, fun _ => hst, congrArg Standing.cleansession hst, by simp [harr]⟩
    rw [harr, show s'.self.isconnected = s.self.isconnected from congrArg Standing.isconnected hst]
    simp
  | @listed a hrc harr hbuf hlisted hst =>
    refine ⟨hev, by simp [harr, hrc], ?_, fun _ => hst, fun _ => hst, congrArg Standing.cleansession hst, by simp [harr, hlisted]⟩
    rw [harr, show s'.self.isconnected = s.self.isconnected from congrArg Standing.isconnected hst]
    simp [hlisted]
  | @unlisted a hrc harr hbuf hunlisted hclosed hst hclean htable =>
    have hno : ¬ ∀ a ∈ arrivals (since s s'), MQTTClient.listed a.code := fun h => hunlisted (h a (by simp [harr]))
    refine ⟨hev, by simp [harr, hrc], by simp [hclosed, hno], fun h => absurd h hno, hst, hclean, fun _ hcon => ?_⟩
    rw [htable]
    simp only [hcon, true_and]

theorem PassedAll.refl (s : Live σ (MQTTClient σ T)) : PassedAll s [] s := by
  have hnone := since_self s
  exact ⟨by simp [hnone], by simp [hnone, arrivals], by simp [hnone, arrivals], fun _ => rfl, fun _ => rfl, rfl, by simp [hnone, arrivals]⟩

/-- What is outside does not matter. -/
theorem PassedAll.of_self {s s' t t' : Live σ (MQTTClient σ T)} {rcs : List Int} (h : PassedAll s rcs t)
    (hs : s'.self = s.self) (ht : t'.self = t.self) : PassedAll s' rcs t' := by
  obtain ⟨_, _⟩ := s
  obtain ⟨_, _⟩ := t
  obtain rfl := hs
  obtain rfl := ht
  exact ⟨h.events, h.codes, h.connected, h.standing, h.unconnected, h.cleansession, h.table⟩

theorem PassedAll.trans {s t u : Live σ (MQTTClient σ T)} {rcs rcs' : List Int} (h : PassedAll s rcs t)
    (h' : PassedAll t rcs' u) : PassedAll s (rcs ++ rcs') u := by
  have hsince := since_trans h.events h'.events
  have harr : arrivals (since s u) = arrivals (since s t) ++ arrivals (since t u) := by rw [hsince, arrivals_append]
  have hboth (P : Arrival → Prop) : (∀ a ∈ arrivals (since s u), P a) ↔
      (∀ a ∈ arrivals (since s t), P a) ∧ ∀ a ∈ arrivals (since t u), P a := by
    rw [harr]
    exact List.forall_mem_append
  refine ⟨by rw [hsince, ← List.append_assoc, ← h.events]; exact h'.events, ?_, ?_, fun hall => ?_, fun hcon => ?_,
    h'.cleansession.trans h.cleansession, fun hex hcon => ?_⟩
  · rw [hboth]
    exact ⟨fun a ha => List.mem_append_left _ (h.codes a ha), fun a ha => List.mem_append_right _ (h'.codes a ha)⟩
  · rw [h'.connected, h.connected, hboth, and_assoc]
  · rw [hboth] at hall
    exact (h'.standing hall.2).trans (h.standing hall.1)
  · have hst := h.unconnected hcon
    exact (h'.unconnected ((congrArg Standing.isconnected hst).trans hcon)).trans hst
  · by_cases hall : ∀ a ∈ arrivals (since s t), listed a.code
    · -- The session was shut later.
      have hst := h.standing hall
      have hex' : ∃ a ∈ arrivals (since t u), ¬ listed a.code := by
        obtain ⟨a, ha, hno⟩ := hex
        rw [harr] at ha
        exact ⟨a, (List.mem_append.mp ha).resolve_left fun ha => hno (hall a ha), hno⟩
      rw [h'.table hex' (h.connected.mpr ⟨hcon, hall⟩), h.cleansession,
        show t.self.messageHandlers = s.self.messageHandlers from congrArg Standing.messageHandlers hst]
    · have hshut : t.self.isconnected = false := Bool.eq_false_iff.mpr fun h₁ => hall (h.connected.mp h₁).2
      rw [show u.self.messageHandlers = t.self.messageHandlers from congrArg Standing.messageHandlers (h'.unconnected hshut)]
      exact h.table (by simpa using hall) hcon

theorem Cycles.passed {s s' : Live σ (MQTTClient σ T)} {rcs : List Int} (h : Cycles p s rcs s') (hrcs : ∀ r ∈ rcs, 0 ≤ r) :
    PassedAll s rcs s' := by
  induction h with
  | @nil s e => exact (PassedAll.refl s).of_self rfl rfl
  | @cons s e rc t rcs u h _ ih =>
    have hfirst : PassedAll s [rc] t := ((h.passed (hrcs rc (.head _))).all h.events).of_self rfl rfl
    exact hfirst.trans (ih fun r hr => hrcs r (.tail _ hr))

/-- Where there is no session, a turn has none to close. -/
theorem Cycled.unconnected {s s' : Live σ (MQTTClient σ T)} {rc : Int} (h : Cycled p s rc s') (hcon : s.self.isconnected = false) :
    MQTTClient.standing s'.self = MQTTClient.standing s.self := by
  cases h with
  | kept hw => exact hw.left.1
  | @failed _ _ _ w hw =>
    have hno : w.self.isconnected = false := (congrArg Standing.isconnected hw.left.1).trans hcon
    rw [shut, if_neg (by rw [hno]; decide)]
    exact hw.left.1

theorem Cycles.unconnected {s s' : Live σ (MQTTClient σ T)} {rcs : List Int} (h : Cycles p s rcs s')
    (hcon : s.self.isconnected = false) : MQTTClient.standing s'.self = MQTTClient.standing s.self := by
  induction h with
  | nil => rfl
  | @cons s e rc t rcs u hturn _ ih =>
    have hst := hturn.unconnected hcon
    exact (ih ((congrArg Standing.isconnected hst).trans hcon)).trans hst

/-- A client that is still connected has its standing. -/
theorem Cycles.standing {s s' : Live σ (MQTTClient σ T)} {rcs : List Int} (h : Cycles p s rcs s') (hcon : s'.self.isconnected) :
    standing s'.self = standing s.self := by
  induction h with
  | nil => rfl
  | @cons s e rc t rcs u hturn hrest ih =>
    refine (ih hcon).trans ?_
    cases hturn with
    | kept hw => exact hw.left.1
    | @failed _ _ _ w =>
      have hno := shut_isconnected w.self
      have hno' : u.self.isconnected = false := (congrArg Standing.isconnected (hrest.unconnected hno)).trans hno
      exact absurd (hcon.symm.trans hno') (by decide)

theorem Cycles.events {s s' : Live σ (MQTTClient σ T)} {rcs : List Int} (h : Cycles p s rcs s') :
    s'.self.events = s.self.events ++ since s s' := by
  induction h with
  | nil => exact (List.drop_length ▸ List.append_nil _).symm
  | cons h _ ih =>
    have hsince := since_trans h.events ih
    rw [ih, h.events, List.append_assoc]
    exact congrArg _ hsince.symm

/-- What came to a client that is still connected is what its turns returned. -/
theorem Cycles.heard {s s' : Live σ (MQTTClient σ T)} {rcs : List Int} (h : Cycles p s rcs s') (hcon : s'.self.isconnected) :
    ∀ a ∈ arrivals (since s s'), (a.code : Int) ∈ rcs := by
  induction h with
  | @nil s e =>
    rw [show since s ⟨s.self, e⟩ = since s s from rfl, since_self]
    exact fun a ha => nomatch ha
  | @cons s e rc t rcs u hturn hrest ih =>
    cases hturn with
    | @kept _ _ w hw _ hlisted =>
      obtain ⟨-, hev, arr, harr, hread⟩ := hw.left
      have hsince := since_trans hev hrest.events
      intro a ha
      rw [show since s u = since ⟨s.self, e⟩ u from rfl, hsince, arrivals_append] at ha
      rcases List.mem_append.mp ha with ha | ha
      · rw [harr] at ha
        cases hread with
        | nothing _ hnil => rw [hnil] at ha; exact nomatch ha
        | arrival hcode hone =>
          rw [hone, List.mem_singleton] at ha
          rw [ha, hcode]
          exact .head _
      · exact .tail _ (ih hcon a ha)
    | @failed _ _ _ w =>
      have hno := shut_isconnected w.self
      have hno' : u.self.isconnected = false := (congrArg Standing.isconnected (hrest.unconnected hno)).trans hno
      exact absurd (hcon.symm.trans hno') (by decide)

/-- A wait ends with the packet it is for: it can only be the last that came. -/
theorem waitfor_heard (hread : Reads p) {type : MsgType} {t : T} {s : Live σ (MQTTClient σ T)} {rc s'}
    (h : (waitfor p type t).Returns s rc s') :
    ∃ as last, arrivals (since s s') = as ++ last ∧ last.length ≤ 1 ∧ ∀ a ∈ as, a.code ≠ type.code := by
  obtain ⟨rcs, hcycles, -, hinit⟩ := waitfor_returns hread h
  rcases List.eq_nil_or_concat rcs with rfl | ⟨init, r, rfl⟩
  · cases hcycles with
    | @nil _ e =>
      rw [show since s ⟨s.self, e⟩ = since s s from rfl, since_self]
      exact ⟨[], [], rfl, Nat.zero_le 1, fun _ ha => nomatch ha⟩
  rw [List.concat_eq_append] at hcycles hinit
  rw [List.dropLast_concat] at hinit
  obtain ⟨u, v, e, hrcs, hv, rfl⟩ := hcycles.snoc
  have hu := hrcs.passed fun r hr => (hinit r hr).1
  refine ⟨arrivals (since s u), arrivals (since u v), ?_, hv.single, fun a ha hcode => (hinit _ (hu.codes a ha)).2 (by rw [hcode])⟩
  rw [← arrivals_append, ← since_trans hu.events hv.events]
  rfl

/-- A wait that ends with the packet it is for. -/
structure Awaited (s : Live σ (MQTTClient σ T)) (type : MsgType) (packet : Bytes) (s' : Live σ (MQTTClient σ T)) : Prop where
  passed : ∃ rcs, PassedAll s rcs s'
  ofType : packetType packet = type.code
  readbuf : packet <+: s'.self.readbuf
  first : ∃ as, arrivals (since s s') = as ++ [.packet packet] ∧ ∀ a ∈ as, a.code ≠ type.code

theorem waitfor_awaited (hread : Reads p) {type : MsgType} (htype : type ≠ .connect) {t : T} {s : Live σ (MQTTClient σ T)} {s'}
    (h : (waitfor p type t).Returns s type.code s') : ∃ packet, Awaited s type packet s' := by
  have hcode : 1 < type.code := by cases type <;> first | decide | exact absurd rfl htype
  obtain ⟨rcs, hcycles, hlast, hinit⟩ := waitfor_returns hread h
  rcases List.eq_nil_or_concat rcs with rfl | ⟨init, r, rfl⟩
  · exact absurd (show ((type.code : Nat) : Int) = -1 from hlast) (by omega)
  rw [List.concat_eq_append] at hcycles hlast hinit
  rw [List.getLast?_concat, Option.getD_some] at hlast
  rw [List.dropLast_concat] at hinit
  subst hlast
  obtain ⟨u, v, e, hrcs, hv, rfl⟩ := hcycles.snoc
  have hu : PassedAll s init u := hrcs.passed fun r hr => (hinit r hr).1
  have hlastTurn := hv.passed (by omega)
  have hall : PassedAll s (init ++ [(type.code : Int)]) v := hu.trans (hlastTurn.all hv.events)
  have hno : ∀ a ∈ arrivals (since s u), a.code ≠ type.code := fun a ha h => (hinit _ (hu.codes a ha)).2 (by rw [h])
  have harr : arrivals (since s v) = arrivals (since s u) ++ arrivals (since u v) := by
    rw [since_trans hu.events hv.events, arrivals_append]
  have packet {a : Arrival} (ha : (type.code : Int) = a.code) (hone : arrivals (since u v) = [a])
      (hbuf : ∀ bs, a = .packet bs → bs <+: v.self.readbuf) : ∃ packet, Awaited s type packet ⟨v.self, e⟩ := by
    cases a with
    | cutShort => exact absurd (Int.ofNat_inj.mp ha) (by rw [Arrival.code]; omega)
    | packet bs =>
      exact ⟨bs, ⟨_, hall.of_self rfl rfl⟩, (Int.ofNat_inj.mp ha).symm, hbuf bs rfl, _, by rw [← hone]; exact harr, hno⟩
  cases hlastTurn with
  | idle hrc => exact absurd hrc (by omega)
  | listed hrc hone hbuf => exact packet hrc hone hbuf
  | unlisted hrc hone hbuf => exact packet hrc hone hbuf

end MQTTClient

end FEmbed
