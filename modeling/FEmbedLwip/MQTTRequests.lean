/-
What `publish`, `subscribe`, `unsubscribe` and `connect` do: a packet is sent,
turns of `cycle` follow until one returns the type that is awaited, and what is
then in the read buffer decides.
-/
import FEmbedLwip.MQTTTurns
import FEmbedLwip.MQTTHandlers

namespace FEmbed

open Live
open Prog (Guarantee Guarantees)
open Relation (ReflTransGen)

namespace MQTTClient

variable {σ T : Type} {p : MQTTPlatform σ T}

/-- The result of a call, without what else it gives. -/
theorem returns_fst {α β : Type} {x : Prog (Live σ (MQTTClient σ T)) (α × β)} {s : Live σ (MQTTClient σ T)} {a : α} {s'}
    (h : (x >>= fun r => pure r.1).Returns s a s') : ∃ b, x.Returns s (a, b) s' := by
  obtain ⟨⟨a', b⟩, t, hx, hpure⟩ := Prog.returns_bind.mp h
  obtain ⟨rfl, rfl⟩ := Prog.returns_pure.mp hpure
  exact ⟨b, hx⟩

/-! ## `publish` -/

/-- The acknowledgement that a QoS asks for. -/
def awaited (qos : Nat) : Option MsgType := if qos = 1 then some .puback else if qos = 2 then some .pubcomp else none

theorem awaited_ne_connect {qos : Nat} {type : MsgType} (h : awaited qos = some type) : type ≠ .connect := by
  rintro rfl
  rw [awaited] at h
  split at h
  · exact nomatch h
  · split at h
    · exact nomatch h
    · exact nomatch h

/-- A publish that is acknowledged is in flight no more. -/
def acknowledged (id : Nat) (c : MQTTClient σ T) : MQTTClient σ T :=
  if c.inflightMsgid = id then { c with inflightMsgid := 0 } else c

/-- How a wait for an acknowledgement ends. -/
inductive AckDone (s u : Live σ (MQTTClient σ T)) (type : MsgType) : Int → Live σ (MQTTClient σ T) → Prop
  | failed {s'} (hs' : s' = u) : AckDone s u type failure s'
  | acked {packet ack id e} (hwait : Awaited s type packet u) (hack : MQTTPacket.deserializeAck u.self.readbuf = some ack)
      (hid : ∀ id' ∈ ack.packetid, id = id') : AckDone s u type success ⟨acknowledged id u.self, e⟩

theorem AckDone.events {s u s' : Live σ (MQTTClient σ T)} {type : MsgType} {rc : Int} (h : AckDone s u type rc s') :
    s'.self.events = u.self.events := by
  cases h with
  | failed hs' => rw [hs']
  | acked =>
    dsimp only
    unfold acknowledged
    split <;> rfl

theorem awaitAck_returns (hread : Reads p) {type : MsgType} (htype : type ≠ .connect) {t : T} {s : Live σ (MQTTClient σ T)}
    {rc : Int} {s'} (h : (awaitAck p type t).Returns s rc s') : ∃ rcs u, Cycles p s rcs u ∧ AckDone s u type rc s' := by
  obtain ⟨wrc, u, hwait, h⟩ := Prog.returns_bind.mp h
  obtain ⟨rcs, hcycles, -⟩ := waitfor_returns hread hwait
  refine ⟨rcs, u, hcycles, ?_⟩
  rcases Prog.returns_ite.mp h with ⟨hcode, h⟩ | ⟨_, h⟩
  · rw [hcode] at hwait
    obtain ⟨packet, hawaited⟩ := waitfor_awaited hread htype hwait
    rw [returns_obj_bind] at h
    split at h
    · exact absurd h Prog.returns_undefined
    rename_i ack hack
    rcases Prog.returns_ite.mp h with ⟨_, h⟩ | ⟨_, h⟩
    · obtain ⟨rfl, rfl⟩ := Prog.returns_pure.mp h
      exact .failed rfl
    obtain ⟨id, v, hor, h⟩ := Prog.returns_bind.mp h
    obtain ⟨hid, e, rfl⟩ := orIndeterminate_returns hor
    rw [returns_obj_bind] at h
    dsimp only at h
    have hdone := AckDone.acked (e := e) hawaited hack hid
    rw [acknowledged] at hdone
    rcases Prog.returns_ite.mp h with ⟨hin, h⟩ | ⟨hin, h⟩
    · rw [returns_set_bind] at h
      obtain ⟨rfl, rfl⟩ := Prog.returns_pure.mp h
      rwa [if_pos hin] at hdone
    · obtain ⟨rfl, rfl⟩ := Prog.returns_pure.mp h
      rwa [if_neg hin] at hdone
  · obtain ⟨rfl, rfl⟩ := Prog.returns_pure.mp h
    exact .failed rfl

/-- The packet in the buffer has been sent. -/
def afterSending (s : Live σ (MQTTClient σ T)) (e : σ) : Live σ (MQTTClient σ T) :=
  ⟨{ s.self with events := s.self.events ++ [.sent s.self.sendbuf e] }, e⟩

/-- A publish is not sent, or it is sent and perhaps waited for. -/
inductive PublishDone (p : MQTTPlatform σ T) (s : Live σ (MQTTClient σ T)) (qos : Nat) : Int → Live σ (MQTTClient σ T) → Prop
  | unsent {e} : PublishDone p s qos failure ⟨s.self, e⟩
  | sent {e} (hqos : awaited qos = none) : PublishDone p s qos success (afterSending s e)
  | waited {e type rcs u rc s'} (hqos : awaited qos = some type) (hcycles : Cycles p (afterSending s e) rcs u)
      (hdone : AckDone (afterSending s e) u type rc s') : PublishDone p s qos rc s'

theorem publishPacket_returns (hread : Reads p) {t : T} {qos : Nat} {s : Live σ (MQTTClient σ T)} {rc : Int} {s'}
    (h : (publishPacket p t qos).Returns s rc s') : PublishDone p s qos rc s' := by
  have wait {type : MsgType} {e : σ} (hqos : awaited qos = some type)
      (h : (awaitAck p type t).Returns (afterSending s e) rc s') : PublishDone p s qos rc s' := by
    obtain ⟨rcs, u, hcycles, hdone⟩ := awaitAck_returns hread (awaited_ne_connect hqos) h
    exact .waited hqos hcycles hdone
  obtain ⟨src, u, hsend, h⟩ := Prog.returns_bind.mp h
  obtain ⟨e, _, ⟨rfl, rfl⟩ | ⟨rfl, rfl⟩⟩ := sendPacket_returns hsend
  · rw [if_neg (not_not.mpr rfl)] at h
    rcases Prog.returns_ite.mp h with ⟨h₁, h⟩ | ⟨h₁, h⟩
    · exact wait (if_pos h₁) h
    rcases Prog.returns_ite.mp h with ⟨h₂, h⟩ | ⟨h₂, h⟩
    · exact wait ((if_neg h₁).trans (if_pos h₂)) h
    · obtain ⟨rfl, rfl⟩ := Prog.returns_pure.mp h
      exact .sent ((if_neg h₁).trans (if_neg h₂))
  · rw [if_pos (by decide)] at h
    obtain ⟨rfl, rfl⟩ := Prog.returns_pure.mp h
    exact .unsent

/-- `packetid.getNext()`. -/
def nextId (c : MQTTClient σ T) : Nat := if c.packetid = 65535 then 1 else c.packetid + 1

theorem getNext_returns {s : Live σ (MQTTClient σ T)} {id : Nat} {s'} :
    (getNext).Returns s id s' ↔ id = nextId s.self ∧ s' = ⟨{ s.self with packetid := nextId s.self }, s.env⟩ := by
  rw [getNext, returns_set_bind, returns_obj_bind]
  exact Prog.returns_pure

/-- The id of a new publish. -/
def publishedId (c : MQTTClient σ T) (id qos : Nat) : Nat := if qos = 1 ∨ qos = 2 then nextId c else id

/-- The client with a new publish in its buffers. -/
def begun (c : MQTTClient σ T) (id qos : Nat) (bs : Bytes) : MQTTClient σ T :=
  let c' : MQTTClient σ T := { c with packetid := if qos = 1 ∨ qos = 2 then id else c.packetid, sendbuf := bs }
  if c'.cleansession then c'
  else { c' with pubbuf := bs, inflightMsgid := id, inflightLen := bs.length, inflightQoS := qos, pubrel := false }

/-- What a call of `publish` does, and the id it gives its packet. -/
inductive Publishing (p : MQTTPlatform σ T) (topicName payload : Bytes) (id₀ qos : Nat) (retained : Bool)
    (s : Live σ (MQTTClient σ T)) : Int × Nat → Live σ (MQTTClient σ T) → Prop
  | unconnected {e} (hcon : s.self.isconnected = false) : Publishing p topicName payload id₀ qos retained s (failure, id₀) ⟨s.self, e⟩
  | tooLong {c e} (hc : c = { s.self with packetid := if qos = 1 ∨ qos = 2 then nextId s.self else s.self.packetid }) :
      Publishing p topicName payload id₀ qos retained s (failure, publishedId s.self id₀ qos) ⟨c, e⟩
  | begun {bs e rc s'} (hcon : s.self.isconnected = true)
      (hbs : MQTTPacket.serializePublish p.maxMqttPacketSize false qos retained (publishedId s.self id₀ qos) topicName payload = .ok bs)
      (hdone : PublishDone p ⟨begun s.self (publishedId s.self id₀ qos) qos bs, e⟩ qos rc s') :
      Publishing p topicName payload id₀ qos retained s (rc, publishedId s.self id₀ qos) s'

theorem publishId_returns (hread : Reads p) {topicName payload : Bytes} {id₀ qos : Nat} {retained : Bool}
    {s : Live σ (MQTTClient σ T)} {r : Int × Nat} {s'} (h : (publishId p topicName payload id₀ qos retained).Returns s r s') :
    Publishing p topicName payload id₀ qos retained s r s' := by
  rw [publishId, returns_call_bind, returns_obj_bind] at h
  rcases Prog.returns_ite.mp h with ⟨hcon, h⟩ | ⟨hcon, h⟩
  · obtain ⟨rfl, rfl⟩ := Prog.returns_pure.mp h
    exact .unconnected (Bool.eq_false_iff.mpr hcon)
  dsimp only at h
  -- The two ways to the id go on alike.
  have start {f : Nat → Prog (Live σ (MQTTClient σ T)) (Int × Nat)} {e : σ}
      (h : (if qos = 1 ∨ qos = 2 then getNext >>= f else pure id₀ >>= f).Returns ⟨s.self, e⟩ r s') :
      (f (publishedId s.self id₀ qos)).Returns
        ⟨{ s.self with packetid := if qos = 1 ∨ qos = 2 then nextId s.self else s.self.packetid }, e⟩ r s' := by
    rw [publishedId]
    rcases Prog.returns_ite.mp h with ⟨hqos, h⟩ | ⟨hqos, h⟩
    · rw [if_pos hqos, if_pos hqos]
      rwa [Prog.returns_bind_of (getNext_returns.mpr ⟨rfl, rfl⟩)] at h
    · rw [if_neg hqos, if_neg hqos]
      rwa [Prog.returns_pure_bind] at h
  replace h := start h
  dsimp only at h
  split at h
  · obtain ⟨rfl, rfl⟩ := Prog.returns_pure.mp h
    exact .tooLong rfl
  rename_i bs hbs
  rw [returns_set_bind, returns_obj_bind] at h
  dsimp only at h
  have packet {c : MQTTClient σ T} (hc : c = begun s.self (publishedId s.self id₀ qos) qos bs)
      (h : (publishPacket p (p.timer s.env).1 qos >>= fun rc => pure (rc, publishedId s.self id₀ qos) :
        Prog (Live σ (MQTTClient σ T)) (Int × Nat)).Returns ⟨c, (p.timer s.env).2⟩ r s') :
      Publishing p topicName payload id₀ qos retained s r s' := by
    obtain ⟨rc, v, hpub, h⟩ := Prog.returns_bind.mp h
    obtain ⟨rfl, rfl⟩ := Prog.returns_pure.mp h
    rw [hc] at hpub
    exact .begun (by simpa using hcon) hbs (publishPacket_returns hread hpub)
  have hid : (if qos = 1 ∨ qos = 2 then nextId s.self else s.self.packetid) =
      if qos = 1 ∨ qos = 2 then publishedId s.self id₀ qos else s.self.packetid := by
    rw [publishedId]
    split
    · rfl
    · rfl
  rcases Prog.returns_ite.mp h with ⟨hclean, h⟩ | ⟨hclean, h⟩
  · rw [returns_set_bind] at h
    refine packet ?_ h
    rw [begun]
    dsimp only
    rw [if_neg hclean, hid]
  · refine packet ?_ h
    rw [begun]
    dsimp only
    rw [if_pos (not_not.mp hclean), hid]

/-! ## `subscribe` and `unsubscribe` -/

/-- The client once a request with its next id has been sent. -/
def asked (s : Live σ (MQTTClient σ T)) (bs : Bytes) (e : σ) : Live σ (MQTTClient σ T) :=
  ⟨{ s.self with packetid := nextId s.self, sendbuf := bs, events := s.self.events ++ [.sent bs e] }, e⟩

/-- A request is sent, or what follows does not see a success. -/
theorem ask_returns {α : Type} {packet : Nat → Except Int Bytes} {t : T} {f : Except Int Int → Prog (Live σ (MQTTClient σ T)) α}
    {s : Live σ (MQTTClient σ T)} {a : α} {s'} (h : (getNext >>= fun id => sendSerialized p (packet id) t >>= f).Returns s a s') :
    (∃ bs e, packet (nextId s.self) = .ok bs ∧ (f (.ok success)).Returns (asked s bs e) a s') ∨
    (∃ r bs e, (∀ rc, r = .ok rc → rc = failure) ∧
      (f r).Returns ⟨{ s.self with packetid := nextId s.self, sendbuf := bs }, e⟩ a s') := by
  rw [Prog.returns_bind_of (getNext_returns.mpr ⟨rfl, rfl⟩)] at h
  obtain ⟨r, u, hsend, h⟩ := Prog.returns_bind.mp h
  generalize hpacket : packet (nextId s.self) = packet at hsend
  cases packet with
  | error len =>
    obtain ⟨rfl, rfl⟩ := sendSerialized_error hsend
    exact .inr ⟨.error len, s.self.sendbuf, _, fun _ h => (nomatch h), h⟩
  | ok bs =>
    obtain ⟨e, _, ⟨rfl, rfl⟩ | ⟨rfl, rfl⟩⟩ := sendSerialized_returns hsend
    · exact .inl ⟨bs, e, rfl, h⟩
    · exact .inr ⟨_, _, _, fun _ h => (Except.ok.inj h).symm, h⟩

/-- What a call of `subscribe` does. -/
inductive Subscribing (p : MQTTPlatform σ T) (charSigned : Bool) (topicFilter : Bytes) (qos : Nat)
    (register : Prog (Live σ (MQTTClient σ T)) Int) (s : Live σ (MQTTClient σ T)) : Int × Option Int → Live σ (MQTTClient σ T) → Prop
  | unasked {n bs e} : Subscribing p charSigned topicFilter qos register s (failure, none)
      ⟨{ s.self with packetid := n, sendbuf := bs }, e⟩
  | unanswered {bs e rcs s'} (hcon : s.self.isconnected = true)
      (hbs : MQTTPacket.serializeSubscribe p.maxMqttPacketSize false (nextId s.self) topicFilter qos = .ok bs)
      (hcycles : Cycles p (asked s bs e) rcs s') (hno : (MsgType.suback.code : Int) ∉ rcs) :
      Subscribing p charSigned topicFilter qos register s (failure, none) s'
  | answered {bs e rcs packet u ack granted r s'} (hcon : s.self.isconnected = true)
      (hbs : MQTTPacket.serializeSubscribe p.maxMqttPacketSize false (nextId s.self) topicFilter qos = .ok bs)
      (hcycles : Cycles p (asked s bs e) rcs u) (hwait : Awaited (asked s bs e) .suback packet u)
      (hack : MQTTPacket.deserializeSuback charSigned 1 u.self.readbuf = some ack) (hone : ack.grantedQoSs.length ≤ 1)
      (hgranted : granted = ack.grantedQoSs.headD 0)
      (hr : if ack.rc = 1 ∧ granted ≠ 0x80 then register.Returns u r s' else r = success ∧ s' = u) :
      Subscribing p charSigned topicFilter qos register s (r, some granted) s'

/-- A wait that does not end with its type has not seen it. -/
theorem not_mem_of_last {rcs : List Int} {rc code : Int} (hlast : rc = rcs.getLast?.getD failure)
    (hinit : ∀ r ∈ rcs.dropLast, r ≠ code) (hne : rc ≠ code) : code ∉ rcs := by
  rcases List.eq_nil_or_concat rcs with rfl | ⟨init, r, rfl⟩
  · exact List.not_mem_nil
  rw [List.concat_eq_append] at hlast hinit ⊢
  rw [List.getLast?_concat, Option.getD_some] at hlast
  rw [List.dropLast_concat] at hinit
  intro hmem
  rcases List.mem_append.mp hmem with hmem | hmem
  · exact hinit code hmem rfl
  · exact hne (hlast.trans (List.mem_singleton.mp hmem).symm)

theorem subscribeTo_returns (hread : Reads p) {charSigned : Bool} {topicFilter : Bytes} {qos : Nat}
    {register : Prog (Live σ (MQTTClient σ T)) Int} {s : Live σ (MQTTClient σ T)} {r : Int × Option Int} {s'}
    (h : (subscribeTo p charSigned topicFilter qos register).Returns s r s') :
    Subscribing p charSigned topicFilter qos register s r s' := by
  rw [subscribeTo, returns_call_bind, returns_obj_bind] at h
  rcases Prog.returns_ite.mp h with ⟨_, h⟩ | ⟨hcon, h⟩
  · obtain ⟨rfl, rfl⟩ := Prog.returns_pure.mp h
    exact .unasked
  replace hcon : s.self.isconnected = true := by simpa using hcon
  rcases ask_returns h with ⟨bs, e, hbs, h⟩ | ⟨x, bs, e, hx, h⟩
  · dsimp only at h
    rw [if_neg (not_not.mpr rfl)] at h
    obtain ⟨wrc, u, hwait, h⟩ := Prog.returns_bind.mp h
    obtain ⟨rcs, hcycles, hlast, hinit⟩ := waitfor_returns hread hwait
    rcases Prog.returns_ite.mp h with ⟨hcode, h⟩ | ⟨hcode, h⟩
    · rw [hcode] at hwait
      obtain ⟨packet, hawaited⟩ := waitfor_awaited hread (by decide) hwait
      rw [returns_obj_bind] at h
      split at h
      · exact absurd h Prog.returns_undefined
      rename_i ack hack
      rcases Prog.returns_ite.mp h with ⟨_, h⟩ | ⟨hone, h⟩
      · exact absurd h Prog.returns_undefined
      have answer {r : Int} (hr : if ack.rc = 1 ∧ ack.grantedQoSs.headD 0 ≠ 0x80 then register.Returns u r s' else r = success ∧ s' = u) :=
        Subscribing.answered (r := r) hcon hbs hcycles hawaited hack (Nat.le_of_not_lt hone) rfl hr
      rcases Prog.returns_ite.mp h with ⟨hok, h⟩ | ⟨hno, h⟩
      · obtain ⟨rrc, v, hreg, h⟩ := Prog.returns_bind.mp h
        obtain ⟨rfl, rfl⟩ := Prog.returns_pure.mp h
        exact answer (by rw [if_pos hok]; exact hreg)
      · obtain ⟨rfl, rfl⟩ := Prog.returns_pure.mp h
        exact answer (by rw [if_neg hno]; exact ⟨rfl, rfl⟩)
    · obtain ⟨rfl, rfl⟩ := Prog.returns_pure.mp h
      exact .unanswered hcon hbs hcycles (not_mem_of_last hlast (fun r hr => (hinit r hr).2) hcode)
  · cases x with
    | error len =>
      obtain ⟨rfl, rfl⟩ := Prog.returns_pure.mp h
      exact .unasked
    | ok rc =>
      obtain rfl := hx rc rfl
      dsimp only at h
      rw [if_pos (by decide)] at h
      obtain ⟨rfl, rfl⟩ := Prog.returns_pure.mp h
      exact .unasked

/-- What a call of `unsubscribe` does. -/
inductive Unsubscribing (p : MQTTPlatform σ T) (topicFilter : Bytes) (s : Live σ (MQTTClient σ T)) :
    Int → Live σ (MQTTClient σ T) → Prop
  | unasked {n bs e} : Unsubscribing p topicFilter s failure ⟨{ s.self with packetid := n, sendbuf := bs }, e⟩
  | unanswered {bs e rcs s'} (hcon : s.self.isconnected = true)
      (hbs : MQTTPacket.serializeUnsubscribe p.maxMqttPacketSize false (nextId s.self) topicFilter = .ok bs)
      (hcycles : Cycles p (asked s bs e) rcs s') : Unsubscribing p topicFilter s failure s'
  | answered {bs e rcs packet u ack s'} (hcon : s.self.isconnected = true)
      (hbs : MQTTPacket.serializeUnsubscribe p.maxMqttPacketSize false (nextId s.self) topicFilter = .ok bs)
      (hcycles : Cycles p (asked s bs e) rcs u) (hwait : Awaited (asked s bs e) .unsuback packet u)
      (hack : MQTTPacket.deserializeUnsuback u.self.readbuf = some ack)
      (hs' : if ack.rc = 1 then ∃ rc, (setMessageFunction p topicFilter none).Returns u rc s' else s' = u) :
      Unsubscribing p topicFilter s success s'

theorem unsubscribe_returns (hread : Reads p) {topicFilter : Bytes} {s : Live σ (MQTTClient σ T)} {rc : Int} {s'}
    (h : (unsubscribe p topicFilter).Returns s rc s') : Unsubscribing p topicFilter s rc s' := by
  rw [unsubscribe, returns_call_bind, returns_obj_bind] at h
  rcases Prog.returns_ite.mp h with ⟨_, h⟩ | ⟨hcon, h⟩
  · obtain ⟨rfl, rfl⟩ := Prog.returns_pure.mp h
    exact .unasked
  replace hcon : s.self.isconnected = true := by simpa using hcon
  rcases ask_returns h with ⟨bs, e, hbs, h⟩ | ⟨x, bs, e, hx, h⟩
  · dsimp only at h
    rw [if_neg (not_not.mpr rfl)] at h
    obtain ⟨wrc, u, hwait, h⟩ := Prog.returns_bind.mp h
    obtain ⟨rcs, hcycles, -⟩ := waitfor_returns hread hwait
    rcases Prog.returns_ite.mp h with ⟨hcode, h⟩ | ⟨_, h⟩
    · rw [hcode] at hwait
      obtain ⟨packet, hawaited⟩ := waitfor_awaited hread (by decide) hwait
      rw [returns_obj_bind] at h
      split at h
      · exact absurd h Prog.returns_undefined
      rename_i ack hack
      have answer (hs' : if ack.rc = 1 then ∃ rc, (setMessageFunction p topicFilter none).Returns u rc s' else s' = u) :=
        Unsubscribing.answered hcon hbs hcycles hawaited hack hs'
      rcases Prog.returns_ite.mp h with ⟨hok, h⟩ | ⟨hno, h⟩
      · obtain ⟨src, v, hset, h⟩ := Prog.returns_bind.mp h
        obtain ⟨rfl, rfl⟩ := Prog.returns_pure.mp h
        exact answer (by rw [if_pos hok]; exact ⟨src, hset⟩)
      · obtain ⟨rfl, rfl⟩ := Prog.returns_pure.mp h
        exact answer (by rw [if_neg hno])
    · obtain ⟨rfl, rfl⟩ := Prog.returns_pure.mp h
      exact .unanswered hcon hbs hcycles
  · cases x with
    | error len =>
      obtain ⟨rfl, rfl⟩ := Prog.returns_pure.mp h
      exact .unasked
    | ok rc =>
      obtain rfl := hx rc rfl
      dsimp only at h
      rw [if_pos (by decide)] at h
      obtain ⟨rfl, rfl⟩ := Prog.returns_pure.mp h
      exact .unasked

/-! ## `connect` -/

/-- The client once a CONNECT has been sent. -/
def greeting (s : Live σ (MQTTClient σ T)) (options : ConnectData) (bs : Bytes) (l : T) (e e' : σ) : Live σ (MQTTClient σ T) :=
  ⟨{ s.self with
    keepAliveInterval := options.keepAliveInterval, cleansession := options.cleansession, sendbuf := bs, lastReceived := l
    events := s.self.events ++ [.sent bs e] }, e'⟩

/-- How the wait for the CONNACK ends. -/
inductive Greeted (s u : Live σ (MQTTClient σ T)) : Int × Option ConnackData → Prop
  | unanswered : Greeted s u (failure, none)
  | answered {packet ack data rc} (hwait : Awaited s .connack packet u)
      (hack : MQTTPacket.deserializeConnack u.self.readbuf = some ack)
      (hdata : data = { rc := (ack.connackRc.getD 0 : Nat), sessionPresent := ack.sessionPresent.getD false })
      (hrc : rc = if ack.rc = 1 then data.rc else failure) : Greeted s u (rc, some data)

theorem AllowsCycle.awaitConnack {G : Guarantee (Live σ (MQTTClient σ T))} {sendable : Bytes → Prop} {lossy : Prop}
    (A : AllowsCycle p G sendable lossy) {t : T} {s : Live σ (MQTTClient σ T)} {out : Int × Option ConnackData} {s'}
    (hwell : lossy ∨ 0 ≤ out.1) (h : (awaitConnack p t).Returns s out s') : G.rel s s' := by
  obtain ⟨rc, u, hwait, h⟩ := Prog.returns_bind.mp h
  rcases Prog.returns_ite.mp h with ⟨htype, h⟩ | ⟨-, h⟩
  · refine G.trans (A.waitfor (.inr (htype ▸ Int.natCast_nonneg _)) hwait) ?_
    rw [returns_obj_bind] at h
    split at h
    · exact absurd h Prog.returns_undefined
    · exact Guarantees.pure u out s' h
  · obtain ⟨rfl, rfl⟩ := Prog.returns_pure.mp h
    exact A.waitfor (hwell.imp_right fun hfail => absurd hfail (by decide)) hwait

theorem awaitConnack_returns (hread : Reads p) {t : T} {s : Live σ (MQTTClient σ T)} {r : Int × Option ConnackData} {u}
    (h : (awaitConnack p t).Returns s r u) : ∃ rcs, Cycles p s rcs u ∧ Greeted s u r := by
  obtain ⟨wrc, v, hwait, h⟩ := Prog.returns_bind.mp h
  obtain ⟨rcs, hcycles, -⟩ := waitfor_returns hread hwait
  rcases Prog.returns_ite.mp h with ⟨hcode, h⟩ | ⟨_, h⟩
  · rw [hcode] at hwait
    obtain ⟨packet, hawaited⟩ := waitfor_awaited hread (by decide) hwait
    rw [returns_obj_bind] at h
    split at h
    · exact absurd h Prog.returns_undefined
    rename_i ack hack
    obtain ⟨rfl, rfl⟩ := Prog.returns_pure.mp h
    exact ⟨rcs, hcycles, .answered hawaited hack rfl rfl⟩
  · obtain ⟨rfl, rfl⟩ := Prog.returns_pure.mp h
    exact ⟨rcs, hcycles, .unanswered⟩

theorem awaitConnack_heard (hread : Reads p) {t : T} {s : Live σ (MQTTClient σ T)} {r : Int × Option ConnackData} {u}
    (h : (awaitConnack p t).Returns s r u) :
    ∃ as last, arrivals (since s u) = as ++ last ∧ last.length ≤ 1 ∧ ∀ a ∈ as, a.code ≠ MsgType.connack.code := by
  obtain ⟨wrc, v, hwait, h⟩ := Prog.returns_bind.mp h
  obtain rfl : u = v := by
    rcases Prog.returns_ite.mp h with ⟨_, h⟩ | ⟨_, h⟩
    · rw [returns_obj_bind] at h
      split at h
      · exact absurd h Prog.returns_undefined
      · exact (Prog.returns_pure.mp h).2
    · exact (Prog.returns_pure.mp h).2
  exact waitfor_heard hread hwait

/-- What is done with a publish that is in flight: `rc` was the result so far. -/
inductive Resending (p : MQTTPlatform σ T) (s : Live σ (MQTTClient σ T)) (rc : Int) : Int → Live σ (MQTTClient σ T) → Prop
  | nothing (hin : s.self.inflightMsgid = 0) : Resending p s rc rc s
  | tooLong (hin : 0 < s.self.inflightMsgid) : Resending p s rc failure s
  | pubrel {bs rc' s'} (hin : 0 < s.self.inflightMsgid) (hqos : s.self.inflightQoS = 2) (hpubrel : s.self.pubrel = true)
      (hbs : MQTTPacket.serializeAck p.maxMqttPacketSize .pubrel false s.self.inflightMsgid = .ok bs)
      (hdone : PublishDone p ⟨{ s.self with sendbuf := bs }, s.env⟩ s.self.inflightQoS rc' s') : Resending p s rc rc' s'
  | publish {rc' s'} (hin : 0 < s.self.inflightMsgid) (hpubrel : ¬ (s.self.inflightQoS = 2 ∧ s.self.pubrel = true))
      (hdone : PublishDone p ⟨{ s.self with sendbuf := s.self.pubbuf.take s.self.inflightLen.toNat }, s.env⟩
        s.self.inflightQoS rc' s') : Resending p s rc rc' s'

theorem resend_returns (hread : Reads p) {t : T} {rc rc' : Int} {s s' : Live σ (MQTTClient σ T)}
    (h : (resend p t rc).Returns s rc' s') : Resending p s rc rc' s' := by
  rw [resend, returns_obj_bind] at h
  rcases Prog.returns_ite.mp h with ⟨⟨hin, hqos, hpubrel⟩, h⟩ | ⟨hno, h⟩
  · split at h
    · obtain ⟨rfl, rfl⟩ := Prog.returns_pure.mp h
      exact .tooLong hin
    · rename_i bs hbs
      rw [returns_set_bind] at h
      exact .pubrel hin hqos hpubrel hbs (publishPacket_returns hread h)
  rcases Prog.returns_ite.mp h with ⟨hin, h⟩ | ⟨hin, h⟩
  · rw [returns_set_bind] at h
    exact .publish hin (fun ⟨hqos, hpubrel⟩ => hno ⟨hin, hqos, hpubrel⟩) (publishPacket_returns hread h)
  · obtain ⟨rfl, rfl⟩ := Prog.returns_pure.mp h
    exact .nothing (Nat.eq_zero_of_not_pos hin)

/-- The client as `connect` leaves it. -/
def opened (rc : Int) (c : MQTTClient σ T) : MQTTClient σ T :=
  if rc = success then { c with isconnected := true, pingOutstanding := 0 } else c

/-- The parts of a call of `connect`: once the CONNECT is sent it waits for the
CONNACK, and then it sends again what is in flight. -/
inductive ConnectParts (p : MQTTPlatform σ T) (options : ConnectData) (s : Live σ (MQTTClient σ T)) :
    Int × Option ConnackData → Live σ (MQTTClient σ T) → Prop
  | connected {e} (hcon : s.self.isconnected = true) : ConnectParts p options s (failure, none) ⟨s.self, e⟩
  | unsent {bs e} (hcon : s.self.isconnected = false) : ConnectParts p options s (failure, none)
      ⟨{ s.self with keepAliveInterval := options.keepAliveInterval, cleansession := options.cleansession, sendbuf := bs }, e⟩
  | sent {bs l e e' x u rc v} (hcon : s.self.isconnected = false)
      (hbs : MQTTPacket.serializeConnect p.maxMqttPacketSize options = some (.ok bs))
      (he : ReflTransGen (Outside p) s.env e) (he' : e' = e ∨ ∃ n, e' = (p.countdown n e).2)
      (hwait : (awaitConnack p (p.timerMs 5000 s.env).1).Returns (greeting s options bs l e e') x u)
      (hresend : (resend p (p.timerMs 5000 s.env).1 x.1).Returns u rc v) : ConnectParts p options s (rc, x.2) ⟨opened rc v.self, v.env⟩

theorem connect_parts {options : ConnectData} {s : Live σ (MQTTClient σ T)} {r : Int × Option ConnackData} {s'}
    (h : (connect p options).Returns s r s') : ConnectParts p options s r s' := by
  rw [connect, returns_call_bind, returns_obj_bind] at h
  rcases Prog.returns_ite.mp h with ⟨hcon, h⟩ | ⟨hcon, h⟩
  · obtain ⟨rfl, rfl⟩ := Prog.returns_pure.mp h
    exact .connected hcon
  replace hcon : s.self.isconnected = false := Bool.eq_false_iff.mpr hcon
  rw [returns_set_bind] at h
  split at h
  · exact absurd h Prog.returns_undefined
  rename_i packet hpacket
  obtain ⟨x, w, hsend, h⟩ := Prog.returns_bind.mp h
  cases packet with
  | error len =>
    obtain ⟨rfl, rfl⟩ := sendSerialized_error hsend
    obtain ⟨rfl, rfl⟩ := Prog.returns_pure.mp h
    exact .unsent hcon
  | ok bs =>
    obtain ⟨e, he, ⟨rfl, rfl⟩ | ⟨rfl, rfl⟩⟩ := sendSerialized_returns hsend
    · dsimp only at h
      rw [if_neg (not_not.mpr rfl)] at h
      have rest {l : T} {e' : σ} (he' : e' = e ∨ ∃ n, e' = (p.countdown n e).2) (h : (awaitConnack p (p.timerMs 5000 s.env).1 >>= fun x =>
          resend p (p.timerMs 5000 s.env).1 x.1 >>= fun rc => connectExit rc x.2).Returns (greeting s options bs l e e') r s') :
          ConnectParts p options s r s' := by
        obtain ⟨x, u, hwait, h⟩ := Prog.returns_bind.mp h
        obtain ⟨rc, v, hresend, h⟩ := Prog.returns_bind.mp h
        have hdone := ConnectParts.sent hcon hpacket (he.head (.timerMs ..)) he' hwait hresend
        rw [opened] at hdone
        rcases Prog.returns_ite.mp h with ⟨hok, h⟩ | ⟨hno, h⟩
        · rw [returns_set_bind] at h
          obtain ⟨rfl, rfl⟩ := Prog.returns_pure.mp h
          rwa [if_pos hok] at hdone
        · obtain ⟨rfl, rfl⟩ := Prog.returns_pure.mp h
          rwa [if_neg hno] at hdone
      rcases Prog.returns_ite.mp h with ⟨_, h⟩ | ⟨_, h⟩
      · rw [returns_call_bind, returns_set_bind] at h
        exact rest (.inr ⟨_, rfl⟩) h
      · exact rest (.inl rfl) h
    · dsimp only at h
      rw [if_pos (by decide)] at h
      obtain ⟨rfl, rfl⟩ := Prog.returns_pure.mp h
      exact .unsent hcon

/-- What a call of `connect` does. -/
inductive Connecting (p : MQTTPlatform σ T) (options : ConnectData) (s : Live σ (MQTTClient σ T)) :
    Int × Option ConnackData → Live σ (MQTTClient σ T) → Prop
  | connected {e} (hcon : s.self.isconnected = true) : Connecting p options s (failure, none) ⟨s.self, e⟩
  | unsent {bs e} (hcon : s.self.isconnected = false) : Connecting p options s (failure, none)
      ⟨{ s.self with keepAliveInterval := options.keepAliveInterval, cleansession := options.cleansession, sendbuf := bs }, e⟩
  | sent {bs l e e' rcs u rc data rc' v} (hcon : s.self.isconnected = false)
      (hbs : MQTTPacket.serializeConnect p.maxMqttPacketSize options = some (.ok bs))
      (hcycles : Cycles p (greeting s options bs l e e') rcs u) (hgreet : Greeted (greeting s options bs l e e') u (rc, data))
      (hresend : Resending p u rc rc' v) : Connecting p options s (rc', data) ⟨opened rc' v.self, v.env⟩

theorem connect_returns (hread : Reads p) {options : ConnectData} {s : Live σ (MQTTClient σ T)} {r : Int × Option ConnackData} {s'}
    (h : (connect p options).Returns s r s') : Connecting p options s r s' := by
  cases connect_parts h with
  | connected hcon => exact .connected hcon
  | unsent hcon => exact .unsent hcon
  | sent hcon hbs _ _ hwait hresend =>
    obtain ⟨rcs, hcycles, hgreet⟩ := awaitConnack_returns hread hwait
    exact .sent hcon hbs hcycles hgreet (resend_returns hread hresend)

/-! ## A network by script -/

namespace Wire

/-- The time, and what can be read piece by piece: where a piece is over, a
time unit passes. -/
structure Script where
  now : Nat
  pieces : List Bytes
  deriving DecidableEq, Repr

def read (n : Nat) (e : Script) : (Int × Bytes) × Script :=
  match e.pieces with
  | [] => ((0, []), { e with now := e.now + 1 })
  | [] :: rest => ((0, []), ⟨e.now + 1, rest⟩)
  | piece :: rest => (((piece.take n).length, piece.take n), { e with pieces := piece.drop n :: rest })

/-- Every wait lasts for two time units. -/
def platform : MQTTPlatform Script Nat where
  maxMqttPacketSize := 24
  maxMessageHandlers := 2
  maxIncomingQoS2Messages := 1
  read n _ e := read n e
  write packet _ e := (packet.length, e)
  timer e := (e.now + 2, e)
  timerMs _ e := (e.now + 2, e)
  countdown _ e := (e.now + 2, e)
  countdownMs _ e := (e.now + 2, e)
  expired t e := (t ≤ e.now, e)
  leftMs t e := (t - e.now, e)
  malloc _ e := (true, e)
  callback _ _ _ e := e
  indeterminate e := (0, e)

theorem reads : Reads platform := by
  intro n t e
  show (read n e).1.1 ≤ n
  unfold read
  split
  · exact Int.natCast_nonneg n
  · exact Int.natCast_nonneg n
  · exact Int.ofNat_le.mpr (List.length_take_le ..)

/-- A client as it was constructed. -/
def start (pieces : List Bytes) : Live Script (MQTTClient Script Nat) where
  self := {
    sendbuf := [], readbuf := List.replicate 24 0, lastReceived := 0, keepAliveInterval := 0, pingOutstanding := 0
    cleansession := true, packetid := 0, messageHandlers := [{}, {}], defaultMessageHandler := {}, isconnected := false
    pubbuf := [], inflightLen := 0, inflightMsgid := 0, inflightQoS := 0, pubrel := false
    incomingQoS2messages := [0], events := [] }
  env := ⟨0, pieces⟩

/-- The calls `ops` of a client to which `pieces` come, and the client after them. -/
def calls (pieces : List Bytes) (ops : List ClientOp) : List (ClientCall Script Nat) × Live Script (MQTTClient Script Nat) :=
  Prog.walked (ClientOp.run platform true) 12 (start pieces) ops

theorem calls_run {pieces : List Bytes} {ops : List ClientOp}
    (h : (Prog.walk (ClientOp.run platform true) 12 (start pieces) ops).isSome) :
    Prog.Calls (ClientOp.run platform true) (start pieces) (calls pieces ops).1 (calls pieces ops).2 := .of_walked h

/-- A list, cut where a call or an event is. -/
theorem cut {α : Type} {xs : List α} {n : Nat} (h : n < xs.length) : xs = xs.take n ++ xs.get ⟨n, h⟩ :: xs.drop (n + 1) :=
  (List.take_append_drop n xs).symm.trans (congrArg _ (List.drop_eq_getElem_cons h))

/-- `connect`, with no keep-alive. -/
def connectOp (cleansession : Bool) : ClientOp := .connect { keepAliveInterval := 0, cleansession := cleansession }

end Wire

end MQTTClient

end FEmbed
