/-
Every wait of `MQTT::Client` comes to an end: `connect` returns, when its timer
has run out at the latest.

Only a PUBLISH can bring undefined behaviour: what it holds is read where it
says, and handlers are called for it.
-/
import FEmbedLwip.Halting
import FEmbedLwip.MQTTSends

namespace FEmbed

open Prog (Guarantee Guarantees Halts)
open Relation (ReflTransGen)

/-! ## Objects -/

namespace Live

variable {σ O α β : Type} {s : Live σ O} {E : Live σ O → Prop}

theorem halts_obj_bind {f : O → Prog (Live σ O) α} (h : Halts (f s.self) s E) : Halts (obj >>= f) s E :=
  .bind_of (returns_obj.mpr ⟨rfl, rfl⟩) h

theorem halts_set_bind {g : O → O} {f : Unit → Prog (Live σ O) α} (h : Halts (f ()) ⟨g s.self, s.env⟩ E) : Halts (set g >>= f) s E :=
  .bind_of (b := ()) (returns_set.mpr rfl) h

theorem halts_call_bind {g : σ → β × σ} {f : β → Prog (Live σ O) α} (h : Halts (f (g s.env).1) ⟨s.self, (g s.env).2⟩ E) :
    Halts (call g >>= f) s E :=
  .bind_of (returns_call.mpr ⟨rfl, rfl⟩) h

end Live

namespace MQTTClient

open Live

variable {σ T : Type} {p : MQTTPlatform σ T}

/-- No timer is tested for ever without having run out, and a read stores no
more bytes than it is asked for. -/
structure RunsOut (p : MQTTPlatform σ T) : Prop where
  expires : ∀ t, WellFounded fun e' e => (p.expired t e).1 = false ∧ ReflTransGen (Outside p) (p.expired t e).2 e'
  stored : ∀ n timeout e, (p.read n timeout e).1.2.length ≤ n

/-! ## What goes on -/

/-- The outside goes on by calls, the read buffer has its size, and the history grows. -/
def going (p : MQTTPlatform σ T) : Guarantee (Live σ (MQTTClient σ T)) where
  rel s s' := ReflTransGen (Outside p) s.env s'.env ∧ s'.self.readbuf.length = s.self.readbuf.length ∧ s.self.events <+: s'.self.events
  refl _ := ⟨.refl, rfl, List.prefix_rfl⟩
  trans h h' := ⟨h.1.trans h'.1, h'.2.1.trans h.2.1, h.2.2.trans h'.2.2⟩

theorem going_on {s : Live σ (MQTTClient σ T)} {c : MQTTClient σ T} (hbuf : c.readbuf.length = s.self.readbuf.length)
    (hev : s.self.events <+: c.events) : (going p).rel s ⟨c, s.env⟩ :=
  ⟨.refl, hbuf, hev⟩

theorem going_allows : AllowsAll p (going p) where
  mute _ _ h := ⟨.single h.outside, rfl, List.prefix_rfl⟩
  write s bs t := ⟨.single (.write bs t s.env), rfl, List.prefix_rfl⟩
  delivered _ _ _ := going_on rfl (List.prefix_append ..)
  called _ _ _ _ := going_on rfl (List.prefix_append ..)
  ack _ _ := trivial
  buffered _ _ _ := going_on rfl List.prefix_rfl
  sent _ _ := going_on rfl (List.prefix_append ..)
  incoming _ _ := going_on rfl List.prefix_rfl
  readbuf _ _ h := going_on h List.prefix_rfl
  received _ _ := going_on rfl (List.prefix_append ..)
  cutShort _ := going_on rfl (List.prefix_append ..)
  lastReceived _ _ := going_on rfl List.prefix_rfl
  pingOutstanding _ _ := going_on rfl List.prefix_rfl
  closed _ := going_on rfl List.prefix_rfl
  cleaned := by
    rintro s _ s' h
    rw [cleanSession_returns.mp h]
    exact going_on rfl (List.prefix_append ..)
  ended _ _ := going_on rfl (List.prefix_append ..)

/-- A PUBLISH has come after the first `n` events. -/
def PublishHeard (n : Nat) (s : Live σ (MQTTClient σ T)) : Prop := ∃ ev ∈ s.self.events.drop n, Hears .publish ev

theorem PublishHeard.later {n : Nat} {s s' : Live σ (MQTTClient σ T)} (hg : (going p).rel s s') (h : PublishHeard n s) :
    PublishHeard n s' := by
  obtain ⟨ev, hev, hears⟩ := h
  obtain ⟨log, hlog⟩ := hg.2.2
  rw [PublishHeard, ← hlog, List.drop_append]
  exact ⟨ev, List.mem_append_left _ hev, hears⟩

/-! ## Sending and closing -/

section

variable {E : Live σ (MQTTClient σ T) → Prop} {s : Live σ (MQTTClient σ T)}

theorem happened_halts {event : σ → MQTTEvent σ} : Halts (happened event) s E := .bind .gets fun _ _ _ => .modify

theorem sendPacket_halts (hp : RunsOut p) {t : T} : Halts (sendPacket p t) s E := by
  rw [sendPacket]
  refine halts_obj_bind (.bind ?_ fun sent u _ => .ite (fun _ => .bind happened_halts fun _ _ _ => .pure) fun _ => .pure)
  refine .loop (fun _ _ => True) (InvImage.wf (fun u : Live σ (MQTTClient σ T) => u.env) (hp.expires t)) (fun sent u _ => ⟨?_, ?_⟩) trivial
  · refine .ite (fun _ => .pure) fun _ => halts_call_bind (.ite (fun _ => .pure) fun _ => ?_)
    exact halts_call_bind (halts_call_bind (.ite (fun _ => .pure) fun _ => .pure))
  · intro sent' v h
    rcases Prog.returns_ite.mp h with ⟨_, h⟩ | ⟨_, h⟩
    · cases (Prog.returns_pure.mp h).1
    rw [returns_call_bind] at h
    rcases Prog.returns_ite.mp h with ⟨_, h⟩ | ⟨hlate, h⟩
    · cases (Prog.returns_pure.mp h).1
    rw [returns_call_bind, returns_call_bind] at h
    rcases Prog.returns_ite.mp h with ⟨_, h⟩ | ⟨_, h⟩
    · cases (Prog.returns_pure.mp h).1
    obtain ⟨_, rfl⟩ := Prog.returns_pure.mp h
    exact ⟨trivial, Bool.eq_false_iff.mpr hlate, .tail (.single (.leftMs ..)) (.write ..)⟩

theorem sendSerialized_halts (hp : RunsOut p) {packet : Except Int Bytes} {t : T} : Halts (sendSerialized p packet t) s E := by
  cases packet with
  | error => exact .pure
  | ok bs => exact halts_set_bind (.bind (sendPacket_halts hp) fun _ _ _ => .pure)

theorem closeSession_halts : Halts closeSession s E :=
  .of_returns (a := ()) (closeSession_returns.mpr rfl)

theorem cycleExit_halts {packetType rc : Int} : Halts (cycleExit packetType rc) s E :=
  .ite (fun _ => .pure) fun _ => halts_obj_bind (.ite (fun _ => .bind closeSession_halts fun _ _ _ => .pure) fun _ => .pure)

theorem keepalive_halts (hp : RunsOut p) : Halts (keepalive p) s E := by
  refine halts_obj_bind (.ite (fun _ => .pure) fun _ => halts_call_bind (.ite (fun _ => .ite (fun _ => .pure) fun _ => ?_) fun _ => .pure))
  refine halts_call_bind (.bind (sendSerialized_halts hp) fun r _ _ => ?_)
  cases r with
  | error => exact .pure
  | ok rc => exact .ite (fun _ => halts_call_bind (halts_set_bind .pure)) fun _ => .pure

/-! ## Reading -/

/-- Bytes that fit into the read buffer are stored. -/
theorem halts_store_bind {α : Type} {i : Nat} {bs : Bytes} {f : Unit → Prog (Live σ (MQTTClient σ T)) α}
    (hfit : i + bs.length ≤ s.self.readbuf.length)
    (hf : ∀ buf, buf.length = s.self.readbuf.length → Halts (f ()) ⟨{ s.self with readbuf := buf }, s.env⟩ E) :
    Halts (store i bs >>= f) s E := by
  obtain ⟨buf, hbuf⟩ : ∃ buf, poke s.self.readbuf i bs = some buf := ⟨_, poke_eq_some hfit⟩
  have hstore : (store i bs : Prog (Live σ (MQTTClient σ T)) Unit).Returns s () ⟨{ s.self with readbuf := buf }, s.env⟩ := by
    rw [store, returns_obj_bind, hbuf]
    exact returns_set.mpr rfl
  exact .bind_of hstore (hf buf (poke_length hbuf))

theorem decodePacket_halts {timeout : Int} : Halts (decodePacket p timeout) s E := by
  have go (k m v : Nat) (s : Live σ (MQTTClient σ T)) : Halts (decodePacket.go p timeout k m v) s E := by
    induction k generalizing m v s with
    | zero => exact .pure
    | succ k ih => exact halts_call_bind (.ite (fun _ => .pure) fun _ => .ite (fun _ => .pure) fun _ => ih _ _ _)
  exact go 4 1 0 s

/-- A remaining length has four digits at most. -/
theorem decodePacket_lt {timeout : Int} {n : Nat} {s'} (h : (decodePacket p timeout).Returns s n s') : n < 268435456 := by
  have go (k m v : Nat) (hv : v < m) {s} (h : (decodePacket.go p timeout k m v).Returns s n s') : n < m * 128 ^ k := by
    induction k generalizing m v s with
    | zero =>
      obtain ⟨rfl, _⟩ := Prog.returns_pure.mp h
      omega
    | succ k ih =>
      have hmore : m ≤ m * 128 ^ (k + 1) := Nat.le_mul_of_pos_right m (Nat.pow_pos (by decide))
      rw [decodePacket.go, returns_call_bind] at h
      rcases Prog.returns_ite.mp h with ⟨_, h⟩ | ⟨_, h⟩
      · obtain ⟨rfl, _⟩ := Prog.returns_pure.mp h
        omega
      have hdigit : v + ((p.read 1 timeout s.env).1.2.headD 0).toNat % 128 * m < m * 128 := by
        generalize ((p.read 1 timeout s.env).1.2.headD 0).toNat = c
        have : c % 128 * m ≤ 127 * m := Nat.mul_le_mul_right m (by omega)
        omega
      have hall : m * 128 * 128 ^ k = m * 128 ^ (k + 1) := by rw [Nat.mul_assoc, ← Nat.pow_succ']
      rw [← hall]
      rcases Prog.returns_ite.mp h with ⟨_, h⟩ | ⟨_, h⟩
      · obtain ⟨rfl, _⟩ := Prog.returns_pure.mp h
        exact Nat.lt_of_lt_of_le hdigit (Nat.le_mul_of_pos_right _ (Nat.pow_pos (by decide)))
      · exact ih (m * 128) _ hdigit h
  have := go 4 1 0 (by decide) h
  omega

theorem packetRead_halts {n : Nat} : Halts (packetRead p n) s E := by
  have record : Halts (happened (fun e => .received (s.self.readbuf.take n) e)) s E := happened_halts
  refine halts_obj_bind (.ite (fun _ => ?_) fun _ => .bind record fun _ _ _ => .pure)
  exact halts_call_bind (halts_set_bind (.bind happened_halts fun _ _ _ => .pure))

theorem readPacket_halts (hp : RunsOut p) (hmax : 8 ≤ p.maxMqttPacketSize) {t : T} (hbuf : s.self.readbuf.length = p.maxMqttPacketSize) :
    Halts (readPacket p t) s E := by
  refine halts_call_bind (halts_call_bind ?_)
  have hone : 0 + 1 ≤ s.self.readbuf.length := by omega
  refine halts_store_bind (Nat.le_trans (Nat.add_le_add_left (hp.stored ..) 0) hone) fun buf hlen => .ite (fun _ => .pure) fun _ => halts_call_bind ?_
  refine .bind decodePacket_halts fun remLen u hdecode => ?_
  have hlt := decodePacket_lt hdecode
  obtain ⟨hself, _⟩ := decodePacket_returns hdecode
  have hlen' : u.self.readbuf.length = p.maxMqttPacketSize := by rw [hself]; exact hlen.trans hbuf
  have hencode := MQTTPacket.encode_length hlt
  refine halts_store_bind (by omega) fun buf' hlen'' => .ite (fun _ => .pure) fun hfit => .ite (fun _ => ?_) fun _ => packetRead_halts
  refine halts_call_bind (halts_call_bind ?_)
  have hrest : 1 + (MQTTPacket.encode remLen).length + remLen ≤ buf'.length := by omega
  refine halts_store_bind (Nat.le_trans (Nat.add_le_add_left (hp.stored ..) _) hrest) fun _ _ => .ite (fun _ => .bind happened_halts fun _ _ _ => .pure) fun _ => packetRead_halts

end

/-! ## A PUBLISH -/

section

variable {n : Nat} {s : Live σ (MQTTClient σ T)}

theorem orIndeterminate_halts {E : Live σ (MQTTClient σ T) → Prop} {written : Option Nat} : Halts (orIndeterminate p written) s E := by
  cases written with
  | some => exact .pure
  | none => exact .step

theorem callHandler_halts {fp : FP} {topicName : MQTTLenString} {m : Message} (hs : PublishHeard n s) :
    Halts (callHandler p fp topicName m) s (PublishHeard n) := by
  rw [callHandler]
  split
  · exact .undefined hs
  · exact .pure
  · exact .bind happened_halts fun _ _ _ => .modify

theorem deliverLoop_halts {topicName : MQTTLenString} {m : Message} {hs : List MessageHandler} {found : Bool} (hheard : PublishHeard n s) :
    Halts (deliverLoop p topicName m hs found) s (PublishHeard n) := by
  induction hs generalizing found s with
  | nil => exact .pure
  | cons h hs ih =>
    rw [deliverLoop]
    split
    · exact ih hheard
    · split
      · exact .undefined hheard
      · refine .ite (fun _ => ?_) fun _ => ih hheard
        exact .bind_keeps PublishHeard.later (callHandler_halts hheard) going_allows.callHandler (fun _ _ ht => ih ht) hheard

theorem deliver_halts {topicName : MQTTLenString} {m : Message} (hs : PublishHeard n s) :
    Halts (deliver p topicName m) s (PublishHeard n) := by
  have record : (happened fun _ => .delivered topicName m : Prog (Live σ (MQTTClient σ T)) Unit).Guarantees (going p) :=
    .bind .gets fun _ => guarantees_set fun s => going_allows.delivered s ..
  refine .bind_keeps PublishHeard.later happened_halts record (fun _ t ht => .bind ?_ fun _ _ _ => .pure) hs
  refine halts_obj_bind (.bind_keeps PublishHeard.later (deliverLoop_halts ht) (going_allows (p := p)).deliverLoop
    (fun found u hu => halts_obj_bind ?_) ht)
  exact .ite (fun _ => .pure) fun _ => .ite (fun _ => .bind (callHandler_halts hu) fun _ _ _ => .pure) fun _ => .pure

theorem useQoS2msgid_halts {E : Live σ (MQTTClient σ T) → Prop} {id : Nat} : Halts (useQoS2msgid id) s E := by
  refine halts_obj_bind ?_
  split
  · exact halts_set_bind .pure
  · exact .pure

theorem acknowledge_halts {E : Live σ (MQTTClient σ T) → Prop} (hp : RunsOut p) {msg : Message} {t : T} : Halts (acknowledge p msg t) s E := by
  refine .bind (sendSerialized_halts hp) fun r _ _ => ?_
  cases r with
  | error => exact .pure
  | ok => exact .pure

theorem cyclePublish_halts (hp : RunsOut p) {t : T} (hs : PublishHeard n s) : Halts (cyclePublish p t) s (PublishHeard n) := by
  refine halts_obj_bind ?_
  split
  · exact .undefined hs
  refine .ite (fun _ => .pure) fun _ => ?_
  have message {readbuf : Bytes} {pub : MQTTPacket.Publish} : (toMessage p pub readbuf).Guarantees (going p) :=
    .bind going_allows.orIndeterminate fun _ => .pure
  refine .bind_keeps PublishHeard.later (.bind orIndeterminate_halts fun _ _ _ => .pure) message (fun msg u hu => ?_) hs
  have answer (v : Live σ (MQTTClient σ T)) :
      Halts (if msg.qos ≠ 0 then acknowledge p msg t else pure (.ok ())) v (PublishHeard n) :=
    .ite (fun _ => acknowledge_halts hp) fun _ => .pure
  refine .ite (fun _ => .bind (deliver_halts hu) fun _ v _ => answer v) fun _ => .ite (fun _ => ?_) fun _ => answer u
  refine .bind_keeps PublishHeard.later useQoS2msgid_halts (going_allows (p := p)).useQoS2msgid (fun _ v hv => ?_) hu
  exact .ite (fun _ => .bind (deliver_halts hv) fun _ w _ => answer w) fun _ => answer v

end

/-! ## Turns -/

section

variable {n : Nat} {s : Live σ (MQTTClient σ T)}

theorem cycleRelease_halts {E : Live σ (MQTTClient σ T) → Prop} (hp : RunsOut p) {packetType : MsgType} {t : T}
    (hbuf : 8 ≤ s.self.readbuf.length) : Halts (cycleRelease p packetType t) s E := by
  obtain ⟨ack, hack⟩ := MQTTPacket.deserializeAck_some hbuf
  refine halts_obj_bind ?_
  rw [hack]
  refine .bind orIndeterminate_halts fun id u _ => .ite (fun _ => .pure) fun _ => .bind (sendSerialized_halts hp) fun r v _ => ?_
  cases r with
  | error => exact .pure
  | ok rc => exact .ite (fun _ => .pure) fun _ => .ite (fun _ => .bind .modify fun _ _ _ => .pure) fun _ => .pure

theorem cycleSwitch_halts (hp : RunsOut p) {packetType : Int} {t : T} (hbuf : 8 ≤ s.self.readbuf.length)
    (hpublish : packetType = MsgType.publish.code → PublishHeard n s) : Halts (cycleSwitch p packetType t) s (PublishHeard n) := by
  refine .ite (fun _ => .pure) fun _ => .ite (fun h => cyclePublish_halts hp (hpublish h)) fun _ => ?_
  refine .ite (fun _ => cycleRelease_halts hp hbuf) fun _ => .ite (fun _ => cycleRelease_halts hp hbuf) fun _ => ?_
  exact .ite (fun _ => halts_set_bind .pure) fun _ => .pure

/-- A client whose read buffer has its size, and at least the first `n` events. -/
structure Sized (p : MQTTPlatform σ T) (n : Nat) (s : Live σ (MQTTClient σ T)) : Prop where
  readbuf : s.self.readbuf.length = p.maxMqttPacketSize
  events : n ≤ s.self.events.length

theorem Sized.later {s' : Live σ (MQTTClient σ T)} (h : Sized p n s) (hg : (going p).rel s s') : Sized p n s' :=
  ⟨hg.2.1.trans h.readbuf, Nat.le_trans h.events hg.2.2.length_le⟩

variable (hread : Reads p) (hp : RunsOut p) (hmax : 8 ≤ p.maxMqttPacketSize)

include hread hp hmax

theorem cycle_halts {t : T} (hs : Sized p n s) : Halts (cycle p t) s (PublishHeard n) := by
  refine halts_call_bind (.bind (readPacket_halts hp hmax hs.readbuf) fun code u hpacket => ?_)
  have hg := going_allows.readPacket _ _ _ hpacket
  have hu : Sized p n u := (hs.later (going_allows.outside (s := s) (.timer s.env))).later hg
  have hpublish (h : code = MsgType.publish.code) : PublishHeard n u := by
    obtain ⟨arr, hr⟩ := readPacket_returns hread ((Idle.refl s).call (.timer _)) hpacket
    rw [h] at hr
    obtain ⟨ev, hev, hears⟩ := hr.hears (by decide)
    refine ⟨ev, ?_, hears⟩
    rw [hr.worked.2.1, List.drop_append_of_le_length hs.events]
    exact List.mem_append_right _ hev
  refine .bind (cycleSwitch_halts hp (hu.readbuf ▸ hmax) hpublish) fun r v _ => ?_
  cases r with
  | error => exact cycleExit_halts
  | ok => exact .bind (keepalive_halts hp) fun _ _ _ => cycleExit_halts

theorem waitfor_halts {packetType : MsgType} {t : T} (hs : Sized p n s) : Halts (waitfor p packetType t) s (PublishHeard n) := by
  refine .loop (fun _ => Sized p n) (InvImage.wf (fun u : Live σ (MQTTClient σ T) => u.env) (hp.expires t)) (fun _ u hu => ⟨?_, ?_⟩) hs
  · refine halts_call_bind (.ite (fun _ => .pure) fun _ => ?_)
    have hlater : Sized p n ⟨u.self, (p.expired t u.env).2⟩ := hu.later (going_allows.outside (.expired ..))
    exact .bind (cycle_halts hread hp hmax hlater) fun _ _ _ => .ite (fun _ => .pure) fun _ => .pure
  · intro rc v h
    rw [returns_call_bind] at h
    rcases Prog.returns_ite.mp h with ⟨_, h⟩ | ⟨hlate, h⟩
    · exact nomatch (Prog.returns_pure.mp h).1
    obtain ⟨rc', w, hcycle, h⟩ := Prog.returns_bind.mp h
    rcases Prog.returns_ite.mp h with ⟨_, h⟩ | ⟨_, h⟩
    · obtain ⟨_, rfl⟩ := Prog.returns_pure.mp h
      have hg := going_allows.cycles.cycle (.inl trivial) hcycle
      exact ⟨(hu.later (going_allows.outside (.expired ..))).later hg, Bool.eq_false_iff.mpr hlate, hg.1⟩
    · exact nomatch (Prog.returns_pure.mp h).1

/-- A wait, and what is done with the packet that it may end with. -/
theorem awaited_halts {α : Type} {packetType : MsgType} {t : T} {f : Prog (Live σ (MQTTClient σ T)) α} {a : α} (hs : Sized p n s)
    (hf : ∀ u, Sized p n u → Halts f u (PublishHeard n)) :
    Halts (waitfor p packetType t >>= fun rc => if rc = packetType.code then f else pure a) s (PublishHeard n) := by
  refine .bind (waitfor_halts hread hp hmax hs) fun rc u hwait => .ite (fun _ => ?_) fun _ => .pure
  exact hf u (hs.later (going_allows.cycles.waitfor (.inl trivial) hwait))

theorem awaitAck_halts {packetType : MsgType} {t : T} (hs : Sized p n s) : Halts (awaitAck p packetType t) s (PublishHeard n) := by
  refine awaited_halts hread hp hmax hs fun u hu => halts_obj_bind ?_
  obtain ⟨ack, hack⟩ := MQTTPacket.deserializeAck_some (hu.readbuf ▸ hmax)
  rw [hack]
  refine .ite (fun _ => .pure) fun _ => .bind orIndeterminate_halts fun id v _ => halts_obj_bind ?_
  exact .ite (fun _ => halts_set_bind .pure) fun _ => .pure

theorem publishPacket_halts {t : T} {qos : Nat} (hs : Sized p n s) : Halts (publishPacket p t qos) s (PublishHeard n) := by
  refine .bind (sendPacket_halts hp) fun rc u hsend => .ite (fun _ => .pure) fun _ => ?_
  have hu : Sized p n u := hs.later (going_allows.sends.sends trivial (.inl trivial) hsend)
  refine .ite (fun _ => awaitAck_halts hread hp hmax hu) fun _ => ?_
  exact .ite (fun _ => awaitAck_halts hread hp hmax hu) fun _ => .pure

theorem resend_halts {t : T} {rc : Int} (hs : Sized p n s) : Halts (resend p t rc) s (PublishHeard n) := by
  have buffered (bs : Bytes) : Sized p n ⟨{ s.self with sendbuf := bs }, s.env⟩ := ⟨hs.readbuf, hs.events⟩
  refine halts_obj_bind (.ite (fun _ => ?_) fun _ => .ite (fun _ => ?_) fun _ => .pure)
  · split
    · exact .pure
    · exact halts_set_bind (publishPacket_halts hread hp hmax (buffered _))
  · exact halts_set_bind (publishPacket_halts hread hp hmax (buffered _))

theorem awaitConnack_halts {t : T} (hs : Sized p n s) : Halts (awaitConnack p t) s (PublishHeard n) := by
  refine awaited_halts hread hp hmax hs fun u hu => halts_obj_bind ?_
  obtain ⟨ack, hack⟩ := MQTTPacket.deserializeConnack_some (hu.readbuf ▸ hmax)
  rw [hack]
  exact .pure

/-- **A connect comes to an end**, whatever the broker does. -/
theorem connect_halts {options : ConnectData} (hserial : (MQTTPacket.serializeConnect p.maxMqttPacketSize options).isSome)
    (hs : Sized p n s) : Halts (connect p options) s (PublishHeard n) := by
  refine halts_call_bind (halts_obj_bind (.ite (fun _ => .pure) fun _ => halts_set_bind ?_))
  obtain ⟨packet, hpacket⟩ := Option.isSome_iff_exists.mp hserial
  rw [hpacket]
  refine .bind (sendSerialized_halts hp) fun r u hsend => ?_
  have hg := going_allows.sendSerialized (fun _ _ => trivial) _ _ _ hsend
  have hu : Sized p n u := ⟨hg.2.1.trans hs.readbuf, Nat.le_trans hs.events hg.2.2.length_le⟩
  cases r with
  | error => exact .pure
  | ok rc =>
    refine .ite (fun _ => .pure) fun _ => ?_
    have rest {t : T} {v : Live σ (MQTTClient σ T)} (hv : Sized p n v) : Halts
        (awaitConnack p t >>= fun x => resend p t x.1 >>= fun rc => connectExit rc x.2) v (PublishHeard n) := by
      refine .bind (awaitConnack_halts hread hp hmax hv) fun x w hwait => ?_
      have hw : Sized p n w := hv.later (going_allows.cycles.awaitConnack (.inl trivial) hwait)
      refine .bind (resend_halts hread hp hmax hw) fun _ _ _ => ?_
      exact .ite (fun _ => halts_set_bind .pure) fun _ => .pure
    exact .ite (fun _ => halts_call_bind (halts_set_bind (rest ⟨hu.readbuf, hu.events⟩))) fun _ => rest hu

end

end MQTTClient

end FEmbed
