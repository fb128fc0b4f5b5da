/-
What a session of the C client says and hears, and that its wire is whole.

A `Talk` is what may happen in a session: packets the client sends of its own
accord, and packets it hears, each followed by what is done for it before
anything else is said. Every call either leaves a `Talk` behind it (`Kept`) or
has closed the session, so what an open session has sent since its CONNECT is a
`Talk`, whatever was called and however the network took its bytes.
-/
import FEmbedLwip.MQTTClientC
import FEmbedLwip.MQTTCodec
import Mathlib.Data.List.Forall2

namespace FEmbed

open Live

namespace MQTTClientC

open Packet (Written)

/-! ## Talk -/

/-- The bytes of a packet, as the network took them. -/
def Said (bs : Bytes) (es : List MQTTEventC) : Prop := ∃ chunks : List Bytes, es = chunks.map .took ∧ chunks.flatten = bs

/-- The packets that answer one. -/
def isAck (q : Packet) : Bool := q.type ∈ [MsgType.puback, .pubrec, .pubrel, .pubcomp]

/-- The answer to a packet, said at once. -/
inductive Answers (type : MsgType) (packetid : Option Nat) : List MQTTEventC → List (Packet × Bytes) → Prop
  | intro {id : Nat} {bs : Bytes} {es : List MQTTEventC} (known : ∀ i, packetid = some i → id = i)
      (written : Written (.ack type false id) bs) (said : Said bs es) : Answers type packetid es [(.ack type false id, bs)]

/-- The type of the packet in the read buffer. -/
def heardType (readbuf : Bytes) : Nat := MQTTPacket.headerType (readbuf.headD 0)

/-- A message as it was in the read buffer. -/
structure Carries (pub : MQTTPacket.Publish) (readbuf : Bytes) (message : Message) : Prop where
  payload : ∀ i, pub.payload = some i → message.payload = (readbuf.drop i).take (sizeT pub.payloadlen)

/-- What is done for a packet in the read buffer, and what is said. -/
inductive Heard (readbuf : Bytes) : List MQTTEventC → List (Packet × Bytes) → Prop
  | noted (type : heardType readbuf ∉ [MsgType.publish.code, MsgType.pubrec.code, MsgType.pubrel.code]) : Heard readbuf [] []
  | garbled {pub} (type : heardType readbuf = MsgType.publish.code) (read : MQTTPacket.deserializePublish readbuf = some pub)
      (rc : pub.rc ≠ 1) : Heard readbuf [] []
  | message {pub message called} (type : heardType readbuf = MsgType.publish.code)
      (read : MQTTPacket.deserializePublish readbuf = some pub) (rc : pub.rc = 1) (carries : Carries pub readbuf message)
      (qos : pub.qos = 0) : Heard readbuf [.delivered pub.topicName message called] []
  | request {pub message called answer es qs} (type : heardType readbuf = MsgType.publish.code)
      (read : MQTTPacket.deserializePublish readbuf = some pub) (rc : pub.rc = 1) (carries : Carries pub readbuf message)
      (qos : pub.qos = 1 ∧ answer = .puback ∨ pub.qos = 2 ∧ answer = .pubrec) (answers : Answers answer pub.packetid es qs) :
      Heard readbuf (.delivered pub.topicName message called :: es) qs
  | release {ack answer es qs} (type : heardType readbuf = MsgType.pubrec.code ∧ answer = .pubrel ∨
        heardType readbuf = MsgType.pubrel.code ∧ answer = .pubcomp)
      (read : MQTTPacket.deserializeAck readbuf = some ack) (rc : ack.rc = 1) (answers : Answers answer ack.packetid es qs) :
      Heard readbuf es qs

/-- A session so far, with the packets that were said. -/
inductive Talk : List MQTTEventC → List (Packet × Bytes) → Prop
  | silent : Talk [] []
  | asks {log es qs q bs} (talk : Talk log qs) (own : isAck q = false) (written : Written q bs) (said : Said bs es) :
      Talk (log ++ es) (qs ++ [(q, bs)])
  | hears {log es qs qs' readbuf} (talk : Talk log qs) (heard : Heard readbuf es qs') :
      Talk (log ++ .received readbuf :: es) (qs ++ qs')
  | registers {log qs topicFilter fp} (talk : Talk log qs) : Talk (log ++ [.handler topicFilter fp]) qs
  | registersDefault {log qs fp} (talk : Talk log qs) : Talk (log ++ [.defaultHandler fp]) qs

theorem Talk.append {log log' : List MQTTEventC} {qs qs' : List (Packet × Bytes)} (h : Talk log qs) (h' : Talk log' qs') :
    Talk (log ++ log') (qs ++ qs') := by
  induction h' with
  | silent => rwa [List.append_nil, List.append_nil]
  | asks _ own written said ih => rw [← List.append_assoc, ← List.append_assoc]; exact ih.asks own written said
  | hears _ heard ih => rw [← List.append_assoc, ← List.append_assoc]; exact ih.hears heard
  | registers _ ih => rw [← List.append_assoc]; exact ih.registers
  | registersDefault _ ih => rw [← List.append_assoc]; exact ih.registersDefault

theorem Talk.said {q : Packet} {bs : Bytes} {es : List MQTTEventC} (own : isAck q = false) (written : Written q bs)
    (said : Said bs es) : Talk es [(q, bs)] := Talk.silent.asks own written said

theorem Talk.heard {readbuf : Bytes} {es : List MQTTEventC} {qs : List (Packet × Bytes)} (h : Heard readbuf es qs) :
    Talk (.received readbuf :: es) qs := Talk.silent.hears h

/-! ## What is read off a log -/

/-- The bytes that the network took. -/
def wire (log : List MQTTEventC) : Bytes := log.flatMap fun
  | .took bs => bs
  | _ => []

/-- The packets that came whole. -/
def received (log : List MQTTEventC) : List Bytes := log.filterMap fun
  | .received readbuf => some readbuf
  | _ => none

/-- The topics and payloads of the messages that were delivered. -/
def deliveries (log : List MQTTEventC) : List (Option Bytes × Bytes) := log.filterMap fun
  | .delivered topicName message _ => some (topicName.data, message.payload)
  | _ => none

theorem wire_append (log log' : List MQTTEventC) : wire (log ++ log') = wire log ++ wire log' := List.flatMap_append

theorem received_append (log log' : List MQTTEventC) : received (log ++ log') = received log ++ received log' :=
  List.filterMap_append

theorem deliveries_append (log log' : List MQTTEventC) : deliveries (log ++ log') = deliveries log ++ deliveries log' :=
  List.filterMap_append

theorem Said.wire {bs : Bytes} {es : List MQTTEventC} (h : Said bs es) : wire es = bs := by
  obtain ⟨chunks, rfl, rfl⟩ := h
  rw [MQTTClientC.wire, List.flatMap_map, List.flatten_eq_flatMap]
  rfl

theorem Said.only {bs : Bytes} {es : List MQTTEventC} (h : Said bs es) : ∀ e ∈ es, ∃ chunk, e = .took chunk := by
  obtain ⟨chunks, rfl, -⟩ := h
  intro e he
  obtain ⟨chunk, -, rfl⟩ := List.mem_map.mp he
  exact ⟨chunk, rfl⟩

theorem Said.received {bs : Bytes} {es : List MQTTEventC} (h : Said bs es) : received es = [] := by
  refine List.filterMap_eq_nil_iff.mpr fun e he => ?_
  obtain ⟨chunk, rfl⟩ := h.only e he
  rfl

theorem Said.deliveries {bs : Bytes} {es : List MQTTEventC} (h : Said bs es) : deliveries es = [] := by
  refine List.filterMap_eq_nil_iff.mpr fun e he => ?_
  obtain ⟨chunk, rfl⟩ := h.only e he
  rfl

/-- The answer to a packet. -/
def answer : Packet → Option Packet
  | .publish _ 1 _ (some packetid) _ _ => some (.ack .puback false packetid)
  | .publish _ 2 _ (some packetid) _ _ => some (.ack .pubrec false packetid)
  | .ack .pubrec _ packetid => some (.ack .pubrel false packetid)
  | .ack .pubrel _ packetid => some (.ack .pubcomp false packetid)
  | _ => none

/-- The topic and the payload of a packet. -/
def content : Packet → Option (Option Bytes × Bytes)
  | .publish _ _ _ _ topicName payload => some (some topicName, payload)
  | _ => none

/-- The read buffer starts with a packet whose fields are what MQTT has there. -/
def Holds (readbuf : Bytes) (q : Packet) : Prop :=
  ∃ charSigned maxcount rest, q.Sound charSigned maxcount ∧ readbuf = MQTTPacket.frame q.first q.body ++ rest

theorem Answers.spec {type : MsgType} {packetid : Option Nat} {es : List MQTTEventC} {qs : List (Packet × Bytes)}
    (h : Answers type packetid es qs) : wire es = (qs.map (·.2)).flatten ∧ received es = [] ∧ deliveries es = [] ∧
      (∀ x ∈ qs, Written x.1 x.2) ∧ ∀ i, packetid = some i → qs.map (·.1) = [.ack type false i] := by
  cases h with
  | @intro id bs es known written said =>
    refine ⟨?_, said.received, said.deliveries, ?_, fun i hi => ?_⟩
    · rw [said.wire, List.map_singleton, List.flatten_singleton]
    · intro x hx
      obtain rfl := List.mem_singleton.mp hx
      exact written
    · rw [List.map_singleton, known i hi]

theorem Heard.spec {readbuf : Bytes} {es : List MQTTEventC} {qs : List (Packet × Bytes)} (h : Heard readbuf es qs) :
    wire es = (qs.map (·.2)).flatten ∧ received es = [] ∧ ∀ x ∈ qs, Written x.1 x.2 := by
  cases h with
  | noted => exact ⟨rfl, rfl, fun _ hx => absurd hx List.not_mem_nil⟩
  | garbled => exact ⟨rfl, rfl, fun _ hx => absurd hx List.not_mem_nil⟩
  | message => exact ⟨rfl, rfl, fun _ hx => absurd hx List.not_mem_nil⟩
  | request _ _ _ _ _ answers =>
    obtain ⟨hwire, hreceived, -, hwritten, -⟩ := answers.spec
    exact ⟨hwire, hreceived, hwritten⟩
  | release _ _ _ answers =>
    obtain ⟨hwire, hreceived, -, hwritten, -⟩ := answers.spec
    exact ⟨hwire, hreceived, hwritten⟩

theorem Holds.type {readbuf : Bytes} {q : Packet} (h : Holds readbuf q) : heardType readbuf = q.type.code := by
  obtain ⟨_, _, rest, -, rfl⟩ := h
  exact Packet.headerType_first q

theorem type_eq_of_code {a b : MsgType} (h : a.code = b.code) : a = b :=
  Option.some.inj ((MsgType.ofCode_code a).symm.trans ((congrArg MsgType.ofCode h).trans (MsgType.ofCode_code b)))

/-- Nothing is done for a packet of another type. -/
theorem Heard.unanswered {readbuf : Bytes} {es : List MQTTEventC} {qs : List (Packet × Bytes)} (h : Heard readbuf es qs)
    (htype : heardType readbuf ∉ [MsgType.publish.code, MsgType.pubrec.code, MsgType.pubrel.code]) : es = [] ∧ qs = [] := by
  cases h with
  | noted => exact ⟨rfl, rfl⟩
  | garbled type => exact absurd (type ▸ List.mem_cons_self) htype
  | message type => exact absurd (type ▸ List.mem_cons_self) htype
  | request type => exact absurd (type ▸ List.mem_cons_self) htype
  | release type =>
    rcases type with ⟨type, -⟩ | ⟨type, -⟩
    · exact absurd (type ▸ List.mem_cons_of_mem _ List.mem_cons_self) htype
    · exact absurd (type ▸ List.mem_cons_of_mem _ (List.mem_cons_of_mem _ List.mem_cons_self)) htype

/-- What is done for a packet as MQTT has it. -/
theorem Heard.holds {readbuf : Bytes} {es : List MQTTEventC} {qs : List (Packet × Bytes)} {q : Packet} (h : Heard readbuf es qs)
    (hq : Holds readbuf q) : qs.map (·.1) = (answer q).toList ∧ deliveries es = (content q).toList := by
  have htype := hq.type
  obtain ⟨charSigned, maxcount, rest, hsound, hbuf⟩ := hq
  have hf := hsound.fields
  have hb := MQTTPacket.framed (b := q.first) hsound.rest rest
  rw [← hbuf] at hb
  cases q with
  | publish dup qos retained packetid topicName payload =>
    obtain ⟨i, hread, hpayload⟩ := Packet.deserializePublish_framed hf hb
    have hlen : sizeT (payload.length : Int) = payload.length := by
      have hrest := hsound.rest
      refine sizeT_natCast ?_
      rw [Packet.body, List.length_append, List.length_append] at hrest
      omega
    have htype : heardType readbuf = MsgType.publish.code := htype
    cases h with
    | noted type => exact absurd (htype ▸ List.mem_cons_self) type
    | garbled _ read rc =>
      obtain rfl := Option.some.inj (hread.symm.trans read)
      exact absurd rfl rc
    | message _ read _ carries hqos =>
      obtain rfl := Option.some.inj (hread.symm.trans read)
      obtain rfl : qos = 0 := hqos
      obtain rfl := hf.2.1.mpr rfl
      have hmessage := carries.payload i rfl
      rw [hlen, hpayload] at hmessage
      exact ⟨rfl, congrArg (fun bs => [(some topicName, bs)]) hmessage⟩
    | @request _ message called answer es _ _ read _ carries hqos answers =>
      obtain rfl := Option.some.inj (hread.symm.trans read)
      have hmessage := carries.payload i rfl
      rw [hlen, hpayload] at hmessage
      obtain ⟨-, -, hnone, -, hacks⟩ := answers.spec
      have hdeliver : deliveries (.delivered ⟨topicName.length, some topicName⟩ message called :: es) = [(some topicName, payload)] := by
        rw [← hmessage]
        exact congrArg (_ :: ·) hnone
      refine ⟨?_, hdeliver⟩
      cases packetid with
      | none =>
        have hzero : qos = 0 := hf.2.1.mp rfl
        rcases hqos with ⟨hqos, -⟩ | ⟨hqos, -⟩
        · exact absurd (hzero.symm.trans hqos) (by decide)
        · exact absurd (hzero.symm.trans hqos) (by decide)
      | some id =>
        rw [hacks id rfl]
        rcases hqos with ⟨hqos, rfl⟩ | ⟨hqos, rfl⟩
        · obtain rfl : qos = 1 := hqos
          rfl
        · obtain rfl : qos = 2 := hqos
          rfl
    | release type =>
      rcases type with ⟨type, -⟩ | ⟨type, -⟩
      · exact absurd (htype.symm.trans type) (by decide)
      · exact absurd (htype.symm.trans type) (by decide)
  | ack type dup packetid =>
    have hread := Packet.deserializeAck_framed hf.2 hb
    have htype : heardType readbuf = type.code := htype
    have hne : heardType readbuf ≠ MsgType.publish.code := by
      intro hcode
      obtain rfl := type_eq_of_code (htype.symm.trans hcode)
      exact absurd hf.1 (by decide)
    cases h with
    | noted htypes =>
      refine ⟨?_, rfl⟩
      rw [htype] at htypes
      cases type with
      | pubrec => exact absurd htypes (by decide)
      | pubrel => exact absurd htypes (by decide)
      | _ => rfl
    | garbled h => exact absurd h hne
    | message h => exact absurd h hne
    | request h => exact absurd h hne
    | release h read _ answers =>
      obtain rfl := Option.some.inj (hread.symm.trans read)
      obtain ⟨-, -, hnone, -, hacks⟩ := answers.spec
      refine ⟨?_, hnone⟩
      rw [hacks packetid rfl]
      rcases h with ⟨h, rfl⟩ | ⟨h, rfl⟩
      · obtain rfl := type_eq_of_code (htype.symm.trans h)
        rfl
      · obtain rfl := type_eq_of_code (htype.symm.trans h)
        rfl
  | zero type =>
    have htype : heardType readbuf = type.code := htype
    have hmem : type ∈ [MsgType.pingreq, .pingresp, .disconnect] := hf
    have hnot : heardType readbuf ∉ [MsgType.publish.code, MsgType.pubrec.code, MsgType.pubrel.code] := by
      rw [htype]
      simp only [List.mem_cons, List.not_mem_nil, or_false] at hmem
      rcases hmem with rfl | rfl | rfl <;> decide
    obtain ⟨rfl, rfl⟩ := h.unanswered hnot
    exact ⟨rfl, rfl⟩
  | _ =>
    obtain ⟨rfl, rfl⟩ := h.unanswered (by rw [htype, Packet.type]; decide)
    exact ⟨rfl, rfl⟩

theorem isAck_answer {q a : Packet} (h : answer q = some a) : isAck a = true := by
  unfold answer at h
  split at h
  all_goals first | cases h; rfl | cases h

/-- An event within a session. -/
def spoken : MQTTEventC → Bool
  | .connecting | .broken | .cleaned => false
  | _ => true

theorem Said.spoken {bs : Bytes} {es : List MQTTEventC} (h : Said bs es) : ∀ e ∈ es, spoken e = true := by
  intro e he
  obtain ⟨_, rfl⟩ := h.only e he
  rfl

theorem Answers.spoken {type : MsgType} {packetid : Option Nat} {es : List MQTTEventC} {qs : List (Packet × Bytes)}
    (h : Answers type packetid es qs) : ∀ e ∈ es, spoken e = true := by
  cases h with
  | intro _ _ said => exact said.spoken

theorem Heard.spoken {readbuf : Bytes} {es : List MQTTEventC} {qs : List (Packet × Bytes)} (h : Heard readbuf es qs) :
    ∀ e ∈ es, spoken e = true := by
  cases h with
  | noted => simp
  | garbled => simp
  | message => simp [MQTTClientC.spoken]
  | request _ _ _ _ _ answers => simpa [MQTTClientC.spoken] using answers.spoken
  | release _ _ _ answers => exact answers.spoken

theorem Talk.spoken {log : List MQTTEventC} {qs : List (Packet × Bytes)} (h : Talk log qs) : ∀ e ∈ log, spoken e = true := by
  induction h with
  | silent => simp
  | asks _ _ _ said ih => exact fun e he => (List.mem_append.mp he).elim (ih e) (said.spoken e)
  | hears _ heard ih =>
    refine fun e he => (List.mem_append.mp he).elim (ih e) fun he => ?_
    rcases List.mem_cons.mp he with rfl | he
    · rfl
    · exact heard.spoken e he
  | registers _ ih =>
    refine fun e he => (List.mem_append.mp he).elim (ih e) fun he => ?_
    rw [List.mem_singleton.mp he]
    rfl
  | registersDefault _ ih =>
    refine fun e he => (List.mem_append.mp he).elim (ih e) fun he => ?_
    rw [List.mem_singleton.mp he]
    rfl

theorem Talk.not_mem {log : List MQTTEventC} {qs : List (Packet × Bytes)} (h : Talk log qs) {e : MQTTEventC}
    (he : MQTTClientC.spoken e = false) : e ∉ log :=
  fun hmem => absurd (h.spoken e hmem) (by simp [he])

/-- The wire is the packets that were said. -/
theorem Talk.wire {log : List MQTTEventC} {qs : List (Packet × Bytes)} (h : Talk log qs) :
    wire log = (qs.map (·.2)).flatten ∧ ∀ x ∈ qs, Written x.1 x.2 := by
  induction h with
  | silent => exact ⟨rfl, fun _ hx => absurd hx List.not_mem_nil⟩
  | @asks log es qs q bs _ _ written said ih =>
    refine ⟨?_, fun x hx => ?_⟩
    · rw [wire_append, ih.1, said.wire, List.map_append, List.flatten_append, List.map_singleton, List.flatten_singleton]
    · rcases List.mem_append.mp hx with hx | hx
      · exact ih.2 x hx
      · obtain rfl := List.mem_singleton.mp hx
        exact written
  | @hears log es qs qs' readbuf _ heard ih =>
    obtain ⟨hwire, -, hwritten⟩ := heard.spec
    have hcons : MQTTClientC.wire (.received readbuf :: es) = MQTTClientC.wire es := rfl
    refine ⟨?_, fun x hx => (List.mem_append.mp hx).elim (ih.2 x) (hwritten x)⟩
    rw [wire_append, ih.1, hcons, hwire, List.map_append, List.flatten_append]
  | registers _ ih => exact ⟨by rw [wire_append, ih.1]; exact List.append_nil _, ih.2⟩
  | registersDefault _ ih => exact ⟨by rw [wire_append, ih.1]; exact List.append_nil _, ih.2⟩

/-- Acknowledgements are the answers to the packets that were heard, and each
message is delivered. -/
theorem Talk.answered {log : List MQTTEventC} {qs : List (Packet × Bytes)} {heard : List Packet} (h : Talk log qs)
    (hheard : List.Forall₂ (fun q readbuf => Holds readbuf q) heard (received log)) :
    (qs.map (·.1)).filter isAck = heard.filterMap answer ∧ deliveries log = heard.filterMap content := by
  induction h generalizing heard with
  | silent =>
    obtain rfl := List.forall₂_nil_right_iff.mp hheard
    exact ⟨rfl, rfl⟩
  | @asks log es qs q bs _ own _ said ih =>
    rw [received_append, said.received, List.append_nil] at hheard
    obtain ⟨hacks, hmessages⟩ := ih hheard
    rw [List.map_append, List.filter_append, hacks, deliveries_append, hmessages, said.deliveries]
    simp [own]
  | @hears log es qs qs' readbuf _ hears ih =>
    have hone : received (.received readbuf :: es) = [readbuf] := congrArg (readbuf :: ·) hears.spec.2.1
    rw [received_append, hone] at hheard
    obtain ⟨q, behind, hq, hnil, hdrop⟩ := List.forall₂_cons_right_iff.mp (List.forall₂_drop_append _ _ _ hheard)
    obtain rfl := List.forall₂_nil_right_iff.mp hnil
    obtain ⟨hacks, hmessages⟩ := ih (List.forall₂_take_append _ _ _ hheard)
    obtain ⟨hanswer, hcontent⟩ := hears.holds hq
    have hfilter : (answer q).toList.filter isAck = (answer q).toList := by
      refine List.filter_eq_self.mpr fun a ha => isAck_answer (Option.mem_toList.mp ha)
    have hdelivered : deliveries (.received readbuf :: es) = deliveries es := rfl
    rw [← List.take_append_drop (received log).length heard, hdrop, List.filterMap_append, List.filterMap_append, List.map_append,
      List.filter_append, hacks, hanswer, hfilter, deliveries_append, hmessages, hdelivered, hcontent]
    exact ⟨rfl, rfl⟩
  | registers _ ih =>
    rw [received_append] at hheard
    obtain ⟨hacks, hmessages⟩ := ih ((List.append_nil _).symm ▸ hheard)
    rw [deliveries_append, hmessages]
    exact ⟨hacks, List.append_nil _⟩
  | registersDefault _ ih =>
    rw [received_append] at hheard
    obtain ⟨hacks, hmessages⟩ := ih ((List.append_nil _).symm ▸ hheard)
    rw [deliveries_append, hmessages]
    exact ⟨hacks, List.append_nil _⟩

/-! ## Calls -/

/-- The `switch` of `cycle` has a case for it. -/
def listed (readbuf : Bytes) : Bool :=
  heardType readbuf = 0 ∨ heardType readbuf ∈ [MsgType.connack, .publish, .puback, .pubrec, .pubrel, .pubcomp, .suback, .unsuback,
    .pingresp].map MsgType.code

variable {σ T : Type} {p : MQTTPlatformC σ T}

/-- More of the session, or the session was closed for a packet that the
`switch` has no case for. -/
def Kept (s s' : Live σ (MQTTClientC T)) : Prop :=
  ∃ log, s'.self.events = s.self.events ++ log ∧ s'.self.isconnected = (s.self.isconnected && (received log).all listed) ∧
    (s'.self.isconnected = s.self.isconnected → ∃ qs, Talk log qs)

theorem Kept.talks {s s' : Live σ (MQTTClientC T)} {log : List MQTTEventC} {qs : List (Packet × Bytes)}
    (hevents : s'.self.events = s.self.events ++ log) (hcon : s'.self.isconnected = s.self.isconnected)
    (hlisted : (received log).all listed = true) (h : Talk log qs) : Kept s s' :=
  ⟨log, hevents, by rw [hcon, hlisted, Bool.and_true], fun _ => ⟨qs, h⟩⟩

theorem Kept.silent {s s' : Live σ (MQTTClientC T)} (hevents : s'.self.events = s.self.events)
    (hcon : s'.self.isconnected = s.self.isconnected) : Kept s s' :=
  .talks (hevents.trans (List.append_nil _).symm) hcon rfl .silent

theorem Kept.refl (s : Live σ (MQTTClientC T)) : Kept s s := .silent rfl rfl

theorem Kept.trans {s s' s'' : Live σ (MQTTClientC T)} (h : Kept s s') (h' : Kept s' s'') : Kept s s'' := by
  obtain ⟨log, hevents, hcon, htalk⟩ := h
  obtain ⟨log', hevents', hcon', htalk'⟩ := h'
  refine ⟨log ++ log', ?_, ?_, fun heq => ?_⟩
  · rw [hevents', hevents, List.append_assoc]
  · rw [hcon', hcon, received_append, List.all_append, Bool.and_assoc]
  · have hfirst : s'.self.isconnected = s.self.isconnected := by
      cases hs : s.self.isconnected with
      | false => rw [hcon, hs, Bool.false_and]
      | true =>
        rw [heq, hs] at hcon'
        cases hs' : s'.self.isconnected with
        | true => rfl
        | false => rw [hs'] at hcon'; cases hcon'
    obtain ⟨qs, hqs⟩ := htalk hfirst
    obtain ⟨qs', hqs'⟩ := htalk' (heq.trans hfirst.symm)
    exact ⟨_, hqs.append hqs'⟩

/-- What a call leaves: more of the session, or a failure and none. -/
def Ended (s : Live σ (MQTTClientC T)) (rc : Int) (s' : Live σ (MQTTClientC T)) : Prop :=
  Kept s s' ∨ rc < 0 ∧ s'.self.isconnected = false

theorem Kept.ended {s s' s'' : Live σ (MQTTClientC T)} {rc : Int} (h : Kept s s') (h' : Ended s' rc s'') : Ended s rc s'' :=
  h'.imp_left h.trans

theorem returns_happened {event : MQTTEventC} {s : Live σ (MQTTClientC T)} {u s'} :
    (happened event).Returns s u s' ↔ s' = ⟨{ s.self with events := s.self.events ++ [event] }, s.env⟩ := returns_set

theorem returns_happened_bind {α : Type} {event : MQTTEventC} {f : Unit → Prog (Live σ (MQTTClientC T)) α}
    {s : Live σ (MQTTClientC T)} {a s'} : (happened event >>= f).Returns s a s' ↔
      (f ()).Returns ⟨{ s.self with events := s.self.events ++ [event] }, s.env⟩ a s' := returns_set_bind

/-! ## Sending -/

theorem offer_returns {sent length : Nat} {left : Int} {s : Live σ (MQTTClientC T)} {rc : Int} {s'}
    (h : (offer p sent length left).Returns s rc s') :
    ∃ e, s' = ⟨{ s.self with events := s.self.events ++
      [if rc ≥ 0 then .took (((s.self.buf.drop sent).take length).take rc.toNat) else .broken] }, e⟩ := by
  rw [offer, returns_obj_bind] at h
  rcases Prog.returns_ite.mp h with ⟨-, h⟩ | ⟨-, h⟩
  · exact absurd h Prog.returns_undefined
  · dsimp only at h
    rw [returns_call_bind] at h
    rcases Prog.returns_ite.mp h with ⟨hrc, h⟩ | ⟨hrc, h⟩
    · rw [returns_happened_bind] at h
      obtain ⟨rfl, rfl⟩ := Prog.returns_pure.mp h
      exact ⟨_, by rw [if_pos hrc]⟩
    · rw [returns_happened_bind] at h
      obtain ⟨rfl, rfl⟩ := Prog.returns_pure.mp h
      exact ⟨_, by rw [if_neg hrc]⟩

/-- The writes so far have taken what is before `sent`. -/
def Taken (s : Live σ (MQTTClientC T)) (length : Nat) (sent : Int) (u : Live σ (MQTTClientC T)) : Prop :=
  ∃ (chunks : List Bytes) (e : σ), u = ⟨{ s.self with events := s.self.events ++ chunks.map .took }, e⟩ ∧
    (sent ≤ length → chunks.flatten = s.self.buf.take sent.toNat)

/-- Where the writes end: all of a packet that was sent was taken. -/
def Wrote (s : Live σ (MQTTClientC T)) (length : Nat) (sent : Int) (u : Live σ (MQTTClientC T)) : Prop :=
  ∃ (log : List MQTTEventC) (e : σ), u = ⟨{ s.self with events := s.self.events ++ log }, e⟩ ∧
    (sent = length → Said (s.self.buf.take length) log)

theorem Taken.wrote {s u : Live σ (MQTTClientC T)} {length : Nat} {sent : Int} (h : Taken s length sent u) : Wrote s length sent u := by
  obtain ⟨chunks, e, rfl, hchunks⟩ := h
  refine ⟨chunks.map .took, e, rfl, fun heq => ⟨chunks, rfl, ?_⟩⟩
  have hflatten := hchunks (Int.le_of_eq heq)
  rwa [heq, Int.toNat_natCast] at hflatten

/-- What the network takes of a packet that is sent is the packet. -/
theorem sendPacket_returns {length : Nat} {t : T} {s : Live σ (MQTTClientC T)} {rc : Int} {s'}
    (h : (sendPacket p length t).Returns s rc s') :
    (rc = MQTTClient.success ∧ ∃ es lastSent e, Said (s.self.buf.take length) es ∧
      s' = ⟨{ s.self with lastSent := lastSent, events := s.self.events ++ es }, e⟩) ∨
    (rc = MQTTClient.failure ∧ ∃ log e, s' = ⟨{ s.self with events := log }, e⟩) := by
  rw [sendPacket] at h
  obtain ⟨sent, s₁, hloop, h⟩ := Prog.returns_bind.mp h
  have hsent : Wrote s length sent s₁ := by
    refine hloop.loop_inv (fun (sent : Int) u => 0 ≤ sent ∧ Taken s length sent u) (Wrote s length) ?_
      ⟨Int.le_refl 0, [], s.env, ?_, fun _ => rfl⟩
    · rintro sent u r u' ⟨hpos, hinv⟩ hturn
      rcases Prog.returns_ite.mp hturn with ⟨-, hturn⟩ | ⟨hlt, hturn⟩
      · obtain ⟨rfl, rfl⟩ := Prog.returns_pure.mp hturn
        exact hinv.wrote
      obtain ⟨chunks, e, rfl, hchunks⟩ := hinv
      rw [returns_call_bind] at hturn
      rcases Prog.returns_ite.mp hturn with ⟨-, hturn⟩ | ⟨-, hturn⟩
      · obtain ⟨rfl, rfl⟩ := Prog.returns_pure.mp hturn
        exact Taken.wrote ⟨chunks, _, rfl, hchunks⟩
      rw [returns_call_bind] at hturn
      obtain ⟨rc, u₁, hoffer, hturn⟩ := Prog.returns_bind.mp hturn
      obtain ⟨e₁, rfl⟩ := offer_returns hoffer
      rcases Prog.returns_ite.mp hturn with ⟨hneg, hturn⟩ | ⟨hrc, hturn⟩
      · -- the packet is not finished
        obtain ⟨rfl, rfl⟩ := Prog.returns_pure.mp hturn
        refine ⟨chunks.map .took ++ [.broken], e₁, ?_, fun heq => absurd heq (by omega)⟩
        rw [if_neg (by omega), List.append_assoc]
      · obtain ⟨rfl, rfl⟩ := Prog.returns_pure.mp hturn
        refine ⟨by omega, chunks ++ [((s.self.buf.drop sent.toNat).take length).take rc.toNat], e₁, ?_, fun hle => ?_⟩
        · rw [if_pos (by omega), List.map_append, List.append_assoc]
          rfl
        · have hmin : min rc.toNat length = rc.toNat := by omega
          have hsum : (sent + rc).toNat = sent.toNat + rc.toNat := by omega
          rw [List.flatten_append, hchunks (by omega), List.flatten_singleton, List.take_take, hmin, hsum, List.take_add]
    · rw [List.map_nil, List.append_nil]
  obtain ⟨log, e, rfl, hsaid⟩ := hsent
  rcases Prog.returns_ite.mp h with ⟨heq, h⟩ | ⟨-, h⟩
  · rw [returns_obj_bind, returns_call_bind, returns_set_bind] at h
    obtain ⟨rfl, rfl⟩ := Prog.returns_pure.mp h
    exact .inl ⟨rfl, _, _, _, hsaid heq, rfl⟩
  · obtain ⟨rfl, rfl⟩ := Prog.returns_pure.mp h
    exact .inr ⟨rfl, _, _, rfl⟩

theorem sendSerialized_returns {bs : Bytes} {t : T} {s : Live σ (MQTTClientC T)} {r : Except Int Int} {s'}
    (h : (sendSerialized p (.ok bs) t).Returns s r s') :
    (r = .ok MQTTClient.success ∧ ∃ buf es lastSent e, Said bs es ∧
      s' = ⟨{ s.self with buf := buf, lastSent := lastSent, events := s.self.events ++ es }, e⟩) ∨
    (r = .ok MQTTClient.failure ∧ ∃ buf log e, s' = ⟨{ s.self with buf := buf, events := log }, e⟩) := by
  rw [sendSerialized, returns_obj_bind] at h
  split at h
  · exact absurd h Prog.returns_undefined
  · next buf hpoke =>
    rw [returns_set_bind] at h
    obtain ⟨rc, u, hsend, h⟩ := Prog.returns_bind.mp h
    obtain ⟨rfl, rfl⟩ := Prog.returns_pure.mp h
    have htake := poke_take hpoke
    rw [Nat.zero_add, List.take_zero, List.nil_append] at htake
    rcases sendPacket_returns hsend with ⟨rfl, es, lastSent, e, hsaid, rfl⟩ | ⟨rfl, log, e, rfl⟩
    · exact .inl ⟨rfl, buf, es, lastSent, e, htake ▸ hsaid, rfl⟩
    · exact .inr ⟨rfl, buf, log, e, rfl⟩

theorem sendSerialized_error {len : Int} {t : T} {s : Live σ (MQTTClientC T)} {r : Except Int Int} {s'}
    (h : (sendSerialized p (.error len) t).Returns s r s') : r = .error len ∧ s' = s := Prog.returns_pure.mp h

/-- What becomes of a packet that the client sends of its own accord. -/
inductive Asked (s : Live σ (MQTTClientC T)) : Except Int Int → Live σ (MQTTClientC T) → Prop
  | unsent {len : Int} : Asked s (.error len) s
  | sent {s'} (kept : Kept s s') (isconnected : s'.self.isconnected = s.self.isconnected) : Asked s (.ok MQTTClient.success) s'
  | failed {s'} (isconnected : s'.self.isconnected = s.self.isconnected) : Asked s (.ok MQTTClient.failure) s'

theorem sendSerialized_asks {packet : Except Int Bytes} {t : T} {s : Live σ (MQTTClientC T)} {r : Except Int Int} {s'}
    (hown : ∀ bs, packet = .ok bs → ∃ q, isAck q = false ∧ Written q bs) (h : (sendSerialized p packet t).Returns s r s') :
    Asked s r s' := by
  cases packet with
  | error len =>
    obtain ⟨rfl, rfl⟩ := sendSerialized_error h
    exact .unsent
  | ok bs =>
    obtain ⟨q, hq, hwritten⟩ := hown bs rfl
    rcases sendSerialized_returns h with ⟨rfl, _, es, _, _, hsaid, rfl⟩ | ⟨rfl, _, _, _, rfl⟩
    · refine .sent (.talks rfl rfl ?_ (.said hq hwritten hsaid)) rfl
      rw [hsaid.received]
      rfl
    · exact .failed rfl

/-! ## Reading -/

/-- The network gives no more bytes than it is asked for. -/
def Reads (p : MQTTPlatformC σ T) : Prop := ∀ n timeout e, (p.mqttread n timeout e).1.1 ≤ n

theorem store_returns {i : Nat} {bs : Bytes} {s : Live σ (MQTTClientC T)} {u s'} (h : (store i bs).Returns s u s') :
    ∃ readbuf, s' = ⟨{ s.self with readbuf := readbuf }, s.env⟩ := by
  rw [store, returns_obj_bind] at h
  split at h
  · exact absurd h Prog.returns_undefined
  · exact ⟨_, returns_set.mp h⟩

theorem decodePacket_returns {t : T} {timeout : Int} {s : Live σ (MQTTClientC T)} {n s'}
    (h : ((reader p t).decodePacket timeout).Returns s n s') : ∃ e, s' = ⟨s.self, e⟩ := by
  have hself : ((reader p t).decodePacket timeout).Guarantees (.same (·.self)) :=
    (PacketReader.composes_guarantees _).digits (.bind (guarantees_call fun _ => rfl) fun _ => .pure)
  exact ⟨s'.env, congrArg (Live.mk · s'.env) (hself s n s' h)⟩

theorem packetRead_returns {s : Live σ (MQTTClientC T)} {rc : Int} {s'} (h : (packetRead p).Returns s rc s') :
    rc = heardType s'.self.readbuf ∧ s'.self.events = s.self.events ++ [.received s'.self.readbuf] ∧
      s'.self.isconnected = s.self.isconnected := by
  rw [packetRead, returns_obj_bind] at h
  dsimp only at h
  rcases Prog.returns_ite.mp h with ⟨-, h⟩ | ⟨-, h⟩
  · rw [returns_call_bind, returns_set_bind, returns_happened_bind] at h
    obtain ⟨rfl, rfl⟩ := Prog.returns_pure.mp h
    exact ⟨rfl, rfl, rfl⟩
  · rw [returns_happened_bind] at h
    obtain ⟨rfl, rfl⟩ := Prog.returns_pure.mp h
    exact ⟨rfl, rfl, rfl⟩

/-- A read changes the buffer alone. -/
theorem mqttread_returns {t : T} {i n : Nat} {timeout : Int} {s : Live σ (MQTTClientC T)} {rc : Int} {s'}
    (h : ((reader p t).mqttread i n timeout).Returns s rc s') :
    rc = (p.mqttread n timeout s.env).1.1 ∧ ∃ readbuf e, s' = ⟨{ s.self with readbuf := readbuf }, e⟩ := by
  obtain ⟨x, u, hcall, h⟩ := Prog.returns_bind.mp h
  obtain ⟨rfl, rfl⟩ := returns_call.mp hcall
  obtain ⟨_, v, hstore, h⟩ := Prog.returns_bind.mp h
  obtain ⟨readbuf, rfl⟩ := store_returns hstore
  obtain ⟨rfl, rfl⟩ := Prog.returns_pure.mp h
  exact ⟨rfl, readbuf, _, rfl⟩

/-- A packet came whole, or the type is not positive. -/
theorem readPacket_returns (hreads : Reads p) {t : T} {s : Live σ (MQTTClientC T)} {rc : Int} {s'}
    (h : (readPacket p t).Returns s rc s') :
    s'.self.isconnected = s.self.isconnected ∧ (rc ≤ 0 ∧ s'.self.events = s.self.events ∨
      rc = heardType s'.self.readbuf ∧ s'.self.events = s.self.events ++ [.received s'.self.readbuf]) := by
  have hleft {u v : Live σ (MQTTClientC T)} {left : Int} (h : (reader p t).timerLeftMS.Returns u left v) : ∃ e, v = ⟨u.self, e⟩ :=
    ⟨_, (returns_call.mp h).2⟩
  obtain ⟨left, _, htimer, h⟩ := Prog.returns_bind.mp h
  obtain ⟨e, rfl⟩ := hleft htimer
  obtain ⟨rc₁, _, hread, h⟩ := Prog.returns_bind.mp h
  obtain ⟨hrc₁, readbuf₁, e₁, rfl⟩ := mqttread_returns hread
  rcases Prog.returns_ite.mp h with ⟨hne, h⟩ | ⟨-, h⟩
  · obtain ⟨rfl, rfl⟩ := Prog.returns_pure.mp h
    have hone : rc ≤ 1 := hrc₁ ▸ hreads 1 left e
    exact ⟨rfl, .inl ⟨by omega, rfl⟩⟩
  obtain ⟨_, _, htimer, h⟩ := Prog.returns_bind.mp h
  obtain ⟨e₂, rfl⟩ := hleft htimer
  obtain ⟨remLen, _, hdecode, h⟩ := Prog.returns_bind.mp h
  obtain ⟨e₃, rfl⟩ := decodePacket_returns hdecode
  obtain ⟨_, _, hstore, h⟩ := Prog.returns_bind.mp h
  obtain ⟨readbuf₃, rfl⟩ := store_returns hstore
  rw [show (reader p t).readbufSize = Prog.gets (·.self.readbuf.length) from rfl, Prog.returns_gets_bind] at h
  rcases Prog.returns_ite.mp h with ⟨-, h⟩ | ⟨-, h⟩
  · obtain ⟨rfl, rfl⟩ := Prog.returns_pure.mp h
    exact ⟨rfl, .inl ⟨by decide, rfl⟩⟩
  rcases Prog.returns_ite.mp h with ⟨-, h⟩ | ⟨-, h⟩
  · obtain ⟨_, _, htimer, h⟩ := Prog.returns_bind.mp h
    obtain ⟨e₄, rfl⟩ := hleft htimer
    obtain ⟨_, _, hread, h⟩ := Prog.returns_bind.mp h
    obtain ⟨-, readbuf₅, e₅, rfl⟩ := mqttread_returns hread
    rcases Prog.returns_ite.mp h with ⟨-, h⟩ | ⟨-, h⟩
    · obtain ⟨rfl, rfl⟩ := Prog.returns_pure.mp h
      exact ⟨rfl, .inl ⟨Int.le_refl 0, rfl⟩⟩
    · obtain ⟨hrc, hevents, hcon⟩ := packetRead_returns h
      exact ⟨hcon, .inr ⟨hrc, hevents⟩⟩
  · obtain ⟨hrc, hevents, hcon⟩ := packetRead_returns h
    exact ⟨hcon, .inr ⟨hrc, hevents⟩⟩

/-! ## `cycle` -/

/-- `closeSession` ends the session. -/
theorem closeSession_returns {s : Live σ (MQTTClientC T)} {u s'} (h : (closeSession).Returns s u s') :
    s'.self.isconnected = false ∧ ∃ log, s'.self.events = s.self.events ++ log ∧ received log = [] := by
  rw [closeSession, returns_set_bind, returns_obj_bind] at h
  rcases Prog.returns_ite.mp h with ⟨-, h⟩ | ⟨-, h⟩
  · rw [cleanSession, returns_set_bind, returns_happened] at h
    rw [h]
    exact ⟨rfl, [.cleaned], rfl, rfl⟩
  · obtain ⟨-, rfl⟩ := Prog.returns_pure.mp h
    exact ⟨rfl, [], (List.append_nil _).symm, rfl⟩

theorem keepaliveExpired_returns {s : Live σ (MQTTClientC T)} {expired s'} (h : (keepaliveExpired p).Returns s expired s') :
    ∃ e, s' = ⟨s.self, e⟩ := by
  rw [keepaliveExpired, returns_obj_bind, returns_call_bind] at h
  rcases Prog.returns_ite.mp h with ⟨-, h⟩ | ⟨-, h⟩
  · exact ⟨_, (Prog.returns_pure.mp h).2⟩
  · exact ⟨_, (returns_call.mp h).2⟩

theorem keepalive_returns {s : Live σ (MQTTClientC T)} {rc : Int} {s'} (h : (keepalive p).Returns s rc s') :
    s'.self.isconnected = s.self.isconnected ∧ (rc = MQTTClient.success → Kept s s') := by
  rw [keepalive, returns_obj_bind] at h
  rcases Prog.returns_ite.mp h with ⟨-, h⟩ | ⟨-, h⟩
  · obtain ⟨-, rfl⟩ := Prog.returns_pure.mp h
    exact ⟨rfl, fun _ => .refl _⟩
  obtain ⟨expired, s₁, hexpired, h⟩ := Prog.returns_bind.mp h
  obtain ⟨e₁, rfl⟩ := keepaliveExpired_returns hexpired
  rcases Prog.returns_ite.mp h with ⟨-, h⟩ | ⟨-, h⟩
  · rw [returns_obj_bind] at h
    dsimp only at h
    rcases Prog.returns_ite.mp h with ⟨-, h⟩ | ⟨-, h⟩
    · obtain ⟨rfl, rfl⟩ := Prog.returns_pure.mp h
      exact ⟨rfl, fun hrc => absurd hrc (by decide)⟩
    rw [returns_call_bind] at h
    obtain ⟨r, s₂, hsend, h⟩ := Prog.returns_bind.mp h
    have hasked := sendSerialized_asks (fun bs hbs => ⟨.zero .pingreq, rfl, _, congrArg some hbs⟩) hsend
    cases hasked with
    | unsent =>
      obtain ⟨-, rfl⟩ := Prog.returns_pure.mp h
      exact ⟨rfl, fun _ => .silent rfl rfl⟩
    | sent hkept hcon =>
      dsimp only at h
      rw [if_pos rfl, returns_set_bind] at h
      obtain ⟨-, rfl⟩ := Prog.returns_pure.mp h
      exact ⟨hcon, fun _ => hkept⟩
    | failed hcon =>
      obtain ⟨rfl, rfl⟩ := Prog.returns_pure.mp h
      exact ⟨hcon, fun hrc => absurd hrc (by decide)⟩
  · obtain ⟨-, rfl⟩ := Prog.returns_pure.mp h
    exact ⟨rfl, fun _ => .silent rfl rfl⟩

theorem orIndeterminate_returns {written : Option Nat} {s : Live σ (MQTTClientC T)} {n s'}
    (h : (orIndeterminate p written).Returns s n s') : (∀ i, written = some i → n = i) ∧ ∃ e, s' = ⟨s.self, e⟩ := by
  cases written with
  | some i =>
    obtain ⟨rfl, rfl⟩ := Prog.returns_pure.mp h
    exact ⟨fun _ hi => Option.some.inj hi, _, rfl⟩
  | none =>
    obtain ⟨-, rfl⟩ := returns_call.mp h
    exact ⟨fun i hi => absurd hi (by simp), _, rfl⟩

theorem toMessage_returns {pub : MQTTPacket.Publish} {readbuf : Bytes} {s : Live σ (MQTTClientC T)} {m s'}
    (h : (toMessage p pub readbuf).Returns s m s') :
    m.qos = pub.qos ∧ (∀ i, pub.packetid = some i → m.id = i) ∧ Carries pub readbuf m ∧ ∃ e, s' = ⟨s.self, e⟩ := by
  obtain ⟨id, s₁, hid, h⟩ := Prog.returns_bind.mp h
  obtain ⟨hknown, e, rfl⟩ := orIndeterminate_returns hid
  obtain ⟨rfl, rfl⟩ := Prog.returns_pure.mp h
  refine ⟨rfl, hknown, ⟨fun i hi => ?_⟩, e, rfl⟩
  dsimp only
  rw [hi]

theorem callAll_returns {topicName : MQTTLenString} {m : Message} {called : List Nat} {s : Live σ (MQTTClientC T)} {u s'}
    (h : (callAll p topicName m called).Returns s u s') : ∃ e, s' = ⟨s.self, e⟩ := by
  induction called generalizing s with
  | nil =>
    obtain ⟨-, rfl⟩ := Prog.returns_pure.mp h
    exact ⟨_, rfl⟩
  | cons f fs ih =>
    rw [callAll, returns_tell_bind] at h
    obtain ⟨e, rfl⟩ := ih h
    exact ⟨e, rfl⟩

theorem deliverMessage_returns {topicName : MQTTLenString} {m : Message} {s : Live σ (MQTTClientC T)} {rc : Int} {s'}
    (h : (deliverMessage p topicName m).Returns s rc s') :
    ∃ called e, addressees topicName s.self = some called ∧
      s' = ⟨{ s.self with events := s.self.events ++ [.delivered topicName m called] }, e⟩ := by
  rw [deliverMessage, returns_obj_bind] at h
  split at h
  · exact absurd h Prog.returns_undefined
  · next called hcalled =>
    rw [returns_happened_bind] at h
    obtain ⟨u, s₁, hcall, h⟩ := Prog.returns_bind.mp h
    obtain ⟨e, rfl⟩ := callAll_returns hcall
    obtain ⟨-, rfl⟩ := Prog.returns_pure.mp h
    exact ⟨called, e, hcalled, rfl⟩

/-- An acknowledgement is said, or its case of the `switch` has failed. -/
theorem sendAck_returns {type : MsgType} {packetid : Option Nat} {id size : Nat} {t : T} {s : Live σ (MQTTClientC T)}
    {r : Except Int Int} {s'} (hid : ∀ i, packetid = some i → id = i)
    (h : (sendSerialized p (MQTTPacket.serializeAck size type false id) t).Returns s r s') :
    s'.self.isconnected = s.self.isconnected ∧ ((∃ len, r = .error len) ∨ r = .ok MQTTClient.failure ∨
      r = .ok MQTTClient.success ∧ ∃ es qs, Answers type packetid es qs ∧ s'.self.events = s.self.events ++ es) := by
  cases hpacket : MQTTPacket.serializeAck size type false id with
  | error len =>
    rw [hpacket] at h
    obtain ⟨rfl, rfl⟩ := sendSerialized_error h
    exact ⟨rfl, .inl ⟨len, rfl⟩⟩
  | ok bs =>
    rw [hpacket] at h
    rcases sendSerialized_returns h with ⟨rfl, _, es, _, _, hsaid, rfl⟩ | ⟨rfl, _, _, _, rfl⟩
    · exact ⟨rfl, .inr (.inr ⟨rfl, es, _, .intro hid ⟨size, congrArg some hpacket⟩ hsaid, rfl⟩)⟩
    · exact ⟨rfl, .inr (.inl rfl)⟩

theorem acknowledge_returns {m : Message} {packetid : Option Nat} {t : T} {s : Live σ (MQTTClientC T)} {r s'}
    (hid : ∀ i, packetid = some i → m.id = i) (h : (acknowledge p m t).Returns s r s') :
    s'.self.isconnected = s.self.isconnected ∧ (r = .error MQTTClient.failure ∨ r = .ok () ∧ ∃ answer es qs,
      (m.qos = 1 ∧ answer = .puback ∨ m.qos = 2 ∧ answer = .pubrec) ∧ Answers answer packetid es qs ∧
        s'.self.events = s.self.events ++ es) := by
  rw [acknowledge, returns_obj_bind] at h
  dsimp only at h
  obtain ⟨r₁, s₁, hsend, hexit⟩ := Prog.returns_bind.mp h
  have settle {answer : MsgType} (hqos : m.qos = 1 ∧ answer = .puback ∨ m.qos = 2 ∧ answer = .pubrec)
      (hsend : (sendSerialized p (MQTTPacket.serializeAck s.self.buf.length answer false m.id) t).Returns s r₁ s₁) :
      s'.self.isconnected = s.self.isconnected ∧ (r = .error MQTTClient.failure ∨ r = .ok () ∧ ∃ answer es qs,
        (m.qos = 1 ∧ answer = .puback ∨ m.qos = 2 ∧ answer = .pubrec) ∧ Answers answer packetid es qs ∧
          s'.self.events = s.self.events ++ es) := by
    obtain ⟨hcon, ⟨len, rfl⟩ | rfl | ⟨rfl, es, qs, hanswers, hevents⟩⟩ := sendAck_returns hid hsend
    · obtain ⟨rfl, rfl⟩ := Prog.returns_pure.mp hexit
      exact ⟨hcon, .inl rfl⟩
    · obtain ⟨rfl, rfl⟩ := Prog.returns_pure.mp hexit
      exact ⟨hcon, .inl rfl⟩
    · obtain ⟨rfl, rfl⟩ := Prog.returns_pure.mp hexit
      exact ⟨hcon, .inr ⟨rfl, answer, es, qs, hqos, hanswers, hevents⟩⟩
  by_cases hone : m.qos = 1
  · rw [if_pos hone] at hsend
    exact settle (.inl ⟨hone, rfl⟩) hsend
  rw [if_neg hone] at hsend
  by_cases htwo : m.qos = 2
  · rw [if_pos htwo] at hsend
    exact settle (.inr ⟨htwo, rfl⟩) hsend
  · rw [if_neg htwo] at hsend
    obtain ⟨rfl, rfl⟩ := sendSerialized_error hsend
    obtain ⟨rfl, rfl⟩ := Prog.returns_pure.mp hexit
    exact ⟨rfl, .inl rfl⟩

/-- How a case of the `switch` has left the client: the packet was answered, or
the session is to be closed. -/
inductive Switched (s : Live σ (MQTTClientC T)) : MQTTClient.CycleExit → Live σ (MQTTClientC T) → Prop
  | answered {s' r es qs} (exit : r = .ok () ∨ r = .error MQTTClient.success) (heard : Heard s.self.readbuf es qs)
      (events : s'.self.events = s.self.events ++ es) (isconnected : s'.self.isconnected = s.self.isconnected) : Switched s r s'
  | failed {s'} (isconnected : s'.self.isconnected = s.self.isconnected) : Switched s (.error MQTTClient.failure) s'

theorem cyclePublish_returns {t : T} {s : Live σ (MQTTClientC T)} {r s'} (htype : heardType s.self.readbuf = MsgType.publish.code)
    (h : (cyclePublish p t).Returns s r s') : Switched s r s' := by
  rw [cyclePublish, returns_obj_bind] at h
  dsimp only at h
  split at h
  · exact absurd h Prog.returns_undefined
  · next pub hread =>
    rcases Prog.returns_ite.mp h with ⟨hrc, h⟩ | ⟨hrc, h⟩
    · obtain ⟨rfl, rfl⟩ := Prog.returns_pure.mp h
      exact .answered (.inr rfl) (.garbled htype hread hrc) (List.append_nil _).symm rfl
    have hrc := not_not.mp hrc
    obtain ⟨m, s₁, hmessage, h⟩ := Prog.returns_bind.mp h
    obtain ⟨hqos, hid, hcarries, e₁, rfl⟩ := toMessage_returns hmessage
    obtain ⟨rc, s₂, hdeliver, h⟩ := Prog.returns_bind.mp h
    obtain ⟨called, e₂, -, rfl⟩ := deliverMessage_returns hdeliver
    rcases Prog.returns_ite.mp h with ⟨-, h⟩ | ⟨hzero, h⟩
    · obtain ⟨hcon, rfl | ⟨rfl, answer, es, qs, hanswer, hanswers, hevents⟩⟩ := acknowledge_returns hid h
      · exact .failed hcon
      · rw [hqos] at hanswer
        have hall : s'.self.events = s.self.events ++ (.delivered pub.topicName m called :: es) :=
          hevents.trans (List.append_assoc ..)
        exact .answered (.inl rfl) (.request htype hread hrc hcarries hanswer hanswers) hall hcon
    · obtain ⟨rfl, rfl⟩ := Prog.returns_pure.mp h
      exact .answered (.inl rfl) (.message htype hread hrc hcarries (hqos.symm.trans (not_not.mp hzero))) rfl rfl

theorem cycleRelease_returns {answer : MsgType} {t : T} {s : Live σ (MQTTClientC T)} {r s'}
    (htype : heardType s.self.readbuf = MsgType.pubrec.code ∧ answer = .pubrel ∨
      heardType s.self.readbuf = MsgType.pubrel.code ∧ answer = .pubcomp)
    (h : (cycleRelease p answer t).Returns s r s') : Switched s r s' := by
  rw [cycleRelease, returns_obj_bind] at h
  split at h
  · exact absurd h Prog.returns_undefined
  · next ack hread =>
    obtain ⟨id, s₁, hid, h⟩ := Prog.returns_bind.mp h
    obtain ⟨hknown, e₁, rfl⟩ := orIndeterminate_returns hid
    rcases Prog.returns_ite.mp h with ⟨-, h⟩ | ⟨hrc, h⟩
    · obtain ⟨rfl, rfl⟩ := Prog.returns_pure.mp h
      exact .failed rfl
    obtain ⟨r₁, s₂, hsend, h⟩ := Prog.returns_bind.mp h
    obtain ⟨hcon, ⟨len, rfl⟩ | rfl | ⟨rfl, es, qs, hanswers, hevents⟩⟩ := sendAck_returns hknown hsend
    · obtain ⟨rfl, rfl⟩ := Prog.returns_pure.mp h
      exact .failed hcon
    · obtain ⟨rfl, rfl⟩ := Prog.returns_pure.mp h
      exact .failed hcon
    · obtain ⟨rfl, rfl⟩ := Prog.returns_pure.mp h
      exact .answered (.inl rfl) (.release htype hread (not_not.mp hrc) hanswers) hevents hcon

theorem listed_iff {readbuf : Bytes} : listed readbuf = true ↔ heardType readbuf = 0 ∨
    heardType readbuf ∈ [MsgType.connack, .publish, .puback, .pubrec, .pubrel, .pubcomp, .suback, .unsuback, .pingresp].map MsgType.code :=
  decide_eq_true_iff

/-- The `switch`, on a packet that came whole. -/
theorem cycleSwitch_returns {t : T} {s : Live σ (MQTTClientC T)} {r s'}
    (h : (cycleSwitch p (heardType s.self.readbuf) t).Returns s r s') :
    listed s.self.readbuf = true ∧ Switched s r s' ∨
      listed s.self.readbuf = false ∧ r = .error (heardType s.self.readbuf : Int) ∧ s' = s := by
  generalize hcode : heardType s.self.readbuf = code at h
  have hlisted := @listed_iff s.self.readbuf
  rw [hcode] at hlisted
  rw [cycleSwitch] at h
  rcases Prog.returns_ite.mp h with ⟨hquiet, h⟩ | ⟨hquiet, h⟩
  · obtain ⟨rfl, rfl⟩ := Prog.returns_pure.mp h
    refine .inl ⟨hlisted.mpr ?_, .answered (.inl rfl) (.noted ?_) (List.append_nil _).symm rfl⟩
    · simp only [MsgType.code, List.map, List.mem_cons, List.not_mem_nil, or_false] at hquiet ⊢
      omega
    · simp only [hcode, MsgType.code, List.mem_cons, List.not_mem_nil, or_false] at hquiet ⊢
      omega
  rcases Prog.returns_ite.mp h with ⟨hpublish, h⟩ | ⟨hpublish, h⟩
  · have hpublish : code = MsgType.publish.code := Int.ofNat_inj.mp hpublish
    exact .inl ⟨hlisted.mpr (.inr (by rw [hpublish]; decide)), cyclePublish_returns (hcode.trans hpublish) h⟩
  rcases Prog.returns_ite.mp h with ⟨hpubrec, h⟩ | ⟨hpubrec, h⟩
  · have hpubrec : code = MsgType.pubrec.code := Int.ofNat_inj.mp hpubrec
    exact .inl ⟨hlisted.mpr (.inr (by rw [hpubrec]; decide)), cycleRelease_returns (.inl ⟨hcode.trans hpubrec, rfl⟩) h⟩
  rcases Prog.returns_ite.mp h with ⟨hpubrel, h⟩ | ⟨hpubrel, h⟩
  · have hpubrel : code = MsgType.pubrel.code := Int.ofNat_inj.mp hpubrel
    exact .inl ⟨hlisted.mpr (.inr (by rw [hpubrel]; decide)), cycleRelease_returns (.inr ⟨hcode.trans hpubrel, rfl⟩) h⟩
  rcases Prog.returns_ite.mp h with ⟨hping, h⟩ | ⟨hping, h⟩
  · rw [returns_set_bind] at h
    obtain ⟨rfl, rfl⟩ := Prog.returns_pure.mp h
    have hping : code = MsgType.pingresp.code := Int.ofNat_inj.mp hping
    refine .inl ⟨hlisted.mpr (.inr (by rw [hping]; decide)), .answered (.inl rfl) (.noted ?_) (List.append_nil _).symm rfl⟩
    rw [hcode, hping]
    decide
  · obtain ⟨rfl, rfl⟩ := Prog.returns_pure.mp h
    refine .inr ⟨Bool.eq_false_iff.mpr fun htrue => ?_, rfl, rfl⟩
    have := hlisted.mp htrue
    simp only [MsgType.code, List.map, List.mem_cons, List.not_mem_nil, or_false] at this hquiet hpublish hpubrec hpubrel hping
    omega

theorem cycleExit_returns {packetType rc : Int} {s : Live σ (MQTTClientC T)} {out : Int} {s'}
    (h : (cycleExit packetType rc).Returns s out s') :
    (rc = MQTTClient.success ∧ out = packetType ∧ s' = s) ∨
    (rc ≠ MQTTClient.success ∧ out = rc ∧ s'.self.isconnected = false ∧
      ∃ log, s'.self.events = s.self.events ++ log ∧ received log = [] ∧ (s.self.isconnected = false → log = [])) := by
  rw [cycleExit] at h
  rcases Prog.returns_ite.mp h with ⟨hrc, h⟩ | ⟨hrc, h⟩
  · obtain ⟨rfl, rfl⟩ := Prog.returns_pure.mp h
    exact .inl ⟨hrc, rfl, rfl⟩
  rw [returns_obj_bind] at h
  rcases Prog.returns_ite.mp h with ⟨hcon, h⟩ | ⟨hcon, h⟩
  · obtain ⟨u, s₁, hclose, h⟩ := Prog.returns_bind.mp h
    obtain ⟨rfl, rfl⟩ := Prog.returns_pure.mp h
    obtain ⟨hclosed, log, hevents, hnone⟩ := closeSession_returns hclose
    exact .inr ⟨hrc, rfl, hclosed, log, hevents, hnone, fun hfalse => absurd (hcon.symm.trans hfalse) (by decide)⟩
  · obtain ⟨rfl, rfl⟩ := Prog.returns_pure.mp h
    exact .inr ⟨hrc, rfl, Bool.eq_false_iff.mpr hcon, [], (List.append_nil _).symm, rfl, fun _ => rfl⟩

/-- The end of a cycle whose case of the `switch` is done. -/
theorem cycle_keepalive {packetType : Int} {s : Live σ (MQTTClientC T)} {rc : Int} {s'} (hpos : 0 ≤ packetType)
    (h : (do
      let rc ← keepalive p
      cycleExit packetType (if rc = MQTTClient.success then MQTTClient.success else MQTTClient.failure)).Returns s rc s') :
    Ended s rc s' := by
  obtain ⟨rc₁, s₁, hkeep, h⟩ := Prog.returns_bind.mp h
  obtain ⟨-, hkept⟩ := keepalive_returns hkeep
  by_cases hrc : rc₁ = MQTTClient.success
  · rw [if_pos hrc] at h
    rcases cycleExit_returns h with ⟨-, rfl, rfl⟩ | ⟨hne, -⟩
    · exact .inl (hkept hrc)
    · exact absurd rfl hne
  · rw [if_neg hrc] at h
    rcases cycleExit_returns h with ⟨heq, -⟩ | ⟨-, rfl, hclosed, -⟩
    · exact absurd heq (by decide)
    · exact .inr ⟨by decide, hclosed⟩

/-- The `switch`, when nothing came whole: there is no packet, or an error. -/
theorem cycleSwitch_nothing {packetType : Int} {t : T} {s : Live σ (MQTTClientC T)} {r s'} (hle : packetType ≤ 0)
    (h : (cycleSwitch p packetType t).Returns s r s') :
    (packetType = 0 ∧ r = .ok () ∨ packetType < 0 ∧ r = .error packetType) ∧ s' = s := by
  rw [cycleSwitch] at h
  rcases Prog.returns_ite.mp h with ⟨hcase, h⟩ | ⟨hcase, h⟩
  · obtain ⟨rfl, rfl⟩ := Prog.returns_pure.mp h
    simp only [MsgType.code] at hcase
    exact ⟨.inl ⟨by omega, rfl⟩, rfl⟩
  · have hneg : packetType < 0 := by omega
    have hnot (code : Nat) : packetType ≠ code := by omega
    rw [if_neg (hnot _), if_neg (hnot _), if_neg (hnot _), if_neg (hnot _)] at h
    obtain ⟨rfl, rfl⟩ := Prog.returns_pure.mp h
    exact ⟨.inr ⟨hneg, rfl⟩, rfl⟩

/-- **One cycle.** -/
theorem cycle_ended (hreads : Reads p) {t : T} {s : Live σ (MQTTClientC T)} {rc : Int} {s'} (h : (cycle p t).Returns s rc s') :
    Ended s rc s' := by
  obtain ⟨packetType, s₁, hread, h⟩ := Prog.returns_bind.mp h
  obtain ⟨r, s₂, hswitch, hrest⟩ := Prog.returns_bind.mp h
  obtain ⟨hcon₁, ⟨hle, hevents₁⟩ | ⟨rfl, hevents₁⟩⟩ := readPacket_returns hreads hread
  · obtain ⟨⟨rfl, rfl⟩ | ⟨hneg, rfl⟩, rfl⟩ := cycleSwitch_nothing hle hswitch
    · exact Kept.ended (.silent hevents₁ hcon₁) (cycle_keepalive (Int.le_refl 0) hrest)
    · rcases cycleExit_returns hrest with ⟨hzero, -⟩ | ⟨-, rfl, hclosed, -⟩
      · exact absurd hzero (Int.ne_of_lt hneg)
      · exact .inr ⟨hneg, hclosed⟩
  rcases cycleSwitch_returns hswitch with ⟨hlisted, hswitched⟩ | ⟨hlisted, rfl, rfl⟩
  · cases hswitched with
    | @answered _ _ es qs hexit hheard hevents₂ hcon₂ =>
      have hlog : s₂.self.events = s.self.events ++ (.received s₁.self.readbuf :: es) := by
        rw [hevents₂, hevents₁, List.append_assoc]
        rfl
      have hall : (received (.received s₁.self.readbuf :: es)).all listed = true := by
        have hone : received (.received s₁.self.readbuf :: es) = [s₁.self.readbuf] :=
          congrArg (s₁.self.readbuf :: ·) hheard.spec.2.1
        rw [hone]
        exact (Bool.and_true _).trans hlisted
      have hkept : Kept s s₂ := .talks hlog (hcon₂.trans hcon₁) hall (.heard hheard)
      rcases hexit with rfl | rfl
      · exact hkept.ended (cycle_keepalive (Int.natCast_nonneg _) hrest)
      · rcases cycleExit_returns hrest with ⟨-, rfl, rfl⟩ | ⟨hne, -⟩
        · exact .inl hkept
        · exact absurd rfl hne
    | failed =>
      rcases cycleExit_returns hrest with ⟨heq, -⟩ | ⟨-, rfl, hclosed, -⟩
      · exact absurd heq (by decide)
      · exact .inr ⟨by decide, hclosed⟩
  · -- The session is closed, and the type returned is positive.
    have hne : (heardType s₂.self.readbuf : Int) ≠ MQTTClient.success := by
      intro hzero
      have hlist := listed_iff.mpr (.inl (Int.ofNat_inj.mp hzero))
      exact absurd (hlisted.symm.trans hlist) (by decide)
    rcases cycleExit_returns hrest with ⟨heq, -⟩ | ⟨-, rfl, hclosed, log, hevents₂, hnone, hquiet⟩
    · exact absurd heq hne
    have hone : received (.received s₂.self.readbuf :: log) = [s₂.self.readbuf] := congrArg (s₂.self.readbuf :: ·) hnone
    refine .inl ⟨.received s₂.self.readbuf :: log, ?_, ?_, fun hsame => ?_⟩
    · rw [hevents₂, hevents₁, List.append_assoc]
      rfl
    · rw [hone, hclosed, List.all_cons, hlisted, Bool.false_and, Bool.and_false]
    · rw [hquiet (hcon₁.trans (hsame.symm.trans hclosed))]
      refine ⟨[], .heard (.noted fun hmem => ?_)⟩
      have hlist : listed s₂.self.readbuf = true := by
        refine listed_iff.mpr (.inr ?_)
        simp only [List.mem_cons, List.not_mem_nil, or_false] at hmem
        rcases hmem with hmem | hmem | hmem <;> rw [hmem] <;> decide
      exact absurd (hlisted.symm.trans hlist) (by decide)

theorem waitfor_ended (hreads : Reads p) {packetType : MsgType} {t : T} {s : Live σ (MQTTClientC T)} {rc : Int} {s'}
    (h : (waitfor p packetType t).Returns s rc s') : Ended s rc s' := by
  rw [waitfor] at h
  refine h.loop_inv (fun _ u => Kept s u) (Ended s) (fun rc u r u' hkept hturn => ?_) (.refl s)
  rw [returns_call_bind] at hturn
  rcases Prog.returns_ite.mp hturn with ⟨-, hturn⟩ | ⟨-, hturn⟩
  · obtain ⟨rfl, rfl⟩ := Prog.returns_pure.mp hturn
    exact .inl (hkept.trans (.silent rfl rfl))
  obtain ⟨rc₁, u₁, hcycle, hturn⟩ := Prog.returns_bind.mp hturn
  have hlater : Kept u ⟨u.self, (p.timerIsExpired t u.env).2⟩ := .silent rfl rfl
  have hended := hlater.ended (cycle_ended hreads hcycle)
  rcases Prog.returns_ite.mp hturn with ⟨hgo, hturn⟩ | ⟨-, hturn⟩
  · obtain ⟨rfl, rfl⟩ := Prog.returns_pure.mp hturn
    rcases hended with hnext | ⟨hneg, -⟩
    · exact hkept.trans hnext
    · exact absurd hgo.2 (Int.not_le.mpr hneg)
  · obtain ⟨rfl, rfl⟩ := Prog.returns_pure.mp hturn
    exact hkept.ended hended

theorem yield_ended (hreads : Reads p) {timeoutMs : Nat} {s : Live σ (MQTTClientC T)} {rc : Int} {s'}
    (h : (yield_ p timeoutMs).Returns s rc s') : Ended s rc s' := by
  rw [yield_, returns_call_bind] at h
  refine h.loop_inv (fun _ u => Kept s u) (Ended s) (fun _ u r u' hkept hturn => ?_) (.silent rfl rfl)
  obtain ⟨rc₁, u₁, hcycle, hturn⟩ := Prog.returns_bind.mp hturn
  have hended := hkept.ended (cycle_ended hreads hcycle)
  rcases Prog.returns_ite.mp hturn with ⟨hneg, hturn⟩ | ⟨hpos, hturn⟩
  · obtain ⟨rfl, rfl⟩ := Prog.returns_pure.mp hturn
    exact hended.imp_right fun hclosed => ⟨by decide, hclosed.2⟩
  rcases hended with hkept | ⟨hneg, -⟩
  · rw [returns_call_bind] at hturn
    rcases Prog.returns_ite.mp hturn with ⟨-, hturn⟩ | ⟨-, hturn⟩
    · obtain ⟨rfl, rfl⟩ := Prog.returns_pure.mp hturn
      exact .inl (hkept.trans (.silent rfl rfl))
    · obtain ⟨rfl, rfl⟩ := Prog.returns_pure.mp hturn
      exact hkept.trans (.silent rfl rfl)
  · exact absurd hneg hpos

/-! ## Requests -/

theorem requestExit_ended {s s₁ : Live σ (MQTTClientC T)} {rc out : Int} {s'} (h : Ended s rc s₁ ∨ rc = MQTTClient.failure)
    (hexit : (requestExit rc).Returns s₁ out s') : Ended s out s' := by
  rw [requestExit] at hexit
  rcases Prog.returns_ite.mp hexit with ⟨rfl, hexit⟩ | ⟨hne, hexit⟩
  · obtain ⟨u, s₂, hclose, hexit⟩ := Prog.returns_bind.mp hexit
    obtain ⟨rfl, rfl⟩ := Prog.returns_pure.mp hexit
    exact .inr ⟨by decide, (closeSession_returns hclose).1⟩
  · obtain ⟨rfl, rfl⟩ := Prog.returns_pure.mp hexit
    exact h.resolve_right hne

/-- A slot is written, or none. -/
theorem setMessageHandler_sets {topicFilter : Bytes} {messageHandler : Option Nat} {s : Live σ (MQTTClientC T)} {rc : Int} {s'}
    (h : (setMessageHandler topicFilter messageHandler).Returns s rc s') : s' = s ∨ ∃ hs,
      s' = ⟨{ s.self with messageHandlers := hs, events := s.self.events ++ [.handler topicFilter messageHandler] }, s.env⟩ := by
  rw [setMessageHandler, returns_obj_bind] at h
  dsimp only at h
  cases messageHandler with
  | none =>
    dsimp only at h
    split at h
    · rw [returns_set_bind, returns_happened_bind] at h
      obtain ⟨-, rfl⟩ := Prog.returns_pure.mp h
      exact .inr ⟨_, rfl⟩
    · obtain ⟨-, rfl⟩ := Prog.returns_pure.mp h
      exact .inl rfl
  | some f =>
    dsimp only at h
    split at h
    · rw [returns_set_bind, returns_happened_bind] at h
      obtain ⟨-, rfl⟩ := Prog.returns_pure.mp h
      exact .inr ⟨_, rfl⟩
    · obtain ⟨-, rfl⟩ := Prog.returns_pure.mp h
      exact .inl rfl

theorem setMessageHandler_returns {topicFilter : Bytes} {messageHandler : Option Nat} {s : Live σ (MQTTClientC T)} {rc : Int} {s'}
    (h : (setMessageHandler topicFilter messageHandler).Returns s rc s') : Kept s s' := by
  rcases setMessageHandler_sets h with rfl | ⟨hs, rfl⟩
  · exact .refl _
  · exact .talks rfl rfl rfl Talk.silent.registers

theorem awaitSuback_ended (hreads : Reads p) {charSigned : Bool} {topicFilter : Bytes} {messageHandler : Option Nat} {t : T}
    {s : Live σ (MQTTClientC T)} {out s'} (h : (awaitSuback p charSigned topicFilter messageHandler t).Returns s out s') :
    Ended s out.1 s' ∨ out.1 = MQTTClient.failure := by
  obtain ⟨rc, s₁, hwait, h⟩ := Prog.returns_bind.mp h
  have hended := waitfor_ended hreads hwait
  rcases Prog.returns_ite.mp h with ⟨hrc, h⟩ | ⟨-, h⟩
  · have hkept : Kept s s₁ := hended.resolve_right fun hneg => absurd hneg.1 (by rw [hrc]; decide)
    rw [returns_obj_bind] at h
    split at h
    · exact absurd h Prog.returns_undefined
    rcases Prog.returns_ite.mp h with ⟨-, h⟩ | ⟨-, h⟩
    · exact absurd h Prog.returns_undefined
    rcases Prog.returns_ite.mp h with ⟨-, h⟩ | ⟨-, h⟩
    · obtain ⟨rc₁, s₂, hset, h⟩ := Prog.returns_bind.mp h
      obtain ⟨rfl, rfl⟩ := Prog.returns_pure.mp h
      exact .inl (.inl (hkept.trans (setMessageHandler_returns hset)))
    · obtain ⟨rfl, rfl⟩ := Prog.returns_pure.mp h
      exact .inl (.inl hkept)
  · obtain ⟨rfl, -⟩ := Prog.returns_pure.mp h
    exact .inr rfl

theorem awaitAck_ended (hreads : Reads p) {packetType : MsgType} {t : T} {s : Live σ (MQTTClientC T)} {rc : Int} {s'}
    (h : (awaitAck p packetType t).Returns s rc s') : Ended s rc s' ∨ rc = MQTTClient.failure := by
  obtain ⟨rc₁, s₁, hwait, h⟩ := Prog.returns_bind.mp h
  have hended := waitfor_ended hreads hwait
  rcases Prog.returns_ite.mp h with ⟨hrc, h⟩ | ⟨-, h⟩
  · have hkept : Kept s s₁ := hended.resolve_right fun hneg => absurd (hrc ▸ hneg.1) (Int.not_lt.mpr (Int.natCast_nonneg _))
    rw [returns_obj_bind] at h
    split at h
    · exact absurd h Prog.returns_undefined
    · obtain ⟨-, rfl⟩ := Prog.returns_pure.mp h
      exact .inl (.inl hkept)
  · obtain ⟨rfl, -⟩ := Prog.returns_pure.mp h
    exact .inr rfl

theorem awaitAcks_ended (hreads : Reads p) {qos : Nat} {t : T} {s : Live σ (MQTTClientC T)} {rc : Int} {s'}
    (h : (awaitAcks p qos t).Returns s rc s') : Ended s rc s' ∨ rc = MQTTClient.failure := by
  rcases Prog.returns_ite.mp h with ⟨-, h⟩ | ⟨-, h⟩
  · exact awaitAck_ended hreads h
  rcases Prog.returns_ite.mp h with ⟨-, h⟩ | ⟨-, h⟩
  · exact awaitAck_ended hreads h
  · obtain ⟨rfl, rfl⟩ := Prog.returns_pure.mp h
    exact .inl (.inl (.refl _))

theorem getNextPacketId_returns {s : Live σ (MQTTClientC T)} {id s'} (h : (getNextPacketId).Returns s id s') :
    s' = ⟨{ s.self with nextPacketid := id }, s.env⟩ := by
  rw [getNextPacketId, returns_set_bind, returns_obj_bind] at h
  obtain ⟨rfl, rfl⟩ := Prog.returns_pure.mp h
  rfl

theorem subscribe_ended (hreads : Reads p) {charSigned : Bool} {topicFilter : Bytes} {qos : Nat} {messageHandler : Option Nat}
    {s : Live σ (MQTTClientC T)} {out s'} (h : (subscribeWithResults p charSigned topicFilter qos messageHandler).Returns s out s') :
    Ended s out.1 s' := by
  rw [subscribeWithResults, returns_obj_bind] at h
  rcases Prog.returns_ite.mp h with ⟨-, h⟩ | ⟨-, h⟩
  · obtain ⟨rc, s₁, hexit, h⟩ := Prog.returns_bind.mp h
    obtain ⟨rfl, rfl⟩ := Prog.returns_pure.mp h
    exact requestExit_ended (.inr rfl) hexit
  rw [returns_obj_bind, returns_call_bind] at h
  obtain ⟨id, s₁, hid, h⟩ := Prog.returns_bind.mp h
  obtain rfl := getNextPacketId_returns hid
  rw [returns_obj_bind] at h
  obtain ⟨r, s₂, hsend, h⟩ := Prog.returns_bind.mp h
  have hasked := sendSerialized_asks (fun bs hbs => ⟨_, rfl, _, Packet.serialize_filter hbs⟩) hsend
  cases hasked with
  | unsent =>
    obtain ⟨rc, s₃, hexit, h⟩ := Prog.returns_bind.mp h
    obtain ⟨rfl, rfl⟩ := Prog.returns_pure.mp h
    exact requestExit_ended (.inr rfl) hexit
  | failed =>
    obtain ⟨rc, s₃, hexit, h⟩ := Prog.returns_bind.mp h
    obtain ⟨rfl, rfl⟩ := Prog.returns_pure.mp h
    exact requestExit_ended (.inr rfl) hexit
  | sent hsent =>
    have hkept : Kept s s₂ := hsent
    obtain ⟨out₁, s₃, hawait, h⟩ := Prog.returns_bind.mp h
    obtain ⟨rc, s₄, hexit, h⟩ := Prog.returns_bind.mp h
    obtain ⟨rfl, rfl⟩ := Prog.returns_pure.mp h
    exact requestExit_ended ((awaitSuback_ended hreads hawait).imp_left hkept.ended) hexit

theorem unsubscribe_ended (hreads : Reads p) {topicFilter : Bytes} {s : Live σ (MQTTClientC T)} {rc : Int} {s'}
    (h : (unsubscribe p topicFilter).Returns s rc s') : Ended s rc s' := by
  rw [unsubscribe, returns_obj_bind] at h
  rcases Prog.returns_ite.mp h with ⟨-, h⟩ | ⟨-, h⟩
  · exact requestExit_ended (.inr rfl) h
  rw [returns_obj_bind, returns_call_bind] at h
  obtain ⟨id, s₁, hid, h⟩ := Prog.returns_bind.mp h
  obtain rfl := getNextPacketId_returns hid
  rw [returns_obj_bind] at h
  obtain ⟨r, s₂, hsend, h⟩ := Prog.returns_bind.mp h
  have hasked := sendSerialized_asks (fun bs hbs => ⟨_, rfl, _, Packet.serialize_unfilter hbs⟩) hsend
  cases hasked with
  | unsent => exact requestExit_ended (.inr rfl) h
  | failed => exact requestExit_ended (.inr rfl) h
  | sent hsent =>
    have hkept : Kept s s₂ := hsent
    obtain ⟨rc₁, s₃, hwait, h⟩ := Prog.returns_bind.mp h
    have hended := waitfor_ended hreads hwait
    rcases Prog.returns_ite.mp h with ⟨hrc, h⟩ | ⟨-, h⟩
    · have hkept : Kept s s₃ := hkept.trans (hended.resolve_right fun hneg => absurd hneg.1 (by rw [hrc]; decide))
      rw [returns_obj_bind] at h
      split at h
      · exact absurd h Prog.returns_undefined
      rcases Prog.returns_ite.mp h with ⟨-, h⟩ | ⟨-, h⟩
      · obtain ⟨u, s₄, hset, h⟩ := Prog.returns_bind.mp h
        exact requestExit_ended (.inl (.inl (hkept.trans (setMessageHandler_returns hset)))) h
      · exact requestExit_ended (.inl (.inl hkept)) h
    · exact requestExit_ended (.inr rfl) h

theorem publish_ended (hreads : Reads p) {topicName : Bytes} {message : Message} {s : Live σ (MQTTClientC T)} {out s'}
    (h : (publish p topicName message).Returns s out s') : Ended s out.1 s' := by
  rw [publish, returns_obj_bind] at h
  rcases Prog.returns_ite.mp h with ⟨-, h⟩ | ⟨-, h⟩
  · obtain ⟨rc, s₁, hexit, h⟩ := Prog.returns_bind.mp h
    obtain ⟨rfl, rfl⟩ := Prog.returns_pure.mp h
    exact requestExit_ended (.inr rfl) hexit
  rw [returns_obj_bind, returns_call_bind] at h
  obtain ⟨id, s₁, hid, h⟩ := Prog.returns_bind.mp h
  have hidle : s₁.self.events = s.self.events ∧ s₁.self.isconnected = s.self.isconnected := by
    rcases Prog.returns_ite.mp hid with ⟨-, hid⟩ | ⟨-, hid⟩
    · obtain rfl := getNextPacketId_returns hid
      exact ⟨rfl, rfl⟩
    · obtain ⟨-, rfl⟩ := Prog.returns_pure.mp hid
      exact ⟨rfl, rfl⟩
  rw [returns_obj_bind] at h
  obtain ⟨r, s₂, hsend, h⟩ := Prog.returns_bind.mp h
  have hasked := sendSerialized_asks (fun bs hbs =>
    ⟨.publish false message.qos message.retained (some id) topicName message.payload, rfl, _, congrArg some hbs⟩) hsend
  cases hasked with
  | unsent =>
    obtain ⟨rc, s₃, hexit, h⟩ := Prog.returns_bind.mp h
    obtain ⟨rfl, rfl⟩ := Prog.returns_pure.mp h
    exact requestExit_ended (.inr rfl) hexit
  | failed =>
    obtain ⟨rc, s₃, hexit, h⟩ := Prog.returns_bind.mp h
    obtain ⟨rfl, rfl⟩ := Prog.returns_pure.mp h
    exact requestExit_ended (.inr rfl) hexit
  | sent hsent =>
    have hkept : Kept s s₂ := (Kept.silent hidle.1 hidle.2).trans hsent
    obtain ⟨rc₁, s₃, hawait, h⟩ := Prog.returns_bind.mp h
    obtain ⟨rc, s₄, hexit, h⟩ := Prog.returns_bind.mp h
    obtain ⟨rfl, rfl⟩ := Prog.returns_pure.mp h
    exact requestExit_ended ((awaitAcks_ended hreads hawait).imp_left hkept.ended) hexit

theorem disconnect_closes {s : Live σ (MQTTClientC T)} {rc : Int} {s'} (h : (disconnect p).Returns s rc s') :
    s'.self.isconnected = false := by
  rw [disconnect, returns_obj_bind, returns_call_bind, returns_obj_bind] at h
  obtain ⟨r, s₁, -, h⟩ := Prog.returns_bind.mp h
  obtain ⟨u, s₂, hclose, h⟩ := Prog.returns_bind.mp h
  obtain ⟨-, rfl⟩ := Prog.returns_pure.mp h
  exact (closeSession_returns hclose).1

/-! ## Runs -/

/-- What an open session has had since its CONNECT is a `Talk`. -/
def Session (c : MQTTClientC T) : Prop :=
  c.isconnected = true → ∃ before log qs, c.events = before ++ .connecting :: log ∧ Talk log qs

theorem Session.closed {c : MQTTClientC T} (h : c.isconnected = false) : Session c :=
  fun hopen => absurd (hopen.symm.trans h) (by decide)

theorem Session.kept {s s' : Live σ (MQTTClientC T)} (h : Session s.self) (hkept : Kept s s') : Session s'.self := by
  intro hopen
  obtain ⟨log', hevents', hcon, htalk⟩ := hkept
  rw [hopen] at hcon
  have hopen₀ : s.self.isconnected = true := by
    cases hs : s.self.isconnected with
    | true => rfl
    | false => rw [hs, Bool.false_and] at hcon; cases hcon
  obtain ⟨before, log, qs, hevents, hlog⟩ := h hopen₀
  obtain ⟨qs', hlog'⟩ := htalk (hopen.trans hopen₀.symm)
  refine ⟨before, log ++ log', qs ++ qs', ?_, hlog.append hlog'⟩
  rw [hevents', hevents, List.append_assoc, List.cons_append]

theorem Session.ended {s s' : Live σ (MQTTClientC T)} {rc : Int} (h : Session s.self) (hended : Ended s rc s') :
    Session s'.self := by
  rcases hended with hkept | ⟨-, hclosed⟩
  · exact h.kept hkept
  · exact .closed hclosed

/-- A CONNACK that accepts comes while everything goes well. -/
theorem awaitConnack_returns (hreads : Reads p) {t : T} {s : Live σ (MQTTClientC T)} {out s'}
    (h : (awaitConnack p t).Returns s out s') : ∃ rc, Ended s rc s' ∧ (out.1 = MQTTClient.success → 0 ≤ rc) := by
  obtain ⟨rc, s₁, hwait, h⟩ := Prog.returns_bind.mp h
  have hended := waitfor_ended hreads hwait
  rcases Prog.returns_ite.mp h with ⟨hrc, h⟩ | ⟨-, h⟩
  · rw [returns_obj_bind] at h
    split at h
    · exact absurd h Prog.returns_undefined
    · obtain ⟨-, rfl⟩ := Prog.returns_pure.mp h
      exact ⟨rc, hended, fun _ => hrc ▸ Int.natCast_nonneg _⟩
  · obtain ⟨rfl, rfl⟩ := Prog.returns_pure.mp h
    exact ⟨rc, hended, fun hfail => absurd hfail (by decide)⟩

theorem Ended.closed {s s' : Live σ (MQTTClientC T)} {rc : Int} (h : Ended s rc s') (hs : s.self.isconnected = false) :
    s'.self.isconnected = false := by
  rcases h with ⟨log, -, hcon, -⟩ | ⟨-, hclosed⟩
  · rw [hcon, hs, Bool.false_and]
  · exact hclosed

/-- What connecting leaves: the session that was, none, or a new one. -/
inductive Opens (options : ConnectData) (s s' : Live σ (MQTTClientC T)) : Prop
  | already (isconnected : s.self.isconnected = true) (same : s' = s) : Opens options s s'
  | closed (before : s.self.isconnected = false) (after : s'.self.isconnected = false) : Opens options s s'
  | opened {bs es log qs} (before : s.self.isconnected = false) (written : Written (.connect options) bs) (said : Said bs es)
      (events : s'.self.events = s.self.events ++ .connecting :: (es ++ log)) (talk : Talk log qs) : Opens options s s'

theorem connect_opens (hreads : Reads p) {options : Option ConnectData} {s : Live σ (MQTTClientC T)} {out s'}
    (h : (connectWithResults p options).Returns s out s') : Opens (options.getD {}) s s' := by
  rw [connectWithResults, returns_obj_bind] at h
  rcases Prog.returns_ite.mp h with ⟨hopen, h⟩ | ⟨hclosed, h⟩
  · obtain ⟨-, rfl⟩ := Prog.returns_pure.mp h
    exact .already hopen rfl
  have hclosed : s.self.isconnected = false := Bool.eq_false_iff.mpr hclosed
  rw [returns_obj_bind, returns_call_bind] at h
  dsimp only at h
  rw [returns_set_bind, returns_call_bind, returns_set_bind, returns_happened_bind, returns_obj_bind] at h
  split at h
  · exact absurd h Prog.returns_undefined
  next packet hpacket =>
  obtain ⟨r, s₂, hsend, h⟩ := Prog.returns_bind.mp h
  cases packet with
  | error len =>
    obtain ⟨rfl, rfl⟩ := sendSerialized_error hsend
    obtain ⟨-, rfl⟩ := Prog.returns_pure.mp h
    exact .closed hclosed hclosed
  | ok bs =>
    rcases sendSerialized_returns hsend with ⟨rfl, _, es, _, _, hsaid, rfl⟩ | ⟨rfl, _, _, _, rfl⟩
    · obtain ⟨⟨rc, data⟩, s₃, hawait, h⟩ := Prog.returns_bind.mp h
      obtain ⟨rc₁, hended, hpos⟩ := awaitConnack_returns hreads hawait
      have hclosed₃ : s₃.self.isconnected = false := hended.closed hclosed
      rcases Prog.returns_ite.mp h with ⟨hrc, h⟩ | ⟨-, h⟩
      · rw [returns_set_bind] at h
        obtain ⟨-, rfl⟩ := Prog.returns_pure.mp h
        obtain ⟨log, hevents, -, htalk⟩ := hended.resolve_right fun hneg => absurd hneg.1 (Int.not_lt.mpr (hpos hrc))
        obtain ⟨qs, hlog⟩ := htalk (hclosed₃.trans hclosed.symm)
        refine .opened hclosed ⟨_, hpacket⟩ hsaid (hevents.trans ?_) hlog
        simp only [List.append_assoc, List.cons_append, List.nil_append]
      · obtain ⟨-, rfl⟩ := Prog.returns_pure.mp h
        exact .closed hclosed hclosed₃
    · obtain ⟨-, rfl⟩ := Prog.returns_pure.mp h
      exact .closed hclosed hclosed

theorem Opens.session {options : ConnectData} {s s' : Live σ (MQTTClientC T)} (h : Opens options s s') (hsession : Session s.self) :
    Session s'.self := by
  cases h with
  | already _ same => exact same ▸ hsession
  | closed _ after => exact .closed after
  | opened _ written said events talk =>
    exact fun _ => ⟨_, _, _, events, (Talk.said (q := .connect options) rfl written said).append talk⟩

/-- An operation that neither opens nor ends a session. -/
def Op.within : Op → Bool
  | .connect _ | .disconnect => false
  | _ => true

theorem Op.ended (hreads : Reads p) {charSigned : Bool} {op : Op} (hop : op.within = true) {s : Live σ (MQTTClientC T)} {rc : Int} {s'}
    (h : (op.run p charSigned).Returns s rc s') : Ended s rc s' := by
  cases op with
  | connect => cases hop
  | disconnect => cases hop
  | yield_ => exact yield_ended hreads h
  | runTurn =>
    have h : (MQTTClientC.runTurn p).Returns s rc s' := h
    rw [MQTTClientC.runTurn, returns_call_bind] at h
    have hlater : Kept s ⟨s.self, (p.timerCountdownMS 500 s.env).2⟩ := .silent rfl rfl
    exact hlater.ended (cycle_ended hreads h)
  | publish =>
    obtain ⟨out, s₁, hpublish, h⟩ := Prog.returns_bind.mp h
    obtain ⟨rfl, rfl⟩ := Prog.returns_pure.mp h
    exact publish_ended hreads hpublish
  | subscribe =>
    obtain ⟨out, s₁, hsubscribe, h⟩ := Prog.returns_bind.mp h
    obtain ⟨rfl, rfl⟩ := Prog.returns_pure.mp h
    exact subscribe_ended hreads hsubscribe
  | unsubscribe => exact unsubscribe_ended hreads h
  | setMessageHandler => exact .inl (setMessageHandler_returns h)
  | setDefault =>
    have h : (do
      set fun c => { c with defaultMessageHandler := _ }
      happened (.defaultHandler _)
      return MQTTClient.success : Prog (Live σ (MQTTClientC T)) Int).Returns s rc s' := h
    rw [returns_set_bind, returns_happened_bind] at h
    obtain ⟨-, rfl⟩ := Prog.returns_pure.mp h
    exact .inl (.talks rfl rfl rfl Talk.silent.registersDefault)

theorem Op.session (hreads : Reads p) {charSigned : Bool} {op : Op} {s : Live σ (MQTTClientC T)} {rc : Int} {s'}
    (hsession : Session s.self) (h : (op.run p charSigned).Returns s rc s') : Session s'.self := by
  by_cases hop : op.within = true
  · exact hsession.ended (Op.ended hreads hop h)
  cases op with
  | connect options =>
    obtain ⟨out, s₁, hconnect, h⟩ := Prog.returns_bind.mp h
    obtain ⟨-, rfl⟩ := Prog.returns_pure.mp h
    exact (connect_opens hreads hconnect).session hsession
  | disconnect => exact .closed (disconnect_closes h)
  | _ => exact absurd rfl hop

/-- **The wire of an open session is whole**: since its CONNECT the network has
taken whole packets, of which the acknowledgements are the answers to the
packets that came, in their order, and each message that came was delivered. -/
theorem wire_whole (hreads : Reads p) {charSigned : Bool} {s₀ s : Live σ (MQTTClientC T)} {ms : Nat} {s₁}
    {calls : List (Prog.Call (Live σ (MQTTClientC T)) Op Int)} (hinit : (init p ms).Returns s₀ () s₁)
    (hrun : Prog.Calls (Op.run p charSigned) s₁ calls s) (hopen : s.self.isconnected = true) :
    ∃ before log, s.self.events = before ++ .connecting :: log ∧ .connecting ∉ log ∧
      ∃ said : List (Packet × Bytes), (∀ x ∈ said, ∃ size, x.1.serialize size = some (.ok x.2)) ∧
        wire log = (said.map (·.2)).flatten ∧
        ∀ heard : List Packet, List.Forall₂ (fun q readbuf => Holds readbuf q) heard (received log) →
          (said.map (·.1)).filter isAck = heard.filterMap answer ∧ deliveries log = heard.filterMap content := by
  have hstart : Session s₁.self := by
    rw [init, returns_call_bind, returns_call_bind, returns_set] at hinit
    exact .closed (hinit ▸ rfl)
  have hsession := (hrun.always (I := fun s => Session s.self) (fun c h hc => Op.session hreads hc h) hstart).2
  obtain ⟨before, log, said, hevents, htalk⟩ := hsession hopen
  exact ⟨before, log, hevents, htalk.not_mem rfl, said, htalk.wire.2, htalk.wire.1, fun heard hheard => htalk.answered hheard⟩

/-- **Success hides a closed session exactly when a packet came that a client
is not sent.** -/
theorem open_iff_listed (hreads : Reads p) {charSigned : Bool} {op : Op} (hop : op.within = true) {s : Live σ (MQTTClientC T)}
    {rc : Int} {s'} (h : (op.run p charSigned).Returns s rc s') (hrc : 0 ≤ rc) :
    ∃ log, s'.self.events = s.self.events ++ log ∧
      (s'.self.isconnected = true ↔ s.self.isconnected = true ∧ ∀ readbuf ∈ received log, listed readbuf = true) := by
  obtain ⟨log, hevents, hcon, -⟩ := (Op.ended hreads hop h).resolve_right fun hneg => absurd hneg.1 (Int.not_lt.mpr hrc)
  exact ⟨log, hevents, by rw [hcon, Bool.and_eq_true, List.all_eq_true]⟩

end MQTTClientC

namespace TalkDemo

open MQTTClientC

/-- Takes five bytes at a time, and gives what it is asked for when it has so
much; timers run out after a number of looks at them. -/
def platform : MQTTPlatformC (Bytes × Nat) Unit where
  mqttread n _ e := if n ≤ e.1.length then ((n, e.1.take n), e.1.drop n, e.2) else ((0, []), e)
  mqttwrite bs _ e := ((min 5 bs.length : Nat), e)
  timerInit e := ((), e)
  timerCountdown _ e := ((), e)
  timerCountdownMS _ e := ((), e)
  timerIsExpired _ e := (e.2 = 0, e.1, e.2 - 1)
  timerLeftMS _ e := (0, e)
  fp _ _ _ e := e
  indeterminate e := (0, e)

theorem reads : Reads platform := by
  intro n timeout e
  rw [platform]
  dsimp only
  split
  · exact Int.le_refl _
  · exact Int.natCast_nonneg n

/-- A CONNACK, a PUBLISH with QoS 1 and a PUBREL are to come. -/
def memory : Live (Bytes × Nat) (MQTTClientC Unit) where
  self := {
    nextPacketid := 0
    commandTimeoutMs := 0
    buf := List.replicate 32 0
    readbuf := List.replicate 9 0
    keepAliveInterval := 0
    pingOutstanding := true
    isconnected := true
    cleansession := true
    messageHandlers := List.replicate 2 {}
    defaultMessageHandler := some 7
    lastSent := ()
    lastReceived := ()
    events := [] }
  env := ([32, 2, 0, 0, 50, 7, 0, 1, 97, 0, 5, 104, 105, 98, 2, 0, 9], 20)

def started : Live (Bytes × Nat) (MQTTClientC Unit) := ((init platform 1000).run 1 memory).2

def options : ConnectData := { clientID := { cstring := some [97] }, keepAliveInterval := 0 }

def walked : Option (List (Prog.Call (Live (Bytes × Nat) (MQTTClientC Unit)) Op Int) × Live (Bytes × Nat) (MQTTClientC Unit)) :=
  Prog.walk (Op.run platform true) 60 started [.connect (some options), .yield_ 100]

def log : List MQTTEventC :=
  [.took [16, 13, 0, 4, 77], .took [81, 84, 84, 4, 2], .took [0, 0, 0, 1, 97], .received [32, 2, 0, 0, 0, 0, 0, 0, 0],
    .received [50, 7, 0, 1, 97, 0, 5, 104, 105],
    .delivered { len := 1, data := some [97] }
      { qos := 1, retained := false, dup := false, id := 5, payload := [104, 105], payloadlen := 2 } [],
    .took [64, 2, 0, 5], .received [98, 2, 0, 9, 97, 0, 5, 104, 105], .took [112, 2, 0, 9]]

/-- Three packets were heard, and three said. -/
theorem wire_whole_demo : ∃ said : List (Packet × Bytes), wire log = (said.map (·.2)).flatten ∧
    (said.map (·.1)).filter isAck = [.ack .puback false 5, .ack .pubcomp false 9] ∧ deliveries log = [(some [97], [104, 105])] := by
  have hend : walked.map (fun x => (x.2.self.isconnected, x.2.self.events)) = some (true, .connecting :: log) := by decide +kernel
  obtain ⟨⟨calls, s⟩, hwalk, hs⟩ := Option.map_eq_some_iff.mp hend
  obtain ⟨hopen, hevents⟩ := Prod.mk.inj hs
  have hinit : (init platform 1000).Returns memory () started := ⟨1, rfl⟩
  obtain ⟨before, log', hlog', -, said, -, hwire, hanswered⟩ := wire_whole reads hinit (.of_walk hwalk) hopen
  have hlog : log' = log := by
    rw [hevents] at hlog'
    cases before with
    | nil => exact (List.cons.inj hlog').2.symm
    | cons e before =>
      have hmem : MQTTEventC.connecting ∈ log := (List.cons.inj hlog').2 ▸ List.mem_append_right before List.mem_cons_self
      exact absurd hmem (by decide)
  rw [hlog] at hwire hanswered
  obtain ⟨hacks, hmessages⟩ := hanswered [.connack 0 false, .publish false 1 false (some 5) [97] [104, 105], .ack .pubrel false 9]
    (.cons ⟨true, 0, [0, 0, 0, 0, 0], ⟨⟨show 0 < 256 by decide, by decide, by decide⟩, trivial⟩, by decide⟩
      (.cons ⟨true, 0, [], ⟨⟨⟨by decide, by decide, by decide, by decide⟩, by decide, by decide⟩, trivial⟩, by decide⟩
        (.cons ⟨true, 0, [97, 0, 5, 104, 105], ⟨⟨⟨by decide, by decide⟩, by decide, by decide⟩, trivial⟩, by decide⟩ .nil)))
  exact ⟨said, hwire, hacks, hmessages⟩

/-- An open session, to which a PINGREQ comes. -/
def waiting : Live (Bytes × Nat) (MQTTClientC Unit) where
  self := { memory.self with cleansession := false }
  env := ([192, 0], 5)

theorem open_iff_listed_pingreq : ∃ s', ((Op.yield_ 100).run platform true).Returns waiting 0 s' ∧ s'.self.isconnected = false ∧
    ∃ readbuf, .received readbuf ∈ s'.self.events ∧ listed readbuf = false := by
  have hrun : (((Op.yield_ 100).run platform true).run 10 waiting).1 = .done 0 := by decide +kernel
  have hclosed : (((Op.yield_ 100).run platform true).run 10 waiting).2.self.isconnected = false := by decide +kernel
  have hreturns := Prog.Returns.of_run 10 hrun
  obtain ⟨log, hevents, hiff⟩ := open_iff_listed reads rfl hreturns (Int.le_refl 0)
  refine ⟨_, hreturns, hclosed, ?_⟩
  by_contra hnone
  refine absurd (hiff.mpr ⟨rfl, fun readbuf hmem => ?_⟩) (by rw [hclosed]; decide)
  by_contra hunlisted
  refine hnone ⟨readbuf, ?_, Bool.eq_false_iff.mpr hunlisted⟩
  rw [hevents]
  refine List.mem_append_right _ ?_
  obtain ⟨e, he, heq⟩ := List.mem_filterMap.mp hmem
  cases e <;> simp at heq
  exact heq ▸ he

end TalkDemo

end FEmbed
