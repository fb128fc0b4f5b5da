/-
Messages with QoS 2, from their PUBLISH to the PUBCOMP.

The ids of the messages that were delivered are in a table with some places,
from the delivery to the PUBCOMP. A message that finds no place is acknowledged
like the others, and is never delivered.
-/
import FEmbedLwip.MQTTCleanSessions
import FEmbedLwip.MQTTCodec
import Mathlib.Data.List.Infix

namespace FEmbed

open Live

/-! ## Messages on the wire -/

/-- A message with QoS 2, as a PUBLISH carries it. -/
structure Publication where
  dup : Bool
  retained : Bool
  id : Nat
  topicName : Bytes
  payload : Bytes
  deriving DecidableEq, Repr

namespace Publication

/-- Its PUBLISH. -/
def packet (m : Publication) : Packet := .publish m.dup 2 m.retained (some m.id) m.topicName m.payload

/-- The bytes of its PUBLISH. -/
def bytes (m : Publication) : Bytes := MQTTPacket.frame m.packet.first m.packet.body

/-- What `deliverMessage` is given for it. -/
def content (m : Publication) : MQTTLenString × Message :=
  ({ len := m.topicName.length, data := some m.topicName },
    { qos := 2, retained := m.retained, dup := m.dup, id := m.id, payload := m.payload, payloadlen := m.payload.length })

/-- What its PUBLISH has to fit in. -/
structure Writable (m : Publication) : Prop where
  id : m.id < 65536
  topicName : m.topicName.length < 65536
  rest : m.packet.body.length < 268435456

instance (m : Publication) : Decidable m.Writable :=
  decidable_of_iff (m.id < 65536 ∧ m.topicName.length < 65536 ∧ m.packet.body.length < 268435456)
    ⟨fun h => ⟨h.1, h.2.1, h.2.2⟩, fun h => ⟨h.id, h.topicName, h.rest⟩⟩

theorem Writable.sound {m : Publication} (h : m.Writable) : m.packet.Sound true 0 :=
  ⟨⟨⟨(by decide), by simp, h.id, h.topicName⟩, Nat.le_refl 0, h.rest⟩, trivial⟩

/-- The message whose PUBLISH a packet is. -/
def ofBytes (packet : Bytes) : Option Publication :=
  match Packet.parse true 0 packet packet.length with
  | some (some (.publish dup 2 retained (some id) topicName payload)) =>
    let m : Publication := { dup := dup, retained := retained, id := id, topicName := topicName, payload := payload }
    if m.Writable ∧ m.bytes = packet then some m else none
  | _ => none

theorem ofBytes_eq_some {packet : Bytes} {m : Publication} : ofBytes packet = some m ↔ m.Writable ∧ m.bytes = packet := by
  constructor
  · intro h
    unfold ofBytes at h
    split at h
    · dsimp only at h
      split at h
      · rename_i hm
        obtain rfl := Option.some.inj h
        exact hm
      · exact nomatch h
    · exact nomatch h
  · rintro ⟨hw, rfl⟩
    have hparse := Packet.parse_sound hw.sound []
    rw [List.append_nil] at hparse
    have hbytes : Packet.parse true 0 m.bytes m.bytes.length = some (some m.packet) := hparse
    unfold ofBytes
    rw [hbytes]
    exact if_pos ⟨hw, rfl⟩

/-- What a client makes of its PUBLISH, whatever follows it in the buffer. -/
theorem Writable.read {m : Publication} (h : m.Writable) {rest : Bytes} {pub : MQTTPacket.Publish}
    (hpub : MQTTPacket.deserializePublish (m.bytes ++ rest) = some pub) {msg : Message}
    (htells : MQTTClient.Tells pub (m.bytes ++ rest) msg) : (pub.topicName, msg) = m.content := by
  obtain ⟨i, hread, hpayload⟩ := Packet.deserializePublish_framed h.sound.fields (MQTTPacket.framed h.rest rest)
  obtain rfl := Option.some.inj (hpub.symm.trans hread)
  have hlen : sizeT (m.payload.length : Int) = m.payload.length := by
    have hrest := h.rest
    refine sizeT_natCast ?_
    simp only [packet, Packet.body, List.length_append] at hrest
    omega
  obtain ⟨hqos, hretained, hdup, hid, hdata, hsize⟩ := htells
  replace hid := hid m.id rfl
  replace hdata := hdata i rfl
  rw [hlen] at hsize hdata
  obtain ⟨qos, retained, dup, id, payload, payloadlen⟩ := msg
  dsimp only at hqos hretained hdup hid hdata hsize
  rw [hqos, hretained, hdup, hid, hdata, hsize, content]
  exact congrArg (fun payload => (_, Message.mk 2 _ _ _ payload _)) hpayload

end Publication

namespace MQTTClient

variable {σ T : Type} {p : MQTTPlatform σ T} {charSigned : Bool}

/-! ## Ids in the history -/

/-- A PUBLISH with QoS 2. -/
def IsQos2 (packet : Bytes) : Prop := packetType packet = MsgType.publish.code ∧ MQTTPacket.headerQos (packet.headD 0) = 2

instance (packet : Bytes) : Decidable (IsQos2 packet) := inferInstanceAs (Decidable (_ ∧ _))

/-- The id in an acknowledgement that is sent. -/
def sentId (type : MsgType) : MQTTEvent σ → Option Nat
  | .sent packet _ => if packetType packet = type.code then ackId packet else none
  | _ => none

/-- A message with QoS 2 that is delivered. -/
def delivered : MQTTEvent σ → Option (MQTTLenString × Message)
  | .delivered topicName msg => if msg.qos = 2 then some (topicName, msg) else none
  | _ => none

/-- A message with QoS 2 that is received. -/
def published : MQTTEvent σ → Option Publication
  | .received packet _ => Publication.ofBytes packet
  | _ => none

/-- One more event; a PUBCOMP for the id is a new start, and so is a new session. -/
def sinceCompAfter {α : Type} (id : Nat) (f : MQTTEvent σ → Option α) (xs : List α) (ev : MQTTEvent σ) : List α :=
  if isCleaned ev ∨ sentId .pubcomp ev = some id then [] else xs ++ (f ev).toList

/-- What the events since the last PUBCOMP for an id give, in this session. -/
def sinceComp {α : Type} (id : Nat) (f : MQTTEvent σ → Option α) (log : List (MQTTEvent σ)) : List α :=
  log.foldl (sinceCompAfter id f) []

/-- The messages that were delivered under an id. -/
def deliveries (id : Nat) (log : List (MQTTEvent σ)) : List (MQTTLenString × Message) :=
  sinceComp id (fun ev => (delivered ev).filter (·.2.id = id)) log

/-- The messages that were published under an id; all but the first are retransmissions. -/
def publications (id : Nat) (log : List (MQTTEvent σ)) : List Publication :=
  sinceComp id (fun ev => (published ev).filter (·.id = id)) log

/-- What was published under the id was delivered, once. -/
def DeliveredOnce (id : Nat) (log : List (MQTTEvent σ)) : Prop := ∃ m ∈ publications id log, deliveries id log = [m.content]

instance (id : Nat) (log : List (MQTTEvent σ)) : Decidable (DeliveredOnce id log) := inferInstanceAs (Decidable (∃ m ∈ _, _))

def outstandingAfter (ids : List Nat) (ev : MQTTEvent σ) : List Nat :=
  if isCleaned ev then []
  else
    match published ev, sentId .pubcomp ev with
    | some m, _ => ids.insert m.id
    | none, some id => ids.erase id
    | none, none => ids

/-- The ids that messages with QoS 2 came with, and no PUBCOMP was sent for. -/
def outstanding (log : List (MQTTEvent σ)) : List Nat := log.foldl outstandingAfter []

section SinceComp

variable {α : Type} {id : Nat} {f : MQTTEvent σ → Option α} {log : List (MQTTEvent σ)} {ev : MQTTEvent σ}

theorem sinceComp_snoc : sinceComp id f (log ++ [ev]) = sinceCompAfter id f (sinceComp id f log) ev := List.foldl_concat ..

theorem sinceComp_kept (hcleaned : isCleaned ev = false) (hcomp : sentId .pubcomp ev ≠ some id) :
    sinceComp id f (log ++ [ev]) = sinceComp id f log ++ (f ev).toList := by
  rw [sinceComp_snoc, sinceCompAfter, hcleaned, if_neg (by simpa using hcomp)]

theorem sinceComp_same (hcleaned : isCleaned ev = false) (hcomp : sentId .pubcomp ev ≠ some id) (hf : f ev = none) :
    sinceComp id f (log ++ [ev]) = sinceComp id f log := by
  rw [sinceComp_kept hcleaned hcomp, hf, Option.toList_none, List.append_nil]

theorem sinceComp_released (hcomp : sentId .pubcomp ev = some id) : sinceComp id f (log ++ [ev]) = [] := by
  rw [sinceComp_snoc, sinceCompAfter, if_pos (.inr hcomp)]

end SinceComp

theorem outstanding_snoc {log : List (MQTTEvent σ)} {ev : MQTTEvent σ} :
    outstanding (log ++ [ev]) = outstandingAfter (outstanding log) ev := List.foldl_concat ..

/-- A PUBLISH with QoS 2 is that of a message, and a PUBREL has its id. -/
def Carries : MQTTEvent σ → Prop
  | .received packet _ => (IsQos2 packet → (Publication.ofBytes packet).isSome) ∧
      (packetType packet = MsgType.pubrel.code → (ackId packet).isSome)
  | _ => True

instance : (ev : MQTTEvent σ) → Decidable (Carries ev)
  | .received .. => inferInstanceAs (Decidable (_ ∧ _))
  | .sent .. | .cutShort _ | .delivered .. | .called .. | .cleaned | .closed _ => .isTrue trivial

/-- What came is what it should be, and the table has had a place for each id that is outstanding. -/
structure Fits (p : MQTTPlatform σ T) (log : List (MQTTEvent σ)) : Prop where
  carried : ∀ ev ∈ log, Carries ev
  room : ∀ before, before <+: log → (outstanding before).length ≤ p.maxIncomingQoS2Messages

instance (log : List (MQTTEvent σ)) : Decidable (Fits p log) :=
  decidable_of_iff ((∀ ev ∈ log, Carries ev) ∧ ∀ before ∈ log.inits, (outstanding before).length ≤ p.maxIncomingQoS2Messages)
    ⟨fun h => ⟨h.1, fun before hb => h.2 before ((List.mem_inits ..).mpr hb)⟩,
      fun h => ⟨h.carried, fun before hb => h.room before ((List.mem_inits ..).mp hb)⟩⟩

theorem Fits.left {log log' : List (MQTTEvent σ)} (h : Fits p (log ++ log')) : Fits p log :=
  ⟨fun ev hmem => h.carried ev (List.mem_append_left _ hmem), fun before hb => h.room before (hb.trans (List.prefix_append ..))⟩

/-! ## The table -/

theorem count_replaceFirst {old new : Nat} (hne : old ≠ new) {ids ids' : List Nat} (h : replaceFirst old new ids = some ids') (id : Nat) :
    ids'.count id + (if id = old then 1 else 0) = ids.count id + (if id = new then 1 else 0) := by
  induction ids generalizing ids' with
  | nil => exact nomatch h
  | cons i ids ih =>
    rw [replaceFirst] at h
    split at h
    · obtain rfl := Option.some.inj h
      subst i
      rw [List.count_cons, List.count_cons]
      by_cases h₁ : id = old
      · subst h₁
        simp [hne, Ne.symm hne]
      · by_cases h₂ : id = new
        · subst h₂
          simp [hne, h₁]
        · simp [h₁, h₂, Ne.symm h₁, Ne.symm h₂]
    · obtain ⟨ids'', hids, rfl⟩ := Option.map_eq_some_iff.mp h
      have := ih hids
      rw [List.count_cons, List.count_cons]
      omega

theorem replaceFirst_eq_none {old new : Nat} {ids : List Nat} : replaceFirst old new ids = none ↔ old ∉ ids := by
  induction ids with
  | nil => simp [replaceFirst]
  | cons i ids ih =>
    rw [replaceFirst]
    split
    · rename_i hi
      simp [hi]
    · rename_i hi
      rw [Option.map_eq_none_iff, ih, List.mem_cons, not_or]
      exact (and_iff_right fun h => hi h.symm).symm

theorem length_replaceFirst {old new : Nat} {ids ids' : List Nat} (h : replaceFirst old new ids = some ids') : ids'.length = ids.length := by
  induction ids generalizing ids' with
  | nil => exact nomatch h
  | cons i ids ih =>
    rw [replaceFirst] at h
    split at h
    · obtain rfl := Option.some.inj h
      rfl
    · obtain ⟨ids'', hids, rfl⟩ := Option.map_eq_some_iff.mp h
      rw [List.length_cons, List.length_cons, ih hids]

theorem replaceFirst_self {id : Nat} {ids : List Nat} : (replaceFirst id id ids).getD ids = ids := by
  induction ids with
  | nil => rfl
  | cons i ids ih =>
    rw [replaceFirst]
    split
    · rename_i hi
      rw [hi]
      rfl
    · cases hids : replaceFirst id id ids with
      | none => rfl
      | some ids' =>
        rw [hids, Option.getD_some] at ih
        rw [ih]
        rfl

theorem length_free {id : Nat} {ids : List Nat} : ((replaceFirst id 0 ids).getD ids).length = ids.length := by
  cases hids : replaceFirst id 0 ids with
  | none => rfl
  | some ids' => exact length_replaceFirst hids

theorem count_free {id i : Nat} {ids : List Nat} (hi : i ≠ 0) :
    ((replaceFirst id 0 ids).getD ids).count i = if i = id then ids.count i - 1 else ids.count i := by
  by_cases hid : id = 0
  · rw [hid, replaceFirst_self, if_neg hi]
  cases hids : replaceFirst id 0 ids with
  | none =>
    have hcount := List.count_eq_zero.mpr (replaceFirst_eq_none.mp hids)
    split
    · rename_i heq
      rw [heq, Option.getD_none, hcount]
    · rfl
  | some ids' =>
    have hcount := count_replaceFirst hid hids i
    rw [if_neg hi] at hcount
    rw [Option.getD_some]
    split at hcount
    · rw [if_pos ‹_›]
      omega
    · rw [if_neg ‹_›]
      omega

/-- The table holds the ids whose message was delivered, each once, as it was published. -/
structure Booked (p : MQTTPlatform σ T) (log : List (MQTTEvent σ)) (ids : List Nat) : Prop where
  places : ids.length = p.maxIncomingQoS2Messages
  delivered : ∀ id, id ≠ 0 → (deliveries id log).length = ids.count id
  told : ∀ id, id ≠ 0 → ∀ x ∈ deliveries id log, ∃ m ∈ publications id log, x = m.content
  unique : ∀ id, id ≠ 0 → ids.count id ≤ 1
  offered : ∀ id ∈ ids, id ≠ 0 → id ∈ outstanding log

/-- A table with no place is one with too many ids outstanding, if there is one that it does not hold. -/
theorem Booked.has_place {log : List (MQTTEvent σ)} {ids : List Nat} (h : Booked p log ids) (hfits : Fits p log) {id : Nat}
    (hid : id ∈ outstanding log) (hnew : id ∉ ids) : 0 ∈ ids := by
  by_contra hfull
  have hnodup : (id :: ids).Nodup := by
    refine List.nodup_cons.mpr ⟨hnew, List.nodup_iff_count.mpr fun i => ?_⟩
    by_cases hi : i = 0
    · rw [hi, List.count_eq_zero.mpr hfull]
      exact Nat.zero_le 1
    · exact h.unique i hi
  have hsub : (id :: ids) ⊆ outstanding log := by
    intro i hi
    rcases List.mem_cons.mp hi with rfl | hi
    · exact hid
    · exact h.offered i hi fun hzero => hfull (hzero ▸ hi)
  have hle := (List.subperm_of_subset hnodup hsub).length_le
  have hroom := hfits.room log List.prefix_rfl
  rw [List.length_cons, h.places] at hle
  omega

/-- An id in the table is that of one delivery. -/
theorem Booked.once {log : List (MQTTEvent σ)} {ids : List Nat} (h : Booked p log ids) {id : Nat} (hid : id ≠ 0) (hmem : id ∈ ids) :
    DeliveredOnce id log := by
  have hone : (deliveries id log).length = 1 :=
    (h.delivered id hid).trans (Nat.le_antisymm (h.unique id hid) (List.count_pos_iff.mpr hmem))
  obtain ⟨x, hx⟩ := List.length_eq_one_iff.mp hone
  obtain ⟨m, hm, rfl⟩ := h.told id hid x (by simp [hx])
  exact ⟨m, hm, hx⟩

/-! ## What a stretch of the history does to the table -/

/-- From `ids` to `ids'` the table is kept, and a PUBREC is only sent for a message that was delivered, once. -/
structure Exact (p : MQTTPlatform σ T) (log evs : List (MQTTEvent σ)) (ids ids' : List Nat) : Prop where
  booked : Fits p (log ++ evs) → Booked p log ids → Booked p (log ++ evs) ids'
  once : Booked p log ids → ∀ before ev after id, evs = before ++ ev :: after → sentId .pubrec ev = some id → id ≠ 0 →
    Fits p (log ++ before) → DeliveredOnce id (log ++ before)

/-- A stretch, and one that follows it. -/
theorem Exact.append {log evs evs' : List (MQTTEvent σ)} {ids ids' ids'' : List Nat} (h : Exact p log evs ids ids')
    (h' : Fits p (log ++ evs) → Booked p log ids → Exact p (log ++ evs) evs' ids' ids'') : Exact p log (evs ++ evs') ids ids'' := by
  refine ⟨fun hfits hb => ?_, fun hb before ev after id heq hsent hid hfits => ?_⟩
  · rw [← List.append_assoc] at hfits ⊢
    exact (h' hfits.left hb).booked hfits (h.booked hfits.left hb)
  · rcases List.append_eq_append_iff.mp heq with ⟨mid, rfl, hevs'⟩ | ⟨mid, hevs, hafter⟩
    · rw [← List.append_assoc] at hfits ⊢
      exact (h' hfits.left hb).once (h.booked hfits.left hb) mid ev after id hevs' hsent hid hfits
    · cases mid with
      | nil =>
        rw [List.append_nil] at hevs
        subst hevs
        have hfits' : Fits p ((log ++ evs) ++ []) := by rwa [List.append_nil]
        have honce := (h' hfits hb).once (h.booked hfits hb) [] ev after id hafter.symm hsent hid hfits'
        rwa [List.append_nil] at honce
      | cons ev₀ mid =>
        obtain ⟨rfl, _⟩ := List.cons.inj hafter
        exact h.once hb before ev mid id hevs hsent hid hfits

theorem Exact.refl {log : List (MQTTEvent σ)} {ids : List Nat} : Exact p log [] ids ids :=
  ⟨fun _ hb => by rwa [List.append_nil], fun _ before ev after id heq => absurd heq (by simp)⟩

theorem singleton_split {α : Type} {a a' : α} {before after : List α} (h : [a] = before ++ a' :: after) : before = [] ∧ a' = a := by
  cases before with
  | nil => exact ⟨rfl, (List.cons.inj h).1.symm⟩
  | cons _ before => exact absurd (List.cons.inj h).2 (by simp)

/-- One event that is no PUBREC. -/
theorem Exact.single {log : List (MQTTEvent σ)} {ev : MQTTEvent σ} {ids ids' : List Nat} (hrec : sentId .pubrec ev = none)
    (hb : Fits p (log ++ [ev]) → Booked p log ids → Booked p (log ++ [ev]) ids') : Exact p log [ev] ids ids' := by
  refine ⟨hb, fun _ before ev' after id heq hsent => ?_⟩
  obtain ⟨_, rfl⟩ := singleton_split heq
  exact absurd (hrec.symm.trans hsent) (by simp)

/-- Of no interest here. -/
structure Neutral (ev : MQTTEvent σ) : Prop where
  cleaned : isCleaned ev = false
  pubrec : sentId .pubrec ev = none
  pubcomp : sentId .pubcomp ev = none
  delivered : delivered ev = none
  published : published ev = none

/-- An event that is no PUBCOMP and brings no delivery leaves the table as it is booked. -/
theorem Booked.kept {log : List (MQTTEvent σ)} {ev : MQTTEvent σ} {ids : List Nat} (h : Booked p log ids) (hcleaned : isCleaned ev = false)
    (hcomp : sentId .pubcomp ev = none) (hdel : MQTTClient.delivered ev = none) : Booked p (log ++ [ev]) ids := by
  have hne {i : Nat} : sentId .pubcomp ev ≠ some i := by simp [hcomp]
  have hsame (i : Nat) : deliveries i (log ++ [ev]) = deliveries i log := sinceComp_same hcleaned hne (by rw [hdel]; rfl)
  refine ⟨h.places, fun i hi => ?_, fun i hi x hx => ?_, h.unique, fun i hmem hi => ?_⟩
  · rw [hsame, h.delivered i hi]
  · rw [hsame] at hx
    obtain ⟨m, hm, hcontent⟩ := h.told i hi x hx
    refine ⟨m, ?_, hcontent⟩
    rw [publications, sinceComp_kept hcleaned hne]
    exact List.mem_append_left _ hm
  · have hold := h.offered i hmem hi
    rw [outstanding_snoc, outstandingAfter, hcleaned, hcomp]
    cases published ev with
    | none => exact hold
    | some m => exact List.mem_insert_of_mem hold

theorem Exact.neutral {log evs : List (MQTTEvent σ)} {ids : List Nat} (h : ∀ ev ∈ evs, Neutral ev) : Exact p log evs ids ids := by
  induction evs generalizing log with
  | nil => exact .refl
  | cons ev evs ih =>
    obtain ⟨hcleaned, hrec, hcomp, hdel, -⟩ := h ev (.head _)
    have hone : Exact p log [ev] ids ids := .single hrec fun _ hb => hb.kept hcleaned hcomp hdel
    exact hone.append fun _ _ => ih fun ev hev => h ev (.tail _ hev)

/-- What arrives may be a message, and then its id is outstanding. -/
theorem PacketRead.exact {s u : Live σ (MQTTClient σ T)} {code : Int} {arr log : List (MQTTEvent σ)} {ids : List Nat}
    (h : PacketRead p s code arr u) : Exact p log arr ids ids := by
  cases h with
  | nothing => exact .refl
  | cutShort =>
    refine .neutral fun ev hev => ?_
    obtain rfl := List.mem_singleton.mp hev
    exact ⟨rfl, rfl, rfl, rfl, rfl⟩
  | packet => exact .single rfl fun _ hb => hb.kept rfl rfl rfl

theorem sentId_ack {type type' : MsgType} {id : Nat} {bs : Bytes} {e : σ} (hid : id < 65536)
    (h : MQTTPacket.serializeAck p.maxMqttPacketSize type false id = .ok bs) :
    sentId type' (.sent bs e) = if type = type' then some id else none := by
  have htype : packetType bs = type.code := MQTTPacket.serializeAck_type h
  rw [sentId, htype]
  by_cases heq : type = type'
  · rw [if_pos (by rw [heq]), if_pos heq]
    exact MQTTPacket.deserializeAck_serializeAck hid h
  · rw [if_neg fun hcode => heq (MsgType.code_inj hcode), if_neg heq]

/-- A packet that is sent, and is neither a PUBREC nor a PUBCOMP. -/
theorem Neutral.sent {bs : Bytes} {e : σ} (hrec : packetType bs ≠ MsgType.pubrec.code) (hcomp : packetType bs ≠ MsgType.pubcomp.code) :
    Neutral (.sent bs e) := ⟨rfl, if_neg hrec, if_neg hcomp, rfl, rfl⟩

theorem Answered.neutral {type : MsgType} (hrec : type ≠ .pubrec) (hcomp : type ≠ .pubcomp) {id : Nat} {acks : List (MQTTEvent σ)}
    {r : CycleExit} (h : Answered p type id acks r) : ∀ ev ∈ acks, Neutral ev := by
  cases h with
  | sent hbs =>
    intro ev hev
    obtain rfl := List.mem_singleton.mp hev
    have htype := MQTTPacket.serializeAck_type hbs
    exact .sent (fun h => hrec (MsgType.code_inj (htype.symm.trans h))) fun h => hcomp (MsgType.code_inj (htype.symm.trans h))
  | failed => exact fun _ hev => nomatch hev

/-- A PUBCOMP is sent for an id, and its place is free again. -/
theorem Answered.exact_pubcomp {id : Nat} {acks log : List (MQTTEvent σ)} {r : CycleExit} {ids : List Nat} (hid : Fits p log → id < 65536)
    (h : Answered p .pubcomp id acks r) : Exact p log acks ids
      (match r with
        | .ok () => (replaceFirst id 0 ids).getD ids
        | .error _ => ids) := by
  cases h with
  | failed => exact .refl
  | @sent bs e hbs =>
    have hsent (hfits : Fits p log) : sentId .pubcomp (.sent bs e) = some id := by rw [sentId_ack (hid hfits) hbs, if_pos rfl]
    have hrec : sentId .pubrec (.sent bs e) = none := by
      have htype : packetType bs = MsgType.pubcomp.code := MQTTPacket.serializeAck_type hbs
      exact if_neg (by rw [htype]; decide)
    refine .single hrec fun hfits hb => ?_
    have hcomp := hsent hfits.left
    have hreleased {α : Type} (f : MQTTEvent σ → Option α) : sinceComp id f (log ++ [.sent bs e]) = [] := sinceComp_released hcomp
    have hsame {α : Type} {i : Nat} (hne : i ≠ id) {f : MQTTEvent σ → Option α} (hf : f (.sent bs e) = none) :
        sinceComp i f (log ++ [.sent bs e]) = sinceComp i f log :=
      sinceComp_same rfl (by rw [hcomp]; exact fun h => hne (Option.some.inj h).symm) hf
    refine ⟨length_free.trans hb.places, fun i hi => ?_, fun i hi x hx => ?_, fun i hi => ?_, fun i hmem hi => ?_⟩
    · rw [count_free hi]
      by_cases heq : i = id
      · have hle := hb.unique i hi
        rw [if_pos heq, heq, deliveries, hreleased, List.length_nil]
        rw [heq] at hle
        omega
      · rw [if_neg heq, deliveries, hsame heq rfl]
        exact hb.delivered i hi
    · by_cases heq : i = id
      · rw [heq, deliveries, hreleased] at hx
        exact nomatch hx
      · rw [deliveries, hsame heq rfl] at hx
        rw [publications, hsame heq rfl]
        exact hb.told i hi x hx
    · rw [count_free hi]
      have hle := hb.unique i hi
      split
      · omega
      · exact hle
    · have hpos := List.count_pos_iff.mpr hmem
      rw [count_free hi] at hpos
      split at hpos
      · have hle := hb.unique i hi
        omega
      · rename_i hne
        rw [outstanding_snoc, outstandingAfter, hcomp]
        exact (List.mem_erase_of_ne hne).mpr (hb.offered i (List.count_pos_iff.mp hpos) hi)

/-- A PUBREC is sent for an id that is in the table. -/
theorem Answered.exact_pubrec {id : Nat} {acks log : List (MQTTEvent σ)} {r : CycleExit} {ids : List Nat} (hid : id < 65536)
    (hmem : id ∈ ids) (h : Answered p .pubrec id acks r) : Exact p log acks ids ids := by
  cases h with
  | failed => exact .refl
  | @sent bs e hbs =>
    have hcomp : sentId .pubcomp (.sent bs e) = none := by rw [sentId_ack hid hbs, if_neg (by decide)]
    refine ⟨fun _ hb => hb.kept rfl hcomp rfl, fun hb before ev after i heq hsent hi _ => ?_⟩
    obtain ⟨rfl, rfl⟩ := singleton_split heq
    rw [sentId_ack hid hbs, if_pos rfl] at hsent
    obtain rfl := Option.some.inj hsent
    rw [List.append_nil]
    exact hb.once hi hmem

/-- The message has come with its id, and no PUBCOMP was sent for it. -/
structure Offered (log : List (MQTTEvent σ)) (topicName : MQTTLenString) (msg : Message) : Prop where
  short : msg.id < 65536
  unreleased : msg.id ∈ outstanding log
  published : ∃ m ∈ publications msg.id log, (topicName, msg) = m.content

/-- A message is delivered and takes a place, or nothing is done for it. -/
theorem Taken.exact {topicName : MQTTLenString} {msg : Message} {ids ids' : List Nat} {taken log : List (MQTTEvent σ)}
    (h : Taken topicName msg ids taken ids') (hoff : Fits p log → msg.qos = 2 → Offered log topicName msg) :
    Exact p log taken ids ids' := by
  cases h with
  | plain hqos =>
    refine .neutral fun ev hev => ?_
    obtain rfl := List.mem_singleton.mp hev
    exact ⟨rfl, rfl, rfl, if_neg hqos, rfl⟩
  | known => exact .refl
  | full => exact .refl
  | placed hqos hnew hids =>
    refine .single rfl fun hfits hb => ?_
    have hoffered := hoff hfits.left hqos
    have hzero : 0 ∈ ids := not_not.mp fun h => nomatch hids.symm.trans (replaceFirst_eq_none.mpr h)
    have hne : 0 ≠ msg.id := fun h => hnew (h ▸ hzero)
    have hcomp {i : Nat} : sentId .pubcomp (.delivered topicName msg : MQTTEvent σ) ≠ some i := by simp [sentId]
    have hdel : delivered (.delivered topicName msg : MQTTEvent σ) = some (topicName, msg) := if_pos hqos
    have hsame (i : Nat) : publications i (log ++ [.delivered topicName msg]) = publications i log := sinceComp_same rfl hcomp rfl
    have hdeliveries (i : Nat) : deliveries i (log ++ [.delivered topicName msg]) =
        deliveries i log ++ if msg.id = i then [(topicName, msg)] else [] := by
      rw [deliveries, sinceComp_kept rfl hcomp, hdel]
      by_cases heq : msg.id = i
      · simp [Option.filter, heq, deliveries]
      · simp [Option.filter, heq, deliveries]
    have hcount {i : Nat} (hi : i ≠ 0) : ids'.count i = ids.count i + if i = msg.id then 1 else 0 := by
      have := count_replaceFirst hne hids i
      rwa [if_neg hi] at this
    refine ⟨(length_replaceFirst hids).trans hb.places, fun i hi => ?_, fun i hi x hx => ?_, fun i hi => ?_, fun i hmem hi => ?_⟩
    · rw [hdeliveries, List.length_append, hb.delivered i hi, hcount hi]
      by_cases heq : i = msg.id
      · rw [if_pos heq, if_pos heq.symm, List.length_singleton]
      · rw [if_neg heq, if_neg (Ne.symm heq), List.length_nil]
    · rw [hsame]
      rw [hdeliveries] at hx
      rcases List.mem_append.mp hx with hx | hx
      · exact hb.told i hi x hx
      · split at hx
        · rename_i heq
          obtain rfl := List.mem_singleton.mp hx
          exact heq ▸ hoffered.published
        · exact nomatch hx
    · rw [hcount hi]
      by_cases heq : i = msg.id
      · rw [if_pos heq, heq, List.count_eq_zero.mpr hnew]
      · rw [if_neg heq]
        exact hb.unique i hi
    · rw [outstanding_snoc, outstandingAfter]
      rcases mem_of_replaceFirst hids i hmem with rfl | hmem
      · exact hoffered.unreleased
      · exact hb.offered i hmem hi

/-- A message that was delivered has its id in the table, where there was room for it. -/
theorem Taken.mem {topicName : MQTTLenString} {msg : Message} {ids ids' : List Nat} {taken log : List (MQTTEvent σ)}
    (h : Taken topicName msg ids taken ids') (hqos : msg.qos = 2) (hoff : msg.id ∈ outstanding log) (hfits : Fits p log)
    (hb : Booked p log ids) : msg.id ∈ ids' := by
  have placed {ids ids' : List Nat} (hids : replaceFirst 0 msg.id ids = some ids') : msg.id ∈ ids' := by
    induction ids generalizing ids' with
    | nil => exact nomatch hids
    | cons i ids ih =>
      rw [replaceFirst] at hids
      split at hids
      · rw [← Option.some.inj hids]
        exact .head _
      · obtain ⟨ids'', hids'', rfl⟩ := Option.map_eq_some_iff.mp hids
        exact .tail _ (ih hids'')
  cases h with
  | plain hne => exact absurd hqos hne
  | placed _ _ hids => exact placed hids
  | known _ hold => exact hold
  | full _ hnew hfull => exact absurd (hb.has_place hfits hoff hnew) (replaceFirst_eq_none.mp hfull)

/-- What the `switch` does is exact, where the packet in the buffer is what it should be. -/
theorem Served.exact {readbuf : Bytes} {ids ids' : List Nat} {code : Int} {evs log : List (MQTTEvent σ)} {r : CycleExit}
    (h : Served p readbuf ids code evs ids' r)
    (hpub : ∀ pub msg, Fits p log → code = MsgType.publish.code → MQTTPacket.deserializePublish readbuf = some pub →
      Tells pub readbuf msg → msg.qos = 2 → Offered log pub.topicName msg)
    (hrel : ∀ ack, Fits p log → code = MsgType.pubrel.code → MQTTPacket.deserializeAck readbuf = some ack →
      ∃ id, ack.packetid = some id ∧ id < 65536) : Exact p log evs ids ids' := by
  cases h with
  | idle => exact .refl
  | unlisted => exact .refl
  | unread => exact .refl
  | @publish pub msg taken _ calls acks _ hread hrc htells htaken hcalls hack =>
    have hoff (hfits : Fits p log) (htwo : msg.qos = 2) : Offered log pub.topicName msg := hpub pub msg hfits rfl hread htells htwo
    have hstart : Exact p log taken ids ids' := htaken.exact hoff
    have hcalled : ∀ ev ∈ calls, Neutral ev := by
      intro ev hev
      obtain ⟨_, _, _, rfl⟩ := hcalls ev hev
      exact ⟨rfl, rfl, rfl, rfl, rfl⟩
    refine hstart.append fun hfits hb => .append (.neutral hcalled) fun _ _ => ?_
    cases hack with
    | none => exact .refl
    | bad => exact .refl
    | @answered type _ _ htype hans =>
      by_cases htwo : msg.qos = 2
      · rw [answerTo, if_neg (by rw [htwo]; decide), if_pos htwo] at htype
        obtain rfl := Option.some.inj htype
        have hoffered := hoff hfits.left htwo
        exact hans.exact_pubrec hoffered.short (htaken.mem htwo hoffered.unreleased hfits.left hb)
      · refine .neutral (hans.neutral ?_ ?_)
        · rintro rfl
          rw [answerTo, if_neg htwo] at htype
          split at htype
          · cases htype
          · cases htype
        · rintro rfl
          rw [answerTo, if_neg htwo] at htype
          split at htype
          · cases htype
          · cases htype
  | pubrec _ _ hans => exact .neutral (hans.neutral (by decide) (by decide))
  | @pubrel ack id acks r hread hid hans =>
    refine hans.exact_pubcomp fun hfits => ?_
    obtain ⟨id', hsome, hlt⟩ := hrel ack hfits rfl hread
    rw [hid id' hsome]
    exact hlt

theorem Exact.one {log : List (MQTTEvent σ)} {ev : MQTTEvent σ} {ids : List Nat} (h : Neutral ev) : Exact p log [ev] ids ids :=
  .neutral fun ev' hev => by rwa [List.mem_singleton.mp hev]

theorem headD_append {bs : Bytes} (h : packetType bs ≠ 0) (rest : Bytes) : (bs ++ rest).headD 0 = bs.headD 0 := by
  cases bs with
  | nil => exact absurd rfl h
  | cons b bs => rfl

/-- A message in the buffer is the one that was published last. -/
theorem PacketRead.publish {s u : Live σ (MQTTClient σ T)} {code : Int} {arr log : List (MQTTEvent σ)} (h : PacketRead p s code arr u)
    {pub : MQTTPacket.Publish} {msg : Message} (hfits : Fits p (log ++ arr)) (hcode : code = MsgType.publish.code)
    (hpub : MQTTPacket.deserializePublish u.self.readbuf = some pub) (htells : Tells pub u.self.readbuf msg) (hqos : msg.qos = 2) :
    Offered (log ++ arr) pub.topicName msg := by
  cases h with
  | nothing hrc => exact absurd hrc (by rw [hcode]; decide)
  | cutShort => exact absurd hcode (by decide)
  | @packet bs rest e =>
    have htype : packetType bs = MsgType.publish.code := Int.ofNat_inj.mp hcode
    have hhead := headD_append (by rw [htype]; decide) rest
    have hqos2 : IsQos2 bs := by
      refine ⟨htype, ?_⟩
      rw [← hhead, ← MQTTPacket.deserializePublish_qos hpub (by rw [hhead]; exact htype), ← htells.qos]
      exact hqos
    obtain ⟨m, hm⟩ := Option.isSome_iff_exists.mp ((hfits.carried (.received bs e) (by simp)).1 hqos2)
    obtain ⟨hw, rfl⟩ := Publication.ofBytes_eq_some.mp hm
    have hcontent := hw.read hpub htells
    have hid : msg.id = m.id := congrArg (·.2.id) hcontent
    have hpublished : published (.received m.bytes e : MQTTEvent σ) = some m := hm
    refine ⟨by rw [hid]; exact hw.id, ?_, m, ?_, hcontent⟩
    · rw [outstanding_snoc, outstandingAfter, hpublished, hid]
      exact List.mem_insert_self
    · rw [publications, sinceComp_kept rfl (by simp [sentId]), hpublished, hid]
      simp [Option.filter]

/-- A PUBREL in the buffer carries the id of the one that was received last. -/
theorem PacketRead.pubrel {s u : Live σ (MQTTClient σ T)} {code : Int} {arr log : List (MQTTEvent σ)} (h : PacketRead p s code arr u)
    {ack : MQTTPacket.Ack} (hfits : Fits p (log ++ arr)) (hcode : code = MsgType.pubrel.code)
    (hack : MQTTPacket.deserializeAck u.self.readbuf = some ack) : ∃ id, ack.packetid = some id ∧ id < 65536 := by
  cases h with
  | nothing hrc => exact absurd hrc (by rw [hcode]; decide)
  | cutShort => exact absurd hcode (by decide)
  | @packet bs rest e =>
    obtain ⟨id, hid⟩ := Option.isSome_iff_exists.mp ((hfits.carried (.received bs e) (by simp)).2 (Int.ofNat_inj.mp hcode))
    obtain ⟨ack', hack', hsome⟩ := MQTTPacket.deserializeAck_of_id hid rest
    obtain rfl := Option.some.inj (hack.symm.trans hack')
    exact ⟨id, hsome, MQTTPacket.deserializeAck_id_lt hid⟩

theorem Attended.exact {s w : Live σ (MQTTClient σ T)} {code : Int} {r : CycleExit} {log : List (MQTTEvent σ)}
    (h : Attended p s code r w) : Exact p log (since s w) s.self.incomingQoS2messages w.self.incomingQoS2messages := by
  obtain @⟨arr, u, evs, ids, pings, hread, hserved, hpinged, hworked⟩ := h
  obtain ⟨_, hev, hin, _⟩ := hread.worked
  have hevents : w.self.events = s.self.events ++ (arr ++ (evs ++ pings)) := by rw [hworked.events, hev, List.append_assoc]
  rw [since_eq hevents, hworked.incoming, ← hin]
  have hserve : Exact p (log ++ arr) evs u.self.incomingQoS2messages ids :=
    hserved.exact (fun _ _ hfits hcode hpub htells hqos => hread.publish hfits hcode hpub htells hqos)
      fun _ hfits hcode hack => hread.pubrel hfits hcode hack
  have hping : Exact p ((log ++ arr) ++ evs) pings ids ids := by
    cases hpinged with
    | none => exact .refl
    | sent hbs =>
      have htype : packetType _ = MsgType.pingreq.code := MQTTPacket.serializeZero_type hbs
      exact .one (.sent (by rw [htype]; decide) (by rw [htype]; decide))
  exact hread.exact.append fun _ _ => hserve.append fun _ _ => hping

/-- The end of a session clears the table or leaves it. -/
theorem ended_exact (c : MQTTClient σ T) : ∃ evs, (ended c).events = c.events ++ evs ∧
    ∀ log, Exact p log evs c.incomingQoS2messages (ended c).incomingQoS2messages := by
  have hcleaned {log : List (MQTTEvent σ)} {ids : List Nat} : Exact p log [.cleaned] ids (ids.map fun _ => 0) := by
    have hzero {i : Nat} (hi : i ≠ 0) : (ids.map fun _ => 0).count i = 0 := List.count_eq_zero.mpr (by simp [hi])
    have hnone {α : Type} {i : Nat} (f : MQTTEvent σ → Option α) : sinceComp i f (log ++ [.cleaned]) = [] := by
      rw [sinceComp_snoc]
      exact if_pos (.inl rfl)
    refine .single rfl fun _ hb =>
      ⟨(List.length_map ..).trans hb.places, fun i hi => ?_, fun i hi x hx => ?_, fun i hi => ?_, fun i hmem hi => ?_⟩
    · rw [deliveries, hnone, hzero hi, List.length_nil]
    · rw [deliveries, hnone] at hx
      exact nomatch hx
    · rw [hzero hi]
      exact Nat.zero_le 1
    · exact absurd hmem (List.count_eq_zero.mp (hzero hi))
  have hclosed {log : List (MQTTEvent σ)} {ids : List Nat} {left : SessionState} : Exact p log [.closed left] ids ids :=
    .one ⟨rfl, rfl, rfl, rfl, rfl⟩
  unfold ended disconnected
  by_cases hclean : c.cleansession = true <;> by_cases hcon : c.isconnected = true
  · simp only [if_pos hclean, if_pos hcon]
    exact ⟨[.cleaned] ++ [.closed _], (List.append_assoc ..), fun log => hcleaned.append fun _ _ => hclosed⟩
  · simp only [if_pos hclean, if_neg hcon]
    exact ⟨_, rfl, fun _ => hcleaned⟩
  · simp only [if_neg hclean, if_pos hcon]
    exact ⟨_, rfl, fun _ => hclosed⟩
  · simp only [if_neg hclean, if_neg hcon]
    exact ⟨[], (List.append_nil _).symm, fun _ => .refl⟩

/-- What any step adds to the history is exact. -/
theorem Step.exact {made : ClientOp → Prop} {op : ClientOp} {s s' : Live σ (MQTTClient σ T)} (hb : Buffered p made s.self)
    (h : Step p op s s') : ∃ evs, s'.self.events = s.self.events ++ evs ∧
      ∀ log, Exact p log evs s.self.incomingQoS2messages s'.self.incomingQoS2messages := by
  have silent {c : MQTTClient σ T} {e : σ} (hev : c.events = s.self.events) (hids : c.incomingQoS2messages = s.self.incomingQoS2messages) :
      ∃ evs, (⟨c, e⟩ : Live σ (MQTTClient σ T)).self.events = s.self.events ++ evs ∧
        ∀ log, Exact p log evs s.self.incomingQoS2messages c.incomingQoS2messages :=
    ⟨[], by rw [List.append_nil]; exact hev, fun _ => hids ▸ .refl⟩
  have sent {c : MQTTClient σ T} {type : MsgType} {bs : Bytes} {e e' : σ} (hev : c.events = s.self.events ++ [.sent bs e])
      (htype : packetType bs = type.code) (hne : type ≠ .pubrec ∧ type ≠ .pubcomp)
      (hids : c.incomingQoS2messages = s.self.incomingQoS2messages) :
      ∃ evs, (⟨c, e'⟩ : Live σ (MQTTClient σ T)).self.events = s.self.events ++ evs ∧
        ∀ log, Exact p log evs s.self.incomingQoS2messages c.incomingQoS2messages := by
    have hneutral : Neutral (.sent bs e) := .sent (fun h => hne.1 (MsgType.code_inj (htype.symm.trans h)))
      fun h => hne.2 (MsgType.code_inj (htype.symm.trans h))
    exact ⟨_, hev, fun _ => hids ▸ .one hneutral⟩
  have began (id qos : Nat) (bs : Bytes) : (MQTTClient.begun s.self id qos bs).events = s.self.events ∧
      (MQTTClient.begun s.self id qos bs).incomingQoS2messages = s.self.incomingQoS2messages ∧
      (MQTTClient.begun s.self id qos bs).sendbuf = bs := by
    unfold MQTTClient.begun
    dsimp only
    split <;> exact ⟨rfl, rfl, rfl⟩
  cases h with
  | prepared => exact silent rfl rfl
  | options => exact silent rfl rfl
  | asked htype hbs =>
    refine sent rfl hbs ?_ rfl
    simp only [List.mem_cons, List.not_mem_nil, or_false] at htype
    rcases htype with rfl | rfl | rfl | rfl <;> decide
  | begun => exact silent (began ..).1 (began ..).2.1
  | @published id₀ qos _ _ _ bs _ _ _ _ hbs =>
    obtain ⟨hev, hids, hsend⟩ := began (publishedId s.self id₀ qos) qos bs
    have htype : packetType (MQTTClient.begun s.self (publishedId s.self id₀ qos) qos bs).sendbuf = MsgType.publish.code := by
      rw [hsend]
      exact MQTTPacket.serializePublish_type hbs
    exact sent (congrArg (· ++ _) hev) htype (by decide) hids
  | @released bs _ _ _ _ hbs =>
    have htype : packetType bs = MsgType.pubrel.code := MQTTPacket.serializeAck_type hbs
    exact sent rfl htype (by decide) rfl
  | resent _ hin =>
    obtain ⟨_, _, _, _, _, hbs⟩ := hb hin
    have htype : packetType (s.self.pubbuf.take s.self.inflightLen.toNat) = MsgType.publish.code := MQTTPacket.serializePublish_type hbs
    exact sent rfl htype (by decide) rfl
  | @turn e rc _ h =>
    cases h with
    | kept h => exact ⟨_, h.left.2.1, fun _ => h.exact⟩
    | @failed _ _ _ w h =>
      rw [shut]
      split
      · obtain ⟨evs, hev, hexact⟩ := ended_exact (p := p) w.self
        refine ⟨since ⟨s.self, e⟩ w ++ evs, ?_, fun _ => h.exact.append fun _ _ => hexact _⟩
        rw [← List.append_assoc, ← h.left.2.1]
        exact hev
      · exact ⟨_, h.left.2.1, fun _ => h.exact⟩
  | acknowledged =>
    unfold MQTTClient.acknowledged
    split
    · exact silent rfl rfl
    · exact silent rfl rfl
  | opened => exact silent rfl rfl
  | registered _ h =>
    rcases setHandler_returns h with ⟨_, rfl, _⟩ | ⟨_, i, e, _, rfl⟩
    · exact silent rfl rfl
    · exact silent rfl rfl
  | removed h =>
    obtain ⟨hs, rfl, _⟩ := removeHandler_filters h
    exact silent rfl rfl
  | defaulted => exact silent rfl rfl
  | ended => exact ended_exact s.self

/-! ## Runs -/

/-- **A PUBREC is sent for a message that was delivered as it was published,
once**, in any run, as long as the table has a place for each id that is
outstanding. -/
theorem delivered_once (hread : Reads p) {s s' : Live σ (MQTTClient σ T)} {cs : List (ClientCall σ T)}
    (h : Prog.Calls (ClientOp.run p charSigned) s cs s')
    (hids : s.self.incomingQoS2messages = List.replicate p.maxIncomingQoS2Messages 0) (hin : s.self.inflightMsgid = 0) :
    ∀ before ev after id, since s s' = before ++ ev :: after → sentId .pubrec ev = some id → id ≠ 0 → Fits p before →
      DeliveredOnce id before := by
  let Inv (t : Live σ (MQTTClient σ T)) : Prop := Buffered p (fun _ => True) t.self ∧
    ∃ evs, t.self.events = s.self.events ++ evs ∧ Exact p [] evs s.self.incomingQoS2messages t.self.incomingQoS2messages
  have hsteps {op : ClientOp} {t u : Live σ (MQTTClient σ T)} (hsteps : Steps p op t u) (hinv : Inv t) : Inv u := by
    induction hsteps with
    | refl => exact hinv
    | tail _ hstep ih =>
      obtain ⟨hbuf, evs, hev, hexact⟩ := ih
      obtain ⟨evs', hev', hexact'⟩ := hstep.exact hbuf
      refine ⟨hstep.buffered trivial hbuf, evs ++ evs', by rw [hev', hev, List.append_assoc], hexact.append fun _ _ => hexact' _⟩
  have hstart : Inv s := ⟨.of_zero hin, [], (List.append_nil _).symm, .refl⟩
  obtain ⟨_, evs, hev, hexact⟩ := (h.always (I := Inv) (fun _ hc hinv => hsteps (ClientOp.steps hread hc) hinv) hstart).2
  have hbooked : Booked p ([] : List (MQTTEvent σ)) s.self.incomingQoS2messages := by
    have hzero {i : Nat} (hi : i ≠ 0) : s.self.incomingQoS2messages.count i = 0 := by
      rw [hids, List.count_replicate, if_neg (by simpa using hi.symm)]
    refine ⟨by rw [hids, List.length_replicate], fun i hi => (hzero hi).symm, fun i _ x hx => (nomatch hx), fun i hi => ?_,
      fun i hmem hi => ?_⟩
    · rw [hzero hi]
      exact Nat.zero_le 1
    · exact absurd hmem (List.count_eq_zero.mp (hzero hi))
  rw [since_eq hev]
  exact fun before ev after id heq hsent hne hfits => hexact.once hbooked before ev after id heq hsent hne hfits

namespace Wire

/-- A message with QoS 2, as it comes for the first time or again. -/
def message (again : Bool) (id : Nat) (payload : UInt8) : Bytes :=
  Publication.bytes { dup := again, retained := false, id := id, topicName := [97], payload := [payload] }

def pubrelFor (id : UInt8) : Bytes := [98, 2, 0, id]

/-- What the client does when messages come with the `CONNACK`. -/
def heard (pieces : List Bytes) : List (MQTTEvent Script) :=
  since (start pieces) (calls pieces [connectOp true, .yield_ 1]).2

/-- A message that comes twice, and another one under its id when it was released. -/
def reused : List Bytes := [connack ++ message false 1 5 ++ message true 1 5 ++ pubrelFor 1 ++ message false 1 7]

theorem deliver_again : DeliveredOnce 1 ((heard reused).take 6) ∧ DeliveredOnce 1 ((heard reused).take 11) :=
  ⟨delivered_once reads (calls_run (by decide)) (by decide) (by decide) _ _ _ 1 (cut (by decide)) (by decide) (by decide) (by decide),
    delivered_once reads (calls_run (by decide)) (by decide) (by decide) _ _ _ 1 (cut (by decide)) (by decide) (by decide) (by decide)⟩

theorem deliver_none : ¬ ∀ cs s', Prog.Calls (ClientOp.run platform true) (start [connack ++ message false 1 5 ++ message false 2 5]) cs s' →
    ∀ before ev after id, since (start [connack ++ message false 1 5 ++ message false 2 5]) s' = before ++ ev :: after →
      sentId .pubrec ev = some id → id ≠ 0 → DeliveredOnce id before := by
  intro h
  have hnone : DeliveredOnce 2 ((heard [connack ++ message false 1 5 ++ message false 2 5]).take 6) :=
    h _ _ (calls_run (by decide)) _ _ _ 2 (cut (by decide)) (by decide) (by decide)
  exact absurd hnone (by decide)

end Wire

end MQTTClient

end FEmbed
