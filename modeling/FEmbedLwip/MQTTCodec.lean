/-
Packets, and the bytes they are written as.

`Packet` says what a packet carries, `serialize` and `parse` choose the function
of the library for it, and `Sendable` says what its fields hold. A packet that is
written is read back, whatever follows it in the buffer, but for a CONNECT whose
credentials the server's side refuses (`parse_serialize`). It fits in the buffer
it was written to, but for three types whose serializers count too few bytes
(`serialize_overruns_iff`).
-/
import FEmbedLwip.MQTTRoundTrips
import FEmbedLwip.MQTTFraming

namespace FEmbed

open Segments

/-- `enum msgTypes`, from its number. -/
def MsgType.ofCode (code : Nat) : Option MsgType :=
  [.connect, .connack, .publish, .puback, .pubrec, .pubrel, .pubcomp, .subscribe, .suback, .unsubscribe, .unsuback, .pingreq,
    .pingresp, .disconnect].find? (·.code = code)

@[simp] theorem MsgType.ofCode_code (type : MsgType) : ofCode type.code = some type := by
  cases type <;> decide

/-- What a packet carries. -/
inductive Packet where
  | connect (options : ConnectData)
  | connack (connackRc : Nat) (sessionPresent : Bool)
  | publish (dup : Bool) (qos : Nat) (retained : Bool) (packetid : Option Nat) (topicName payload : Bytes)
  /-- PUBACK, PUBREC, PUBREL or PUBCOMP. -/
  | ack (type : MsgType) (dup : Bool) (packetid : Nat)
  | subscribe (dup : Bool) (packetid : Nat) (subscriptions : List (MQTTString × Int))
  | suback (packetid : Nat) (grantedQoSs : List Int)
  | unsubscribe (dup : Bool) (packetid : Nat) (topicFilters : List MQTTString)
  | unsuback (packetid : Nat)
  /-- PINGREQ, PINGRESP or DISCONNECT. -/
  | zero (type : MsgType)
  deriving DecidableEq

namespace Packet

open MQTTPacket

/-- The packet as its serializer writes it. -/
def serialize (buflen : Nat) : Packet → Option (Except Int Bytes)
  | connect options => serializeConnect buflen options
  | connack connackRc sessionPresent => some (serializeConnack buflen connackRc sessionPresent)
  | publish dup qos retained packetid topicName payload =>
    some (serializePublish buflen dup qos retained (packetid.getD 0) topicName payload)
  | ack type dup packetid => some (serializeAck buflen type dup packetid)
  | subscribe dup packetid subscriptions => serializeSubscriptions buflen dup packetid subscriptions
  | suback packetid grantedQoSs => some (serializeSuback buflen packetid grantedQoSs)
  | unsubscribe dup packetid topicFilters => serializeUnsubscriptions buflen dup packetid topicFilters
  | unsuback packetid => some (serializeUnsuback buflen packetid)
  | zero type => some (serializeZero buflen type)

/-- What a packet is written as. -/
def Written (q : Packet) (bs : Bytes) : Prop := ∃ size, q.serialize size = some (.ok bs)

/-- What the deserializer for the type in the header makes of a buffer with
`length` bytes of data. -/
def parse (charSigned : Bool) (maxcount : Nat) (buf : Bytes) (length : Nat) : Option (Option Packet) := do
  match MsgType.ofCode (headerType (← buf[0]?)) with
  | none => return none
  | some .connect => return (← deserializeConnect {} buf length).map connect
  | some .connack =>
    let ack ← deserializeConnack buf
    return if ack.rc = 1 then ack.connackRc.bind fun rc => ack.sessionPresent.map (connack rc) else none
  | some .publish =>
    let pub ← deserializePublish buf
    return if pub.rc = 1 then
      pub.payload.bind fun i => pub.topicName.data.map fun topicName =>
        publish pub.dup pub.qos pub.retained pub.packetid topicName ((buf.drop i).take pub.payloadlen.toNat)
      else none
  | some .subscribe =>
    let s ← deserializeSubscribe charSigned maxcount buf
    return if s.rc = 1 then s.packetid.map fun packetid => subscribe s.dup packetid s.members else none
  | some .suback =>
    let s ← deserializeSuback charSigned maxcount buf
    return if s.rc = 1 then s.packetid.map fun packetid => suback packetid s.grantedQoSs else none
  | some .unsubscribe =>
    let s ← deserializeUnsubscribe maxcount buf
    return if s.rc = 1 then s.packetid.map fun packetid => unsubscribe s.dup packetid s.members else none
  | some .unsuback =>
    let a ← deserializeUnsuback buf
    return if a.rc = 1 then a.packetid.map unsuback else none
  | some .puback | some .pubrec | some .pubrel | some .pubcomp =>
    let a ← deserializeAck buf
    return if a.rc = 1 then
      (MsgType.ofCode a.packettype).bind fun type => a.packetid.map (ack type a.dup)
      else none
  | some .pingreq => return some (zero .pingreq)
  | some .pingresp => return some (zero .pingresp)
  | some .disconnect => return some (zero .disconnect)

/-- One topic filter is a list of one. -/
theorem serialize_filter {size id qos : Nat} {topicFilter bs : Bytes} (h : serializeSubscribe size false id topicFilter qos = .ok bs) :
    (subscribe false id [({ cstring := some topicFilter }, qos)]).serialize size = some (.ok bs) := by
  have hqos : UInt8.ofInt (qos : Int) = UInt8.ofNat qos := by
    have hmod : ((qos : Int) % 256).toNat = qos % 256 := by omega
    refine UInt8.toNat_inj.mp ?_
    rw [UInt8.ofInt, UInt8.toNat_ofNat', UInt8.toNat_ofNat', ← Nat.mod_mod_of_dvd qos (Nat.dvd_refl 256)]
    exact congrArg (· % 256) hmod
  have hmembers : writeMembers (fun x => writeSubscription x.1 x.2) [(({ cstring := some topicFilter } : MQTTString), (qos : Int))] =
      some (writeCString topicFilter ++ [UInt8.ofNat qos]) := by
    rw [← hqos]
    exact congrArg some (List.append_nil _)
  rw [serializeSubscribe] at h
  rw [serialize, serializeSubscriptions, hmembers]
  split at h
  · cases h
  · next hfit =>
    obtain rfl := Except.ok.inj h
    refine (if_neg hfit).trans ?_
    simp only [List.append_assoc]
    rfl

theorem serialize_unfilter {size id : Nat} {topicFilter bs : Bytes} (h : serializeUnsubscribe size false id topicFilter = .ok bs) :
    (unsubscribe false id [{ cstring := some topicFilter }]).serialize size = some (.ok bs) := by
  have hmembers : writeMembers writeMQTTString [({ cstring := some topicFilter } : MQTTString)] = some (writeCString topicFilter) :=
    congrArg some (List.append_nil _)
  rw [serializeUnsubscribe] at h
  rw [serialize, serializeUnsubscriptions, hmembers]
  split at h
  · cases h
  · next hfit =>
    obtain rfl := Except.ok.inj h
    exact (if_neg hfit).trans rfl

/-- As it is read: strings with their lengths, and a CONNECT without its version. -/
def seen : Packet → Packet
  | connect options => connect (seenConnect options {})
  | subscribe dup packetid subscriptions => subscribe dup packetid (subscriptions.map fun x => (x.1.seen, x.2))
  | unsubscribe dup packetid topicFilters => unsubscribe dup packetid (topicFilters.map MQTTString.seen)
  | p => p

/-! ## Frames -/

def type : Packet → MsgType
  | connect .. => .connect
  | connack .. => .connack
  | publish .. => .publish
  | ack type .. => type
  | subscribe .. => .subscribe
  | suback .. => .suback
  | unsubscribe .. => .unsubscribe
  | unsuback .. => .unsuback
  | zero type => type

/-- The header byte. -/
def first : Packet → UInt8
  | connect .. => header .connect false 0 false
  | connack .. => header .connack false 0 false
  | publish dup qos retained .. => header .publish dup qos retained
  | ack type dup _ => header type dup (if type = .pubrel then 1 else 0) false
  | subscribe dup .. => header .subscribe dup 1 false
  | suback .. => header .suback false 0 false
  | unsubscribe dup .. => header .unsubscribe dup 1 false
  | unsuback .. => header .unsuback false 0 false
  | zero type => header type false 0 false

/-- A topic filter with the QoS that is asked for. -/
def subscription (x : MQTTString × Int) : Bytes := writeCString x.1.text ++ [UInt8.ofInt x.2]

/-- What follows the remaining length. -/
def body : Packet → Bytes
  | connect options => connectBody options
  | connack connackRc sessionPresent => [if sessionPresent then 1 else 0, UInt8.ofNat connackRc]
  | publish _ qos _ packetid topicName payload =>
    writeCString topicName ++ ((if qos > 0 then writeInt (packetid.getD 0) else []) ++ payload)
  | ack _ _ packetid => writeInt packetid
  | subscribe _ packetid subscriptions => writeInt packetid ++ subscriptions.flatMap subscription
  | suback packetid grantedQoSs => writeInt packetid ++ grantedQoSs.map UInt8.ofInt
  | unsubscribe _ packetid topicFilters => writeInt packetid ++ topicFilters.flatMap fun topicFilter => writeCString topicFilter.text
  | unsuback packetid => writeInt packetid
  | zero _ => []

/-- The room that its serializer looks for. -/
def needed : Packet → Nat
  | connack .. | unsuback .. | zero .. => 2
  | suback _ grantedQoSs => 2 + grantedQoSs.length
  | ack .. => 4
  | p => len p.body.length

/-- A number that a `char` holds. -/
def CharRange (charSigned : Bool) (c : Int) : Prop := if charSigned then -128 ≤ c ∧ c < 128 else 0 ≤ c ∧ c < 256

/-- What the fields of each type hold. -/
def Fields (charSigned : Bool) : Packet → Prop
  | connect options => options.Sound
  | connack connackRc _ => connackRc < 256
  | publish _ qos _ packetid topicName _ =>
    qos < 4 ∧ (packetid = none ↔ qos = 0) ∧ packetid.getD 0 < 65536 ∧ topicName.length < 65536
  | ack type _ packetid => type ∈ [MsgType.puback, .pubrec, .pubrel, .pubcomp] ∧ packetid < 65536
  | subscribe _ packetid subscriptions => packetid < 65536 ∧ ∀ x ∈ subscriptions, x.1.Sound ∧ CharRange charSigned x.2
  | suback packetid grantedQoSs => packetid < 65536 ∧ ∀ c ∈ grantedQoSs, CharRange charSigned c
  | unsubscribe _ packetid topicFilters => packetid < 65536 ∧ ∀ topicFilter ∈ topicFilters, topicFilter.Sound
  | unsuback packetid => packetid < 65536
  | zero type => type ∈ [MsgType.pingreq, .pingresp, .disconnect]

/-- The members of a packet. -/
def count : Packet → Nat
  | subscribe _ _ subscriptions => subscriptions.length
  | suback _ grantedQoSs => grantedQoSs.length
  | unsubscribe _ _ topicFilters => topicFilters.length
  | _ => 0

/-- A packet whose fields are what MQTT has there, for a receiver with arrays of
`maxcount` members. -/
structure Sendable (charSigned : Bool) (maxcount : Nat) (p : Packet) : Prop where
  fields : p.Fields charSigned
  room : p.count ≤ maxcount
  rest : p.body.length < 268435456

/-- What is not refused: `MQTTDeserialize_connect` alone looks at more than the
form of its packet. -/
def Accepted : Packet → Prop
  | connect options => Credentials options
  | _ => True

instance (p : Packet) : Decidable p.Accepted :=
  match p with
  | connect options => inferInstanceAs (Decidable (Credentials options))
  | connack .. | publish .. | ack .. | subscribe .. | suback .. | unsubscribe .. | unsuback .. | zero .. =>
    inferInstanceAs (Decidable True)

/-- A packet that is sent and accepted. -/
structure Sound (charSigned : Bool) (maxcount : Nat) (p : Packet) : Prop extends p.Sendable charSigned maxcount where
  accepted : p.Accepted

/-! ## What is written -/

variable {charSigned : Bool} {maxcount : Nat} {p : Packet}

theorem foldl_size {β : Type} {f : β → Bytes} {size : β → Nat} {bs : List β} (h : ∀ b ∈ bs, size b = (f b).length) (n : Nat) :
    bs.foldl (fun len b => len + size b) n = n + (bs.flatMap f).length := by
  induction bs generalizing n with
  | nil => rfl
  | cons b bs ih =>
    rw [List.foldl_cons, ih (fun x hx => h x (List.mem_cons_of_mem b hx)), h b List.mem_cons_self, List.flatMap_cons,
      List.length_append, Nat.add_assoc]

theorem writeSubscription_sound {x : MQTTString × Int} (hx : x.1.Sound) : writeSubscription x.1 x.2 = some (subscription x) := by
  rw [writeSubscription, writeMQTTString_sound hx]
  rfl

/-- A serializer writes the frame of the packet, or finds that there is less
room than it looks for. -/
theorem serialize_sound (hp : p.Fields charSigned) (buflen : Nat) :
    p.serialize buflen = some (if p.needed > buflen then .error bufferTooShort else .ok (frame p.first p.body)) := by
  cases p with
  | connect options =>
    have hneeded : needed (connect options) = len (connectBody options).length := rfl
    rw [serialize, serializeConnect_sound hp, hneeded, length_connectBody hp]
    rfl
  | connack connackRc sessionPresent => rfl
  | publish dup qos retained packetid topicName payload =>
    have hlen : (body (publish dup qos retained packetid topicName payload)).length =
        2 + topicName.length + payload.length + (if qos > 0 then 2 else 0) := by
      simp only [body, List.length_append, length_writeCString]
      split
      · rw [length_writeInt]
        omega
      · rw [List.length_nil]
        omega
    have hneeded : needed (publish dup qos retained packetid topicName payload) =
      len (body (publish dup qos retained packetid topicName payload)).length := rfl
    rw [serialize, serializePublish, ← hlen, hneeded]
    split
    · rfl
    · simp only [first, frame, body, List.cons_append, List.append_assoc]
  | ack type dup packetid => rfl
  | subscribe dup packetid subscriptions =>
    have hlen : subscribeLength (subscriptions.map (·.1)) = (body (subscribe dup packetid subscriptions)).length := by
      rw [subscribeLength, List.foldl_map, foldl_size (f := subscription) (fun x hx => ?_), body, List.length_append, length_writeInt]
      rw [strlen_sound (hp.2 x hx).1, subscription, List.length_append, length_writeCString, List.length_singleton]
    have hneeded : needed (subscribe dup packetid subscriptions) = len (body (subscribe dup packetid subscriptions)).length := rfl
    rw [serialize, serializeSubscriptions, writeMembers_sound fun x hx => writeSubscription_sound (hp.2 x hx).1, hlen, hneeded]
    split
    · rfl
    · simp only [first, frame, body, List.cons_append, List.append_assoc]
      rfl
  | suback packetid grantedQoSs =>
    rw [serialize, serializeSuback]
    simp only [needed, first, frame, body, List.cons_append, List.append_assoc, List.length_append, length_writeInt, List.length_map]
  | unsubscribe dup packetid topicFilters =>
    have hlen : unsubscribeLength topicFilters = (body (unsubscribe dup packetid topicFilters)).length := by
      rw [unsubscribeLength, foldl_size (f := fun s => writeCString (MQTTString.text s)) (fun s hs => ?_), body, List.length_append,
        length_writeInt]
      rw [strlen_sound (hp.2 s hs), length_writeCString]
    have hneeded : needed (unsubscribe dup packetid topicFilters) = len (body (unsubscribe dup packetid topicFilters)).length := rfl
    rw [serialize, serializeUnsubscriptions, writeMembers_sound fun s hs => writeMQTTString_sound (hp.2 s hs), hlen, hneeded]
    split
    · rfl
    · simp only [first, frame, body, List.cons_append, List.append_assoc]
      rfl
  | unsuback packetid => rfl
  | zero type => rfl

theorem headerType_first (p : Packet) : headerType p.first = p.type.code := by
  cases p <;> exact headerType_header ..

/-- What it wrote is the frame. -/
theorem serialize_frame {buflen : Nat} {bs : Bytes} (hp : p.Fields charSigned) (h : p.serialize buflen = some (.ok bs)) :
    p.needed ≤ buflen ∧ bs = frame p.first p.body := by
  rw [serialize_sound hp] at h
  split at h
  · cases h
  · rename_i hroom
    cases h
    exact ⟨Nat.le_of_not_lt hroom, rfl⟩

/-! ## What it takes -/

theorem length_encode {k m : Nat} (hm : m < 128 ^ (k + 1)) : (encode m).length ≤ k + 1 :=
  MQTTPacket.encode_go_length hm (Nat.le_refl m)

/-- `MQTTPacket_len` is no less than what a packet takes. -/
theorem length_frame_le (b : UInt8) {bs : Bytes} (h : bs.length < 268435456) : (frame b bs).length ≤ len bs.length := by
  rw [length_frame, len]
  split
  · have := length_encode (k := 0) (m := bs.length) (by omega)
    omega
  split
  · have := length_encode (k := 1) (m := bs.length) (by omega)
    omega
  split
  · have := length_encode (k := 2) (m := bs.length) (by omega)
    omega
  · have := length_encode (k := 3) (m := bs.length) (by omega)
    omega

theorem length_frame_two {b : UInt8} {bs : Bytes} (h : bs.length = 2) : (frame b bs).length = 4 := by
  have hone : (encode 2).length = 1 := by decide
  rw [length_frame, h, hone]

/-- The buffers that a packet is written to although it does not fit: of a
CONNACK and an UNSUBACK two bytes are not looked for, and of a SUBACK its header
and remaining length. -/
def Overruns (buflen : Nat) : Packet → Prop
  | connack .. | unsuback .. => buflen < 4
  | suback _ grantedQoSs => buflen < 3 + grantedQoSs.length + (encode (2 + grantedQoSs.length)).length
  | _ => False

/-- **Serializers stay in their buffer**, but for those that count too few bytes. -/
theorem serialize_overruns_iff {buflen : Nat} {bs : Bytes} (hp : p.Sendable charSigned maxcount)
    (h : p.serialize buflen = some (.ok bs)) : buflen < bs.length ↔ p.Overruns buflen := by
  obtain ⟨hneeded, rfl⟩ := serialize_frame hp.fields h
  have hle := length_frame_le p.first hp.rest
  cases p with
  | connack => rw [length_frame_two rfl, Overruns]
  | unsuback => rw [length_frame_two rfl, Overruns]
  | suback packetid grantedQoSs =>
    have hlen : (body (suback packetid grantedQoSs)).length = 2 + grantedQoSs.length := by
      rw [body, List.length_append, length_writeInt, List.length_map]
    rw [length_frame, hlen, Overruns]
    omega
  | connect => exact iff_false_intro (Nat.not_lt.mpr (hle.trans hneeded))
  | publish => exact iff_false_intro (Nat.not_lt.mpr (hle.trans hneeded))
  | subscribe => exact iff_false_intro (Nat.not_lt.mpr (hle.trans hneeded))
  | unsubscribe => exact iff_false_intro (Nat.not_lt.mpr (hle.trans hneeded))
  | ack type dup packetid =>
    rw [length_frame_two rfl]
    exact iff_false_intro (Nat.not_lt.mpr hneeded)
  | zero => exact iff_false_intro (Nat.not_lt.mpr hneeded)

/-- Four bytes, in a buffer for two. -/
theorem serialize_overruns_unsuback : 2 < ([176, 2, 1, 2] : Bytes).length :=
  (@serialize_overruns_iff true 0 (unsuback 258) 2 [176, 2, 1, 2]
    ⟨show 258 < 65536 by decide, by decide, by decide⟩ (by decide)).mpr (show 2 < 4 by decide)

/-! ## What is read -/

theorem charValue_ofInt {c : Int} (hc : CharRange charSigned c) : charValue charSigned (UInt8.ofInt c) = c := by
  have hnat : (UInt8.ofInt c).toNat = (c % 256).toNat := by
    rw [UInt8.ofInt, UInt8.toNat_ofNat']
    omega
  rw [charValue, hnat]
  cases charSigned with
  | false =>
    have hrange : 0 ≤ c ∧ c < 256 := hc
    rw [if_neg (by simp)]
    omega
  | true =>
    have hrange : -128 ≤ c ∧ c < 128 := hc
    simp only [true_and]
    split <;> omega

section Framed

variable {buf : Bytes} {n : Nat}

theorem deserializeAck_framed {b : UInt8} {packetid : Nat} (hid : packetid < 65536) (hb : Framed b (writeInt packetid) buf n) :
    deserializeAck buf = some { rc := 1, packettype := headerType b, dup := headerDup b, packetid := some packetid } := by
  have hread := readInt_at hid hb.body
  rw [deserializeAck, hb.first]
  dsimp only [Option.bind_eq_bind, Option.bind_some]
  rw [hb.length]
  dsimp only [Option.bind_some]
  rw [if_neg (by rw [length_writeInt]; decide), hread]
  rfl

theorem deserializeConnack_framed {connackRc : Nat} {sessionPresent : Bool} (hrc : connackRc < 256)
    (hb : Framed (first (connack connackRc sessionPresent)) (body (connack connackRc sessionPresent)) buf n) :
    deserializeConnack buf = some { rc := 1, sessionPresent := some sessionPresent, connackRc := some connackRc } := by
  obtain ⟨hflags, hcode⟩ := at_cons.mp hb.body
  have hnat : (UInt8.ofNat connackRc).toNat = connackRc := by
    rw [UInt8.toNat_ofNat']
    omega
  have hbit : decide ((if sessionPresent then 1 else 0 : UInt8).toNat % 2 = 1) = sessionPresent := by
    cases sessionPresent <;> rfl
  have htype : headerType (first (connack connackRc sessionPresent)) = MsgType.connack.code := headerType_first _
  rw [deserializeConnack, hb.first]
  dsimp only [Option.bind_eq_bind, Option.bind_some]
  rw [if_neg (not_not.mpr htype), hb.length]
  dsimp only [Option.bind_some]
  rw [if_neg (show ¬ (body (connack connackRc sessionPresent)).length < 2 from Nat.lt_irrefl 2), hflags]
  dsimp only [Option.bind_some]
  rw [(at_cons.mp hcode).1]
  dsimp only [Option.bind_some]
  rw [hnat, hbit]
  rfl

theorem deserializeSuback_framed {packetid : Nat} {grantedQoSs : List Int} (hid : packetid < 65536)
    (hcodes : ∀ c ∈ grantedQoSs, CharRange charSigned c) (hroom : grantedQoSs.length ≤ maxcount)
    (hb : Framed (first (suback packetid grantedQoSs)) (body (suback packetid grantedQoSs)) buf n) :
    deserializeSuback charSigned maxcount buf = some { rc := 1, packetid := some packetid, grantedQoSs := grantedQoSs } := by
  obtain ⟨hfirst, hlength, hbody⟩ := hb
  rw [body] at hbody
  have htake := hbody.right.take
  have hlen : (body (suback packetid grantedQoSs)).length = 2 + grantedQoSs.length := by
    rw [body, List.length_append, length_writeInt, List.length_map]
  rw [length_writeInt, List.length_map] at htake
  rw [hlen] at hlength
  have hmap : (grantedQoSs.map UInt8.ofInt).map (charValue charSigned) = grantedQoSs := by
    rw [List.map_map]
    exact (List.map_congr_left fun c hc => charValue_ofInt (hcodes c hc)).trans (List.map_id' _)
  have htype : headerType (first (suback packetid grantedQoSs)) = MsgType.suback.code := headerType_first _
  rw [deserializeSuback, hfirst]
  dsimp only [Option.bind_eq_bind, Option.bind_some]
  rw [if_neg (not_not.mpr htype), hlength]
  dsimp only [Option.bind_some]
  rw [if_neg (by omega), readInt_at hid hbody.left]
  dsimp only [Option.bind_some]
  rw [Nat.add_sub_cancel_left, htake, List.take_of_length_le (by rw [List.length_map]; omega), if_neg (by rw [List.length_map]; omega),
    if_neg (by omega), hmap]
  rfl

/-- A PUBLISH is read with its payload, which is in the buffer. -/
theorem deserializePublish_framed {dup retained : Bool} {qos : Nat} {packetid : Option Nat} {topicName payload : Bytes}
    (hp : Fields charSigned (publish dup qos retained packetid topicName payload))
    (hb : Framed (first (publish dup qos retained packetid topicName payload))
      (body (publish dup qos retained packetid topicName payload)) buf n) :
    ∃ i, deserializePublish buf = some {
        rc := 1
        dup := dup
        qos := qos
        retained := retained
        packetid := packetid
        topicName := { len := topicName.length, data := some topicName }
        payload := some i
        payloadlen := payload.length } ∧ (buf.drop i).take payload.length = payload := by
  obtain ⟨hqos, hnone, hid, htopic⟩ := hp
  obtain ⟨hfirst, hlength, hbody⟩ := hb
  have hheaderQos : headerQos (header .publish dup qos retained) = qos := (headerQos_header ..).trans (Nat.mod_eq_of_lt hqos)
  have hlen : (body (publish dup qos retained packetid topicName payload)).length =
      2 + topicName.length + ((if qos > 0 then writeInt (packetid.getD 0) else []).length + payload.length) := by
    rw [body, List.length_append, length_writeCString, List.length_append]
  rw [body] at hbody
  obtain ⟨hname, hid', hpayload⟩ := (at_append.trans (and_congr_right fun _ => at_append)).mp hbody
  rw [length_writeCString] at hid' hpayload
  rw [hlen] at hlength
  have htype : headerType (first (publish dup qos retained packetid topicName payload)) = MsgType.publish.code := headerType_first _
  rw [deserializePublish, hfirst]
  dsimp only [Option.bind_eq_bind, Option.bind_some]
  rw [if_neg (not_not.mpr htype), hlength]
  dsimp only [Option.bind_some]
  rw [readMQTTLenString_at htopic hname (by omega)]
  dsimp only [Option.bind_some]
  rw [if_neg (by decide)]
  dsimp only [first]
  rw [headerDup_header, headerRetain_header]
  by_cases hzero : qos > 0
  · obtain ⟨id, rfl⟩ := Option.ne_none_iff_exists'.mp fun h => Nat.ne_of_gt hzero (hnone.mp h)
    rw [if_pos hzero] at hid' hpayload ⊢
    have hpos : headerQos (header .publish dup qos retained) > 0 := hheaderQos.symm ▸ hzero
    refine ⟨1 + n + (2 + topicName.length) + 2, (if_pos hpos).trans ?_, hpayload.take⟩
    rw [readInt_at hid hid', hheaderQos]
    dsimp only [Option.bind_some]
    rw [length_writeInt]
    congr 2
    omega
  · obtain rfl := hnone.mpr (by omega)
    rw [if_neg hzero] at hpayload ⊢
    have hpos : ¬ headerQos (header .publish dup qos retained) > 0 := hheaderQos.symm ▸ hzero
    refine ⟨1 + n + (2 + topicName.length), (if_neg hpos).trans ?_, hpayload.take⟩
    rw [hheaderQos, List.length_nil]
    congr 2
    omega

theorem length_subscription (x : MQTTString × Int) : (subscription x).length = 2 + x.1.text.length + 1 := by
  rw [subscription, List.length_append, length_writeCString, List.length_singleton]

theorem subscriptionField_at {x : MQTTString × Int} {j end_ : Nat} (hs : x.1.Sound) (hc : CharRange charSigned x.2)
    (h : At (subscription x) buf j) (hle : j + (subscription x).length ≤ end_) :
    subscriptionField charSigned buf j end_ = some (some ((x.1.seen, x.2), j + (subscription x).length)) := by
  obtain ⟨htext, hqos⟩ := at_append.mp h
  rw [length_writeCString] at hqos
  rw [length_subscription] at hle ⊢
  rw [subscriptionField, stringField_at hs htext (by omega)]
  dsimp only [Option.bind_eq_bind, Option.bind_some]
  rw [if_neg (by omega), (at_cons.mp hqos).1]
  dsimp only [Option.bind_some]
  rw [charValue_ofInt hc]
  rfl

end Framed

theorem deserializeSubscribe_framed {dup : Bool} {packetid : Nat} {subscriptions : List (MQTTString × Int)}
    (hp : (subscribe dup packetid subscriptions).Sendable charSigned maxcount) (rest : Bytes) :
    deserializeSubscribe charSigned maxcount
        (frame (first (subscribe dup packetid subscriptions)) (body (subscribe dup packetid subscriptions)) ++ rest) =
      some { rc := 1, dup := dup, packetid := some packetid, members := subscriptions.map fun x => (x.1.seen, x.2) } := by
  refine (deserializeMembers_serialized hp.fields.1 (fun x hx buf j end_ hat hle => ?_) (fun x hx hnil => ?_) hp.rest maxcount rest).trans
    (if_pos hp.room)
  · exact subscriptionField_at (hp.fields.2 x hx).1 (hp.fields.2 x hx).2 hat hle
  · have hlen := length_subscription x
    rw [hnil, List.length_nil] at hlen
    omega

theorem deserializeUnsubscribe_framed {dup : Bool} {packetid : Nat} {topicFilters : List MQTTString}
    (hp : (unsubscribe dup packetid topicFilters).Sendable charSigned maxcount) (rest : Bytes) :
    deserializeUnsubscribe maxcount
        (frame (first (unsubscribe dup packetid topicFilters)) (body (unsubscribe dup packetid topicFilters)) ++ rest) =
      some { rc := 1, dup := dup, packetid := some packetid, members := topicFilters.map MQTTString.seen } := by
  refine (deserializeMembers_serialized hp.fields.1 (fun s hs buf j end_ hat hle => ?_) (fun s hs hnil => ?_) hp.rest maxcount rest).trans
    (if_pos hp.room)
  · rw [length_writeCString] at hle ⊢
    exact stringField_at (hp.fields.2 s hs) hat hle
  · cases hnil

theorem parse_frame (hp : p.Sendable charSigned maxcount) (rest : Bytes) :
    parse charSigned maxcount (frame p.first p.body ++ rest) (frame p.first p.body).length =
      some (if p.Accepted then some p.seen else none) := by
  have hb := framed (b := p.first) hp.rest rest
  have hf := hp.fields
  rw [parse, hb.first]
  dsimp only [Option.bind_eq_bind, Option.bind_some]
  rw [headerType_first, MsgType.ofCode_code]
  cases p with
  | connect options =>
    refine Option.bind_eq_some_iff.mpr ⟨_, deserializeConnect_serialized hf {} rest, congrArg some ?_⟩
    by_cases hcredentials : Credentials options
    · rw [if_pos hcredentials, if_pos (show (connect options).Accepted from hcredentials)]
      rfl
    · rw [if_neg hcredentials, if_neg (show ¬ (connect options).Accepted from hcredentials)]
      rfl
  | connack connackRc sessionPresent =>
    exact Option.bind_eq_some_iff.mpr ⟨_, deserializeConnack_framed hf hb, rfl⟩
  | publish dup qos retained packetid topicName payload =>
    obtain ⟨i, hread, hpayload⟩ := deserializePublish_framed hf hb
    refine Option.bind_eq_some_iff.mpr ⟨_, hread, ?_⟩
    rw [if_pos rfl, Int.toNat_natCast]
    dsimp only [Option.bind_some, Option.map_some]
    rw [hpayload]
    rfl
  | ack type dup packetid =>
    have hread := deserializeAck_framed hf.2 hb
    rw [headerType_first, first, headerDup_header] at hread
    have htype : type = .puback ∨ type = .pubrec ∨ type = .pubrel ∨ type = .pubcomp := by simpa using hf.1
    rcases htype with rfl | rfl | rfl | rfl <;> exact Option.bind_eq_some_iff.mpr ⟨_, hread, rfl⟩
  | subscribe dup packetid subscriptions =>
    exact Option.bind_eq_some_iff.mpr ⟨_, deserializeSubscribe_framed hp rest, rfl⟩
  | suback packetid grantedQoSs =>
    exact Option.bind_eq_some_iff.mpr ⟨_, deserializeSuback_framed hf.1 hf.2 hp.room hb, rfl⟩
  | unsubscribe dup packetid topicFilters =>
    exact Option.bind_eq_some_iff.mpr ⟨_, deserializeUnsubscribe_framed hp rest, rfl⟩
  | unsuback packetid =>
    have hread := deserializeAck_framed hf hb
    rw [headerType_first, first, headerDup_header] at hread
    have hunsuback : deserializeUnsuback _ = _ := Option.bind_eq_some_iff.mpr ⟨_, hread, rfl⟩
    exact Option.bind_eq_some_iff.mpr ⟨_, hunsuback, rfl⟩
  | zero type =>
    have htype : type = .pingreq ∨ type = .pingresp ∨ type = .disconnect := by simpa [Fields] using hf
    rcases htype with rfl | rfl | rfl <;> rfl

theorem parse_sound (hp : p.Sound charSigned maxcount) (rest : Bytes) :
    parse charSigned maxcount (frame p.first p.body ++ rest) (frame p.first p.body).length = some (some p.seen) :=
  (parse_frame hp.toSendable rest).trans (congrArg some (if_pos hp.accepted))

/-- **What is written is read**, whatever is behind it, or refused for the
credentials that a CONNECT gives. -/
theorem parse_serialize {buflen : Nat} {bs : Bytes} (hp : p.Sendable charSigned maxcount)
    (h : p.serialize buflen = some (.ok bs)) (rest : Bytes) :
    parse charSigned maxcount (bs ++ rest) bs.length = some (if p.Accepted then some p.seen else none) := by
  obtain ⟨-, rfl⟩ := serialize_frame hp.fields h
  exact parse_frame hp rest

/-- Two filters, one a C string and one with its length. -/
def demo : Packet := subscribe true 258 [({ cstring := some [97, 47, 43] }, 1), ({ lenstring := { len := 1, data := some [35] } }, 2)]

theorem demo_sendable : demo.Sendable true 2 := by
  refine ⟨⟨by decide, fun x hx => ?_⟩, by decide, by decide⟩
  rcases List.mem_pair.mp hx with rfl | rfl
  · exact ⟨⟨by decide, by decide, by decide⟩, show (-128 : Int) ≤ 1 ∧ (1 : Int) < 128 by decide⟩
  · exact ⟨⟨by decide, by decide, by decide⟩, show (-128 : Int) ≤ 2 ∧ (2 : Int) < 128 by decide⟩

/-- A password, and no user name. -/
def passwordAlone : Packet := connect { clientID := { cstring := some [99] }, password := { cstring := some [112, 119] } }

theorem passwordAlone_sendable : passwordAlone.Sendable true 0 :=
  ⟨⟨by decide, by decide, ⟨by decide, by decide, by decide⟩, by simp, by simp, by decide, by simp [given],
    fun _ => ⟨by decide, by decide, by decide⟩, by decide⟩, by decide, by decide⟩

/-- The SUBSCRIBE is read back, and the CONNECT refused. -/
theorem parse_serialize_demo :
    parse true 2 ((frame 138 [1, 2, 0, 3, 97, 47, 43, 1, 0, 1, 35, 2]) ++ [208, 0]) 14 = some (some demo.seen) ∧
    parse true 0 ((frame 16 [0, 4, 77, 81, 84, 84, 4, 66, 0, 60, 0, 1, 99, 0, 2, 112, 119]) ++ [208, 0]) 19 = some none :=
  ⟨@parse_serialize true 2 demo 14 _ demo_sendable (by decide) [208, 0],
    @parse_serialize true 0 passwordAlone 19 _ passwordAlone_sendable (by decide) [208, 0]⟩

end Packet

end FEmbed
