/-
`MQTTPacket`: packets as bytes.

A serializer gives the packet it writes, or its (negative) code. A
deserializer reads the buffer of the last packet: what a C function reads
beyond it is what an earlier packet left there, so the model is given the
whole buffer; `none` is a read beyond its end. Some of them return 1 although
they gave up early, with some of their results not written; these are `none`.
-/
import FEmbedLwip.FTPClient

namespace FEmbed

inductive MsgType where
  | connect
  | connack
  | publish
  | puback
  | pubrec
  | pubrel
  | pubcomp
  | subscribe
  | suback
  | unsubscribe
  | unsuback
  | pingreq
  | pingresp
  | disconnect
  deriving DecidableEq, Repr

/-- `enum msgTypes`. -/
def MsgType.code : MsgType → Nat
  | .connect => 1
  | .connack => 2
  | .publish => 3
  | .puback => 4
  | .pubrec => 5
  | .pubrel => 6
  | .pubcomp => 7
  | .subscribe => 8
  | .suback => 9
  | .unsubscribe => 10
  | .unsuback => 11
  | .pingreq => 12
  | .pingresp => 13
  | .disconnect => 14

theorem MsgType.code_inj {type type' : MsgType} (h : type.code = type'.code) : type = type' := by
  cases type <;> cases type' <;> first | rfl | exact absurd h (by decide)

/-- A string with its length; `data` is null where it was not set. -/
structure MQTTLenString where
  len : Nat := 0
  data : Option Bytes := none
  deriving DecidableEq, Repr

/-- `MQTTString`: a C string if there is one, else a string with its length. -/
structure MQTTString where
  cstring : Option Bytes := none
  lenstring : MQTTLenString := {}
  deriving DecidableEq, Repr

/-- `MQTTPacket_willOptions`. -/
structure WillOptions where
  topicName : MQTTString := {}
  message : MQTTString := {}
  retained : Bool := false
  qos : Nat := 0
  deriving DecidableEq, Repr

/-- `MQTTPacket_connectData`, with its initializer. -/
structure ConnectData where
  mqttVersion : Nat := 4
  clientID : MQTTString := {}
  keepAliveInterval : Nat := 60
  cleansession : Bool := true
  willFlag : Bool := false
  will : WillOptions := {}
  username : MQTTString := {}
  password : MQTTString := {}
  deriving DecidableEq, Repr

namespace MQTTPacket

/-- `MQTTPACKET_BUFFER_TOO_SHORT`. -/
def bufferTooShort : Int := -2

/-! ## The header byte -/

def header (type : MsgType) (dup : Bool) (qos : Nat) (retain : Bool) : UInt8 :=
  UInt8.ofNat (type.code * 16 + (if dup then 8 else 0) + qos % 4 * 2 + (if retain then 1 else 0))

/-- `header.bits.type`. -/
def headerType (b : UInt8) : Nat := b.toNat / 16

theorem headerType_header (type : MsgType) (dup : Bool) (qos : Nat) (retain : Bool) :
    headerType (header type dup qos retain) = type.code := by
  have hcode : type.code < 15 := by cases type <;> decide
  have hqos : qos % 4 < 4 := Nat.mod_lt _ (by decide)
  simp only [headerType, header, UInt8.toNat_ofNat']
  cases dup <;> cases retain <;> simp <;> omega

def headerDup (b : UInt8) : Bool := b.toNat / 8 % 2 = 1

def headerQos (b : UInt8) : Nat := b.toNat / 2 % 4

def headerRetain (b : UInt8) : Bool := b.toNat % 2 = 1

/-! ## The remaining length -/

/-- `MQTTPacket_encode`: a length has no more digits than its value. -/
def encode (length : Nat) : Bytes :=
  go length length
where
  go : Nat → Nat → Bytes
    | 0, length => [UInt8.ofNat (length % 128)]
    | k + 1, length =>
      if length / 128 = 0 then [UInt8.ofNat (length % 128)]
      else UInt8.ofNat (length % 128 + 128) :: go k (length / 128)

/-- `MQTTPacket_len`. -/
def len (remLen : Nat) : Nat :=
  let n := remLen + 1
  if n < 128 then n + 1
  else if n < 16384 then n + 2
  else if n < 2097151 then n + 3
  else n + 4

/-- `MQTTPacket_decodeBuf`: the bytes counted, and the value. After four
digits that all say that there is one more, it counts a fifth. -/
def decodeBuf (buf : Bytes) : Option (Nat × Nat) :=
  go 4 1 0 0 buf
where
  go : Nat → Nat → Nat → Nat → Bytes → Option (Nat × Nat)
    | 0, _, n, value, _ => some (n + 1, value)
    | _ + 1, _, _, _, [] => none
    | k + 1, multiplier, n, value, c :: rest =>
      let value := value + c.toNat % 128 * multiplier
      if c.toNat / 128 = 0 then some (n + 1, value)
      else go k (multiplier * 128) (n + 1) value rest

/-! ## Numbers and strings -/

/-- `writeInt`. -/
def writeInt (n : Nat) : Bytes := [UInt8.ofNat (n / 256), UInt8.ofNat (n % 256)]

/-- `readInt` at an index. -/
def readInt (buf : Bytes) (i : Nat) : Option Nat := do
  let high ← buf[i]?
  let low ← buf[i + 1]?
  return 256 * high.toNat + low.toNat

/-- `writeCString`. -/
def writeCString (s : Bytes) : Bytes := writeInt s.length ++ s

/-- `readMQTTLenString`: the string, the index after it, and whether it fits. -/
def readMQTTLenString (buf : Bytes) (cur end_ : Nat) : Option (MQTTLenString × Nat × Bool) :=
  if cur + 1 < end_ then do
    let n ← readInt buf cur
    let cur := cur + 2
    if cur + n ≤ end_ then
      return ({ len := n, data := some ((buf.drop cur).take n) }, cur + n, true)
    else
      return ({ len := n }, cur, false)
  else some ({}, cur, false)

/-- `MQTTPacket_equals`, for a name with its length; `none` is a read through
the null pointer. -/
def equals (a : MQTTLenString) (b : Bytes) : Option Bool :=
  if a.len = b.length then
    match a.data with
    | some data => some (data = b)
    | none => if a.len = 0 then some true else none
  else some false

/-! ## Serializers -/

/-- `MQTTSerialize_zero`. -/
def serializeZero (buflen : Nat) (type : MsgType) : Except Int Bytes :=
  if buflen < 2 then .error bufferTooShort else .ok (header type false 0 false :: encode 0)

def serializePingreq (buflen : Nat) : Except Int Bytes := serializeZero buflen .pingreq

def serializeDisconnect (buflen : Nat) : Except Int Bytes := serializeZero buflen .disconnect

/-- `MQTTSerialize_ack`. -/
def serializeAck (buflen : Nat) (type : MsgType) (dup : Bool) (packetid : Nat) : Except Int Bytes :=
  if buflen < 4 then .error bufferTooShort
  else .ok (header type dup (if type = .pubrel then 1 else 0) false :: encode 2 ++ writeInt packetid)

/-- `MQTTSerialize_unsubscribe`, of one topic filter. -/
def serializeUnsubscribe (buflen : Nat) (dup : Bool) (packetid : Nat) (topicFilter : Bytes) : Except Int Bytes :=
  let remLen := 2 + (2 + topicFilter.length)
  if len remLen > buflen then .error bufferTooShort
  else .ok (header .unsubscribe dup 1 false :: encode remLen ++ writeInt packetid ++ writeCString topicFilter)

/-- `MQTTstrlen`. -/
def strlen (s : MQTTString) : Nat :=
  match s.cstring with
  | some c => c.length
  | none => s.lenstring.len

/-- `writeMQTTString`; `none` is a read through the null pointer. -/
def writeMQTTString (s : MQTTString) : Option Bytes :=
  if s.lenstring.len > 0 then s.lenstring.data.map fun data => writeInt s.lenstring.len ++ data.take s.lenstring.len
  else
    match s.cstring with
    | some c => some (writeCString c)
    | none => some (writeInt 0)

/-- Whether the field of an optional string is sent. -/
def given (s : MQTTString) : Bool := s.cstring.isSome || s.lenstring.data.isSome

/-- `MQTTSerialize_connectLength`. -/
def connectLength (options : ConnectData) : Nat :=
  (if options.mqttVersion = 3 then 12 else if options.mqttVersion = 4 then 10 else 0) +
    (strlen options.clientID + 2) +
    (if options.willFlag then strlen options.will.topicName + 2 + (strlen options.will.message + 2) else 0) +
    (if given options.username then strlen options.username + 2 else 0) +
    (if given options.password then strlen options.password + 2 else 0)

/-- `MQTTConnectFlags`. -/
def connectFlags (options : ConnectData) : UInt8 :=
  UInt8.ofNat ((if options.cleansession then 2 else 0) +
    (if options.willFlag then 4 + options.will.qos % 4 * 8 + (if options.will.retained then 32 else 0) else 0) +
    (if given options.password then 64 else 0) + (if given options.username then 128 else 0))

/-- `MQTTSerialize_connect`. -/
def serializeConnect (buflen : Nat) (options : ConnectData) : Option (Except Int Bytes) :=
  if len (connectLength options) > buflen then some (.error bufferTooShort)
  else do
    let clientID ← writeMQTTString options.clientID
    let topicName ← if options.willFlag then writeMQTTString options.will.topicName else some []
    let message ← if options.willFlag then writeMQTTString options.will.message else some []
    let username ← if given options.username then writeMQTTString options.username else some []
    let password ← if given options.password then writeMQTTString options.password else some []
    return .ok (header .connect false 0 false :: encode (connectLength options) ++
      (if options.mqttVersion = 4 then writeCString [77, 81, 84, 84] ++ [4]
        else writeCString [77, 81, 73, 115, 100, 112] ++ [3]) ++
      [connectFlags options] ++ writeInt options.keepAliveInterval ++ clientID ++ topicName ++ message ++
      username ++ password)

/-- `MQTTSerialize_subscribe`, of one topic filter. -/
def serializeSubscribe (buflen : Nat) (dup : Bool) (packetid : Nat) (topicFilter : Bytes) (requestedQoS : Nat) :
    Except Int Bytes :=
  let remLen := 2 + (2 + topicFilter.length + 1)
  if len remLen > buflen then .error bufferTooShort
  else .ok (header .subscribe dup 1 false :: encode remLen ++ writeInt packetid ++ writeCString topicFilter ++
    [UInt8.ofNat requestedQoS])

/-- `MQTTSerialize_publish`, of a topic that is a C string. -/
def serializePublish (buflen : Nat) (dup : Bool) (qos : Nat) (retained : Bool) (packetid : Nat) (topicName payload : Bytes) :
    Except Int Bytes :=
  let remLen := 2 + topicName.length + payload.length + (if qos > 0 then 2 else 0)
  if len remLen > buflen then .error bufferTooShort
  else .ok (header .publish dup qos retained :: encode remLen ++ writeCString topicName ++
    (if qos > 0 then writeInt packetid else []) ++ payload)

/-! ## Deserializers -/

/-- `MQTTDeserialize_ack`: what it returns, the type and flag, and the packet
identifier where it was written. -/
structure Ack where
  rc : Int
  packettype : Nat
  dup : Bool
  packetid : Option Nat
  deriving DecidableEq, Repr

def deserializeAck (buf : Bytes) : Option Ack := do
  let b ← buf[0]?
  let (n, mylen) ← decodeBuf buf.tail
  if mylen < 2 then
    return { rc := n, packettype := headerType b, dup := headerDup b, packetid := none }
  let packetid ← readInt buf (1 + n)
  return { rc := 1, packettype := headerType b, dup := headerDup b, packetid := some packetid }

/-- `MQTTDeserialize_unsuback`. -/
def deserializeUnsuback (buf : Bytes) : Option Ack := do
  let ack ← deserializeAck buf
  return if ack.packettype = MsgType.unsuback.code then { ack with rc := 1 } else ack

/-- `MQTTDeserialize_connack`, with the two bytes where they were written. -/
structure Connack where
  rc : Int
  sessionPresent : Option Bool := none
  connackRc : Option Nat := none
  deriving DecidableEq, Repr

def deserializeConnack (buf : Bytes) : Option Connack := do
  let b ← buf[0]?
  if headerType b ≠ MsgType.connack.code then
    return { rc := 0 }
  let (n, mylen) ← decodeBuf buf.tail
  if mylen < 2 then
    return { rc := n }
  let flags ← buf[1 + n]?
  let connackRc ← buf[1 + n + 1]?
  return { rc := 1, sessionPresent := some (flags.toNat % 2 = 1), connackRc := some connackRc.toNat }

/-- `MQTTDeserialize_suback`: the codes are those that were stored, `maxcount`
and one more at most. -/
structure Suback where
  rc : Int
  packetid : Option Nat := none
  grantedQoSs : List Int := []
  deriving DecidableEq, Repr

/-- A `char` as an `int`. -/
def charValue (charSigned : Bool) (b : UInt8) : Int := if charSigned ∧ b.toNat ≥ 128 then b.toNat - 256 else b.toNat

def deserializeSuback (charSigned : Bool) (maxcount : Nat) (buf : Bytes) : Option Suback := do
  let b ← buf[0]?
  if headerType b ≠ MsgType.suback.code then
    return { rc := 0 }
  let (n, mylen) ← decodeBuf buf.tail
  if mylen < 2 then
    return { rc := n }
  let packetid ← readInt buf (1 + n)
  let codes := (buf.drop (1 + n + 2)).take (mylen - 2)
  let stored := codes.take (maxcount + 1)
  if stored.length < min (mylen - 2) (maxcount + 1) then none
  return {
    rc := if mylen - 2 > maxcount + 1 then -1 else 1
    packetid := some packetid
    grantedQoSs := stored.map (charValue charSigned) }

/-- `MQTTDeserialize_publish`. -/
structure Publish where
  rc : Int
  dup : Bool
  qos : Nat
  retained : Bool
  packetid : Option Nat := none
  topicName : MQTTLenString := {}
  /-- The index of the payload in the buffer. -/
  payload : Option Nat := none
  payloadlen : Int := 0
  deriving DecidableEq, Repr

def deserializePublish (buf : Bytes) : Option Publish := do
  let b ← buf[0]?
  if headerType b ≠ MsgType.publish.code then
    return { rc := 0, dup := false, qos := 0, retained := false }
  let (n, mylen) ← decodeBuf buf.tail
  let end_ := 1 + n + mylen
  let (topicName, cur, fits) ← readMQTTLenString buf (1 + n) end_
  let p : Publish := { rc := n, dup := headerDup b, qos := headerQos b, retained := headerRetain b, topicName := topicName }
  if ¬ fits then
    return p
  if p.qos > 0 then
    let packetid ← readInt buf cur
    return { p with rc := 1, packetid := some packetid, payload := some (cur + 2), payloadlen := end_ - (cur + 2 : Nat) }
  return { p with rc := 1, payload := some cur, payloadlen := end_ - cur }

/-! ## What is behind a packet

What a deserializer makes of a packet does not depend on what follows. -/

theorem getElem?_append {buf : Bytes} {i : Nat} {b : UInt8} (h : buf[i]? = some b) (rest : Bytes) : (buf ++ rest)[i]? = some b := by
  obtain ⟨hlt, _⟩ := List.getElem?_eq_some_iff.mp h
  rw [List.getElem?_append_left hlt]
  exact h

theorem readInt_append {buf : Bytes} {i n : Nat} (h : readInt buf i = some n) (rest : Bytes) : readInt (buf ++ rest) i = some n := by
  simp only [readInt, Option.bind_eq_bind, Option.bind_eq_some_iff] at h ⊢
  obtain ⟨high, hhigh, low, hlow, h⟩ := h
  exact ⟨high, getElem?_append hhigh rest, low, getElem?_append hlow rest, h⟩

theorem encode_go_length {k fuel m : Nat} (hk : m < 128 ^ (k + 1)) (hf : m ≤ fuel) : (encode.go fuel m).length ≤ k + 1 := by
  induction k generalizing fuel m with
  | zero =>
    cases fuel with
    | zero => exact Nat.le_refl 1
    | succ fuel =>
      rw [encode.go, if_pos (by omega)]
      exact Nat.le_refl 1
  | succ k ih =>
    cases fuel with
    | zero => exact Nat.le_add_left 1 _
    | succ fuel =>
      rw [encode.go]
      split
      · exact Nat.le_add_left 1 _
      · have hdiv : m / 128 < 128 ^ (k + 1) := by
          rw [Nat.div_lt_iff_lt_mul (by decide), ← Nat.pow_succ]
          exact hk
        have := @ih fuel _ hdiv (by omega)
        rw [List.length_cons]
        omega

/-- A remaining length has four digits at most. -/
theorem encode_length {m : Nat} (hm : m < 268435456) : (encode m).length ≤ 4 :=
  encode_go_length (k := 3) hm (Nat.le_refl m)

theorem decodeBuf_append {buf : Bytes} {r : Nat × Nat} (h : decodeBuf buf = some r) (rest : Bytes) : decodeBuf (buf ++ rest) = some r := by
  have go {k m n v : Nat} {buf : Bytes} (h : decodeBuf.go k m n v buf = some r) : decodeBuf.go k m n v (buf ++ rest) = some r := by
    induction k generalizing m n v buf with
    | zero => exact h
    | succ k ih =>
      cases buf with
      | nil => exact nomatch h
      | cons c buf =>
        simp only [decodeBuf.go, List.cons_append] at h ⊢
        split
        · rwa [if_pos ‹_›] at h
        · rw [if_neg ‹_›] at h
          exact ih h
  exact go h

theorem deserializeAck_append {buf : Bytes} {ack : Ack} (h : deserializeAck buf = some ack) (rest : Bytes) :
    deserializeAck (buf ++ rest) = some ack := by
  cases buf with
  | nil => exact nomatch h
  | cons b buf =>
    simp only [deserializeAck, Option.bind_eq_bind, Option.bind_eq_some_iff, List.tail_cons, List.cons_append] at h ⊢
    obtain ⟨b', hb, x, hx, h⟩ := h
    refine ⟨b', hb, x, decodeBuf_append hx rest, ?_⟩
    split
    · rwa [if_pos ‹_›] at h
    · rw [if_neg ‹_›] at h
      obtain ⟨id, hid, h⟩ := Option.bind_eq_some_iff.mp h
      exact Option.bind_eq_some_iff.mpr ⟨id, readInt_append hid rest, h⟩

theorem deserializeConnack_append {buf : Bytes} {ack : Connack} (h : deserializeConnack buf = some ack) (rest : Bytes) :
    deserializeConnack (buf ++ rest) = some ack := by
  cases buf with
  | nil => exact nomatch h
  | cons b buf =>
    simp only [deserializeConnack, Option.bind_eq_bind, Option.bind_eq_some_iff, List.tail_cons, List.cons_append] at h ⊢
    obtain ⟨b', hb, h⟩ := h
    refine ⟨b', hb, ?_⟩
    split
    · rwa [if_pos ‹_›] at h
    rw [if_neg ‹_›] at h
    obtain ⟨x, hx, h⟩ := Option.bind_eq_some_iff.mp h
    refine Option.bind_eq_some_iff.mpr ⟨x, decodeBuf_append hx rest, ?_⟩
    split
    · rwa [if_pos ‹_›] at h
    rw [if_neg ‹_›] at h
    obtain ⟨flags, hflags, h⟩ := Option.bind_eq_some_iff.mp h
    obtain ⟨code, hcode, h⟩ := Option.bind_eq_some_iff.mp h
    refine Option.bind_eq_some_iff.mpr ⟨flags, getElem?_append hflags rest, ?_⟩
    exact Option.bind_eq_some_iff.mpr ⟨code, getElem?_append hcode rest, h⟩

theorem decodeBuf_some {buf : Bytes} (h : 4 ≤ buf.length) : ∃ n v, decodeBuf buf = some (n, v) ∧ n ≤ 5 := by
  have go {k m n v : Nat} {buf : Bytes} (h : k ≤ buf.length) : ∃ n' v', decodeBuf.go k m n v buf = some (n', v') ∧ n' ≤ n + k + 1 := by
    induction k generalizing m n v buf with
    | zero => exact ⟨n + 1, v, rfl, Nat.le_refl _⟩
    | succ k ih =>
      cases buf with
      | nil => exact absurd h (Nat.not_succ_le_zero k)
      | cons c buf =>
        rw [decodeBuf.go]
        split
        · exact ⟨n + 1, _, rfl, by omega⟩
        · obtain ⟨n', v', hgo, hn⟩ := @ih (m * 128) (n + 1) (v + c.toNat % 128 * m) buf (Nat.le_of_succ_le_succ h)
          exact ⟨n', v', hgo, by omega⟩
  exact go h

/-- In a buffer of eight bytes an acknowledgement has its id. -/
theorem deserializeAck_some {buf : Bytes} (h : 8 ≤ buf.length) : ∃ ack, deserializeAck buf = some ack := by
  obtain ⟨n, v, hdecode, hn⟩ := @decodeBuf_some buf.tail (by rw [List.length_tail]; omega)
  obtain ⟨id, hid⟩ : ∃ id, readInt buf (1 + n) = some id := by
    rw [readInt, List.getElem?_eq_getElem (by omega), List.getElem?_eq_getElem (by omega)]
    exact ⟨_, rfl⟩
  rw [deserializeAck, List.getElem?_eq_getElem (show 0 < buf.length by omega), hdecode]
  by_cases hv : v < 2
  · exact ⟨_, if_pos hv⟩
  · exact ⟨_, (if_neg hv).trans (by rw [hid]; rfl)⟩

theorem deserializeConnack_some {buf : Bytes} (h : 8 ≤ buf.length) : ∃ ack, deserializeConnack buf = some ack := by
  obtain ⟨n, v, hdecode, hn⟩ := @decodeBuf_some buf.tail (by rw [List.length_tail]; omega)
  obtain ⟨flags, hflags⟩ : ∃ b, buf[1 + n]? = some b := ⟨_, List.getElem?_eq_getElem (by omega)⟩
  obtain ⟨code, hcode⟩ : ∃ b, buf[1 + n + 1]? = some b := ⟨_, List.getElem?_eq_getElem (by omega)⟩
  rw [deserializeConnack, List.getElem?_eq_getElem (show 0 < buf.length by omega), hdecode]
  by_cases htype : headerType buf[0] ≠ MsgType.connack.code
  · exact ⟨_, if_pos htype⟩
  · by_cases hv : v < 2
    · exact ⟨_, (if_neg htype).trans (if_pos hv)⟩
    · exact ⟨_, (if_neg htype).trans ((if_neg hv).trans (by rw [hflags, hcode]; rfl))⟩

theorem take_take_append {buf : Bytes} {n m k : Nat} (h : min m k ≤ ((buf.drop n).take m |>.take k).length) (rest : Bytes) :
    (((buf ++ rest).drop n).take m).take k = ((buf.drop n).take m).take k := by
  simp only [List.take_take, List.length_take] at h ⊢
  rw [List.drop_append, List.take_append_of_le_length (by omega)]

theorem deserializeSuback_append {charSigned : Bool} {maxcount : Nat} {buf : Bytes} {ack : Suback}
    (h : deserializeSuback charSigned maxcount buf = some ack) (rest : Bytes) :
    deserializeSuback charSigned maxcount (buf ++ rest) = some ack := by
  cases buf with
  | nil => exact nomatch h
  | cons b buf =>
    simp only [deserializeSuback, Option.bind_eq_bind, Option.bind_eq_some_iff, List.tail_cons, List.cons_append] at h ⊢
    obtain ⟨b', hb, h⟩ := h
    refine ⟨b', hb, ?_⟩
    split
    · rwa [if_pos ‹_›] at h
    rw [if_neg ‹_›] at h
    obtain ⟨x, hx, h⟩ := Option.bind_eq_some_iff.mp h
    refine Option.bind_eq_some_iff.mpr ⟨x, decodeBuf_append hx rest, ?_⟩
    split
    · rwa [if_pos ‹_›] at h
    rw [if_neg ‹_›] at h
    obtain ⟨id, hid, h⟩ := Option.bind_eq_some_iff.mp h
    refine Option.bind_eq_some_iff.mpr ⟨id, readInt_append hid rest, ?_⟩
    split at h
    · exact nomatch h
    rename_i hlen
    have hcodes := take_take_append (Nat.le_of_not_lt hlen) rest
    rw [List.cons_append] at hcodes
    rw [hcodes, if_neg hlen]
    exact h

end MQTTPacket

end FEmbed
