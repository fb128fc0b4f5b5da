/-
What a serializer writes and what a deserializer reads: the types of packets,
and their ids.
-/
import FEmbedLwip.MQTTPacket

namespace FEmbed

namespace MQTTPacket

/-! ## The types of packets -/

theorem serializeAck_type {buflen : Nat} {type : MsgType} {dup : Bool} {id : Nat} {bs : Bytes}
    (h : serializeAck buflen type dup id = .ok bs) : headerType (bs.headD 0) = type.code := by
  rw [serializeAck] at h
  split at h
  · exact nomatch h
  · obtain rfl := Except.ok.inj h
    rw [List.cons_append, List.headD_cons, headerType_header]

theorem serializeZero_type {buflen : Nat} {type : MsgType} {bs : Bytes} (h : serializeZero buflen type = .ok bs) :
    headerType (bs.headD 0) = type.code := by
  rw [serializeZero] at h
  split at h
  · exact nomatch h
  · obtain rfl := Except.ok.inj h
    exact headerType_header ..

theorem serializeSubscribe_type {buflen : Nat} {dup : Bool} {id : Nat} {topicFilter : Bytes} {qos : Nat} {bs : Bytes}
    (h : serializeSubscribe buflen dup id topicFilter qos = .ok bs) : headerType (bs.headD 0) = MsgType.subscribe.code := by
  rw [serializeSubscribe] at h
  split at h
  · exact nomatch h
  · obtain rfl := Except.ok.inj h
    simp only [List.append_assoc, List.cons_append, List.headD_cons, headerType_header]

theorem serializeUnsubscribe_type {buflen : Nat} {dup : Bool} {id : Nat} {topicFilter bs : Bytes}
    (h : serializeUnsubscribe buflen dup id topicFilter = .ok bs) : headerType (bs.headD 0) = MsgType.unsubscribe.code := by
  rw [serializeUnsubscribe] at h
  split at h
  · exact nomatch h
  · obtain rfl := Except.ok.inj h
    simp only [List.append_assoc, List.cons_append, List.headD_cons, headerType_header]

theorem serializePublish_type {buflen : Nat} {dup : Bool} {qos : Nat} {retained : Bool} {id : Nat} {topicName payload bs : Bytes}
    (h : serializePublish buflen dup qos retained id topicName payload = .ok bs) :
    headerType (bs.headD 0) = MsgType.publish.code := by
  rw [serializePublish] at h
  generalize (if qos > 0 then 2 else 0) = idLength at h
  split at h
  · exact nomatch h
  · obtain rfl := Except.ok.inj h
    simp only [List.append_assoc, List.cons_append, List.headD_cons, headerType_header]

theorem serializeConnect_type {buflen : Nat} {options : ConnectData} {bs : Bytes}
    (h : serializeConnect buflen options = some (.ok bs)) : headerType (bs.headD 0) = MsgType.connect.code := by
  -- Whatever the strings are, the header is that of a CONNECT.
  let Typed (x : Option (Except Int Bytes)) : Prop := ∀ bs, x = some (.ok bs) → headerType (bs.headD 0) = MsgType.connect.code
  have bind {α : Type} {x : Option α} {f : α → Option (Except Int Bytes)} (hf : ∀ a, Typed (f a)) : Typed (x.bind f) := by
    intro bs hbs
    obtain ⟨a, _, ha⟩ := Option.bind_eq_some_iff.mp hbs
    exact hf a bs ha
  have choose {α : Type} {c : Prop} [Decidable c] {x y : Option α} {f : α → Option (Except Int Bytes)} (hf : ∀ a, Typed (f a)) :
      Typed (if c then x.bind f else y.bind f) := by
    split
    · exact bind hf
    · exact bind hf
  rw [serializeConnect] at h
  split at h
  · exact nomatch h
  · refine bind (fun _ => choose fun _ => choose fun _ => choose fun _ => choose fun _ => ?_) bs h
    intro bs hbs
    obtain rfl := Except.ok.inj (Option.some.inj hbs)
    simp only [List.append_assoc, List.cons_append, List.headD_cons, headerType_header]

/-! ## The ids of packets -/

theorem readInt_lt {buf : Bytes} {i n : Nat} (h : readInt buf i = some n) : n < 65536 := by
  simp only [readInt, Option.bind_eq_bind, Option.bind_eq_some_iff] at h
  obtain ⟨high, _, low, _, h⟩ := h
  obtain rfl := Option.some.inj h
  have := high.toNat_lt
  have := low.toNat_lt
  omega

theorem readInt_append_right (buf rest : Bytes) (i : Nat) : readInt (buf ++ rest) (buf.length + i) = readInt rest i := by
  rw [readInt, readInt, Nat.add_assoc, List.getElem?_append_right (Nat.le_add_right ..), List.getElem?_append_right (Nat.le_add_right ..),
    Nat.add_sub_cancel_left, Nat.add_sub_cancel_left]

theorem readInt_writeInt {n : Nat} (hn : n < 65536) (rest : Bytes) : readInt (writeInt n ++ rest) 0 = some n := by
  simp only [readInt, writeInt, List.cons_append, List.nil_append, List.getElem?_cons_zero, List.getElem?_cons_succ,
    Option.bind_eq_bind, Option.bind_some, UInt8.toNat_ofNat', Option.pure_def]
  exact congrArg some (by omega)

/-- An acknowledgement with its id is read alike whatever follows. -/
theorem deserializeAck_of_id {buf : Bytes} {id : Nat} (h : (deserializeAck buf).bind (·.packetid) = some id) (rest : Bytes) :
    ∃ ack, deserializeAck (buf ++ rest) = some ack ∧ ack.packetid = some id := by
  obtain ⟨ack, hack, hid⟩ := Option.bind_eq_some_iff.mp h
  exact ⟨ack, deserializeAck_append hack rest, hid⟩

theorem deserializeAck_id_lt {buf : Bytes} {id : Nat} (h : (deserializeAck buf).bind (·.packetid) = some id) : id < 65536 := by
  obtain ⟨ack, hack, hid⟩ := Option.bind_eq_some_iff.mp h
  simp only [deserializeAck, Option.bind_eq_bind, Option.bind_eq_some_iff] at hack
  obtain ⟨b, _, x, _, hack⟩ := hack
  split at hack
  · obtain rfl := Option.some.inj hack
    cases hid
  · obtain ⟨n, hn, hack⟩ := Option.bind_eq_some_iff.mp hack
    obtain rfl := Option.some.inj hack
    obtain rfl := Option.some.inj hid
    exact readInt_lt hn

/-- An acknowledgement carries the id it was made for. -/
theorem deserializeAck_serializeAck {buflen : Nat} {type : MsgType} {dup : Bool} {id : Nat} {bs : Bytes} (hid : id < 65536)
    (h : serializeAck buflen type dup id = .ok bs) : (deserializeAck bs).bind (·.packetid) = some id := by
  rw [serializeAck] at h
  split at h
  · exact nomatch h
  · obtain rfl := Except.ok.inj h
    have hread : readInt ([header type dup (if type = .pubrel then 1 else 0) false, 2] ++ writeInt id) 2 = some id := by
      have hright := readInt_append_right [header type dup (if type = .pubrel then 1 else 0) false, 2] (writeInt id) 0
      have hleft := readInt_writeInt hid []
      rw [List.append_nil] at hleft
      exact hright.trans hleft
    have hlen : decodeBuf (2 :: writeInt id) = some (1, 2) := rfl
    have hcode : encode 2 = [2] := by decide
    rw [hcode, List.singleton_append.symm]
    simp only [List.cons_append, List.nil_append] at hread ⊢
    simp only [deserializeAck, List.getElem?_cons_zero, List.tail_cons, hlen, Option.bind_eq_bind, Option.bind_some, hread]
    rfl

/-- The id of a PUBLISH, where it carries one. -/
def idOfPublish (packet : Bytes) : Option Nat := (deserializePublish packet).bind (·.packetid)

theorem readMQTTLenString_append {buf : Bytes} {cur end_ cur' : Nat} {s : MQTTLenString} {fits : Bool}
    (h : readMQTTLenString buf cur end_ = some (s, cur', fits)) (rest : Bytes) :
    ∃ s', readMQTTLenString (buf ++ rest) cur end_ = some (s', cur', fits) := by
  rw [readMQTTLenString] at h ⊢
  split at h
  · rw [if_pos ‹_›]
    obtain ⟨n, hn, h⟩ := Option.bind_eq_some_iff.mp h
    rw [readInt_append hn rest]
    dsimp only [Option.bind_eq_bind, Option.bind_some] at h ⊢
    split at h
    · rw [if_pos ‹_›]
      obtain ⟨_, rfl, rfl⟩ := Prod.mk.inj (Option.some.inj h) |>.imp_right Prod.mk.inj
      exact ⟨_, rfl⟩
    · rw [if_neg ‹_›]
      exact ⟨s, h⟩
  · rw [if_neg ‹_›]
    exact ⟨s, h⟩

/-- How a PUBLISH with an id is read. -/
theorem idOfPublish_iff {buf : Bytes} {id : Nat} : idOfPublish buf = some id ↔
    ∃ b n mylen topicName cur, buf[0]? = some b ∧ headerType b = MsgType.publish.code ∧ decodeBuf buf.tail = some (n, mylen) ∧
      readMQTTLenString buf (1 + n) (1 + n + mylen) = some (topicName, cur, true) ∧ 0 < headerQos b ∧ readInt buf cur = some id := by
  constructor
  · intro h
    obtain ⟨pub, h, hid⟩ := Option.bind_eq_some_iff.mp h
    obtain ⟨b, hb, h⟩ := Option.bind_eq_some_iff.mp h
    split at h
    · obtain rfl := Option.some.inj h
      exact nomatch hid
    rename_i htype
    obtain ⟨⟨n, mylen⟩, hlen, h⟩ := Option.bind_eq_some_iff.mp h
    obtain ⟨⟨topicName, cur, fits⟩, htopic, h⟩ := Option.bind_eq_some_iff.mp h
    dsimp only at h
    split at h
    · obtain rfl := Option.some.inj h
      exact nomatch hid
    rename_i hfits
    split at h
    · rename_i hqos
      obtain ⟨m, hm, h⟩ := Option.bind_eq_some_iff.mp h
      obtain rfl := Option.some.inj h
      obtain rfl := Option.some.inj hid
      rw [Bool.not_eq_true, Bool.not_eq_false] at hfits
      subst hfits
      exact ⟨b, n, mylen, topicName, cur, hb, not_not.mp htype, hlen, htopic, hqos, hm⟩
    · obtain rfl := Option.some.inj h
      exact nomatch hid
  · rintro ⟨b, n, mylen, topicName, cur, hb, htype, hlen, htopic, hqos, hm⟩
    simp only [idOfPublish, deserializePublish, hb, htype, hlen, htopic, hm, Option.bind_eq_bind, Option.bind_some, ne_eq,
      not_true_eq_false, if_false, gt_iff_lt, hqos, if_true, Option.pure_def]

/-- A PUBLISH with its id is read alike whatever follows. -/
theorem idOfPublish_append {buf : Bytes} {id : Nat} (h : idOfPublish buf = some id) (rest : Bytes) : idOfPublish (buf ++ rest) = some id := by
  obtain ⟨b, n, mylen, topicName, cur, hb, htype, hlen, htopic, hqos, hm⟩ := idOfPublish_iff.mp h
  obtain ⟨topicName', htopic'⟩ := readMQTTLenString_append htopic rest
  refine idOfPublish_iff.mpr ⟨b, n, mylen, topicName', cur, getElem?_append hb rest, htype, ?_, htopic', hqos, readInt_append hm rest⟩
  cases buf with
  | nil => exact nomatch hb
  | cons _ buf => exact decodeBuf_append hlen rest

/-- A PUBLISH that has its id was read to its end. -/
theorem deserializePublish_of_id {buf : Bytes} {pub : Publish} {id : Nat} (h : deserializePublish buf = some pub)
    (hid : pub.packetid = some id) : pub.rc = 1 ∧ 0 < pub.qos := by
  obtain ⟨b, _, h⟩ := Option.bind_eq_some_iff.mp h
  split at h
  · obtain rfl := Option.some.inj h
    exact nomatch hid
  obtain ⟨⟨n, mylen⟩, _, h⟩ := Option.bind_eq_some_iff.mp h
  obtain ⟨⟨topicName, cur, fits⟩, _, h⟩ := Option.bind_eq_some_iff.mp h
  dsimp only at h
  split at h
  · obtain rfl := Option.some.inj h
    exact nomatch hid
  split at h
  · rename_i hqos
    obtain ⟨m, _, h⟩ := Option.bind_eq_some_iff.mp h
    obtain rfl := Option.some.inj h
    exact ⟨rfl, hqos⟩
  · obtain rfl := Option.some.inj h
    exact nomatch hid

/-! ## A PUBLISH that is read back -/

theorem decodeBuf_go_encode_go {k fuel m multiplier n value : Nat} (hk : m < 128 ^ (k + 1)) (hf : m ≤ fuel) (rest : Bytes) :
    decodeBuf.go (k + 1) multiplier n value (encode.go fuel m ++ rest) =
      some (n + (encode.go fuel m).length, value + m * multiplier) := by
  -- The last digit says that there is no other one.
  have last {k fuel m multiplier n value : Nat} (hm : m < 128) :
      decodeBuf.go (k + 1) multiplier n value (encode.go fuel m ++ rest) =
        some (n + (encode.go fuel m).length, value + m * multiplier) := by
    have hone : encode.go fuel m = [UInt8.ofNat m] := by
      cases fuel with
      | zero => rw [encode.go, Nat.mod_eq_of_lt hm]
      | succ fuel => rw [encode.go, if_pos (by omega), Nat.mod_eq_of_lt hm]
    have hbyte : (UInt8.ofNat m).toNat = m := by
      simp only [UInt8.toNat_ofNat']
      omega
    rw [hone, List.singleton_append, decodeBuf.go, hbyte, Nat.mod_eq_of_lt hm, if_pos (by omega)]
    rfl
  induction k generalizing fuel m multiplier n value with
  | zero => exact last (by simpa using hk)
  | succ k ih =>
    by_cases hm : m < 128
    · exact last hm
    · obtain ⟨fuel, rfl⟩ : ∃ f, fuel = f + 1 := ⟨fuel - 1, by omega⟩
      have hdigit : (UInt8.ofNat (m % 128 + 128)).toNat = m % 128 + 128 := by
        simp only [UInt8.toNat_ofNat']
        omega
      have hdiv : m / 128 < 128 ^ (k + 1) := by
        rw [Nat.div_lt_iff_lt_mul (by decide), ← Nat.pow_succ]
        exact hk
      rw [encode.go, if_neg (by omega), List.cons_append, decodeBuf.go, hdigit, if_neg (by omega), ih hdiv (by omega), List.length_cons]
      have hvalue : value + (m % 128 + 128) % 128 * multiplier + m / 128 * (multiplier * 128) = value + m * multiplier := by
        calc value + (m % 128 + 128) % 128 * multiplier + m / 128 * (multiplier * 128)
            = value + (m % 128 + 128 * (m / 128)) * multiplier := by
              rw [Nat.add_mod_right, Nat.mod_mod, Nat.add_mul, Nat.mul_comm multiplier 128, ← Nat.mul_assoc,
                Nat.mul_comm (m / 128) 128, Nat.add_assoc]
          _ = value + m * multiplier := by rw [Nat.mod_add_div]
      rw [hvalue, Nat.add_assoc, Nat.add_comm 1]

/-- A remaining length of four digits at most is read back. -/
theorem decodeBuf_encode {m : Nat} (hm : m < 268435456) (rest : Bytes) :
    decodeBuf (encode m ++ rest) = some ((encode m).length, m) := by
  have h := @decodeBuf_go_encode_go 3 _ _ 1 0 0 hm (Nat.le_refl m) rest
  rwa [Nat.zero_add, Nat.zero_add, Nat.mul_one] at h

theorem headerQos_header (type : MsgType) (dup : Bool) (qos : Nat) (retain : Bool) : headerQos (header type dup qos retain) = qos % 4 := by
  have hcode : type.code < 15 := by cases type <;> decide
  have hqos : qos % 4 < 4 := Nat.mod_lt _ (by decide)
  simp only [headerQos, header, UInt8.toNat_ofNat']
  cases dup <;> cases retain <;> simp <;> omega

/-- What a PUBLISH has to fit in: an id and the length of a topic have two
bytes, a remaining length has four digits. -/
structure Writable (id qos : Nat) (topicName payload : Bytes) : Prop where
  id : id < 65536
  topic : topicName.length < 65536
  rest : 2 + topicName.length + payload.length + (if qos > 0 then 2 else 0) < 268435456

/-- A PUBLISH carries no other id than the one it was made for. -/
theorem idOfPublish_serializePublish {buflen : Nat} {dup : Bool} {qos : Nat} {retained : Bool} {id : Nat} {topicName payload bs : Bytes}
    (hw : Writable id qos topicName payload) (h : serializePublish buflen dup qos retained id topicName payload = .ok bs) :
    idOfPublish bs = if qos % 4 = 0 then none else some id := by
  obtain ⟨hid, htopic, hrest⟩ := hw
  rw [serializePublish] at h
  generalize hlen : 2 + topicName.length + payload.length + (if qos > 0 then 2 else 0) = remLen at h hrest
  split at h
  · exact nomatch h
  obtain rfl := Except.ok.inj h
  by_cases hqos : qos % 4 = 0
  · rw [if_pos hqos]
    cases hpub : idOfPublish (header .publish dup qos retained :: encode remLen ++ writeCString topicName ++
      (if qos > 0 then writeInt id else []) ++ payload) with
    | none => rfl
    | some i =>
      obtain ⟨b, _, _, _, _, hb, _, _, _, hpos, _⟩ := idOfPublish_iff.mp hpub
      obtain rfl : header .publish dup qos retained = b := Option.some.inj hb
      rw [headerQos_header] at hpos
      omega
  · have hpos : qos > 0 := Nat.pos_of_ne_zero fun h => hqos (by rw [h])
    rw [if_neg hqos]
    rw [if_pos hpos] at hlen ⊢
    generalize hbs : header .publish dup qos retained :: encode remLen ++ writeCString topicName ++ writeInt id ++ payload = bs
    have htail : bs.tail = encode remLen ++ (writeCString topicName ++ writeInt id ++ payload) := by
      rw [← hbs]
      simp only [List.cons_append, List.tail_cons, List.append_assoc]
    have htopicAt : readInt bs (1 + (encode remLen).length) = some topicName.length := by
      have hsplit : bs = (header .publish dup qos retained :: encode remLen) ++ (writeInt topicName.length ++
          (topicName ++ writeInt id ++ payload)) := by
        rw [← hbs]
        simp only [writeCString, List.cons_append, List.append_assoc]
      have hright := readInt_append_right (header .publish dup qos retained :: encode remLen)
        (writeInt topicName.length ++ (topicName ++ writeInt id ++ payload)) 0
      rw [readInt_writeInt htopic, ← hsplit, List.length_cons, Nat.add_zero, Nat.add_comm] at hright
      exact hright
    have hidAt : readInt bs (1 + (encode remLen).length + 2 + topicName.length) = some id := by
      have hsplit : bs = (header .publish dup qos retained :: encode remLen ++ writeCString topicName) ++ (writeInt id ++ payload) := by
        rw [← hbs]
        simp only [List.cons_append, List.append_assoc]
      have hright := readInt_append_right (header .publish dup qos retained :: encode remLen ++ writeCString topicName)
        (writeInt id ++ payload) 0
      have hindex : (header .publish dup qos retained :: encode remLen ++ writeCString topicName).length + 0 =
          1 + (encode remLen).length + 2 + topicName.length := by
        simp only [writeCString, writeInt, List.length_cons, List.length_append, List.length_nil]
        omega
      rw [readInt_writeInt hid, ← hsplit, hindex] at hright
      exact hright
    refine idOfPublish_iff.mpr ⟨header .publish dup qos retained, (encode remLen).length, remLen,
      { len := topicName.length, data := some ((bs.drop (1 + (encode remLen).length + 2)).take topicName.length) },
      1 + (encode remLen).length + 2 + topicName.length, ?_, headerType_header .., ?_, ?_, ?_, hidAt⟩
    · rw [← hbs]
      rfl
    · rw [htail]
      exact decodeBuf_encode hrest _
    · rw [readMQTTLenString, if_pos (by omega), htopicAt]
      dsimp only [Option.bind_eq_bind, Option.bind_some]
      rw [if_pos (by omega)]
      rfl
    · rw [headerQos_header]
      omega

/-- The QoS of a PUBLISH is in its first byte. -/
theorem deserializePublish_qos {buf : Bytes} {pub : Publish} (h : deserializePublish buf = some pub)
    (htype : headerType (buf.headD 0) = MsgType.publish.code) : pub.qos = headerQos (buf.headD 0) := by
  obtain ⟨b, hb, h⟩ := Option.bind_eq_some_iff.mp h
  have hhead : buf.headD 0 = b := by
    cases buf with
    | nil => exact nomatch hb
    | cons c buf => exact Option.some.inj hb
  rw [hhead] at htype ⊢
  rw [if_neg (not_not.mpr htype)] at h
  obtain ⟨⟨n, mylen⟩, _, h⟩ := Option.bind_eq_some_iff.mp h
  obtain ⟨⟨topicName, cur, fits⟩, _, h⟩ := Option.bind_eq_some_iff.mp h
  dsimp only at h
  split at h
  · rw [← Option.some.inj h]
  split at h
  · obtain ⟨_, _, h⟩ := Option.bind_eq_some_iff.mp h
    rw [← Option.some.inj h]
  · rw [← Option.some.inj h]

end MQTTPacket

end FEmbed
