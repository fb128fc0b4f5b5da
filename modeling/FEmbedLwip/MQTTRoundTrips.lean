/-
What a serializer has written is read back: the fields, a CONNECT, and packets
with members.

A packet is a `frame`: a header byte, a remaining length and as many bytes. A
field is read where it was written (`Segments.At`), whatever is before and
behind it. A CONNECT that is refused is refused for its credentials
(`deserializeConnect_serialized`), and members that are read are those that
were written, where the array has room for them (`readMembers_at`).
-/
import FEmbedLwip.MQTTServerPackets
import FEmbedLwip.Segments

namespace FEmbed

open Segments

/-! ## Strings -/

namespace MQTTString

/-- The text of a string. -/
def text (s : MQTTString) : Bytes :=
  match s.cstring with
  | some c => c
  | none => (s.lenstring.data.getD []).take s.lenstring.len

/-- Set in one way, and not too long for two bytes. -/
structure Sound (s : MQTTString) : Prop where
  one : s.cstring.isSome → s.lenstring.len = 0
  whole : s.cstring = none → s.lenstring.len ≤ (s.lenstring.data.getD []).length
  short : s.text.length < 65536

/-- As a deserializer gives it. -/
def seen (s : MQTTString) : MQTTString := { lenstring := { len := s.text.length, data := some s.text } }

end MQTTString

namespace MQTTPacket

theorem strlen_sound {s : MQTTString} (hs : s.Sound) : strlen s = s.text.length := by
  rw [strlen, MQTTString.text]
  cases hc : s.cstring with
  | some c => rfl
  | none => exact (List.length_take_of_le (hs.whole hc)).symm

theorem writeMQTTString_sound {s : MQTTString} (hs : s.Sound) : writeMQTTString s = some (writeCString s.text) := by
  cases hc : s.cstring with
  | some c =>
    have hlen : s.lenstring.len = 0 := hs.one (by rw [hc]; rfl)
    rw [writeMQTTString, if_neg (by omega), MQTTString.text, hc]
  | none =>
    have hlen := strlen_sound hs
    rw [strlen, hc] at hlen
    have hwhole := hs.whole hc
    rw [MQTTString.text, hc] at hlen ⊢
    rw [writeMQTTString, hc]
    dsimp only at hlen ⊢
    cases hd : s.lenstring.data with
    | none =>
      rw [hd] at hwhole
      have hzero : s.lenstring.len = 0 := Nat.le_zero.mp hwhole
      rw [if_neg (by omega), hzero]
      rfl
    | some d =>
      rw [hd] at hlen
      rw [Option.getD_some] at hlen ⊢
      by_cases hpos : s.lenstring.len > 0
      · rw [if_pos hpos, Option.map_some, writeCString, ← hlen]
      · rw [if_neg hpos, show s.lenstring.len = 0 by omega, List.take_zero]
        rfl

/-! ## Fields that are read where they were written -/

theorem length_writeInt (n : Nat) : (writeInt n).length = 2 := rfl

theorem length_writeCString (s : Bytes) : (writeCString s).length = 2 + s.length := by
  rw [writeCString, List.length_append, length_writeInt]

theorem readInt_at {n i : Nat} {buf : Bytes} (hn : n < 65536) (h : At (writeInt n) buf i) : readInt buf i = some n := by
  obtain ⟨hhigh, hlow⟩ := at_cons.mp h
  obtain ⟨hlow, _⟩ := at_cons.mp hlow
  simp only [readInt, hhigh, hlow, Option.bind_eq_bind, Option.bind_some, UInt8.toNat_ofNat', Option.pure_def]
  exact congrArg some (by omega)

theorem decodeBuf_at {m i : Nat} {buf : Bytes} (hm : m < 268435456) (h : At (encode m) buf i) :
    decodeBuf (buf.drop i) = some ((encode m).length, m) := by
  rw [h.drop]
  exact decodeBuf_encode hm _

theorem readMQTTLenString_at {t buf : Bytes} {i end_ : Nat} (ht : t.length < 65536) (h : At (writeCString t) buf i)
    (hend : i + (2 + t.length) ≤ end_) :
    readMQTTLenString buf i end_ = some ({ len := t.length, data := some t }, i + (2 + t.length), true) := by
  have hread := readInt_at ht h.left
  have htext := h.right.take
  rw [length_writeInt] at htext
  rw [readMQTTLenString, if_pos (by omega), hread]
  dsimp only [Option.bind_eq_bind, Option.bind_some]
  rw [if_pos (by omega), htext, Nat.add_assoc]
  rfl

theorem textField_at {t buf : Bytes} {i end_ : Nat} (ht : t.length < 65536) (h : At (writeCString t) buf i)
    (hend : i + (2 + t.length) ≤ end_) :
    stringField buf i end_ = some (some ({ lenstring := { len := t.length, data := some t } }, i + (2 + t.length))) := by
  rw [stringField, readMQTTLenString_at ht h hend]
  rfl

theorem stringField_at {s : MQTTString} {buf : Bytes} {i end_ : Nat} (hs : s.Sound) (h : At (writeCString s.text) buf i)
    (hend : i + (2 + s.text.length) ≤ end_) : stringField buf i end_ = some (some (s.seen, i + (2 + s.text.length))) :=
  textField_at hs.short h hend

/-! ## Frames -/

/-- A packet with its remaining length. -/
def frame (b : UInt8) (body : Bytes) : Bytes := b :: encode body.length ++ body

/-- A buffer that starts with a frame, whose remaining length takes `n` bytes. -/
structure Framed (b : UInt8) (body buf : Bytes) (n : Nat) : Prop where
  first : buf[0]? = some b
  length : decodeBuf buf.tail = some (n, body.length)
  body : At body buf (1 + n)

theorem framed {b : UInt8} {body : Bytes} (hlen : body.length < 268435456) (rest : Bytes) :
    Framed b body (frame b body ++ rest) (encode body.length).length := by
  have hat := at_start (frame b body) rest
  have hbody := hat.right
  obtain ⟨hfirst, hlength⟩ := at_cons.mp hat.left
  refine ⟨hfirst, ?_, ?_⟩
  · rw [← List.drop_one]
    exact decodeBuf_at hlen hlength
  · rwa [List.length_cons, Nat.add_comm _ 1, Nat.zero_add] at hbody

theorem length_frame (b : UInt8) (body : Bytes) : (frame b body).length = 1 + (encode body.length).length + body.length := by
  rw [frame, List.length_append, List.length_cons, Nat.add_comm _ 1]

/-! ## CONNECT -/

/-- What is sent of a string that may not be. -/
def optional (sent : Bool) (s : MQTTString) : Bytes := if sent then writeCString s.text else []

/-- The protocol's name and version, as they are written for a version. -/
def protocolField (mqttVersion : Nat) : Bytes :=
  if mqttVersion = 4 then writeCString [77, 81, 84, 84] ++ [4] else writeCString [77, 81, 73, 115, 100, 112] ++ [3]

/-- What follows the remaining length of a CONNECT. -/
def connectBody (options : ConnectData) : Bytes :=
  protocolField options.mqttVersion ++ ([connectFlags options] ++ (writeInt options.keepAliveInterval ++
    (writeCString options.clientID.text ++ (optional options.willFlag options.will.topicName ++
      (optional options.willFlag options.will.message ++ (optional (given options.username) options.username ++
        optional (given options.password) options.password))))))

end MQTTPacket

/-- What the fields of connect data hold. -/
structure ConnectData.Sound (options : ConnectData) : Prop where
  version : options.mqttVersion = 3 ∨ options.mqttVersion = 4
  keepAliveInterval : options.keepAliveInterval < 65536
  clientID : options.clientID.Sound
  topicName : options.willFlag → options.will.topicName.Sound
  message : options.willFlag → options.will.message.Sound
  qos : options.will.qos < 4
  username : MQTTPacket.given options.username → options.username.Sound
  password : MQTTPacket.given options.password → options.password.Sound
  rest : MQTTPacket.connectLength options < 268435456

namespace MQTTPacket

theorem bind_optional {β : Type} {sent : Bool} {s : MQTTString} (hs : sent → s.Sound) (f : Bytes → Option β) :
    (if sent then (writeMQTTString s).bind f else f []) = f (optional sent s) := by
  cases sent with
  | true =>
    rw [if_pos rfl, writeMQTTString_sound (hs rfl)]
    rfl
  | false => rfl

theorem length_optional (sent : Bool) (s : MQTTString) : (optional sent s).length = if sent then 2 + s.text.length else 0 := by
  cases sent with
  | true => exact length_writeCString _
  | false => rfl

theorem length_connectBody {options : ConnectData} (ho : options.Sound) : (connectBody options).length = connectLength options := by
  have hclient := strlen_sound ho.clientID
  have hwill : (if options.willFlag then strlen options.will.topicName + 2 + (strlen options.will.message + 2) else 0) =
      (if options.willFlag then 2 + options.will.topicName.text.length else 0) +
        (if options.willFlag then 2 + options.will.message.text.length else 0) := by
    split
    · rename_i h
      rw [strlen_sound (ho.topicName h), strlen_sound (ho.message h)]
      omega
    · rfl
  have hname : (if given options.username then strlen options.username + 2 else 0) =
      if given options.username then 2 + options.username.text.length else 0 := by
    split
    · rename_i h
      rw [strlen_sound (ho.username h), Nat.add_comm]
    · rfl
  have hpass : (if given options.password then strlen options.password + 2 else 0) =
      if given options.password then 2 + options.password.text.length else 0 := by
    split
    · rename_i h
      rw [strlen_sound (ho.password h), Nat.add_comm]
    · rfl
  have hprotocol : (protocolField options.mqttVersion).length + 3 =
      if options.mqttVersion = 3 then 12 else if options.mqttVersion = 4 then 10 else 0 := by
    rcases ho.version with h | h
    · rw [h]
      rfl
    · rw [h]
      rfl
  rw [connectLength, hclient, hwill, hname, hpass, ← hprotocol]
  simp only [connectBody, List.length_append, List.length_singleton, length_writeInt, length_writeCString, length_optional]
  omega

theorem serializeConnect_sound {options : ConnectData} (ho : options.Sound) (buflen : Nat) :
    serializeConnect buflen options =
      some (if len (connectLength options) > buflen then .error bufferTooShort
        else .ok (frame (header .connect false 0 false) (connectBody options))) := by
  rw [serializeConnect]
  split
  · rfl
  · rw [writeMQTTString_sound ho.clientID]
    dsimp only [Option.bind_eq_bind, Option.bind_some]
    rw [bind_optional ho.topicName, bind_optional ho.message, bind_optional ho.username, bind_optional ho.password]
    rw [frame, length_connectBody ho]
    simp only [connectBody, protocolField, List.cons_append, List.append_assoc]
    rfl

/-- The flags are those that were set. -/
theorem connectFlags_bits (options : ConnectData) :
    flagBit (connectFlags options) 1 = options.cleansession ∧ flagBit (connectFlags options) 2 = options.willFlag ∧
    flagBit (connectFlags options) 6 = given options.password ∧ flagBit (connectFlags options) 7 = given options.username := by
  have hqos : options.will.qos % 4 < 4 := Nat.mod_lt _ (by decide)
  simp only [flagBit, connectFlags, UInt8.toNat_ofNat']
  generalize options.will.qos % 4 = qos at hqos
  cases options.cleansession <;> cases options.willFlag <;> cases options.will.retained <;> cases given options.password <;>
    cases given options.username <;> simp <;> omega

theorem connectFlags_will {options : ConnectData} (hwill : options.willFlag = true) (hqos : options.will.qos < 4) :
    flagBit (connectFlags options) 5 = options.will.retained ∧ (connectFlags options).toNat / 8 % 4 = options.will.qos := by
  simp only [flagBit, connectFlags, UInt8.toNat_ofNat', Nat.mod_eq_of_lt hqos]
  generalize options.will.qos = qos at hqos
  rw [hwill]
  cases options.cleansession <;> cases options.will.retained <;> cases given options.password <;>
    cases given options.username <;> simp <;> omega

theorem connectWill_at {options data : ConnectData} {buf : Bytes} {cur end_ : Nat} (ho : options.Sound)
    (htopic : At (optional options.willFlag options.will.topicName) buf cur)
    (hmessage : At (optional options.willFlag options.will.message) buf
      (cur + (optional options.willFlag options.will.topicName).length))
    (hend : cur + (optional options.willFlag options.will.topicName).length +
      (optional options.willFlag options.will.message).length ≤ end_) :
    connectWill (connectFlags options) data buf cur end_ = some (some ({ data with
      willFlag := options.willFlag
      will := if options.willFlag then { options.will with
        topicName := options.will.topicName.seen
        message := options.will.message.seen } else data.will },
      cur + (optional options.willFlag options.will.topicName).length +
        (optional options.willFlag options.will.message).length)) := by
  rw [connectWill, (connectFlags_bits options).2.1]
  cases hwill : options.willFlag with
  | false => rfl
  | true =>
    obtain ⟨hretained, hqos⟩ := connectFlags_will hwill ho.qos
    rw [hwill] at htopic hmessage hend
    rw [length_optional, length_optional, if_pos rfl, if_pos rfl] at hend ⊢
    rw [length_optional, if_pos rfl] at hmessage
    rw [hretained, hqos, stringField_at (ho.topicName hwill) htopic (by omega)]
    dsimp only [Option.bind_eq_bind, Option.bind_some]
    rw [stringField_at (ho.message hwill) hmessage hend]
    rfl

/-- What the server's side asks of a user name and a password: no password
without a user name, and what is read last is not empty. -/
def Credentials (options : ConnectData) : Prop :=
  (given options.password → given options.username ∧ options.password.text ≠ []) ∧
    (given options.username → given options.password ∨ options.username.text ≠ [])

instance (options : ConnectData) : Decidable (Credentials options) := inferInstanceAs (Decidable (_ ∧ _))

theorem credential_at {s : MQTTString} {buf : Bytes} {i end_ : Nat} (hs : s.Sound) (h : At (writeCString s.text) buf i)
    (hend : i + (2 + s.text.length) ≤ end_) :
    credential buf i end_ = some (if end_ < i + 3 then none else some (s.seen, i + (2 + s.text.length))) := by
  rw [credential, stringField_at hs h hend]
  split <;> rfl

theorem connectCredentials_at {options data : ConnectData} {buf : Bytes} {cur : Nat} (ho : options.Sound)
    (hname : At (optional (given options.username) options.username) buf cur)
    (hpass : At (optional (given options.password) options.password) buf
      (cur + (optional (given options.username) options.username).length)) :
    connectCredentials (connectFlags options) data buf cur (cur + (optional (given options.username) options.username).length +
        (optional (given options.password) options.password).length) =
      some (if Credentials options then some { data with
        username := if given options.username then options.username.seen else data.username
        password := if given options.password then options.password.seen else data.password } else none) := by
  obtain ⟨_, _, hsix, hseven⟩ := connectFlags_bits options
  have hempty (t : Bytes) : t ≠ [] ↔ ¬ t.length = 0 := not_congr List.length_eq_zero_iff.symm
  rw [connectCredentials, hsix, hseven]
  cases hu : given options.username with
  | false =>
    cases hp : given options.password with
    | false =>
      have hc : Credentials options := by simp [Credentials, hu, hp]
      rw [if_pos hc]
      rfl
    | true =>
      have hc : ¬ Credentials options := by simp [Credentials, hu, hp]
      rw [if_neg hc]
      rfl
  | true =>
    rw [hu] at hname hpass
    cases hp : given options.password with
    | false =>
      have hc : Credentials options ↔ options.username.text ≠ [] := by simp [Credentials, hu, hp]
      have hlen : cur + (optional true options.username).length + (optional false options.password).length =
          cur + (2 + options.username.text.length) := by
        rw [length_optional, length_optional]
        rfl
      have hiff : cur + (2 + options.username.text.length) < cur + 3 ↔ ¬ Credentials options := by
        rw [hc, hempty]
        omega
      rw [hlen, if_pos rfl, credential_at (ho.username hu) hname (Nat.le_refl _)]
      by_cases h : Credentials options
      · rw [if_pos h, if_neg fun hlt => hiff.mp hlt h]
        rfl
      · rw [if_neg h, if_pos (hiff.mpr h)]
        rfl
    | true =>
      have hc : Credentials options ↔ options.password.text ≠ [] := by simp [Credentials, hu, hp]
      have hlen : cur + (optional true options.username).length + (optional true options.password).length =
          cur + (2 + options.username.text.length) + (2 + options.password.text.length) := by
        rw [length_optional, length_optional]
        rfl
      have hiff : cur + (2 + options.username.text.length) + (2 + options.password.text.length) <
          cur + (2 + options.username.text.length) + 3 ↔ ¬ Credentials options := by
        rw [hc, hempty]
        omega
      rw [hp, length_optional, if_pos rfl] at hpass
      rw [hlen, if_pos rfl, credential_at (ho.username hu) hname (by omega), if_neg (by omega)]
      dsimp only [Option.bind_eq_bind, Option.bind_some]
      rw [if_pos rfl, credential_at (ho.password hp) hpass (Nat.le_refl _)]
      by_cases h : Credentials options
      · rw [if_pos h, if_neg fun hlt => hiff.mp hlt h]
        rfl
      · rw [if_neg h, if_pos (hiff.mpr h)]
        rfl

/-- The data as a deserializer gives them; what is not sent stays. -/
def seenConnect (options data : ConnectData) : ConnectData := { data with
  clientID := options.clientID.seen
  keepAliveInterval := options.keepAliveInterval
  cleansession := options.cleansession
  willFlag := options.willFlag
  will := if options.willFlag then { options.will with
    topicName := options.will.topicName.seen
    message := options.will.message.seen } else data.will
  username := if given options.username then options.username.seen else data.username
  password := if given options.password then options.password.seen else data.password }

theorem protocolField_sound {mqttVersion : Nat} (h : mqttVersion = 3 ∨ mqttVersion = 4) :
    ∃ name : Bytes, ∃ version : UInt8, protocolField mqttVersion = writeCString name ++ [version] ∧ name.length < 65536 ∧
      checkVersion name version.toNat = true := by
  rcases h with rfl | rfl
  · exact ⟨[77, 81, 73, 115, 100, 112], 3, rfl, by decide, by decide⟩
  · exact ⟨[77, 81, 84, 84], 4, rfl, by decide, by decide⟩

/-- **A CONNECT is read back, or it is refused for its credentials.** -/
theorem deserializeConnect_serialized {options : ConnectData} (ho : options.Sound) (data : ConnectData) (rest : Bytes) :
    deserializeConnect data (frame (header .connect false 0 false) (connectBody options) ++ rest)
        (frame (header .connect false 0 false) (connectBody options)).length =
      some (if Credentials options then some (seenConnect options data) else none) := by
  have hlen := length_connectBody ho
  obtain ⟨hfirst, hlength, hbody⟩ := framed (b := header .connect false 0 false) (hlen.trans_lt ho.rest) rest
  rw [length_frame]
  generalize frame (header .connect false 0 false) (connectBody options) ++ rest = buf at hfirst hlength hbody
  generalize (encode (connectBody options).length).length = n at hlength hbody
  obtain ⟨name, version, hprotocol, hname, hcheck⟩ := protocolField_sound ho.version
  rw [connectBody, hprotocol, at_append, at_append, at_append, at_append, at_append, at_append, at_append, at_append] at hbody
  obtain ⟨⟨hname', hversion⟩, hflags, hkeep, hclient, htopic, hmessage, huser, hpass⟩ := hbody
  rw [List.length_append, length_writeCString, List.length_singleton] at hflags hkeep hclient htopic hmessage huser hpass
  rw [List.length_singleton] at hkeep hclient htopic hmessage huser hpass
  rw [length_writeInt] at hclient htopic hmessage huser hpass
  rw [length_writeCString] at hversion htopic hmessage huser hpass
  have hend : 1 + n + (connectBody options).length = 1 + n + (2 + name.length) + 1 + 1 + 2 + (2 + options.clientID.text.length) +
      (optional options.willFlag options.will.topicName).length + (optional options.willFlag options.will.message).length +
      (optional (given options.username) options.username).length + (optional (given options.password) options.password).length := by
    rw [connectBody, hprotocol]
    simp only [List.length_append, List.length_singleton, length_writeInt, length_writeCString]
    omega
  rw [← Nat.add_assoc (1 + n)] at hflags hkeep hclient htopic hmessage huser hpass
  rw [deserializeConnect, hfirst]
  dsimp only [Option.bind_eq_bind, Option.bind_some]
  rw [if_neg (not_not.mpr (headerType_header ..)), hlength]
  dsimp only [Option.bind_some]
  rw [textField_at hname hname' (by omega)]
  dsimp only [Option.bind_some, Option.getD_some]
  generalize 1 + n + (2 + name.length) = cur at hversion hflags hkeep hclient htopic hmessage huser hpass hend ⊢
  rw [(at_cons.mp hversion).1]
  dsimp only [Option.bind_some]
  rw [if_neg (not_not.mpr hcheck), (at_cons.mp hflags).1]
  dsimp only [Option.bind_some]
  rw [readInt_at (i := cur + 2) ho.keepAliveInterval hkeep]
  dsimp only [Option.bind_some]
  rw [stringField_at (i := cur + 4) ho.clientID hclient (by omega)]
  dsimp only [Option.bind_some]
  rw [connectWill_at ho htopic hmessage (by omega)]
  dsimp only [Option.bind_some]
  rw [hend]
  have hlast := @connectCredentials_at options { data with
    clientID := options.clientID.seen
    keepAliveInterval := options.keepAliveInterval
    cleansession := flagBit (connectFlags options) 1
    willFlag := options.willFlag
    will := if options.willFlag then { options.will with
      topicName := options.will.topicName.seen
      message := options.will.message.seen } else data.will } _ _ ho huser hpass
  rw [(connectFlags_bits options).1] at hlast ⊢
  exact hlast

/-! ## Members -/

theorem writeMembers_sound {β : Type} {member : β → Option Bytes} {enc : β → Bytes} {bs : List β}
    (h : ∀ b ∈ bs, member b = some (enc b)) : writeMembers member bs = some (bs.flatMap enc) := by
  induction bs with
  | nil => rfl
  | cons b bs ih =>
    rw [writeMembers, h b List.mem_cons_self, ih fun x hx => h x (List.mem_cons_of_mem b hx), List.flatMap_cons]
    rfl

/-- Members that are there are read, as long as there is room for them. -/
theorem readMembers_at {β γ : Type} {member : Nat → Option (Option (γ × Nat))} {enc : β → Bytes} {dec : β → γ} {bs : List β}
    {buf : Bytes} {end_ fuel room i : Nat}
    (hread : ∀ b ∈ bs, ∀ j, At (enc b) buf j → j + (enc b).length ≤ end_ → member j = some (some (dec b, j + (enc b).length)))
    (hne : ∀ b ∈ bs, enc b ≠ []) (hat : At (bs.flatMap enc) buf i) (hend : i + (bs.flatMap enc).length = end_)
    (hfuel : (bs.flatMap enc).length ≤ fuel) :
    readMembers member end_ fuel room i = if bs.length ≤ room then some (true, bs.map dec) else none := by
  induction bs generalizing fuel room i with
  | nil =>
    rw [if_pos (show ([] : List β).length ≤ room from Nat.zero_le room)]
    cases fuel with
    | zero => rfl
    | succ fuel => exact if_neg (by rw [List.flatMap_nil, List.length_nil] at hend; omega)
  | cons b bs ih =>
    have hpos := List.length_pos_of_ne_nil (hne b List.mem_cons_self)
    rw [List.flatMap_cons] at hat
    rw [List.flatMap_cons, List.length_append] at hend hfuel
    obtain ⟨hfirst, hrest⟩ := at_append.mp hat
    obtain ⟨fuel, rfl⟩ : ∃ f, fuel = f + 1 := ⟨fuel - 1, by omega⟩
    cases room with
    | zero => rw [readMembers, if_pos (by omega), if_neg (by rw [List.length_cons]; omega)]
    | succ room =>
      have hih : readMembers member end_ fuel room (i + (enc b).length) = if bs.length ≤ room then some (true, bs.map dec) else none :=
        ih (fun x hx => hread x (List.mem_cons_of_mem b hx)) (fun x hx => hne x (List.mem_cons_of_mem b hx)) hrest (by omega) (by omega)
      rw [readMembers, if_pos (by omega), hread b List.mem_cons_self i hfirst (by omega)]
      dsimp only [Option.bind_eq_bind, Option.bind_some]
      rw [hih, List.length_cons]
      by_cases hroom : bs.length ≤ room
      · rw [if_pos hroom, if_pos (Nat.succ_le_succ hroom)]
        rfl
      · rw [if_neg hroom, if_neg (fun h => hroom (Nat.le_of_succ_le_succ h))]
        rfl

theorem headerDup_header (type : MsgType) (dup : Bool) (qos : Nat) (retain : Bool) : headerDup (header type dup qos retain) = dup := by
  have hcode : type.code < 15 := by cases type <;> decide
  have hqos : qos % 4 < 4 := Nat.mod_lt _ (by decide)
  simp only [headerDup, header, UInt8.toNat_ofNat']
  cases dup <;> cases retain <;> simp <;> omega

theorem headerRetain_header (type : MsgType) (dup : Bool) (qos : Nat) (retain : Bool) :
    headerRetain (header type dup qos retain) = retain := by
  have hcode : type.code < 15 := by cases type <;> decide
  simp only [headerRetain, header, UInt8.toNat_ofNat']
  cases dup <;> cases retain <;> simp <;> omega

/-- A packet with members is read back where its array has room for them, and
is read into what is behind the array where it has not. -/
theorem deserializeMembers_serialized {β γ : Type} {type : MsgType} {wrongType : Int}
    {member : Bytes → Nat → Nat → Option (Option (γ × Nat))} {enc : β → Bytes} {dec : β → γ} {bs : List β} {dup : Bool}
    {packetid : Nat} (hid : packetid < 65536)
    (hread : ∀ b ∈ bs, ∀ buf j end_, At (enc b) buf j → j + (enc b).length ≤ end_ →
      member buf j end_ = some (some (dec b, j + (enc b).length)))
    (hne : ∀ b ∈ bs, enc b ≠ []) (hlen : (writeInt packetid ++ bs.flatMap enc).length < 268435456) (maxcount : Nat) (rest : Bytes) :
    deserializeMembers type wrongType member maxcount (frame (header type dup 1 false) (writeInt packetid ++ bs.flatMap enc) ++ rest) =
      if bs.length ≤ maxcount then some { rc := 1, dup := dup, packetid := some packetid, members := bs.map dec } else none := by
  obtain ⟨hfirst, hlength, hbody⟩ := framed (b := header type dup 1 false) hlen rest
  generalize frame (header type dup 1 false) (writeInt packetid ++ bs.flatMap enc) ++ rest = buf at hfirst hlength hbody
  generalize (encode (writeInt packetid ++ bs.flatMap enc).length).length = n at hlength hbody
  obtain ⟨hid', hmembers⟩ := at_append.mp hbody
  rw [length_writeInt] at hmembers
  have hsum : (writeInt packetid ++ bs.flatMap enc).length = 2 + (bs.flatMap enc).length := by
    rw [List.length_append, length_writeInt]
  rw [deserializeMembers, hfirst]
  dsimp only [Option.bind_eq_bind, Option.bind_some]
  rw [if_neg (not_not.mpr (headerType_header ..)), hlength, headerDup_header]
  dsimp only [Option.bind_some]
  rw [readInt_at hid hid']
  dsimp only [Option.bind_some]
  rw [readMembers_at (fun b hb j hj hend => hread b hb buf j _ hj hend) hne hmembers (by omega) (by omega)]
  split <;> rfl

end MQTTPacket

end FEmbed
