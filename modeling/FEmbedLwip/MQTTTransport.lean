/-
`MQTTPacket_read` and `MQTTPacket_readnb`: packets from a stream, with a
callback that waits for all that is asked for and with one that does not.

`readnb` gives up where nothing has come and goes on there in the next call.
However the stream comes in, the calls report the packets in it, each one with
its bytes in the buffer, in order and in the call in which the last byte comes
(`readnb_reports`).
-/
import FEmbedLwip.MQTTCodec
import Mathlib.Data.List.Forall2

namespace FEmbed

namespace MQTTPacket

/-! ## Transports -/

/-- `getfn`, with what it looks at: the bytes that it has read, no more than
asked for. No byte is "call again", and `none` is an error. -/
structure Getfn (σ : Type) where
  get : σ → Nat → Option Bytes × σ
  bounded : ∀ sck count bs, (get sck count).1 = some bs → bs.length ≤ count

/-- `MQTTTransport`, but for `getfn`. -/
structure MQTTTransport (σ : Type) where
  sck : σ
  multiplier : Nat := 0
  remLen : Nat := 0
  len : Nat := 0
  state : Nat := 0

variable {σ : Type} (getfn : Getfn σ)

/-- What a call leaves: what it returns, the buffer and the transport. -/
structure Polled (σ : Type) where
  rc : Int
  buf : Bytes
  trp : MQTTTransport σ

/-- `MQTTPacket_decodenb`: the number of digits, or 0 for call again, or -1. -/
def decodenb (trp : MQTTTransport σ) : Int × MQTTTransport σ :=
  let trp := if trp.len = 0 then { trp with multiplier := 1, remLen := 0 } else trp
  go (4 - trp.len) trp
where
  /-- The loop, with so many digits allowed. -/
  go : Nat → MQTTTransport σ → Int × MQTTTransport σ
    | 0, trp => (-1, trp)
    | k + 1, trp =>
      match getfn.get trp.sck 1 with
      | (none, sck) => (-1, { trp with sck := sck })
      | (some [], sck) => (0, { trp with sck := sck })
      | (some (c :: _), sck) =>
        let trp := { trp with
          sck := sck
          len := trp.len + 1
          remLen := trp.remLen + c.toNat % 128 * trp.multiplier
          multiplier := trp.multiplier * 128 }
        if c.toNat / 128 ≠ 0 then go k trp else (trp.len, trp)

/-- The end of `MQTTPacket_readnb`, for a packet in the buffer. -/
def packetRead (buf : Bytes) (trp : MQTTTransport σ) : Option (Polled σ) := do
  return ⟨headerType (← buf[0]?), buf, { trp with state := 0 }⟩

/-- Case 2: the rest of the packet. -/
def readRest (buf : Bytes) (trp : MQTTTransport σ) : Option (Polled σ) :=
  if trp.remLen ≠ 0 then
    match getfn.get trp.sck trp.remLen with
    | (none, sck) => some ⟨-1, buf, { trp with sck := sck, state := 0 }⟩
    | (some bs, sck) =>
      if bs.length = 0 then some ⟨0, buf, { trp with sck := sck }⟩
      else do
        let buf ← poke buf trp.len bs
        let trp := { trp with
          sck := sck
          remLen := trp.remLen - bs.length
          len := trp.len + bs.length }
        if trp.remLen ≠ 0 then
          return ⟨0, buf, trp⟩
        packetRead buf trp
  else packetRead buf trp

/-- Case 1: the remaining length, which is put back into the buffer. -/
def readLength (buflen : Nat) (buf : Bytes) (trp : MQTTTransport σ) : Option (Polled σ) :=
  let (frc, trp) := decodenb getfn trp
  if frc = -1 then some ⟨-1, buf, { trp with state := 0 }⟩
  else if frc = 0 then some ⟨0, buf, trp⟩
  else do
    let buf ← poke buf 1 (encode trp.remLen)
    let trp := { trp with len := 1 + (encode trp.remLen).length }
    if trp.remLen + trp.len > buflen then
      return ⟨-1, buf, { trp with state := 0 }⟩
    readRest getfn buf { trp with state := trp.state + 1 }

/-- Case 0: the header byte. -/
def readHeader (buflen : Nat) (buf : Bytes) (trp : MQTTTransport σ) : Option (Polled σ) :=
  match getfn.get trp.sck 1 with
  | (none, sck) => some ⟨-1, buf, { trp with sck := sck, state := 0 }⟩
  | (some bs, sck) =>
    if bs.length = 0 then some ⟨0, buf, { trp with sck := sck }⟩
    else do
      let buf ← poke buf 0 bs
      readLength getfn buflen buf { trp with sck := sck, len := 0, state := trp.state + 1 }

/-- `MQTTPacket_readnb`. -/
def readnb (buflen : Nat) (buf : Bytes) (trp : MQTTTransport σ) : Option (Polled σ) :=
  match trp.state with
  | 1 => readLength getfn buflen buf trp
  | 2 => readRest getfn buf trp
  | _ => readHeader getfn buflen buf { trp with state := 0 }

/-- `MQTTPacket_decode`, with the value as far as it got; that it was read to
its end is not looked at by `read`. -/
def decode : Nat → Nat → Nat → σ → Nat × σ
  | 0, _, value, sck => (value, sck)
  | k + 1, multiplier, value, sck =>
    match getfn.get sck 1 with
    | (some [c], sck) =>
      let value := value + c.toNat % 128 * multiplier
      if c.toNat / 128 ≠ 0 then decode k (multiplier * 128) value sck else (value, sck)
    | (_, sck) => (value, sck)

/-- `MQTTPacket_read`. -/
def read (buflen : Nat) (buf : Bytes) (sck : σ) : Option (Int × Bytes × σ) :=
  match getfn.get sck 1 with
  | (some [b], sck) => do
    let buf ← poke buf 0 [b]
    let (remLen, sck) := decode getfn 4 1 0 sck
    let buf ← poke buf 1 (encode remLen)
    let len := 1 + (encode remLen).length
    if remLen + len > buflen then
      return (-1, buf, sck)
    if remLen = 0 then
      return (headerType (← buf[0]?), buf, sck)
    match getfn.get sck remLen with
    | (none, sck) => return (-1, buf, sck)
    | (some bs, sck) =>
      let buf ← poke buf len bs
      if bs.length ≠ remLen then
        return (-1, buf, sck)
      return (headerType (← buf[0]?), buf, sck)
  | (none, sck) => some (-1, buf, sck)
  | (some _, sck) => some (-1, buf, sck)

/-! ## What has come of a packet -/

open MQTTFreeRTOS

/-- `getfn` gives the bytes of a stream in order, some of them or none. -/
def Arrives (unread : σ → Bytes) : Prop :=
  ∀ sck count, ∃ bs, (getfn.get sck count).1 = some bs ∧ unread sck = bs ++ unread (getfn.get sck count).2

/-- The digits that are missing from a remaining length. -/
structure Digits (unread : σ → Bytes) (m : Nat) (tail : Bytes) (more : Bytes) (trp : MQTTTransport σ) : Prop where
  unread : unread trp.sck = more ++ tail
  decoded : decodeBuf.go (4 - trp.len) trp.multiplier trp.len trp.remLen more = some (trp.len + more.length, m)
  room : trp.len + more.length ≤ 4

/-- The transport that `decodenb` begins with. -/
def begun (trp : MQTTTransport σ) : MQTTTransport σ :=
  if trp.len = 0 then { trp with multiplier := 1, remLen := 0 } else trp

/-- A packet of which something is missing, with `tail` behind it. -/
inductive Midway (unread : σ → Bytes) (f : Frame) (tail buf : Bytes) (trp : MQTTTransport σ) : Prop
  | length {more : Bytes} (state : trp.state = 1) (header : buf[0]? = some f.header) (suffix : more <:+ encode f.payload.length)
      (digits : Digits unread f.payload.length (f.payload ++ tail) more (begun trp))
  | rest {got more : Bytes} (state : trp.state = 2) (payload : f.payload = got ++ more) (missing : more ≠ [])
      (remLen : trp.remLen = more.length) (bytes : buf.take trp.len = f.header :: encode f.payload.length ++ got)
      (len : trp.len = 1 + (encode f.payload.length).length + got.length) (unread : unread trp.sck = more ++ tail)

/-- A call has got on with a packet, or it reports it. -/
structure Goes (unread : σ → Bytes) (f : Frame) (tail : Bytes) (size : Nat) (r : Polled σ) : Prop where
  size : r.buf.length = size
  goes : r.rc = 0 ∧ Midway unread f tail r.buf r.trp ∨
    r.rc = f.type ∧ f.bytes <+: r.buf ∧ r.trp.state = 0 ∧ unread r.trp.sck = tail

variable {getfn} {unread : σ → Bytes} {f : Frame} {tail buf : Bytes} {trp : MQTTTransport σ} {buflen : Nat}

theorem packetRead_goes (hbytes : f.bytes <+: buf) (hun : unread trp.sck = tail) :
    ∃ r, packetRead buf trp = some r ∧ Goes unread f tail buf.length r := by
  obtain ⟨rest, rfl⟩ := hbytes
  exact ⟨_, rfl, rfl, .inr ⟨rfl, List.prefix_append _ _, rfl, hun⟩⟩

theorem prefix_of_take {n : Nat} {bs : Bytes} (h : buf.take n = bs) : bs <+: buf := h ▸ List.take_prefix n buf

/-- The rest of the packet, or some of it. -/
theorem readRest_goes (ha : Arrives getfn unread) (got : Bytes) {more : Bytes} (hstate : trp.state = 2) (hpayload : f.payload = got ++ more)
    (hremLen : trp.remLen = more.length) (hbytes : buf.take trp.len = f.header :: encode f.payload.length ++ got)
    (hlen : trp.len = 1 + (encode f.payload.length).length + got.length) (hun : unread trp.sck = more ++ tail)
    (hfit : f.bytes.length ≤ buf.length) : ∃ r, readRest getfn buf trp = some r ∧ Goes unread f tail buf.length r := by
  have hwhole : f.bytes = (f.header :: encode f.payload.length ++ got) ++ more := by
    rw [Frame.bytes, hpayload, List.append_assoc]
  rw [readRest]
  by_cases hnone : more = []
  · rw [if_neg (by rw [hremLen, hnone]; decide)]
    rw [hnone, List.append_nil] at hwhole
    rw [hnone, List.nil_append] at hun
    exact packetRead_goes (hwhole ▸ prefix_of_take hbytes) hun
  have hpos := List.length_pos_of_ne_nil hnone
  rw [if_pos (by omega)]
  obtain ⟨bs, hbs, hnext⟩ := ha trp.sck trp.remLen
  have hle := getfn.bounded _ _ _ hbs
  rw [hremLen] at hle
  generalize hget : getfn.get trp.sck trp.remLen = x at hbs hnext
  obtain ⟨_, sck⟩ := x
  dsimp only at hbs hnext
  subst hbs
  dsimp only
  by_cases hzero : bs.length = 0
  · rw [if_pos hzero]
    obtain rfl := List.length_eq_zero_iff.mp hzero
    rw [hun, List.nil_append] at hnext
    exact ⟨_, rfl, rfl, .inl ⟨rfl, .rest hstate hpayload hnone hremLen hbytes hlen hnext.symm⟩⟩
  rw [if_neg hzero]
  -- What has come is the start of what is missing.
  obtain ⟨more', rfl⟩ : bs <+: more := by
    rw [hun] at hnext
    exact List.prefix_of_prefix_length_le (hnext ▸ List.prefix_append bs _) (List.prefix_append more tail) hle
  have hun' : more' ++ tail = unread sck := by
    rw [hun, List.append_assoc] at hnext
    exact List.append_cancel_left hnext
  have hframe : f.bytes.length = trp.len + bs.length + more'.length := by
    rw [hwhole, hlen]
    simp only [List.length_append, List.length_cons]
    omega
  obtain ⟨buf', hpoke⟩ : ∃ buf', poke buf trp.len bs = some buf' := ⟨_, poke_eq_some (by omega)⟩
  have hsize := poke_length hpoke
  have hrem : trp.remLen - bs.length = more'.length := by
    rw [hremLen, List.length_append]
    omega
  have hbytes' : buf'.take (trp.len + bs.length) = f.header :: encode f.payload.length ++ (got ++ bs) := by
    rw [poke_take hpoke, hbytes, List.append_assoc]
  rw [hpoke]
  dsimp only [Option.bind_eq_bind, Option.bind_some]
  by_cases hdone : more' = []
  · rw [if_neg (by rw [hrem, hdone]; decide), ← hsize]
    subst hdone
    refine packetRead_goes (prefix_of_take (n := trp.len + bs.length) ?_) hun'.symm
    rw [hbytes', Frame.bytes, hpayload, List.append_nil]
  · have hmore := List.length_pos_of_ne_nil hdone
    rw [if_pos (by omega)]
    refine ⟨_, rfl, hsize, .inl ⟨rfl, .rest hstate ?_ hdone hrem hbytes' ?_ hun'.symm⟩⟩
    · rw [hpayload, List.append_assoc]
    · rw [List.length_append]
      show trp.len + bs.length = _
      omega

theorem begun_len (trp : MQTTTransport σ) : (begun trp).len = trp.len := by
  rw [begun]
  split <;> rfl

theorem begun_state (trp : MQTTTransport σ) : (begun trp).state = trp.state := by
  rw [begun]
  split <;> rfl

theorem begun_begun (trp : MQTTTransport σ) : begun (begun trp) = begun trp := by
  rw [begun, begun_len]
  by_cases h : trp.len = 0
  · rw [if_pos h, begun, if_pos h]
  · rw [if_neg h]

theorem begun_sck (trp : MQTTTransport σ) (sck : σ) : begun { trp with sck := sck } = { begun trp with sck := sck } := by
  rw [begun, begun]
  split <;> rfl

theorem begun_of_pos {trp : MQTTTransport σ} (h : trp.len ≠ 0) : begun trp = trp := if_neg h

/-- Digits are read until the last or until none has come. -/
theorem decodenb_go_digits (ha : Arrives getfn unread) {m : Nat} {more : Bytes} (hbegun : begun trp = trp)
    (hd : Digits unread m tail more trp) :
    ∃ frc trp', decodenb.go getfn (4 - trp.len) trp = (frc, trp') ∧ trp'.state = trp.state ∧
      (frc = 0 ∧ begun trp' = trp' ∧ (∃ more', more' <:+ more ∧ Digits unread m tail more' trp') ∨
        frc ≠ 0 ∧ frc ≠ -1 ∧ trp'.remLen = m ∧ unread trp'.sck = tail) := by
  obtain ⟨hun, hdecoded, hroom⟩ := hd
  generalize hk : 4 - trp.len = k at hdecoded ⊢
  induction k generalizing trp more with
  | zero =>
    obtain ⟨hn, -⟩ := Prod.mk.inj (Option.some.inj hdecoded)
    omega
  | succ k ih =>
    cases more with
    | nil => cases hdecoded
    | cons c more =>
      obtain ⟨bs, hbs, hnext⟩ := ha trp.sck 1
      have hle := getfn.bounded _ _ _ hbs
      rw [decodenb.go]
      generalize hget : getfn.get trp.sck 1 = x at hbs hnext
      obtain ⟨_, sck⟩ := x
      dsimp only at hbs hnext
      subst hbs
      cases bs with
      | nil =>
        refine ⟨0, _, rfl, rfl, .inl ⟨rfl, ?_, c :: more, List.suffix_rfl, ?_, ?_, hroom⟩⟩
        · rw [begun_sck, hbegun]
        · rw [← hun, hnext]
          rfl
        · dsimp only
          rw [hk]
          exact hdecoded
      | cons b bs =>
        obtain rfl : bs = [] := List.length_eq_zero_iff.mp (by rw [List.length_cons] at hle; omega)
        rw [hun] at hnext
        obtain ⟨rfl, hrest⟩ := List.cons.inj hnext
        rw [decodeBuf.go] at hdecoded
        rw [List.length_cons] at hdecoded hroom
        dsimp only
        by_cases hlast : c.toNat / 128 = 0
        · rw [if_pos hlast] at hdecoded
          obtain ⟨hn, hm⟩ := Prod.mk.inj (Option.some.inj hdecoded)
          obtain rfl : more = [] := List.length_eq_zero_iff.mp (by omega)
          rw [if_neg (not_not.mpr hlast)]
          refine ⟨_, _, rfl, rfl, .inr ⟨?_, ?_, hm, hrest.symm⟩⟩ <;> omega
        · rw [if_neg hlast] at hdecoded
          rw [if_pos hlast]
          have hn : trp.len + (more.length + 1) = trp.len + 1 + more.length := by omega
          rw [hn] at hdecoded hroom
          obtain ⟨frc, trp', hgo, hstate, hout⟩ := @ih { trp with
            sck := sck
            len := trp.len + 1
            remLen := trp.remLen + c.toNat % 128 * trp.multiplier
            multiplier := trp.multiplier * 128 } more (begun_of_pos (Nat.succ_ne_zero _)) hrest.symm hroom
            (show 4 - (trp.len + 1) = k by omega) hdecoded
          refine ⟨frc, trp', hgo, hstate, hout.imp_left (And.imp_right (And.imp_right ?_))⟩
          rintro ⟨more', hsuffix, hmore⟩
          exact ⟨more', hsuffix.trans (List.suffix_cons c more), hmore⟩

/-- The remaining length, or some of its digits, and what there is behind it. -/
theorem readLength_goes (ha : Arrives getfn unread) {more : Bytes} (hstate : trp.state = 1) (hheader : buf[0]? = some f.header)
    (hsuffix : more <:+ encode f.payload.length)
    (hdigits : Digits unread f.payload.length (f.payload ++ tail) more (begun trp)) (hfit : f.bytes.length ≤ buflen)
    (hbuf : buflen ≤ buf.length) : ∃ r, readLength getfn buflen buf trp = some r ∧ Goes unread f tail buf.length r := by
  obtain ⟨frc, trp', hgo, hstate', hout⟩ := decodenb_go_digits ha (begun_begun trp) hdigits
  have hdecode : decodenb getfn trp = (frc, trp') := hgo
  rw [begun_state, hstate] at hstate'
  rw [readLength, hdecode]
  dsimp only
  rcases hout with ⟨rfl, hbegun, more', hsuffix', hmore⟩ | ⟨hzero, hneg, hremLen, hun⟩
  · rw [if_neg (by decide), if_pos rfl]
    exact ⟨_, rfl, rfl, .inl ⟨rfl, .length hstate' hheader (hsuffix'.trans hsuffix) (hbegun.symm ▸ hmore)⟩⟩
  · rw [if_neg hneg, if_neg hzero, hremLen]
    have hlen := f.length_bytes
    obtain ⟨buf', hpoke⟩ : ∃ buf', poke buf 1 (encode f.payload.length) = some buf' := ⟨_, poke_eq_some (by omega)⟩
    rw [hpoke]
    dsimp only [Option.bind_eq_bind, Option.bind_some]
    rw [if_neg (by omega), ← poke_length hpoke]
    refine readRest_goes ha [] ?_ rfl rfl ?_ rfl hun (by rw [poke_length hpoke]; omega)
    · show trp'.state + 1 = 2
      rw [hstate']
    · have htake : buf.take 1 = [f.header] := by
        rw [List.take_one, List.head?_eq_getElem?, hheader]
        rfl
      rw [poke_take hpoke, htake, List.append_nil]
      rfl

/-- The header byte, and what there is behind it. -/
theorem readHeader_goes (ha : Arrives getfn unread) (hstate : trp.state = 0) (hun : unread trp.sck = f.bytes ++ tail)
    (hfit : f.bytes.length ≤ buflen) (hbuf : buflen ≤ buf.length) :
    ∃ r, readHeader getfn buflen buf trp = some r ∧ r.buf.length = buf.length ∧
      (r.rc = 0 ∧ r.trp.state = 0 ∧ unread r.trp.sck = f.bytes ++ tail ∨ Goes unread f tail buf.length r) := by
  have hlen := f.length_bytes
  obtain ⟨bs, hbs, hnext⟩ := ha trp.sck 1
  have hle := getfn.bounded _ _ _ hbs
  rw [readHeader]
  generalize hget : getfn.get trp.sck 1 = x at hbs hnext
  obtain ⟨_, sck⟩ := x
  dsimp only at hbs hnext
  subst hbs
  dsimp only
  by_cases hzero : bs.length = 0
  · rw [if_pos hzero]
    obtain rfl := List.length_eq_zero_iff.mp hzero
    exact ⟨_, rfl, rfl, .inl ⟨rfl, hstate, hnext.symm.trans hun⟩⟩
  obtain ⟨b, rfl⟩ := List.length_eq_one_iff.mp (show bs.length = 1 by omega)
  rw [hun, Frame.bytes, List.cons_append, List.cons_append] at hnext
  obtain ⟨rfl, hrest⟩ := List.cons.inj hnext
  obtain ⟨buf', hpoke⟩ : ∃ buf', poke buf 0 [f.header] = some buf' :=
    ⟨_, poke_eq_some (show 0 + 1 ≤ buf.length by omega)⟩
  have hsize := poke_length hpoke
  have hheader : buf'[0]? = some f.header := by
    have htake : buf'.take 1 = [f.header] := poke_take hpoke
    obtain ⟨behind, rfl⟩ := prefix_of_take htake
    rfl
  rw [if_neg hzero, hpoke]
  dsimp only [Option.bind_eq_bind, Option.bind_some]
  have hdigits : Digits unread f.payload.length (f.payload ++ tail) (encode f.payload.length)
      (begun { trp with sck := sck, len := 0, state := trp.state + 1 }) := by
    refine ⟨?_, ?_, ?_⟩
    · rw [List.append_assoc] at hrest
      exact hrest.symm
    · have hdecoded := decodeBuf_encode f.short []
      rw [List.append_nil] at hdecoded
      rw [begun, if_pos rfl, Nat.zero_add]
      exact hdecoded
    · rw [begun, if_pos rfl, Nat.zero_add]
      exact MQTTPacket.encode_length f.short
  obtain ⟨r, hread, hgoes⟩ := readLength_goes ha (congrArg Nat.succ hstate) hheader List.suffix_rfl hdigits hfit (by omega)
  rw [hsize] at hgoes
  exact ⟨r, hread, hgoes.size, .inr hgoes⟩

/-! ## Packets -/

/-- The packets that have not been reported, of one of which some bytes may
have come. -/
inductive Awaits (unread : σ → Bytes) (fs : List Frame) (buf : Bytes) (trp : MQTTTransport σ) : Prop
  | idle (state : trp.state = 0) (unread : unread trp.sck = fs.flatMap Frame.bytes)
  | midway {f : Frame} {rest : List Frame} (cons : fs = f :: rest) (midway : Midway unread f (rest.flatMap Frame.bytes) buf trp)

/-- What one call reports of these packets. -/
inductive Reports (unread : σ → Bytes) (fs : List Frame) (r : Polled σ) : Prop
  | again (rc : r.rc = 0) (awaits : Awaits unread fs r.buf r.trp)
  | packet {f : Frame} {rest : List Frame} (cons : fs = f :: rest) (rc : r.rc = f.type) (bytes : f.bytes <+: r.buf)
      (state : r.trp.state = 0) (unread : unread r.trp.sck = rest.flatMap Frame.bytes)

theorem Goes.reports {rest : List Frame} {size : Nat} {r : Polled σ} (h : Goes unread f (rest.flatMap Frame.bytes) size r) :
    Reports unread (f :: rest) r := by
  rcases h.goes with ⟨hrc, hmidway⟩ | ⟨hrc, hbytes, hstate, hun⟩
  · exact .again hrc (.midway rfl hmidway)
  · exact .packet rfl hrc hbytes hstate hun

/-- One call. -/
theorem readnb_reports_step (ha : Arrives getfn unread) {fs : List Frame} (h : Awaits unread fs buf trp)
    (hfit : ∀ f ∈ fs, f.bytes.length ≤ buflen) (hbuf : buflen ≤ buf.length) :
    ∃ r, readnb getfn buflen buf trp = some r ∧ r.buf.length = buf.length ∧ Reports unread fs r := by
  cases h with
  | idle hstate hun =>
    rw [readnb, hstate]
    cases fs with
    | nil =>
      obtain ⟨bs, hbs, hnext⟩ := ha trp.sck 1
      rw [hun] at hnext
      obtain ⟨rfl, hnone⟩ := List.append_eq_nil_iff.mp hnext.symm
      refine ⟨⟨0, buf, { trp with sck := (getfn.get trp.sck 1).2, state := 0 }⟩, ?_, rfl, .again rfl (.idle rfl hnone)⟩
      rw [readHeader]
      dsimp only
      generalize getfn.get trp.sck 1 = x at hbs
      obtain ⟨_, sck⟩ := x
      dsimp only at hbs
      subst hbs
      rfl
    | cons f rest =>
      obtain ⟨r, hread, hsize, hout⟩ := readHeader_goes (show Arrives getfn unread from ha)
        (show ({ trp with state := 0 } : MQTTTransport σ).state = 0 from rfl) hun
        (hfit f (List.mem_cons_self ..)) hbuf
      refine ⟨r, hread, hsize, ?_⟩
      rcases hout with ⟨hrc, hstate', hun'⟩ | hgoes
      · exact .again hrc (.idle hstate' hun')
      · exact hgoes.reports
  | @midway f rest hcons hmidway =>
    subst hcons
    have hfit' := hfit f (List.mem_cons_self ..)
    cases hmidway with
    | length hstate hheader hsuffix hdigits =>
      rw [readnb, hstate]
      obtain ⟨r, hread, hgoes⟩ := readLength_goes ha hstate hheader hsuffix hdigits hfit' hbuf
      exact ⟨r, hread, hgoes.size, hgoes.reports⟩
    | rest hstate hpayload hmissing hremLen hbytes hlen hun =>
      rw [readnb, hstate]
      obtain ⟨r, hread, hgoes⟩ := readRest_goes ha _ hstate hpayload hremLen hbytes hlen hun (hfit'.trans hbuf)
      exact ⟨r, hread, hgoes.size, hgoes.reports⟩

/-- Some of what is awaited has come, but not the next packet. -/
theorem Awaits.pending {fs : List Frame} (h : Awaits unread fs buf trp) :
    ∃ got, fs.flatMap Frame.bytes = got ++ unread trp.sck ∧ ∀ f ∈ fs.head?, got.length < f.bytes.length := by
  cases h with
  | idle _ hun => exact ⟨[], by rw [hun, List.nil_append], fun f _ => by rw [f.length_bytes, List.length_nil]; omega⟩
  | @midway f rest hcons hmidway =>
    subst hcons
    have hmissing : ∃ got more, f.bytes = got ++ more ∧ more ≠ [] ∧ unread trp.sck = more ++ rest.flatMap Frame.bytes := by
      cases hmidway with
      | @length more _ _ hsuffix hdigits =>
        obtain ⟨got, hgot⟩ := hsuffix
        refine ⟨f.header :: got, more ++ f.payload, ?_, ?_, ?_⟩
        · rw [Frame.bytes, ← hgot, List.cons_append, List.cons_append, List.append_assoc]
        · intro hnone
          obtain ⟨rfl, -⟩ := List.append_eq_nil_iff.mp hnone
          have hdecoded := hdigits.decoded
          cases hk : 4 - (begun trp).len with
          | zero =>
            rw [hk] at hdecoded
            exact absurd (Prod.mk.inj (Option.some.inj hdecoded)).1 (Nat.succ_ne_self _)
          | succ k =>
            rw [hk] at hdecoded
            cases hdecoded
        · have hsck : (begun trp).sck = trp.sck := by
            rw [begun]
            split <;> rfl
          rw [← hsck, hdigits.unread, List.append_assoc]
      | @rest got more _ hpayload hmore _ _ _ hun =>
        refine ⟨f.header :: encode f.payload.length ++ got, more, ?_, hmore, hun⟩
        rw [Frame.bytes, hpayload, List.append_assoc]
    obtain ⟨got, more, hbytes, hmore, hun⟩ := hmissing
    refine ⟨got, ?_, fun g hg => ?_⟩
    · rw [hun, List.flatMap_cons, hbytes, List.append_assoc]
    · obtain rfl := Option.some.inj hg
      have := List.length_pos_of_ne_nil hmore
      rw [hbytes, List.length_append]
      omega

/-- Calls, with what each of them has left. While no packet has begun to come,
the buffer may be used for something else. -/
inductive Polls (getfn : Getfn σ) (buflen : Nat) (buf : Bytes) (trp : MQTTTransport σ) : List (Polled σ) → Bytes → MQTTTransport σ → Prop
  | start : Polls getfn buflen buf trp [] buf trp
  | call {rs : List (Polled σ)} {buf' : Bytes} {trp' : MQTTTransport σ} {r : Polled σ} (before : Polls getfn buflen buf trp rs buf' trp')
      (returned : readnb getfn buflen buf' trp' = some r) : Polls getfn buflen buf trp (rs ++ [r]) r.buf r.trp
  | reuse {rs : List (Polled σ)} {buf' buf'' : Bytes} {trp' : MQTTTransport σ} (before : Polls getfn buflen buf trp rs buf' trp')
      (idle : trp'.state = 0) (size : buf''.length = buf'.length) : Polls getfn buflen buf trp rs buf'' trp'

/-- What calls have reported of packets: `done`, and of `rest` some bytes have
come, but not the next packet. -/
structure Reported (unread : σ → Bytes) (done rest : List Frame) (rs : List (Polled σ)) (sck : σ) : Prop where
  reports : List.Forall₂ (fun r f => r.rc = f.type ∧ f.bytes <+: r.buf) (rs.filter (·.rc ≠ 0)) done
  pending : ∃ got, rest.flatMap Frame.bytes = got ++ unread sck ∧ ∀ f ∈ rest.head?, got.length < f.bytes.length

theorem polls_awaits (ha : Arrives getfn unread) {frames : List Frame} {buf' : Bytes} {trp' : MQTTTransport σ} {rs : List (Polled σ)}
    (hstate : trp.state = 0) (hun : unread trp.sck = frames.flatMap Frame.bytes) (hfit : ∀ f ∈ frames, f.bytes.length ≤ buflen)
    (hbuf : buflen ≤ buf.length) (hrun : Polls getfn buflen buf trp rs buf' trp') :
    ∃ done rest, frames = done ++ rest ∧ buflen ≤ buf'.length ∧ Awaits unread rest buf' trp' ∧
      List.Forall₂ (fun r f => r.rc = Int.ofNat f.type ∧ f.bytes <+: r.buf) (rs.filter (·.rc ≠ 0)) done := by
  induction hrun with
  | start => exact ⟨[], frames, rfl, hbuf, .idle hstate hun, .nil⟩
  | @call rs buf' trp' r _ hreturned ih =>
    obtain ⟨done, rest, hsplit, hsize, hawaits, hreports⟩ := ih
    obtain ⟨r', hread, hsize', hout⟩ := readnb_reports_step ha hawaits
      (fun f hf => hfit f (hsplit ▸ List.mem_append_right done hf)) hsize
    obtain rfl : r' = r := Option.some.inj (hread.symm.trans hreturned)
    rw [List.filter_append]
    cases hout with
    | again hrc hawaits' =>
      refine ⟨done, rest, hsplit, hsize.trans hsize'.ge, hawaits', ?_⟩
      rw [List.filter_singleton, hrc]
      simpa using hreports
    | @packet f fs hcons hrc hbytes hstate' hun' =>
      subst hcons
      refine ⟨done ++ [f], fs, by rw [hsplit, List.append_assoc]; rfl, hsize.trans hsize'.ge, .idle hstate' hun', ?_⟩
      have hne : r'.rc ≠ 0 := by
        rw [hrc]
        exact Int.natCast_ne_zero.mpr f.type_ne
      rw [List.filter_cons_of_pos (by simpa using hne)]
      exact List.rel_append hreports (.cons ⟨hrc, hbytes⟩ .nil)
  | @reuse rs buf' buf'' trp' _ hidle hsize' ih =>
    obtain ⟨done, rest, hsplit, hsize, hawaits, hreports⟩ := ih
    refine ⟨done, rest, hsplit, hsize.trans hsize'.ge, ?_, hreports⟩
    cases hawaits with
    | idle hstate' hun' => exact .idle hstate' hun'
    | midway _ hmidway =>
      cases hmidway with
      | length hstate' => exact absurd (hidle.symm.trans hstate') Nat.zero_ne_one
      | rest hstate' => exact absurd (hidle.symm.trans hstate') (by decide)

/-- **No packet is lost, made up or reported twice**, however a stream comes. -/
theorem readnb_reports (ha : Arrives getfn unread) {frames : List Frame} {buf' : Bytes} {trp' : MQTTTransport σ}
    {rs : List (Polled σ)} (hstate : trp.state = 0) (hun : unread trp.sck = frames.flatMap Frame.bytes)
    (hfit : ∀ f ∈ frames, f.bytes.length ≤ buflen) (hbuf : buflen ≤ buf.length) (hrun : Polls getfn buflen buf trp rs buf' trp') :
    (∃ done rest, frames = done ++ rest ∧ Reported unread done rest rs trp'.sck) ∧ (readnb getfn buflen buf' trp').isSome := by
  obtain ⟨done, rest, hsplit, hsize, hawaits, hreports⟩ := polls_awaits ha hstate hun hfit hbuf hrun
  obtain ⟨r, hread, -⟩ := readnb_reports_step ha hawaits (fun f hf => hfit f (hsplit ▸ List.mem_append_right done hf)) hsize
  exact ⟨⟨done, rest, hsplit, hreports, hawaits.pending⟩, hread ▸ rfl⟩

/-! ## A sender and a receiver -/

theorem forall₂_through {α β γ : Type} {R : α → β → Prop} {S : β → γ → Prop} {T : α → γ → Prop} (h : ∀ a b c, R a b → S b c → T a c)
    {as : List α} {bs : List β} {cs : List γ} (hR : List.Forall₂ R as bs) (hS : List.Forall₂ S bs cs) : List.Forall₂ T as cs := by
  induction hR generalizing cs with
  | nil =>
    cases hS
    exact .nil
  | cons hab _ ih =>
    cases hS with
    | cons hbc hrest => exact .cons (h _ _ _ hab hbc) (ih hrest)

/-- The packets that were written as `bss`, as frames. -/
theorem frames_of_serialized {charSigned : Bool} {maxcount : Nat} {packets : List Packet} {bss : List Bytes}
    (hsound : ∀ p ∈ packets, p.Sound charSigned maxcount)
    (hbss : List.Forall₂ (fun p bs => ∃ buflen, Packet.serialize buflen p = some (.ok bs)) packets bss) :
    ∃ frames : List Frame, frames.map Frame.bytes = bss ∧ List.Forall₂ (fun f x => f.type = x.1.type.code ∧ f.bytes = x.2 ∧
      ∀ rest, Packet.parse charSigned maxcount (x.2 ++ rest) x.2.length = some (some x.1.seen)) frames (packets.zip bss) := by
  induction hbss with
  | nil => exact ⟨[], rfl, .nil⟩
  | @cons p bs packets bss hbs _ ih =>
    obtain ⟨frames, hframes, hrel⟩ := ih fun q hq => hsound q (List.mem_cons_of_mem p hq)
    obtain ⟨buflen, hserialize⟩ := hbs
    have hp := hsound p (List.mem_cons_self ..)
    obtain ⟨-, rfl⟩ := Packet.serialize_frame hp.fields hserialize
    have htype : headerType p.first ≠ 0 := by
      rw [Packet.headerType_first]
      cases p.type <;> decide
    exact ⟨⟨p.first, p.body, htype, hp.rest⟩ :: frames, congrArg _ hframes,
      .cons ⟨Packet.headerType_first p, rfl, Packet.parse_sound hp⟩ hrel⟩

/-- **Packets arrive as they were sent**: what calls have reported are the
first of the packets that were written, and all of them when the whole stream
has come. -/
theorem packets_arrive {charSigned : Bool} {maxcount : Nat} {packets : List Packet} {bss : List Bytes} (ha : Arrives getfn unread)
    (hsound : ∀ p ∈ packets, p.Sound charSigned maxcount)
    (hbss : List.Forall₂ (fun p bs => ∃ buflen, Packet.serialize buflen p = some (.ok bs)) packets bss)
    (hstate : trp.state = 0) (hun : unread trp.sck = bss.flatten) (hfit : ∀ bs ∈ bss, bs.length ≤ buflen)
    (hbuf : buflen ≤ buf.length) {rs : List (Polled σ)} {buf' : Bytes} {trp' : MQTTTransport σ}
    (hrun : Polls getfn buflen buf trp rs buf' trp') :
    ∃ k ≤ packets.length, (unread trp'.sck = [] → k = packets.length) ∧
      List.Forall₂ (fun r x => r.rc = Int.ofNat x.1.type.code ∧
          Packet.parse charSigned maxcount r.buf x.2.length = some (some x.1.seen))
        (rs.filter (·.rc ≠ 0)) ((packets.zip bss).take k) := by
  have hlen := hbss.length_eq
  obtain ⟨frames, rfl, hrel⟩ := frames_of_serialized hsound hbss
  rw [List.length_map] at hlen
  obtain ⟨done, rest, hsplit, hreported⟩ := (readnb_reports ha hstate (hun.trans (List.flatMap_def ..).symm)
    (fun f hf => hfit _ (List.mem_map_of_mem hf)) hbuf hrun).1
  have hdone : done = frames.take done.length := by rw [hsplit, List.take_left]
  have hcount := congrArg List.length hsplit
  rw [List.length_append] at hcount
  refine ⟨done.length, by omega, fun hall => ?_, ?_⟩
  · obtain ⟨got, hgot, hpending⟩ := hreported.pending
    cases rest with
    | nil =>
      rw [List.length_nil] at hcount
      omega
    | cons f fs =>
      have hlt := hpending f rfl
      have hbytes := congrArg List.length hgot
      rw [hall, List.append_nil, List.flatMap_cons, List.length_append] at hbytes
      omega
  · have htaken := List.forall₂_take done.length hrel
    rw [← hdone] at htaken
    refine forall₂_through ?_ hreported.reports htaken
    rintro r f x ⟨hrc, behind, hbehind⟩ ⟨htype, hbytes, hparse⟩
    refine ⟨hrc.trans (congrArg _ htype), ?_⟩
    rw [← hbehind, hbytes]
    exact hparse behind

/-- A stream that comes a byte at a time, with nothing every other time. -/
def drip (sck : Bytes × Bool) (count : Nat) : Option Bytes × (Bytes × Bool) :=
  if sck.2 then (some (sck.1.take (min count 1)), (sck.1.drop (min count 1), false)) else (some [], (sck.1, true))

theorem drip_bounded (sck : Bytes × Bool) (count : Nat) (bs : Bytes) (h : (drip sck count).1 = some bs) : bs.length ≤ count := by
  rw [drip] at h
  split at h
  · cases h
    rw [List.length_take]
    omega
  · cases h
    exact Nat.zero_le count

def dripping : Getfn (Bytes × Bool) := ⟨drip, drip_bounded⟩

theorem arrives_dripping : Arrives dripping Prod.fst := by
  rintro ⟨bs, ready⟩ count
  cases ready with
  | true => exact ⟨bs.take (min count 1), rfl, (List.take_append_drop _ _).symm⟩
  | false => exact ⟨[], rfl, rfl⟩

theorem polls_dripping : Polls dripping 4 [9, 9, 9, 9] { sck := ([208, 0, 64, 2, 0, 7], false) }
    [⟨0, [9, 9, 9, 9], { sck := ([208, 0, 64, 2, 0, 7], true) }⟩,
      ⟨0, [208, 9, 9, 9], { sck := ([0, 64, 2, 0, 7], true), multiplier := 1, state := 1 }⟩,
      ⟨13, [208, 0, 9, 9], { sck := ([64, 2, 0, 7], false), multiplier := 128, len := 2 }⟩]
    [208, 0, 9, 9] { sck := ([64, 2, 0, 7], false), multiplier := 128, len := 2 } :=
  .call (.call (.call .start rfl) rfl) rfl

theorem puback_sound : (Packet.ack .puback false 7).Sound true 0 := ⟨⟨⟨by decide, by decide⟩, by decide, by decide⟩, trivial⟩

theorem pingresp_sound : (Packet.zero .pingresp).Sound true 0 :=
  ⟨⟨show MsgType.pingresp ∈ _ by decide, by decide, by decide⟩, trivial⟩

theorem packets_arrive_dripping : ∃ k ≤ 2, (([64, 2, 0, 7] : Bytes) = [] → k = 2) ∧
    List.Forall₂ (fun (r : Polled (Bytes × Bool)) (x : Packet × Bytes) => r.rc = Int.ofNat x.1.type.code ∧
        Packet.parse true 0 r.buf x.2.length = some (some x.1.seen))
      [⟨13, [208, 0, 9, 9], { sck := ([64, 2, 0, 7], false), multiplier := 128, len := 2 }⟩]
      ([(Packet.zero .pingresp, [208, 0]), (.ack .puback false 7, [64, 2, 0, 7])].take k) := by
  refine @packets_arrive _ dripping Prod.fst [9, 9, 9, 9] { sck := ([208, 0, 64, 2, 0, 7], false) } 4 true 0
    [.zero .pingresp, .ack .puback false 7] [[208, 0], [64, 2, 0, 7]] arrives_dripping ?_
    (.cons ⟨4, by decide⟩ (.cons ⟨4, by decide⟩ .nil)) rfl rfl (by decide) (by decide) _ _ _ polls_dripping
  intro p hp
  rcases List.mem_pair.mp hp with rfl | rfl
  · exact pingresp_sound
  · exact puback_sound

/-! ## A callback that waits -/

/-- `getfn` gives all that is asked for, where there is so much. -/
def Blocks (getfn : Getfn σ) (unread : σ → Bytes) : Prop :=
  ∀ sck bs tail, unread sck = bs ++ tail → ∃ sck', getfn.get sck bs.length = (some bs, sck') ∧ unread sck' = tail

theorem decode_digits (hb : Blocks getfn unread) {k multiplier n value n' m : Nat} {more : Bytes} {sck : σ}
    (hun : unread sck = more ++ tail) (hdecoded : decodeBuf.go k multiplier n value more = some (n', m)) (hn : n' = n + more.length)
    (hk : n' ≤ n + k) : ∃ sck', decode getfn k multiplier value sck = (m, sck') ∧ unread sck' = tail := by
  induction k generalizing multiplier n value more sck with
  | zero =>
    obtain ⟨hn', -⟩ := Prod.mk.inj (Option.some.inj hdecoded)
    omega
  | succ k ih =>
    cases more with
    | nil => cases hdecoded
    | cons c more =>
      obtain ⟨sck', hget, hrest⟩ := hb sck [c] (more ++ tail) hun
      have hget : getfn.get sck 1 = (some [c], sck') := hget
      rw [decodeBuf.go] at hdecoded
      rw [List.length_cons] at hn
      rw [decode, hget]
      dsimp only
      by_cases hlast : c.toNat / 128 = 0
      · rw [if_pos hlast] at hdecoded
        obtain ⟨hn', hm⟩ := Prod.mk.inj (Option.some.inj hdecoded)
        obtain rfl : more = [] := List.length_eq_zero_iff.mp (by omega)
        rw [if_neg (not_not.mpr hlast), hm]
        exact ⟨sck', rfl, hrest⟩
      · rw [if_neg hlast] at hdecoded
        rw [if_pos hlast]
        exact ih hrest hdecoded (by omega) (by omega)

/-- **`MQTTPacket_read` takes a packet that fits**; one that does not fit it
refuses, and leaves the payload to be taken for the next packet. -/
theorem read_frame (hb : Blocks getfn unread) {sck : σ} (hun : unread sck = f.bytes ++ tail) (hbuf : buflen ≤ buf.length)
    (hroom : 1 + (encode f.payload.length).length ≤ buf.length) : ∃ rc buf' sck', read getfn buflen buf sck = some (rc, buf', sck') ∧
      (f.bytes.length ≤ buflen → rc = f.type ∧ f.bytes <+: buf' ∧ unread sck' = tail) ∧
      (buflen < f.bytes.length → rc = -1 ∧ unread sck' = f.payload ++ tail) := by
  have hlen := f.length_bytes
  have hdigits := MQTTPacket.encode_length f.short
  obtain ⟨sck₁, hget, hun₁⟩ := hb sck [f.header] (encode f.payload.length ++ (f.payload ++ tail)) (by
    rw [hun, Frame.bytes]
    simp only [List.cons_append, List.append_assoc, List.nil_append])
  have hget : getfn.get sck 1 = (some [f.header], sck₁) := hget
  have hdecoded := decodeBuf_encode f.short []
  rw [List.append_nil] at hdecoded
  obtain ⟨sck₂, hdecode, hun₂⟩ := decode_digits hb hun₁ hdecoded (Nat.zero_add _).symm (by omega)
  obtain ⟨buf₁, hpoke₁⟩ : ∃ out, poke buf 0 [f.header] = some out := ⟨_, poke_eq_some (show 0 + 1 ≤ buf.length by omega)⟩
  have hsize₁ := poke_length hpoke₁
  obtain ⟨buf₂, hpoke₂⟩ : ∃ out, poke buf₁ 1 (encode f.payload.length) = some out := ⟨_, poke_eq_some (by omega)⟩
  have hsize₂ := poke_length hpoke₂
  have htake₁ : buf₁.take 1 = [f.header] := poke_take hpoke₁
  have htake₂ : buf₂.take (1 + (encode f.payload.length).length) = f.header :: encode f.payload.length := by
    rw [poke_take hpoke₂, htake₁]
    rfl
  rw [read, hget]
  dsimp only
  rw [hpoke₁]
  dsimp only [Option.bind_eq_bind, Option.bind_some]
  rw [hdecode]
  dsimp only
  rw [hpoke₂]
  dsimp only [Option.bind_some]
  by_cases hfit : f.bytes.length ≤ buflen
  · rw [if_neg (by omega)]
    by_cases hzero : f.payload.length = 0
    · rw [if_pos hzero]
      have hnone := List.length_eq_zero_iff.mp hzero
      have hbytes : f.bytes <+: buf₂ := by
        rw [Frame.bytes, hnone, List.append_nil]
        exact prefix_of_take (hnone ▸ htake₂)
      obtain ⟨behind, rfl⟩ := hbytes
      refine ⟨_, _, _, rfl, fun _ => ?_, fun hlt => absurd hfit (Nat.not_le.mpr hlt)⟩
      exact ⟨rfl, List.prefix_append _ _, hun₂.trans (by rw [hnone]; rfl)⟩
    · rw [if_neg hzero]
      obtain ⟨sck₃, hget₃, hun₃⟩ := hb sck₂ f.payload tail hun₂
      obtain ⟨buf₃, hpoke₃⟩ : ∃ out, poke buf₂ (1 + (encode f.payload.length).length) f.payload = some out :=
        ⟨_, poke_eq_some (by omega)⟩
      have hbytes : f.bytes <+: buf₃ := by
        refine prefix_of_take (n := 1 + (encode f.payload.length).length + f.payload.length) ?_
        rw [poke_take hpoke₃, htake₂]
        rfl
      rw [hget₃]
      dsimp only
      rw [hpoke₃]
      dsimp only [Option.bind_some]
      rw [if_neg (not_not.mpr rfl)]
      obtain ⟨behind, rfl⟩ := hbytes
      refine ⟨_, _, _, rfl, fun _ => ?_, fun hlt => absurd hfit (Nat.not_le.mpr hlt)⟩
      exact ⟨rfl, List.prefix_append _ _, hun₃⟩
  · rw [if_pos (by omega)]
    exact ⟨_, _, _, rfl, fun hle => absurd hle hfit, fun _ => ⟨rfl, hun₂⟩⟩

/-- All that is asked for, at once. -/
def atOnce : Getfn Bytes := ⟨fun sck count => (some (sck.take count), sck.drop count), fun _ count _ h =>
  Option.some.inj h ▸ List.length_take_le count _⟩

theorem blocks_atOnce : Blocks atOnce id := by
  rintro sck bs tail rfl
  exact ⟨tail, congrArg₂ Prod.mk (congrArg some (List.take_left' rfl)) (List.drop_left' rfl), rfl⟩

theorem read_frame_refused : ∃ rc buf' sck', read atOnce 2 [9, 9] [48, 4, 0, 1, 97, 98, 208, 0] = some (rc, buf', sck') ∧
    rc = -1 ∧ sck' = [0, 1, 97, 98, 208, 0] := by
  obtain ⟨rc, buf', sck', hread, -, hrefused⟩ := @read_frame _ _ _ ⟨48, [0, 1, 97, 98], by decide, by decide⟩
    [208, 0] [9, 9] 2 blocks_atOnce [48, 4, 0, 1, 97, 98, 208, 0] rfl (by decide) (by decide)
  exact ⟨rc, buf', sck', hread, hrefused (by decide)⟩

end MQTTPacket

end FEmbed
