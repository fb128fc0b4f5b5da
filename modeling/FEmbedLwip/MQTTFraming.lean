/-
Packets that `readPacket` takes from a stream over TCP: every packet that fits
into `readbuf` arrives, in whatever pieces `recv` gives it.
-/
import FEmbedLwip.MQTTFreeRTOS

namespace FEmbed

namespace MQTTFreeRTOS

open Live

variable {σ T : Type} {p : FreeRTOSPlatform σ T} {unread : σ → Bytes}

/-! ## Packets in a stream -/

/-- A packet: its header byte, with a type, and what its remaining length counts. -/
structure Frame where
  header : UInt8
  payload : Bytes
  type_ne : MQTTPacket.headerType header ≠ 0
  short : payload.length < 268435456

namespace Frame

def bytes (f : Frame) : Bytes := f.header :: MQTTPacket.encode f.payload.length ++ f.payload

def type (f : Frame) : Nat := MQTTPacket.headerType f.header

end Frame

/-- No time runs out while there is something to read, and only reading takes
it from what is unread. -/
structure Waits (p : FreeRTOSPlatform σ T) (unread : σ → Bytes) : Prop where
  select : ∀ n e, unread e ≠ [] → 0 < (p.select n e).1.ready ∧ (p.select n e).1.readset ∧ (p.select n e).1.errset = false
  select_unread : ∀ n e, unread (p.select n e).2 = unread e
  setTimeOutState : ∀ e, unread (p.setTimeOutState e) = unread e
  checkForTimeOut : ∀ e, (p.checkForTimeOut e).1 = false ∧ unread (p.checkForTimeOut e).2 = unread e
  timerLeftMS : ∀ t e, unread (p.timerLeftMS t e).2 = unread e
  timerCountdown : ∀ n e, unread (p.timerCountdown n e).2 = unread e

/-- `read` gives the bytes of a stream in order, in pieces of any length. -/
def Delivers (read : Nat → σ → (Int × Bytes) × σ) (unread : σ → Bytes) : Prop :=
  ∀ n e, 0 < n → unread e ≠ [] → ∃ k, 0 < k ∧ k ≤ n ∧ k ≤ (unread e).length ∧ (read n e).1 = ((k : Int), (unread e).take k) ∧
    unread (read n e).2 = (unread e).drop k

/-! ## Memory -/

@[simp] theorem bytes_put {c : MQTTFreeRTOS T} {bs : Bytes} {o : Object} (h : bs.length = (c.bytes o).length) :
    (c.put bs o).bytes o = bs := by
  cases o with
  | readbuf => rfl
  | i =>
    obtain ⟨b, rfl⟩ := List.length_eq_one_iff.mp h
    rfl

theorem put_put {c : MQTTFreeRTOS T} {a b : Bytes} {o : Object} (h : b.length = (c.bytes o).length) : (c.put a o).put b o = c.put b o := by
  cases o with
  | readbuf => rfl
  | i =>
    obtain ⟨b, rfl⟩ := List.length_eq_one_iff.mp h
    rfl

theorem put_self (c : MQTTFreeRTOS T) (o : Object) : c.put (c.bytes o) o = c := by
  cases o <;> rfl

theorem returns_store_bind {α : Type} {dst : Pointer} {bs out : Bytes} {f : Unit → Prog (Live σ (MQTTFreeRTOS T)) α}
    {c : MQTTFreeRTOS T} {e : σ} {a s'} (h : poke (c.bytes dst.object) dst.index bs = some out) :
    (store dst bs >>= f).Returns ⟨c, e⟩ a s' ↔ (f ()).Returns ⟨c.put out dst.object, e⟩ a s' := by
  refine Prog.returns_bind_of ?_
  rw [store, returns_obj_bind, h]
  exact returns_set.mpr rfl

theorem not_returns_store {dst : Pointer} {bs : Bytes} {c : MQTTFreeRTOS T} {e : σ} {u s'}
    (h : poke (c.bytes dst.object) dst.index bs = none) : ¬ (store dst bs).Returns ⟨c, e⟩ u s' := by
  rw [store, returns_obj_bind, h]
  exact Prog.returns_undefined

theorem returns_load_bind {α : Type} {src : Pointer} {bs : Bytes} {f : Bytes → Prog (Live σ (MQTTFreeRTOS T)) α}
    {c : MQTTFreeRTOS T} {e : σ} {a s'} (h : bs <+: (c.bytes src.object).drop src.index) :
    (load src bs.length >>= f).Returns ⟨c, e⟩ a s' ↔ (f bs).Returns ⟨c, e⟩ a s' := by
  refine Prog.returns_bind_of ?_
  rw [load, returns_obj_bind, if_neg (Nat.not_lt.mpr h.length_le), ← List.prefix_iff_eq_take.mp h]
  exact Prog.returns_pure.mpr ⟨rfl, rfl⟩

theorem not_returns_load {src : Pointer} {len : Nat} {c : MQTTFreeRTOS T} {e : σ} {bs s'}
    (h : ((c.bytes src.object).drop src.index).length < len) : ¬ (load src len).Returns ⟨c, e⟩ bs s' := by
  rw [load, returns_obj_bind, if_pos h]
  exact Prog.returns_undefined

theorem one_prefix_drop {bs : Bytes} {i : Nat} {b : UInt8} (h : bs[i]? = some b) : [b] <+: bs.drop i := by
  obtain ⟨hlt, rfl⟩ := List.getElem?_eq_some_iff.mp h
  rw [List.drop_eq_getElem_cons hlt]
  exact ⟨_, rfl⟩

theorem returns_loadByte {src : Pointer} {b : UInt8} {c : MQTTFreeRTOS T} {e : σ} (h : (c.bytes src.object)[src.index]? = some b) :
    (loadByte src).Returns (⟨c, e⟩ : Live σ (MQTTFreeRTOS T)) b ⟨c, e⟩ :=
  (returns_load_bind (one_prefix_drop h)).mpr (Prog.returns_pure.mpr ⟨rfl, rfl⟩)

theorem returns_loadByte_bind {α : Type} {src : Pointer} {b : UInt8} {f : UInt8 → Prog (Live σ (MQTTFreeRTOS T)) α}
    {c : MQTTFreeRTOS T} {e : σ} {a s'} (h : (c.bytes src.object)[src.index]? = some b) :
    (loadByte src >>= f).Returns ⟨c, e⟩ a s' ↔ (f b).Returns ⟨c, e⟩ a s' := Prog.returns_bind_of (returns_loadByte h)

/-! ## Reading over TCP -/

/-- The bytes that are asked for come, in as many pieces as it takes. -/
theorem espReceive_returns (hw : Waits p unread) (hd : Delivers p.recv unread) {dst : Pointer} {bs rest out : Bytes}
    {s : Live σ (MQTTFreeRTOS T)} (hpos : bs ≠ []) (hun : unread s.env = bs ++ rest)
    (hout : poke (s.self.bytes dst.object) dst.index bs = some out) :
    ∃ e, (espReceive p dst bs.length).Returns s bs.length ⟨s.self.put out dst.object, e⟩ ∧ unread e = rest := by
  -- What has come so far is in its place, and what is missing is next.
  let I (recvLen : Nat) (t : Live σ (MQTTFreeRTOS T)) : Prop := recvLen < bs.length ∧ unread t.env = bs.drop recvLen ++ rest ∧
    ∃ mid, poke (s.self.bytes dst.object) dst.index (bs.take recvLen) = some mid ∧ t.self = s.self.put mid dst.object
  let Q (rc : Int) (t : Live σ (MQTTFreeRTOS T)) : Prop := rc = bs.length ∧ t.self = s.self.put out dst.object ∧ unread t.env = rest
  have hfit := (poke_some hout).1
  have hstart : I 0 s := by
    refine ⟨List.length_pos_of_ne_nil hpos, hun, _, poke_same (by omega) List.nil_prefix, ?_⟩
    exact (put_self s.self dst.object).symm
  have hloop : ∃ rc t, (espReceive p dst bs.length).Returns s rc t ∧ Q rc t := by
    refine Prog.loop_returns Nat.lt_wfRel.wf I Q (fun recvLen _ => bs.length - recvLen) ?_ hstart
    rintro recvLen t ⟨hlt, hun, mid, hmid, hself⟩
    obtain ⟨k, hk, hkn, hklen, hread, hrest⟩ := hd (bs.length - recvLen) t.env (by omega) (by
      rw [hun]
      exact List.ne_nil_of_length_pos (by simp; omega))
    have hpiece : (unread t.env).take k = (bs.drop recvLen).take k := by
      rw [hun, List.take_append_of_le_length (by rw [List.length_drop]; exact hkn)]
    have hlen : ((bs.drop recvLen).take k).length = k := by simp; omega
    have hsofar : bs.take recvLen ++ (bs.drop recvLen).take k = bs.take (recvLen + k) := by
      rw [List.take_add]
    have hindex : (bs.take recvLen).length = recvLen := by simp; omega
    have hsize := poke_length hmid
    have hbytes : t.self.bytes dst.object = mid := by rw [hself, bytes_put hsize]
    obtain ⟨mid', hmid'⟩ : ∃ mid', poke mid (dst.index + recvLen) ((bs.drop recvLen).take k) = some mid' :=
      ⟨_, poke_eq_some (by rw [hlen, hsize]; omega)⟩
    have hall : poke (s.self.bytes dst.object) dst.index (bs.take (recvLen + k)) = some mid' := by
      rw [← hsofar]
      exact poke_append hmid (by rw [hindex]; exact hmid')
    have hself' : t.self.put mid' dst.object = s.self.put mid' dst.object := by
      rw [hself, put_put ((poke_length hall))]
    have hstored : poke (t.self.bytes (dst.add recvLen).object) (dst.add recvLen).index ((bs.drop recvLen).take k) = some mid' := by
      rw [Pointer.add]
      dsimp only
      rw [hbytes, hmid']
    have hunread : unread (p.recv (bs.length - recvLen) t.env).2 = bs.drop (recvLen + k) ++ rest := by
      rw [hrest, hun, List.drop_append_of_le_length (by rw [List.length_drop]; exact hkn), List.drop_drop]
    by_cases hmore : recvLen + k < bs.length
    · refine ⟨.next (recvLen + k), ⟨s.self.put mid' dst.object, (p.checkForTimeOut (p.recv (bs.length - recvLen) t.env).2).2⟩, ?_,
        ⟨hmore, ?_, mid', hall, rfl⟩,
        show bs.length - (recvLen + k) < bs.length - recvLen by omega⟩
      · rw [returns_call_bind, hread, hpiece]
        dsimp only
        rw [returns_store_bind hstored, if_neg (by omega), Int.toNat_natCast, if_pos hmore, returns_call_bind,
          (hw.checkForTimeOut _).1]
        exact Prog.returns_pure.mpr ⟨rfl, by rw [← hself']; rfl⟩
      · dsimp only
        rw [(hw.checkForTimeOut _).2, hunread]
    · have hend : recvLen + k = bs.length := by omega
      rw [hend, List.take_length, hout] at hall
      obtain rfl := Option.some.inj hall
      refine ⟨.exit ((recvLen + k : Nat) : Int), ⟨s.self.put out dst.object, (p.recv (bs.length - recvLen) t.env).2⟩, ?_, ?_, rfl, ?_⟩
      · rw [returns_call_bind, hread, hpiece]
        dsimp only
        rw [returns_store_bind hstored, if_neg (by omega), Int.toNat_natCast, if_neg hmore]
        exact Prog.returns_pure.mpr ⟨rfl, by rw [← hself']; rfl⟩
      · rw [hend]
      · dsimp only
        rw [hunread, hend, List.drop_length, List.nil_append]
  obtain ⟨_, t, hreturns, rfl, hself, hrest⟩ := hloop
  rw [← hself]
  exact ⟨t.env, hreturns, hrest⟩

theorem espRead_returns (hw : Waits p unread) (hd : Delivers p.recv unread) (dst : Pointer) (timeoutMs : Nat) {bs rest out : Bytes}
    {c : MQTTFreeRTOS T} {e : σ} (hpos : bs ≠ []) (hun : unread e = bs ++ rest)
    (hout : poke (c.bytes dst.object) dst.index bs = some out) :
    ∃ e', (espRead p dst bs.length timeoutMs).Returns ⟨c, e⟩ bs.length ⟨c.put out dst.object, e'⟩ ∧ unread e' = rest := by
  have hstart : unread (p.select timeoutMs (p.setTimeOutState e)).2 = bs ++ rest := by
    rw [hw.select_unread, hw.setTimeOutState, hun]
  obtain ⟨hready, hset, _⟩ := hw.select timeoutMs (p.setTimeOutState e) (by rw [hw.setTimeOutState, hun]; simp [hpos])
  obtain ⟨e', hreturns, hrest⟩ :=
    espReceive_returns hw hd (s := ⟨c, (p.select timeoutMs (p.setTimeOutState e)).2⟩) hpos hstart hout
  refine ⟨e', ?_, hrest⟩
  rw [espRead, returns_tell_bind, returns_call_bind, if_pos ⟨hready, hset⟩]
  exact hreturns

/-! ## The remaining length -/

theorem encode_ne_nil (m : Nat) : MQTTPacket.encode m ≠ [] := by
  rw [MQTTPacket.encode]
  cases m with
  | zero => exact List.cons_ne_nil _ _
  | succ m =>
    rw [MQTTPacket.encode.go]
    split <;> exact List.cons_ne_nil _ _

theorem encode_one {m : Nat} (hm : m < 128) : MQTTPacket.encode m = [UInt8.ofNat m] := by
  rw [MQTTPacket.encode]
  cases m with
  | zero => rfl
  | succ m => rw [MQTTPacket.encode.go, if_pos (by omega), Nat.mod_eq_of_lt hm]

/-- A longer length has a first digit that is not the last, and a second digit. -/
theorem encode_more {m : Nat} (hm : 128 ≤ m) : ∃ b d ds, MQTTPacket.encode m = b :: d :: ds ∧ b.toNat = m % 128 + 128 ∧
    (m < 16384 → d.toNat = m / 128) ∧ (16384 ≤ m → 128 ≤ d.toNat) := by
  obtain ⟨k, rfl⟩ : ∃ k, m = k + 2 := ⟨m - 2, by omega⟩
  rw [MQTTPacket.encode, MQTTPacket.encode.go, if_neg (by omega), MQTTPacket.encode.go]
  split
  · refine ⟨_, _, _, rfl, ?_, ?_, ?_⟩ <;> simp only [UInt8.toNat_ofNat'] <;> omega
  · refine ⟨_, _, _, rfl, ?_, ?_, ?_⟩ <;> simp only [UInt8.toNat_ofNat'] <;> omega

theorem timerLeftMS_returns {mqttread : MqttRead σ T} {timer : T} {c : MQTTFreeRTOS T} {e : σ} :
    (reader p mqttread timer).timerLeftMS.Returns ⟨c, e⟩ (p.timerLeftMS timer e).1 ⟨c, (p.timerLeftMS timer e).2⟩ :=
  returns_call.mpr ⟨rfl, rfl⟩

/-- The byte that is read is in `i`. -/
theorem mqttreadByte_returns {mqttread : MqttRead σ T} {timer : T} {timeout : Nat} {rc : Int} {c c' : MQTTFreeRTOS T} {e e' : σ}
    (hread : (mqttread ⟨.i, 0⟩ 1 timeout).Returns ⟨c, e⟩ rc ⟨c', e'⟩) :
    ((reader p mqttread timer).mqttreadByte timeout).Returns ⟨c, e⟩ (rc, c'.i) ⟨c', e'⟩ :=
  (Prog.returns_bind_of hread).mpr (returns_obj_bind.mpr (Prog.returns_pure.mpr ⟨rfl, rfl⟩))

/-- `decodePacket`, when a digit was read. -/
theorem decodePacket_go_read {mqttread : MqttRead σ T} {timer : T} {k multiplier value timeout : Nat} {c c' : MQTTFreeRTOS T} {e e' : σ}
    (hread : (mqttread ⟨.i, 0⟩ 1 timeout).Returns ⟨c, e⟩ 1 ⟨c', e'⟩) {r : Nat} {t} :
    (PacketReader.decodePacket.go (reader p mqttread timer) timeout (k + 1) multiplier value).Returns ⟨c, e⟩ r t ↔
      (if c'.i.toNat / 128 = 0 then pure (value + c'.i.toNat % 128 * multiplier) else
        PacketReader.decodePacket.go (reader p mqttread timer) timeout k (multiplier * 128)
          (value + c'.i.toNat % 128 * multiplier)).Returns ⟨c', e'⟩ r t := by
  rw [PacketReader.decodePacket.go, Prog.returns_bind_of (mqttreadByte_returns hread)]
  dsimp only
  rw [if_neg (by decide)]

/-- `decodePacket` reads what `MQTTPacket_decodeBuf` would in a buffer. -/
theorem decodePacket_go_returns (hw : Waits p unread) (hd : Delivers p.recv unread) (timer : T) (timeout : Nat) {k multiplier n value n' v : Nat}
    {bs : Bytes} {c : MQTTFreeRTOS T} {e : σ} (h : MQTTPacket.decodeBuf.go k multiplier n value bs = some (n', v)) (hk : n' ≤ n + k)
    (hun : unread e = bs) : ∃ b e', (PacketReader.decodePacket.go (reader p (espRead p) timer) timeout k multiplier value).Returns ⟨c, e⟩ v ⟨{ c with i := b }, e'⟩ ∧
      n ≤ n' ∧ unread e' = bs.drop (n' - n) := by
  induction k generalizing multiplier n value bs c e with
  | zero =>
    obtain ⟨rfl, _⟩ := Prod.mk.inj (Option.some.inj h)
    omega
  | succ k ih =>
    cases bs with
    | nil => exact nomatch h
    | cons b bs =>
      obtain ⟨e', hread, hrest⟩ := espRead_returns hw hd ⟨.i, 0⟩ timeout (c := c)
        (List.cons_ne_nil b []) hun rfl
      have hdigit : (espRead p ⟨.i, 0⟩ 1 timeout).Returns ⟨c, e⟩ 1 ⟨{ c with i := b }, e'⟩ := hread
      have hgo {v : Nat} {t : Live σ (MQTTFreeRTOS T)} :
          (PacketReader.decodePacket.go (reader p (espRead p) timer) timeout (k + 1) multiplier value).Returns ⟨c, e⟩ v t ↔ _ := decodePacket_go_read hdigit
      rw [MQTTPacket.decodeBuf.go] at h
      by_cases hlast : b.toNat / 128 = 0
      · rw [if_pos hlast] at h
        obtain ⟨rfl, rfl⟩ := Prod.mk.inj (Option.some.inj h)
        refine ⟨b, e', hgo.mpr ?_, by omega, ?_⟩
        · rw [if_pos hlast]
          exact Prog.returns_pure.mpr ⟨rfl, rfl⟩
        · rw [hrest, Nat.add_sub_cancel_left]
          rfl
      · rw [if_neg hlast] at h
        obtain ⟨b', e'', hreturns, hle, hdrop⟩ := ih (c := { c with i := b }) h (by omega) hrest
        refine ⟨b', e'', hgo.mpr ?_, by omega, ?_⟩
        · rw [if_neg hlast]
          exact hreturns
        · obtain ⟨d, rfl⟩ : ∃ d, n' = n + 1 + d := ⟨n' - (n + 1), by omega⟩
          rw [hdrop, Nat.add_sub_cancel_left, Nat.add_assoc, Nat.add_sub_cancel_left, Nat.add_comm 1 d]
          rfl

theorem decodePacket_returns (hw : Waits p unread) (hd : Delivers p.recv unread) (timer : T) (timeout : Nat) {m : Nat} (hm : m < 268435456)
    {rest : Bytes} {c : MQTTFreeRTOS T} {e : σ} (hun : unread e = MQTTPacket.encode m ++ rest) :
    ∃ b e', ((reader p (espRead p) timer).decodePacket timeout).Returns ⟨c, e⟩ m ⟨{ c with i := b }, e'⟩ ∧ unread e' = rest := by
  have hlen := MQTTPacket.encode_length hm
  obtain ⟨b, e', hreturns, _, hdrop⟩ := decodePacket_go_returns hw hd timer timeout (c := c) (MQTTPacket.decodeBuf_encode hm rest)
    (by omega) hun
  refine ⟨b, e', hreturns, ?_⟩
  rw [hdrop, Nat.sub_zero, List.drop_left]

/-! ## Packets over TCP -/

theorem packetRead_returns (hw : Waits p unread) {b : UInt8} {c : MQTTFreeRTOS T} {e : σ} (h : c.readbuf[0]? = some b) :
    ∃ l e', (packetRead p).Returns ⟨c, e⟩ (MQTTPacket.headerType b) ⟨{ c with lastReceived := l }, e'⟩ ∧ unread e' = unread e := by
  have hbyte : (c.bytes .readbuf)[0]? = some b := h
  by_cases hkeep : c.keepAliveInterval > 0
  · refine ⟨(p.timerCountdown c.keepAliveInterval e).1, (p.timerCountdown c.keepAliveInterval e).2, ?_, hw.timerCountdown ..⟩
    rw [packetRead, returns_loadByte_bind hbyte, returns_obj_bind, if_pos hkeep, returns_call_bind, returns_set_bind]
    exact Prog.returns_pure.mpr ⟨rfl, rfl⟩
  · refine ⟨c.lastReceived, e, ?_, rfl⟩
    rw [packetRead, returns_loadByte_bind hbyte, returns_obj_bind, if_neg hkeep]
    exact Prog.returns_pure.mpr ⟨rfl, rfl⟩

/-- A frame is in the buffer, and `rest` is unread. -/
structure Received (unread : σ → Bytes) (f : Frame) (rest : Bytes) (size : Nat) (t : Live σ (MQTTFreeRTOS T)) : Prop where
  bytes : t.self.readbuf.take f.bytes.length = f.bytes
  size : t.self.readbuf.length = size
  unread : unread t.env = rest

theorem Frame.length_bytes (f : Frame) : f.bytes.length = 1 + (MQTTPacket.encode f.payload.length).length + f.payload.length := by
  rw [Frame.bytes, List.length_append, List.length_cons]
  omega

theorem Frame.header_of_take {f : Frame} {out : Bytes} (h : out.take f.bytes.length = f.bytes) : out[0]? = some f.header := by
  cases out with
  | nil => exact nomatch h
  | cons b out => exact congrArg some (List.cons.inj h).1

/-- `readPacket`, when the header and the remaining length are there. -/
theorem readPacket_begun {mqttread : MqttRead σ T} {timer : T} {c c₁ c₂ : MQTTFreeRTOS T} {e e₁ e₂ : σ} {m : Nat} {out : Bytes}
    (hheader : (mqttread ⟨.readbuf, 0⟩ 1 (p.timerLeftMS timer e).1).Returns ⟨c, (p.timerLeftMS timer e).2⟩ 1 ⟨c₁, e₁⟩)
    (hdecode : ((reader p mqttread timer).decodePacket (p.timerLeftMS timer e₁).1).Returns ⟨c₁, (p.timerLeftMS timer e₁).2⟩ m ⟨c₂, e₂⟩)
    (hout : poke c₂.readbuf 1 (MQTTPacket.encode m) = some out) (hfit : 1 + (MQTTPacket.encode m).length + m ≤ out.length) (rc : Int) {t} :
    (readPacket p mqttread timer).Returns ⟨c, e⟩ rc t ↔
      (if m > 0 then do
        let rc ← mqttread ⟨.readbuf, 1 + (MQTTPacket.encode m).length⟩ m (← call (p.timerLeftMS timer))
        if rc ≠ m then
          return 0
        packetRead p
      else packetRead p).Returns ⟨{ c₂ with readbuf := out }, e₂⟩ rc t := by
  have hstore : poke (c₂.bytes .readbuf) 1 (MQTTPacket.encode m) = some out := hout
  have hroom : ¬ m > (c₂.put out .readbuf).readbuf.length - (1 + (MQTTPacket.encode m).length) := by
    show ¬ m > out.length - _
    omega
  rw [readPacket, PacketReader.returns_readPacket timerLeftMS_returns hheader timerLeftMS_returns, Prog.returns_bind_of hdecode,
    PacketReader.readRest]
  dsimp only [reader]
  rw [returns_store_bind hstore, Prog.returns_gets_bind, if_neg hroom]
  rfl

theorem readPacket_returns (hw : Waits p unread) (hd : Delivers p.recv unread) (timer : T) {f : Frame} {rest : Bytes}
    {c : MQTTFreeRTOS T} {e : σ} (hun : unread e = f.bytes ++ rest) (hfit : f.bytes.length ≤ c.readbuf.length) :
    ∃ t, (readPacket p (espRead p) timer).Returns ⟨c, e⟩ f.type t ∧ Received unread f rest c.readbuf.length t := by
  have hlen := f.length_bytes
  have hcut : unread (p.timerLeftMS timer e).2 = [f.header] ++ (MQTTPacket.encode f.payload.length ++ (f.payload ++ rest)) := by
    rw [hw.timerLeftMS, hun, Frame.bytes]
    simp only [List.cons_append, List.append_assoc, List.nil_append]
  obtain ⟨out₁, hout₁⟩ : ∃ out, poke c.readbuf 0 [f.header] = some out := ⟨_, poke_eq_some (by simp; omega)⟩
  obtain ⟨e₁, hheader, hun₁⟩ := espRead_returns hw hd ⟨.readbuf, 0⟩ (p.timerLeftMS timer e).1 (c := c)
    (List.cons_ne_nil _ _) hcut hout₁
  obtain ⟨b, e₂, hdecode, hun₂⟩ := decodePacket_returns hw hd timer (p.timerLeftMS timer e₁).1 f.short
    (c := { c with readbuf := out₁ }) ((hw.timerLeftMS timer e₁).trans hun₁)
  have hsize₁ : out₁.length = c.readbuf.length := poke_length hout₁
  obtain ⟨out₂, hout₂⟩ : ∃ out, poke out₁ 1 (MQTTPacket.encode f.payload.length) = some out := ⟨_, poke_eq_some (by omega)⟩
  have hsize₂ : out₂.length = c.readbuf.length := (poke_length hout₂).trans hsize₁
  have htake₁ : out₁.take 1 = [f.header] := poke_take hout₁
  have htake₂ : out₂.take (1 + (MQTTPacket.encode f.payload.length).length) = f.header :: MQTTPacket.encode f.payload.length := by
    rw [poke_take hout₂, htake₁]
    rfl
  have hbegun {rc : Int} {t : Live σ (MQTTFreeRTOS T)} := readPacket_begun (p := p) (t := t) hheader hdecode hout₂ (by omega) rc
  by_cases hpos : f.payload = []
  · have htake : out₂.take f.bytes.length = f.bytes := by
      have hbytes : f.bytes = f.header :: MQTTPacket.encode f.payload.length := by rw [Frame.bytes, hpos, List.append_nil]
      rw [hbytes, List.length_cons, Nat.add_comm]
      exact htake₂
    obtain ⟨l, e₃, hdone, hun₃⟩ := packetRead_returns hw (c := { c with readbuf := out₂, i := b }) (e := e₂) (Frame.header_of_take htake)
    refine ⟨⟨{ c with readbuf := out₂, i := b, lastReceived := l }, e₃⟩, hbegun.mpr ?_, htake, hsize₂, ?_⟩
    · rw [if_neg (by rw [hpos]; decide)]
      exact hdone
    · dsimp only
      rw [hun₃, hun₂, hpos]
      rfl
  · obtain ⟨out₃, hout₃⟩ : ∃ out, poke out₂ (1 + (MQTTPacket.encode f.payload.length).length) f.payload = some out :=
      ⟨_, poke_eq_some (by omega)⟩
    have htake : out₃.take f.bytes.length = f.bytes := by
      rw [hlen, poke_take hout₃, htake₂, Frame.bytes]
    obtain ⟨e₃, hpayload, hun₃⟩ := espRead_returns hw hd
      ⟨.readbuf, 1 + (MQTTPacket.encode f.payload.length).length⟩ (p.timerLeftMS timer e₂).1 (c := { c with readbuf := out₂, i := b }) hpos ((hw.timerLeftMS timer e₂).trans hun₂) hout₃
    obtain ⟨l, e₄, hdone, hun₄⟩ := packetRead_returns hw (c := { c with readbuf := out₃, i := b }) (e := e₃) (Frame.header_of_take htake)
    refine ⟨⟨{ c with readbuf := out₃, i := b, lastReceived := l }, e₄⟩, hbegun.mpr ?_, htake, (poke_length hout₃).trans hsize₂, hun₄.trans hun₃⟩
    rw [if_pos (List.length_pos_of_ne_nil hpos), returns_call_bind, Prog.returns_bind_of hpayload, if_neg (not_not.mpr rfl)]
    exact hdone

end MQTTFreeRTOS

end FEmbed
