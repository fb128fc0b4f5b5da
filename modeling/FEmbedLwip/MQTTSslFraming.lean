/-
Packets that `readPacket` takes from a stream over TLS.

`esp_ssl_read` counts the calls that `readPacket` makes for a packet with a
remaining length of one digit that is not zero. It takes a packet without bytes
after its remaining length for one whose third call is still to come, and the
second digit of a longer length for the rest of the packet.

Where `SSL_read` gives less than it was asked for, the next piece is written over
the first. So what is said here is about runs in which it does not (`Uncut`).
-/
import FEmbedLwip.Halting
import FEmbedLwip.Lives
import FEmbedLwip.MQTTFraming

namespace FEmbed

namespace MQTTFreeRTOS

open Live
open Prog (Avoids)

variable {σ T : Type} {p : FreeRTOSPlatform σ T} {unread : σ → Bytes}

/-- What `readPacket` returned, and as much of `readbuf` as the packet has. -/
def seen (fs : List Frame) (out : List (Int × Bytes)) : List (Int × Bytes) :=
  List.zipWith (fun f x => (x.1, x.2.take f.bytes.length)) fs out

def packets (fs : List Frame) : List (Int × Bytes) := fs.map fun f => (f.type, f.bytes)

/-- The calls of `readPacket` for packets, over TCP and over TLS, return the
same, and leave the same packets. -/
def Agree (p : FreeRTOSPlatform σ T) (timer : T) (fs : List Frame) (tcp tls : Live σ (MQTTFreeRTOS T)) : Prop :=
  ∃ out out' t t', (readPackets p (espRead p) timer fs.length).Returns tcp out t ∧
    (readPackets p (espSslRead p) timer fs.length).Returns tls out' t' ∧ seen fs out = seen fs out'

/-- Every remaining length has one digit, and none but the last is zero. -/
def Short (fs : List Frame) : Prop := (∀ f ∈ fs, f.payload.length < 128) ∧ ∀ f ∈ fs.dropLast, f.payload ≠ []

/-- Nothing undoes `I`, and it holds once a call of `SSL_read` has not given as
many bytes as it was asked for. -/
structure Marks (p : FreeRTOSPlatform σ T) (I : σ → Prop) : Prop where
  select : ∀ n e, I e → I (p.select n e).2
  sslRead : ∀ n e, I e → I (p.sslRead n e).2
  setTimeOutState : ∀ e, I e → I (p.setTimeOutState e)
  checkForTimeOut : ∀ e, I e → I (p.checkForTimeOut e).2
  timerLeftMS : ∀ t e, I e → I (p.timerLeftMS t e).2
  timerCountdown : ∀ n e, I e → I (p.timerCountdown n e).2
  cut : ∀ n e, (p.sslRead n e).1.1 ≠ n → I (p.sslRead n e).2

/-! ## Calls that are cut -/

namespace Marks

section Parts

variable {I : σ → Prop}

theorem store {dst : Pointer} {bs : Bytes} : KeepsOutside I (store dst bs : Prog (Live σ (MQTTFreeRTOS T)) Unit) := by
  refine .bind .obj fun c => ?_
  split
  · exact .undefined
  · exact .set

theorem load {src : Pointer} {len : Nat} : KeepsOutside I (load src len : Prog (Live σ (MQTTFreeRTOS T)) Bytes) :=
  .bind .obj fun _ => .ite .undefined .pure

theorem loadByte {src : Pointer} : KeepsOutside I (loadByte src : Prog (Live σ (MQTTFreeRTOS T)) UInt8) := .bind load fun _ => .pure

theorem readBufferSet : KeepsOutside I (readBufferSet : Prog (Live σ (MQTTFreeRTOS T)) Pointer) := by
  refine .bind .obj fun c => ?_
  split
  · exact .undefined
  · exact .pure

end Parts

variable {I : σ → Prop} (hm : Marks p I)

include hm

theorem sslTurn (dst : Pointer) (len recvLen : Nat) : KeepsOutside I (do
    let (rc, bs) ← call (p.sslRead len)
    MQTTFreeRTOS.store dst bs
    if rc < 0 then
      return .exit rc
    let recvLen := recvLen + rc.toNat
    if recvLen < len then
      if ← call p.checkForTimeOut then
        return .exit recvLen
      else return .next recvLen
    else return .exit recvLen : Prog (Live σ (MQTTFreeRTOS T)) (Turn Nat Int)) := by
  refine .bind (.call (hm.sslRead len)) fun r => .bind store fun _ => .ite .pure (.ite ?_ .pure)
  exact .bind (.call hm.checkForTimeOut) fun _ => .ite .pure .pure

theorem sslReceive {dst : Pointer} {len : Nat} : KeepsOutside I (sslReceive p dst len : Prog (Live σ (MQTTFreeRTOS T)) Int) :=
  .loop (hm.sslTurn dst len) 0

/-- The first call of a loop. -/
theorem uncut {dst : Pointer} {len : Nat} {s : Live σ (MQTTFreeRTOS T)}
    (h : Avoids (MQTTFreeRTOS.sslReceive p dst len) s fun s => I s.env) : (p.sslRead len s.env).1.1 = len := by
  by_contra hcut
  refine ((h.turn (hm.sslTurn dst len)).right (returns_call.mpr ⟨rfl, rfl⟩)).start ?_ (hm.cut len s.env hcut)
  refine KeepsOutside.bind store fun _ => .ite .pure (.ite ?_ .pure)
  exact .bind (.call hm.checkForTimeOut) fun _ => .ite .pure .pure

/-- What `sslFirst` does when it has two bytes, or not. -/
theorem sslBegun (buffer : Pointer) (rc : Int) : KeepsOutside I (do
    if rc < 0 then
      return rc
    let len := (← MQTTFreeRTOS.loadByte (buffer.add 1)).toNat
    let rc ← if len > 0 then MQTTFreeRTOS.sslReceive p (buffer.add 2) len else pure 0
    if rc < 0 then
      return rc
    set fun c => { c with readCount := c.readCount + 1 }
    return 1 : Prog (Live σ (MQTTFreeRTOS T)) Int) := by
  have last (rc : Int) : KeepsOutside I (do
      if rc < 0 then
        return rc
      set fun c => { c with readCount := c.readCount + 1 }
      return 1 : Prog (Live σ (MQTTFreeRTOS T)) Int) := .ite .pure (.bind .set fun _ => .pure)
  exact .ite .pure (.bind loadByte fun b => .ite (.bind hm.sslReceive last) (.bind .pure last))

theorem sslFirst {buffer : Pointer} : KeepsOutside I (sslFirst p buffer : Prog (Live σ (MQTTFreeRTOS T)) Int) :=
  .bind .set fun _ => .bind hm.sslReceive (hm.sslBegun buffer)

theorem espSslRead {dst : Pointer} {len timeoutMs : Nat} :
    KeepsOutside I (espSslRead p dst len timeoutMs : Prog (Live σ (MQTTFreeRTOS T)) Int) := by
  refine .bind (.tell hm.setTimeOutState) fun _ => .bind .obj fun c => ?_
  split
  · exact .bind (.call (hm.select timeoutMs)) fun _ => .ite hm.sslFirst .pure
  · refine .bind (.call hm.checkForTimeOut) fun _ => .bind readBufferSet fun b => .ite ?_ ?_
    · exact .bind .set fun _ => .bind store fun _ => .pure
    · exact .bind .set fun _ => .bind loadByte fun _ => .bind store fun _ => .pure
  · refine .bind .set fun _ => .bind (.call hm.checkForTimeOut) fun _ => .bind readBufferSet fun b => .ite ?_ ?_
    · exact .bind store fun _ => .pure
    · exact .bind load fun _ => .bind store fun _ => .pure
  · exact .pure

theorem packetRead : KeepsOutside I (packetRead p : Prog (Live σ (MQTTFreeRTOS T)) Int) :=
  .bind loadByte fun _ => .bind .obj fun _ =>
    .ite (.bind (.call (hm.timerCountdown _)) fun _ => .bind .set fun _ => .pure) .pure

/-- All that `readPacket` calls. -/
theorem reader (timer : T) : (reader p (MQTTFreeRTOS.espSslRead p) timer).All fun {_} => KeepsOutside I where
  timerLeftMS := .call (hm.timerLeftMS timer)
  mqttread _ _ _ := hm.espSslRead
  mqttreadByte _ := .bind hm.espSslRead fun _ => .bind .obj fun _ => .pure
  store _ _ := store
  readbufSize := Prog.Hoare.gets fun _ => id
  packetRead := hm.packetRead

theorem readPacket {timer : T} :
    KeepsOutside I (readPacket p (MQTTFreeRTOS.espSslRead p) timer : Prog (Live σ (MQTTFreeRTOS T)) Int) :=
  (hm.reader timer).readPacket (PacketReader.composes_keeps _)

theorem readPackets {timer : T} {n : Nat} :
    KeepsOutside I (readPackets p (MQTTFreeRTOS.espSslRead p) timer n : Prog (Live σ (MQTTFreeRTOS T)) (List (Int × Bytes))) := by
  induction n with
  | zero => exact .pure
  | succ n ih => exact .bind hm.readPacket fun _ => .bind .obj fun _ => .bind ih fun _ => .pure

end Marks

/-! ## The three calls -/

/-- A call that is not cut gives what comes next. -/
theorem Delivers.whole {read : Nat → σ → (Int × Bytes) × σ} (hd : Delivers read unread) {n : Nat} {e : σ} (hn : 0 < n)
    (he : unread e ≠ []) (hall : (read n e).1.1 = n) :
    (read n e).1 = ((n : Int), (unread e).take n) ∧ unread (read n e).2 = (unread e).drop n := by
  obtain ⟨k, _, _, _, hread, hrest⟩ := hd n e hn he
  obtain rfl : k = n := by
    rw [hread] at hall
    exact Int.ofNat_inj.mp hall
  exact ⟨hread, hrest⟩

theorem sslReceive_returns (hd : Delivers p.sslRead unread) (dst : Pointer) {bs rest out : Bytes} {c : MQTTFreeRTOS T} {e : σ}
    (hpos : bs ≠ []) (hun : unread e = bs ++ rest) (hall : (p.sslRead bs.length e).1.1 = bs.length)
    (hout : poke (c.bytes dst.object) dst.index bs = some out) :
    ∃ e', (sslReceive p dst bs.length).Returns ⟨c, e⟩ bs.length ⟨c.put out dst.object, e'⟩ ∧ unread e' = rest := by
  obtain ⟨hread, hrest⟩ := hd.whole (List.length_pos_of_ne_nil hpos) (by simp [hun, hpos]) hall
  rw [hun, List.take_left' rfl] at hread
  rw [hun, List.drop_left' rfl] at hrest
  refine ⟨(p.sslRead bs.length e).2, Prog.returns_loop.mpr (.inl ?_), hrest⟩
  rw [returns_call_bind, hread]
  dsimp only
  rw [returns_store_bind hout, if_neg (by omega), Int.toNat_natCast, Nat.zero_add, if_neg (Nat.lt_irrefl _)]
  exact Prog.returns_pure.mpr ⟨rfl, rfl⟩

/-- Two bytes do not go into `i`. -/
theorem not_returns_sslReceive_i (hd : Delivers p.sslRead unread) {a b : UInt8} {rest : Bytes} {c : MQTTFreeRTOS T} {e : σ}
    (hun : unread e = a :: b :: rest) (hall : (p.sslRead 2 e).1.1 = 2) {rc : Int} {t} :
    ¬ (sslReceive p ⟨.i, 0⟩ 2).Returns ⟨c, e⟩ rc t := by
  obtain ⟨hread, _⟩ := hd.whole (by decide) (by simp [hun]) hall
  refine Prog.not_returns_loop fun r t h => ?_
  rw [returns_call_bind, hread, hun] at h
  obtain ⟨_, _, hstore, _⟩ := Prog.returns_bind.mp h
  exact not_returns_store rfl hstore

/-- What the first call does, with something to read. -/
theorem espSslRead_first (hw : Waits p unread) (dst : Pointer) (len timeoutMs : Nat) {c : MQTTFreeRTOS T} {e : σ}
    (hcount : c.readCount = 0) (hun : unread e ≠ []) : ∃ e', unread e' = unread e ∧
      (∀ {rc : Int} {t}, (espSslRead p dst len timeoutMs).Returns ⟨c, e⟩ rc t ↔ (sslFirst p dst).Returns ⟨c, e'⟩ rc t) ∧
      ∀ {J}, Avoids (espSslRead p dst len timeoutMs) ⟨c, e⟩ J → Avoids (sslFirst p dst) ⟨c, e'⟩ J := by
  obtain ⟨hready, hset, herr⟩ := hw.select timeoutMs (p.setTimeOutState e) (by rwa [hw.setTimeOutState])
  have hgo : 0 < (p.select timeoutMs (p.setTimeOutState e)).1.ready ∧ ¬ (p.select timeoutMs (p.setTimeOutState e)).1.errset ∧
      (p.select timeoutMs (p.setTimeOutState e)).1.readset := ⟨hready, by simp [herr], hset⟩
  refine ⟨(p.select timeoutMs (p.setTimeOutState e)).2, by rw [hw.select_unread, hw.setTimeOutState], ?_, fun h => ?_⟩
  · rintro rc t
    rw [espSslRead, returns_tell_bind, returns_obj_bind]
    simp only [hcount]
    rw [returns_call_bind, if_pos hgo]
  · rw [espSslRead] at h
    have h := (h.right (b := ()) (returns_tell.mpr rfl)).right (returns_obj.mpr ⟨rfl, rfl⟩)
    simp only [hcount] at h
    have h := h.right (returns_call.mpr ⟨rfl, rfl⟩)
    rwa [if_pos hgo] at h

/-- The first call takes the header, a byte `l`, and `l` bytes. -/
theorem espSslRead_takes (hw : Waits p unread) (hd : Delivers p.sslRead unread) {I : σ → Prop} (hm : Marks p I) (timeoutMs : Nat)
    {h l : UInt8} {body rest : Bytes} {c : MQTTFreeRTOS T} {e : σ} (hcount : c.readCount = 0) (hun : unread e = h :: l :: body ++ rest)
    (hbody : body.length = l.toNat) (hfit : 2 + body.length ≤ c.readbuf.length)
    (huncut : Avoids (espSslRead p ⟨.readbuf, 0⟩ 1 timeoutMs) ⟨c, e⟩ fun s => I s.env) :
    ∃ out e', (espSslRead p ⟨.readbuf, 0⟩ 1 timeoutMs).Returns ⟨c, e⟩ 1
        ⟨{ c with readbuf := out, readCount := 1, readBuffer := some ⟨.readbuf, 0⟩ }, e'⟩ ∧
      out.take (2 + body.length) = h :: l :: body ∧ out.length = c.readbuf.length ∧ unread e' = rest := by
  obtain ⟨e₁, hun₁, hfirst, huncut₁⟩ := espSslRead_first hw ⟨.readbuf, 0⟩ 1 timeoutMs hcount
    (by rw [hun]; exact List.cons_ne_nil _ _)
  have huncut₁ := huncut₁ huncut
  rw [sslFirst] at huncut₁
  replace huncut₁ := huncut₁.right (b := ()) (returns_set.mpr rfl)
  obtain ⟨out₁, hout₁⟩ : ∃ out, poke c.readbuf 0 [h, l] = some out := ⟨_, poke_eq_some (by simp; omega)⟩
  obtain ⟨e₂, htwo, hun₂⟩ := sslReceive_returns hd ⟨.readbuf, 0⟩ (c := { c with readBuffer := some ⟨.readbuf, 0⟩ })
    (List.cons_ne_nil h [l]) (hun₁.trans hun) (hm.uncut (huncut₁.left (hm.sslBegun _))) hout₁
  have htake₁ : out₁.take 2 = [h, l] := poke_take hout₁
  have hsize₁ : out₁.length = c.readbuf.length := poke_length hout₁
  have hl : out₁[1]? = some l := by
    rw [← List.getElem?_take_of_lt (show 1 < 2 by decide), htake₁]
    rfl
  have hlen : (({ c with readbuf := out₁, readBuffer := some ⟨.readbuf, 0⟩ } : MQTTFreeRTOS T).bytes .readbuf)[1]? = some l := hl
  have htwo : (sslReceive p ⟨.readbuf, 0⟩ 2).Returns ⟨{ c with readBuffer := some ⟨.readbuf, 0⟩ }, e₁⟩ 2
    ⟨{ c with readbuf := out₁, readBuffer := some ⟨.readbuf, 0⟩ }, e₂⟩ := htwo
  have hbegun {rc : Int} {t : Live σ (MQTTFreeRTOS T)} : (espSslRead p ⟨.readbuf, 0⟩ 1 timeoutMs).Returns ⟨c, e⟩ rc t ↔
      (do
        let rc ← if l.toNat > 0 then sslReceive p ⟨.readbuf, 2⟩ l.toNat else pure 0
        if rc < 0 then
          return rc
        set fun c => { c with readCount := c.readCount + 1 }
        return 1).Returns ⟨{ c with readbuf := out₁, readBuffer := some ⟨.readbuf, 0⟩ }, e₂⟩ rc t := by
    rw [hfirst, sslFirst, returns_set_bind, Prog.returns_bind_of htwo, if_neg (by decide), returns_loadByte_bind hlen]
    rfl
  rw [← hbody] at hbegun
  by_cases hpos : body = []
  · subst hpos
    refine ⟨out₁, e₂, hbegun.mpr ?_, htake₁, hsize₁, hun₂⟩
    rw [if_neg (by decide), Prog.returns_pure_bind]
    dsimp only
    rw [if_neg (by decide), returns_set_bind, hcount]
    exact Prog.returns_pure.mpr ⟨rfl, rfl⟩
  · have huncut₂ : Avoids (sslReceive p ⟨.readbuf, 2⟩ body.length)
        ⟨{ c with readbuf := out₁, readBuffer := some ⟨.readbuf, 0⟩ }, e₂⟩ fun s => I s.env := by
      have hload : (loadByte (Pointer.add ⟨.readbuf, 0⟩ 1)).Returns
          ⟨{ c with readbuf := out₁, readBuffer := some ⟨.readbuf, 0⟩ }, e₂⟩ l
          (⟨{ c with readbuf := out₁, readBuffer := some ⟨.readbuf, 0⟩ }, e₂⟩ : Live σ (MQTTFreeRTOS T)) :=
        returns_loadByte hlen
      have hrest := huncut₁.right htwo
      rw [if_neg (by decide)] at hrest
      have hrest := hrest.right hload
      dsimp only at hrest
      rw [← hbody, if_pos (List.length_pos_of_ne_nil hpos)] at hrest
      exact hrest.left fun _ => KeepsOutside.ite .pure (.bind .set fun _ => .pure)
    obtain ⟨out₂, hout₂⟩ : ∃ out, poke out₁ 2 body = some out := ⟨_, poke_eq_some (by omega)⟩
    obtain ⟨e₃, hrest, hun₃⟩ := sslReceive_returns hd ⟨.readbuf, 2⟩
      (c := { c with readbuf := out₁, readBuffer := some ⟨.readbuf, 0⟩ }) hpos hun₂ (hm.uncut huncut₂) hout₂
    have htake₂ : out₂.take (2 + body.length) = h :: l :: body := by
      rw [poke_take hout₂, htake₁]
      rfl
    refine ⟨out₂, e₃, hbegun.mpr ?_, htake₂, (poke_length hout₂).trans hsize₁, hun₃⟩
    rw [if_pos (List.length_pos_of_ne_nil hpos), Prog.returns_bind_of hrest]
    dsimp only
    rw [if_neg (by omega), returns_set_bind, hcount]
    exact Prog.returns_pure.mpr ⟨rfl, rfl⟩

theorem returns_readBufferSet_bind {α : Type} {buffer : Pointer} {f : Pointer → Prog (Live σ (MQTTFreeRTOS T)) α}
    {c : MQTTFreeRTOS T} {e : σ} {a s'} (h : c.readBuffer = some buffer) :
    (readBufferSet >>= f).Returns ⟨c, e⟩ a s' ↔ (f buffer).Returns ⟨c, e⟩ a s' := by
  refine Prog.returns_bind_of ?_
  rw [readBufferSet, returns_obj_bind, h]
  exact Prog.returns_pure.mpr ⟨rfl, rfl⟩

/-- The second call gives what was taken for the remaining length. -/
theorem espSslRead_second (hw : Waits p unread) (timeoutMs : Nat) {b : UInt8} {c : MQTTFreeRTOS T} {e : σ} (hcount : c.readCount = 1)
    (hbuffer : c.readBuffer = some ⟨.readbuf, 0⟩) (hb : c.readbuf[1]? = some b) :
    ∃ e', (espSslRead p ⟨.i, 0⟩ 1 timeoutMs).Returns ⟨c, e⟩ 1 ⟨{ c with readCount := 2, i := b }, e'⟩ ∧ unread e' = unread e := by
  obtain ⟨htime, hun⟩ := hw.checkForTimeOut (p.setTimeOutState e)
  have hbyte : (({ c with readCount := 2 } : MQTTFreeRTOS T).bytes .readbuf)[1]? = some b := hb
  have hstore : poke (({ c with readCount := 2 } : MQTTFreeRTOS T).bytes .i) 0 [b] = some [b] := rfl
  refine ⟨(p.checkForTimeOut (p.setTimeOutState e)).2, ?_, by rw [hun, hw.setTimeOutState]⟩
  rw [espSslRead, returns_tell_bind, returns_obj_bind]
  simp only [hcount]
  rw [sslSecond, returns_call_bind, returns_readBufferSet_bind hbuffer, htime, if_neg (by decide), returns_set_bind, hcount,
    returns_loadByte_bind hbyte, returns_store_bind hstore]
  exact Prog.returns_pure.mpr ⟨rfl, rfl⟩

/-- The third call gives what was taken after that. -/
theorem espSslRead_third (hw : Waits p unread) (dst : Pointer) (timeoutMs : Nat) {bs out : Bytes} {c : MQTTFreeRTOS T} {e : σ}
    (hcount : c.readCount = 2) (hbuffer : c.readBuffer = some ⟨.readbuf, 0⟩) (hbs : bs <+: c.readbuf.drop 2)
    (hout : poke (c.bytes dst.object) dst.index bs = some out) :
    ∃ e', (espSslRead p dst bs.length timeoutMs).Returns ⟨c, e⟩ bs.length ⟨({ c with readCount := 0 } : MQTTFreeRTOS T).put out dst.object, e'⟩ ∧
      unread e' = unread e := by
  obtain ⟨htime, hun⟩ := hw.checkForTimeOut (p.setTimeOutState e)
  have hset : ({ c with readCount := 0 } : MQTTFreeRTOS T).readBuffer = some ⟨.readbuf, 0⟩ := hbuffer
  have hload : bs <+: (({ c with readCount := 0 } : MQTTFreeRTOS T).bytes .readbuf).drop 2 := hbs
  have hstore : poke (({ c with readCount := 0 } : MQTTFreeRTOS T).bytes dst.object) dst.index bs = some out := by
    cases hdst : dst.object <;> simpa only [hdst, MQTTFreeRTOS.bytes] using hout
  refine ⟨(p.checkForTimeOut (p.setTimeOutState e)).2, ?_, by rw [hun, hw.setTimeOutState]⟩
  rw [espSslRead, returns_tell_bind, returns_obj_bind]
  simp only [hcount]
  rw [sslThird, returns_set_bind, returns_call_bind, returns_readBufferSet_bind hset, htime, if_neg (by decide),
    returns_load_bind hload, returns_store_bind hstore]
  exact Prog.returns_pure.mpr ⟨rfl, rfl⟩

/-- The third call reads no further than `readbuf`. -/
theorem not_returns_espSslRead_third (hw : Waits p unread) {dst : Pointer} {len timeoutMs : Nat} {c : MQTTFreeRTOS T} {e : σ}
    (hcount : c.readCount = 2) (hbuffer : c.readBuffer = some ⟨.readbuf, 0⟩) (hshort : (c.readbuf.drop 2).length < len) {rc : Int} {t} :
    ¬ (espSslRead p dst len timeoutMs).Returns ⟨c, e⟩ rc t := by
  have hset : ({ c with readCount := 0 } : MQTTFreeRTOS T).readBuffer = some ⟨.readbuf, 0⟩ := hbuffer
  rw [espSslRead, returns_tell_bind, returns_obj_bind]
  simp only [hcount]
  rw [sslThird, returns_set_bind, returns_call_bind, returns_readBufferSet_bind hset, (hw.checkForTimeOut _).1, if_neg (by decide)]
  rintro h
  obtain ⟨_, _, hload, _⟩ := Prog.returns_bind.mp h
  exact not_returns_load hshort hload

/-- The first call takes two bytes, for which `i` is too small. -/
theorem not_returns_espSslRead_i (hw : Waits p unread) (hd : Delivers p.sslRead unread) {I : σ → Prop} (hm : Marks p I)
    {len timeoutMs : Nat} {c : MQTTFreeRTOS T} {e : σ} (hcount : c.readCount = 0) (hun : 2 ≤ (unread e).length)
    (huncut : Avoids (espSslRead p ⟨.i, 0⟩ len timeoutMs) ⟨c, e⟩ fun s => I s.env) {rc : Int} {t} :
    ¬ (espSslRead p ⟨.i, 0⟩ len timeoutMs).Returns ⟨c, e⟩ rc t := by
  obtain ⟨a, b, rest, hun⟩ : ∃ a b rest, unread e = a :: b :: rest := by
    match unread e, hun with
    | a :: b :: rest, _ => exact ⟨a, b, rest, rfl⟩
  obtain ⟨e₁, hun₁, hfirst, huncut₁⟩ := espSslRead_first hw ⟨.i, 0⟩ len timeoutMs hcount
    (by rw [hun]; exact List.cons_ne_nil _ _)
  have huncut₁ := huncut₁ huncut
  rw [sslFirst] at huncut₁
  have hall := hm.uncut ((huncut₁.right (b := ()) (returns_set.mpr rfl)).left (hm.sslBegun _))
  rw [hfirst, sslFirst, returns_set_bind]
  rintro h
  obtain ⟨_, _, hreceive, _⟩ := Prog.returns_bind.mp h
  exact not_returns_sslReceive_i hd (hun₁.trans hun) hall hreceive

/-- The first call never gives more than a byte. -/
theorem espSslRead_le {dst : Pointer} {len timeoutMs : Nat} {c : MQTTFreeRTOS T} {e : σ} (hcount : c.readCount = 0) {rc : Int} {t}
    (h : (espSslRead p dst len timeoutMs).Returns ⟨c, e⟩ rc t) : rc ≤ 1 := by
  have hlast {n : Int} {u : Live σ (MQTTFreeRTOS T)}
      (h : (if n < 0 then return n else do
        set fun c => { c with readCount := c.readCount + 1 }
        return 1 : Prog (Live σ (MQTTFreeRTOS T)) Int).Returns u rc t) : rc ≤ 1 := by
    split at h
    · obtain ⟨rfl, _⟩ := Prog.returns_pure.mp h
      omega
    · rw [returns_set_bind] at h
      exact Int.le_of_eq (Prog.returns_pure.mp h).1
  rw [espSslRead, returns_tell_bind, returns_obj_bind] at h
  simp only [hcount] at h
  rw [returns_call_bind] at h
  split at h
  · rw [sslFirst, returns_set_bind] at h
    obtain ⟨_, _, _, h⟩ := Prog.returns_bind.mp h
    dsimp only at h
    split at h
    · obtain ⟨rfl, _⟩ := Prog.returns_pure.mp h
      omega
    · obtain ⟨_, _, _, h⟩ := Prog.returns_bind.mp h
      split at h
      · obtain ⟨_, _, _, h⟩ := Prog.returns_bind.mp h
        exact hlast h
      · rw [Prog.returns_pure_bind] at h
        exact hlast h
  · obtain ⟨rfl, _⟩ := Prog.returns_pure.mp h
    decide

/-- The calls of `readPacket` for the header and for the remaining length. -/
theorem Marks.parts {I : σ → Prop} (hm : Marks p I) {timer : T} {c : MQTTFreeRTOS T} {e : σ}
    (huncut : Avoids (MQTTFreeRTOS.readPacket p (MQTTFreeRTOS.espSslRead p) timer) ⟨c, e⟩ fun s => I s.env) :
    Avoids (MQTTFreeRTOS.espSslRead p ⟨.readbuf, 0⟩ 1 (p.timerLeftMS timer e).1) ⟨c, (p.timerLeftMS timer e).2⟩ (fun s => I s.env) ∧
    ∀ {c' e'}, (MQTTFreeRTOS.espSslRead p ⟨.readbuf, 0⟩ 1 (p.timerLeftMS timer e).1).Returns ⟨c, (p.timerLeftMS timer e).2⟩ 1 ⟨c', e'⟩ →
      Avoids ((MQTTFreeRTOS.reader p (MQTTFreeRTOS.espSslRead p) timer).decodePacket (p.timerLeftMS timer e').1)
        ⟨c', (p.timerLeftMS timer e').2⟩ fun s => I s.env := by
  have hall := hm.reader timer
  have hkeeps := PacketReader.composes_keeps fun s : Live σ (MQTTFreeRTOS T) => I s.env
  have hread := huncut.right timerLeftMS_returns
  refine ⟨hread.left fun _ => KeepsOutside.ite .pure (.bind hall.timerLeftMS fun _ => ?_), fun h => ?_⟩
  · exact .bind (hkeeps.digits (hall.mqttreadByte _)) fun _ => hall.readRest hkeeps
  · have hrest := hread.right h
    rw [if_neg (by decide)] at hrest
    exact (hrest.right timerLeftMS_returns).left fun _ => hall.readRest hkeeps

/-- The calls of `decodePacket` for a digit and for those after it. -/
theorem Marks.digits {I : σ → Prop} (hm : Marks p I) {timer : T} {timeout k multiplier value : Nat} {c : MQTTFreeRTOS T} {e : σ}
    (huncut : Avoids (PacketReader.decodePacket.go (MQTTFreeRTOS.reader p (MQTTFreeRTOS.espSslRead p) timer) timeout (k + 1)
      multiplier value) ⟨c, e⟩ fun s => I s.env) :
    Avoids (MQTTFreeRTOS.espSslRead p ⟨.i, 0⟩ 1 timeout) ⟨c, e⟩ (fun s => I s.env) ∧
    ∀ {c' e'}, (MQTTFreeRTOS.espSslRead p ⟨.i, 0⟩ 1 timeout).Returns ⟨c, e⟩ 1 ⟨c', e'⟩ → c'.i.toNat / 128 ≠ 0 →
      Avoids (PacketReader.decodePacket.go (MQTTFreeRTOS.reader p (MQTTFreeRTOS.espSslRead p) timer) timeout k (multiplier * 128)
        (value + c'.i.toNat % 128 * multiplier)) ⟨c', e'⟩ fun s => I s.env := by
  have hkeeps := PacketReader.composes_keeps fun s : Live σ (MQTTFreeRTOS T) => I s.env
  rw [PacketReader.decodePacket.go] at huncut
  refine ⟨(huncut.left fun _ => KeepsOutside.ite .pure (.ite .pure ?_)).left fun _ => KeepsOutside.bind .obj fun _ => .pure,
    fun h hmore => ?_⟩
  · exact hkeeps.digits ((hm.reader timer).mqttreadByte _)
  · have hrest := huncut.right (mqttreadByte_returns h)
    dsimp only at hrest
    rwa [if_neg (by decide), if_neg hmore] at hrest

/-! ## Packets over TLS -/

/-- What the first call leaves, and then the others. -/
def taken (c : MQTTFreeRTOS T) (out : Bytes) (readCount : Nat) (i : UInt8) : MQTTFreeRTOS T :=
  { c with readbuf := out, readCount := readCount, i := i, readBuffer := some ⟨.readbuf, 0⟩ }

/-- A packet with a remaining length of one digit comes as it does over TCP. The
third call is missing where nothing follows that length. -/
theorem readPacket_ssl_returns (hw : Waits p unread) (hd : Delivers p.sslRead unread) {I : σ → Prop} (hm : Marks p I) (timer : T)
    {f : Frame} {rest : Bytes} {c : MQTTFreeRTOS T} {e : σ} (hcount : c.readCount = 0) (hun : unread e = f.bytes ++ rest)
    (hfit : f.bytes.length ≤ c.readbuf.length) (hone : f.payload.length < 128)
    (huncut : Avoids (readPacket p (espSslRead p) timer) ⟨c, e⟩ fun s => I s.env) :
    ∃ t, (readPacket p (espSslRead p) timer).Returns ⟨c, e⟩ f.type t ∧ Received unread f rest c.readbuf.length t ∧
      t.self.readCount = (if f.payload = [] then 2 else 0) ∧ t.self.readBuffer = some ⟨.readbuf, 0⟩ := by
  have hencode := encode_one hone
  have hbytes : f.bytes = f.header :: UInt8.ofNat f.payload.length :: f.payload := by
    rw [Frame.bytes, hencode]
    rfl
  have hlen : f.bytes.length = 2 + f.payload.length := by
    rw [hbytes, List.length_cons, List.length_cons]
    omega
  have hdigit : (UInt8.ofNat f.payload.length).toNat = f.payload.length := by
    rw [UInt8.toNat_ofNat']
    omega
  obtain ⟨out, e₁, hheader, htake, hsize, hun₁⟩ := espSslRead_takes hw hd hm (p.timerLeftMS timer e).1
    (e := (p.timerLeftMS timer e).2) hcount (by rw [hw.timerLeftMS, hun, hbytes]) hdigit.symm (by omega) (hm.parts huncut).1
  rw [← hlen, ← hbytes] at htake
  have hsecond : out[1]? = some (UInt8.ofNat f.payload.length) := by
    rw [← List.getElem?_take_of_lt (show 1 < f.bytes.length by omega), htake, hbytes]
    rfl
  obtain ⟨e₂, hread, hun₂⟩ := espSslRead_second hw (p.timerLeftMS timer e₁).1 (e := (p.timerLeftMS timer e₁).2)
    (c := c.taken out 1 c.i) rfl rfl hsecond
  have hdecode : ((reader p (espSslRead p) timer).decodePacket (p.timerLeftMS timer e₁).1).Returns
      ⟨c.taken out 1 c.i, (p.timerLeftMS timer e₁).2⟩ f.payload.length ⟨c.taken out 2 (UInt8.ofNat f.payload.length), e₂⟩ := by
    rw [PacketReader.decodePacket, decodePacket_go_read hread]
    dsimp only
    rw [hdigit, if_pos (by omega)]
    exact Prog.returns_pure.mpr ⟨by omega, rfl⟩
  have hout : poke out 1 (MQTTPacket.encode f.payload.length) = some out := by
    rw [hencode]
    exact poke_same (by omega) (one_prefix_drop hsecond)
  have hbegun {rc : Int} {t : Live σ (MQTTFreeRTOS T)} := readPacket_begun (p := p) (t := t) hheader hdecode hout
    (by rw [hencode]; simp; omega) rc
  by_cases hpos : f.payload = []
  · obtain ⟨l, e₃, hdone, hun₃⟩ := packetRead_returns hw (e := e₂) (c := c.taken out 2 (UInt8.ofNat f.payload.length))
      (Frame.header_of_take htake)
    refine ⟨⟨{ c.taken out 2 (UInt8.ofNat f.payload.length) with lastReceived := l }, e₃⟩, hbegun.mpr ?_,
      ⟨htake, hsize, ?_⟩, (if_pos hpos).symm, rfl⟩
    · rw [if_neg (by rw [hpos]; decide)]
      exact hdone
    · dsimp only
      rw [hun₃, hun₂, hw.timerLeftMS, hun₁]
  · have hbody : f.payload <+: out.drop 2 := by
      obtain ⟨after, rfl⟩ : f.bytes <+: out := htake ▸ List.take_prefix f.bytes.length out
      rw [hbytes]
      exact ⟨after, rfl⟩
    obtain ⟨e₃, hthird, hun₃⟩ := espSslRead_third hw ⟨.readbuf, 2⟩ (p.timerLeftMS timer e₂).1 (e := (p.timerLeftMS timer e₂).2)
      (c := c.taken out 2 (UInt8.ofNat f.payload.length)) rfl rfl hbody
      (poke_same (show 2 ≤ out.length by omega) hbody)
    obtain ⟨l, e₄, hdone, hun₄⟩ := packetRead_returns hw (e := e₃) (c := c.taken out 0 (UInt8.ofNat f.payload.length))
      (Frame.header_of_take htake)
    refine ⟨⟨{ c.taken out 0 (UInt8.ofNat f.payload.length) with lastReceived := l }, e₄⟩, hbegun.mpr ?_,
      ⟨htake, hsize, ?_⟩, (if_neg hpos).symm, rfl⟩
    · rw [if_pos (List.length_pos_of_ne_nil hpos), returns_call_bind, hencode]
      refine Prog.returns_bind.mpr ⟨_, _, hthird, ?_⟩
      rw [if_neg (not_not.mpr rfl)]
      exact hdone
    · dsimp only
      rw [hun₄, hun₃, hw.timerLeftMS, hun₂, hw.timerLeftMS, hun₁]

/-- The third call that was missing comes for the next header. The first call
is then the one for a byte of the remaining length. -/
theorem not_returns_readPacket (hw : Waits p unread) (hd : Delivers p.sslRead unread) {I : σ → Prop} (hm : Marks p I) {timer : T}
    {c : MQTTFreeRTOS T} {e : σ} (hcount : c.readCount = 2) (hbuffer : c.readBuffer = some ⟨.readbuf, 0⟩)
    (hun : 2 ≤ (unread e).length) (huncut : Avoids (readPacket p (espSslRead p) timer) ⟨c, e⟩ fun s => I s.env) {rc : Int} {t} :
    ¬ (readPacket p (espSslRead p) timer).Returns ⟨c, e⟩ rc t := by
  rintro h
  rw [readPacket] at h
  cases hthird : c.readbuf[2]? with
  | none =>
    rw [PacketReader.readPacket, Prog.returns_bind_of timerLeftMS_returns] at h
    obtain ⟨_, _, hread, _⟩ := Prog.returns_bind.mp h
    refine not_returns_espSslRead_third hw hcount hbuffer ?_ hread
    rw [List.length_drop]
    have := List.getElem?_eq_none_iff.mp hthird
    omega
  | some x =>
    obtain ⟨out, hout⟩ : ∃ out, poke c.readbuf 0 [x] = some out := ⟨_, poke_eq_some (by
      have := (List.getElem?_eq_some_iff.mp hthird).1
      simp
      omega)⟩
    obtain ⟨e₁, hread, hun₁⟩ := espSslRead_third hw ⟨.readbuf, 0⟩ (p.timerLeftMS timer e).1 (e := (p.timerLeftMS timer e).2)
      hcount hbuffer (one_prefix_drop hthird) hout
    have hread : (espSslRead p ⟨.readbuf, 0⟩ 1 (p.timerLeftMS timer e).1).Returns ⟨c, (p.timerLeftMS timer e).2⟩ 1
      ⟨{ c with readbuf := out, readCount := 0 }, e₁⟩ := hread
    rw [PacketReader.returns_readPacket (r := reader p (espSslRead p) timer) timerLeftMS_returns hread timerLeftMS_returns] at h
    obtain ⟨_, _, hdecode, _⟩ := Prog.returns_bind.mp h
    rw [PacketReader.decodePacket, PacketReader.decodePacket.go] at hdecode
    obtain ⟨_, _, hbyte, _⟩ := Prog.returns_bind.mp hdecode
    obtain ⟨_, _, hfirst, _⟩ := Prog.returns_bind.mp hbyte
    refine not_returns_espSslRead_i hw hd hm (c := { c with readbuf := out, readCount := 0 }) rfl ?_
      (hm.digits ((hm.parts huncut).2 hread)).1 hfirst
    rwa [hw.timerLeftMS, hun₁, hw.timerLeftMS]

/-- A longer remaining length: its second digit is taken for the packet. -/
theorem readPacket_ssl_long (hw : Waits p unread) (hd : Delivers p.sslRead unread) {I : σ → Prop} (hm : Marks p I) {f : Frame}
    {rest : Bytes} {timer : T} {c : MQTTFreeRTOS T} {e : σ} (hcount : c.readCount = 0) (hun : unread e = f.bytes ++ rest)
    (hfit : f.bytes.length ≤ c.readbuf.length) (hlong : 128 ≤ f.payload.length)
    (huncut : Avoids (readPacket p (espSslRead p) timer) ⟨c, e⟩ fun s => I s.env) {rc : Int} {t}
    (h : (readPacket p (espSslRead p) timer).Returns ⟨c, e⟩ rc t) : rc = 0 := by
  obtain ⟨b, d, ds, hencode, hfirst, hlast, hmore⟩ := encode_more hlong
  have hlen := f.length_bytes
  rw [hencode, List.length_cons, List.length_cons] at hlen
  -- What the first call takes after two bytes: a digit and some of the packet.
  obtain ⟨body, after, hbody, hcut⟩ : ∃ body after, body.length = b.toNat ∧ d :: ds ++ f.payload = body ++ after :=
    ⟨_, _, by rw [List.length_take]; simp; omega, (List.take_append_drop b.toNat _).symm⟩
  have hafter : 1 + ds.length + f.payload.length = b.toNat + after.length := by
    rw [← hbody, ← List.length_append, ← hcut]
    simp
    omega
  have hstream : f.bytes ++ rest = f.header :: b :: body ++ (after ++ rest) := by
    rw [Frame.bytes, hencode]
    simp [hcut]
  obtain ⟨out, e₁, hheader, htake, hsize, hun₁⟩ := espSslRead_takes hw hd hm (p.timerLeftMS timer e).1
    (e := (p.timerLeftMS timer e).2) hcount (by rw [hw.timerLeftMS, hun, hstream]) hbody (by omega) (hm.parts huncut).1
  have hsecond : out[1]? = some b := by
    rw [← List.getElem?_take_of_lt (show 1 < 2 + body.length by omega), htake]
    rfl
  have hthird : out[2]? = some d := by
    rw [← List.getElem?_take_of_lt (show 2 < 2 + body.length by omega), htake]
    show body[0]? = some d
    have hfirst : (body ++ after)[0]? = some d := by rw [← hcut]; rfl
    rwa [List.getElem?_append_left (show 0 < body.length by omega)] at hfirst
  obtain ⟨e₂, hread₂, hun₂⟩ := espSslRead_second hw (p.timerLeftMS timer e₁).1 (e := (p.timerLeftMS timer e₁).2)
    (c := c.taken out 1 c.i) rfl rfl hsecond
  obtain ⟨e₃, hread₃, hun₃⟩ := espSslRead_third hw ⟨.i, 0⟩ (p.timerLeftMS timer e₁).1 (e := e₂)
    (c := c.taken out 2 b) rfl rfl (one_prefix_drop hthird) rfl
  have hread₃ : (espSslRead p ⟨.i, 0⟩ 1 (p.timerLeftMS timer e₁).1).Returns ⟨c.taken out 2 b, e₂⟩ 1 ⟨c.taken out 0 d, e₃⟩ := hread₃
  have hdecode {m : Nat} {u : Live σ (MQTTFreeRTOS T)} : ((reader p (espSslRead p) timer).decodePacket (p.timerLeftMS timer e₁).1).Returns
      ⟨c.taken out 1 c.i, (p.timerLeftMS timer e₁).2⟩ m u ↔
        (if d.toNat / 128 = 0 then pure (0 + b.toNat % 128 * 1 + d.toNat % 128 * (1 * 128)) else
          PacketReader.decodePacket.go (reader p (espSslRead p) timer) (p.timerLeftMS timer e₁).1 2 (1 * 128 * 128)
            (0 + b.toNat % 128 * 1 + d.toNat % 128 * (1 * 128))).Returns ⟨c.taken out 0 d, e₃⟩ m u := by
    rw [PacketReader.decodePacket, decodePacket_go_read hread₂]
    dsimp only
    rw [if_neg (by omega)]
    exact decodePacket_go_read hread₃
  by_cases htwo : f.payload.length < 16384
  · have hd := hlast htwo
    have hremLen : ((reader p (espSslRead p) timer).decodePacket (p.timerLeftMS timer e₁).1).Returns
        ⟨c.taken out 1 c.i, (p.timerLeftMS timer e₁).2⟩ f.payload.length ⟨c.taken out 0 d, e₃⟩ := by
      rw [hdecode, if_pos (by omega)]
      exact Prog.returns_pure.mpr ⟨by omega, rfl⟩
    obtain ⟨out₂, hout₂⟩ : ∃ out₂, poke out 1 (MQTTPacket.encode f.payload.length) = some out₂ :=
      ⟨_, poke_eq_some (by rw [hencode]; simp; omega)⟩
    rw [readPacket_begun hheader hremLen hout₂ (by rw [poke_length hout₂, hencode]; simp; omega), if_pos (by omega), returns_call_bind] at h
    obtain ⟨n, _, hread, h⟩ := Prog.returns_bind.mp h
    have hn := espSslRead_le rfl hread
    rw [if_pos (by omega)] at h
    exact (Prog.returns_pure.mp h).1
  · have hd' := hmore (by omega)
    rw [readPacket, PacketReader.returns_readPacket (r := reader p (espSslRead p) timer) timerLeftMS_returns hheader timerLeftMS_returns] at h
    obtain ⟨_, _, hread, _⟩ := Prog.returns_bind.mp h
    have hread := hdecode.mp hread
    rw [if_neg (by omega), PacketReader.decodePacket.go] at hread
    obtain ⟨_, _, hbyte, _⟩ := Prog.returns_bind.mp hread
    obtain ⟨_, _, hread, _⟩ := Prog.returns_bind.mp hbyte
    have hfirst := (hm.parts huncut).2 hheader
    rw [PacketReader.decodePacket] at hfirst
    have hthird := (hm.digits ((hm.digits hfirst).2 hread₂ (show b.toNat / 128 ≠ 0 by omega))).2 hread₃ (show d.toNat / 128 ≠ 0 by omega)
    refine absurd hread (not_returns_espSslRead_i hw hd hm rfl ?_ (hm.digits hthird).1)
    rw [hun₃, hun₂, hw.timerLeftMS, hun₁, List.length_append]
    omega

/-! ## Sequences of packets -/

theorem returns_readPackets_cons {mqttread : MqttRead σ T} {timer : T} {n : Nat} {s out t} :
    (readPackets p mqttread timer (n + 1)).Returns s out t ↔ ∃ rc u out', (readPacket p mqttread timer).Returns s rc u ∧
      (readPackets p mqttread timer n).Returns u out' t ∧ out = (rc, u.self.readbuf) :: out' := by
  rw [readPackets, Prog.returns_bind]
  constructor
  · rintro ⟨rc, u, hread, h⟩
    rw [returns_obj_bind] at h
    obtain ⟨out', v, hreads, h⟩ := Prog.returns_bind.mp h
    obtain ⟨rfl, rfl⟩ := Prog.returns_pure.mp h
    exact ⟨rc, u, out', hread, hreads, rfl⟩
  · rintro ⟨rc, u, out', hread, hreads, rfl⟩
    refine ⟨rc, u, hread, ?_⟩
    rw [returns_obj_bind, Prog.returns_bind_of hreads]
    exact Prog.returns_pure.mpr ⟨rfl, rfl⟩

/-- Over TCP the packets are the ones of the stream. -/
theorem readPackets_returns (hw : Waits p unread) (hd : Delivers p.recv unread) (timer : T) {fs : List Frame} {c : MQTTFreeRTOS T} {e : σ}
    (hun : unread e = fs.flatMap Frame.bytes) (hfit : ∀ f ∈ fs, f.bytes.length ≤ c.readbuf.length) :
    ∃ out t, (readPackets p (espRead p) timer fs.length).Returns ⟨c, e⟩ out t ∧ seen fs out = packets fs := by
  induction fs generalizing c e with
  | nil => exact ⟨[], _, Prog.returns_pure.mpr ⟨rfl, rfl⟩, rfl⟩
  | cons f fs ih =>
    obtain ⟨u, hread, hreceived⟩ := readPacket_returns hw hd timer hun (hfit f List.mem_cons_self)
    obtain ⟨out, t, hreads, hseen⟩ := ih hreceived.unread fun g hg => by
      rw [hreceived.size]
      exact hfit g (List.mem_cons_of_mem f hg)
    refine ⟨_, t, returns_readPackets_cons.mpr ⟨_, u, out, hread, hreads, rfl⟩, ?_⟩
    exact congrArg₂ List.cons (Prod.ext rfl hreceived.bytes) hseen

theorem short_cons {f : Frame} {fs : List Frame} :
    Short (f :: fs) ↔ f.payload.length < 128 ∧ (f.payload = [] → fs = []) ∧ Short fs := by
  cases fs with
  | nil => simp [Short]
  | cons g gs =>
    simp only [Short, List.dropLast_cons_cons, List.forall_mem_cons, reduceCtorEq, imp_false]
    tauto

/-- Over TLS they are, when each but the last has the three calls. -/
theorem readPackets_ssl_returns (hw : Waits p unread) (hd : Delivers p.sslRead unread) {I : σ → Prop} (hm : Marks p I) (timer : T)
    {fs : List Frame} {c : MQTTFreeRTOS T} {e : σ} (hcount : c.readCount = 0) (hun : unread e = fs.flatMap Frame.bytes)
    (hfit : ∀ f ∈ fs, f.bytes.length ≤ c.readbuf.length)
    (huncut : Avoids (readPackets p (espSslRead p) timer fs.length) ⟨c, e⟩ fun s => I s.env) :
    (∃ out t, (readPackets p (espSslRead p) timer fs.length).Returns ⟨c, e⟩ out t ∧ seen fs out = packets fs) ↔ Short fs := by
  induction fs generalizing c e with
  | nil => exact ⟨fun _ => by simp [Short], fun _ => ⟨[], _, Prog.returns_pure.mpr ⟨rfl, rfl⟩, rfl⟩⟩
  | cons f fs ih =>
    rw [List.flatMap_cons] at hun
    have hfit' {size : Nat} (hsize : size = c.readbuf.length) : ∀ g ∈ fs, g.bytes.length ≤ size := by
      rw [hsize]
      exact fun g hg => hfit g (List.mem_cons_of_mem f hg)
    rw [List.length_cons, readPackets] at huncut
    have huncut₁ : Avoids (readPacket p (espSslRead p) timer) ⟨c, e⟩ fun s => I s.env :=
      huncut.left fun _ => KeepsOutside.bind .obj fun _ => .bind hm.readPackets fun _ => .pure
    have huncut₂ {rc : Int} {u : Live σ (MQTTFreeRTOS T)} (hread : (readPacket p (espSslRead p) timer).Returns ⟨c, e⟩ rc u) :
        Avoids (readPackets p (espSslRead p) timer fs.length) u fun s => I s.env :=
      ((huncut.right hread).right (returns_obj.mpr ⟨rfl, rfl⟩)).left fun _ => KeepsOutside.pure
    rw [short_cons]
    constructor
    · rintro ⟨_, t, hall, hseen⟩
      obtain ⟨rc, u, out, hread, hreads, rfl⟩ := returns_readPackets_cons.mp hall
      obtain ⟨hfirst, hseen⟩ := List.cons.inj hseen
      have htype : rc = f.type := congrArg Prod.fst hfirst
      have hone : f.payload.length < 128 := by
        by_contra hlong
        have hzero := readPacket_ssl_long hw hd hm hcount hun (hfit f List.mem_cons_self) (Nat.le_of_not_lt hlong) huncut₁ hread
        have := f.type_ne
        rw [Frame.type] at htype
        omega
      obtain ⟨u', hread', hreceived, hcount', hbuffer⟩ :=
        readPacket_ssl_returns hw hd hm timer hcount hun (hfit f List.mem_cons_self) hone huncut₁
      obtain ⟨_, rfl⟩ := hread.det hread'
      by_cases hpos : f.payload = []
      · rw [if_pos hpos] at hcount'
        cases fs with
        | nil => exact ⟨hone, fun _ => rfl, by simp [Short]⟩
        | cons g gs =>
          obtain ⟨rc, u', _, hnext, _⟩ := returns_readPackets_cons.mp hreads
          have hnextUncut := (huncut₂ hread).left fun _ => KeepsOutside.bind .obj fun _ => .bind hm.readPackets fun _ => .pure
          refine absurd hnext (not_returns_readPacket hw hd hm hcount' hbuffer ?_ hnextUncut)
          have := g.length_bytes
          have := List.length_pos_of_ne_nil (encode_ne_nil g.payload.length)
          rw [hreceived.unread, List.flatMap_cons, List.length_append]
          omega
      · rw [if_neg hpos] at hcount'
        exact ⟨hone, fun h => absurd h hpos, (ih hcount' hreceived.unread (hfit' hreceived.size) (huncut₂ hread)).mp ⟨out, t, hreads, hseen⟩⟩
    · rintro ⟨hone, hlast, hshort⟩
      obtain ⟨u, hread, hreceived, hcount', _⟩ :=
        readPacket_ssl_returns hw hd hm timer hcount hun (hfit f List.mem_cons_self) hone huncut₁
      have hrest : ∃ out t, (readPackets p (espSslRead p) timer fs.length).Returns u out t ∧ seen fs out = packets fs := by
        by_cases hpos : f.payload = []
        · rw [hlast hpos]
          exact ⟨[], u, Prog.returns_pure.mpr ⟨rfl, rfl⟩, rfl⟩
        · rw [if_neg hpos] at hcount'
          exact (ih hcount' hreceived.unread (hfit' hreceived.size) (huncut₂ hread)).mpr hshort
      obtain ⟨out, t, hreads, hseen⟩ := hrest
      refine ⟨_, t, returns_readPackets_cons.mpr ⟨_, u, out, hread, hreads, rfl⟩, ?_⟩
      exact congrArg₂ List.cons (Prod.ext rfl hreceived.bytes) hseen

/-- `p`, with what each call of `SSL_read` was asked for and returned on record. -/
def watched (p : FreeRTOSPlatform σ T) : FreeRTOSPlatform (σ × List (Nat × Int)) T where
  select n := unrecorded (p.select n)
  recv n := unrecorded (p.recv n)
  sslRead n := recorded (p.sslRead n) fun r => (n, r.1)
  setTimeOutState := unnoted p.setTimeOutState
  checkForTimeOut := unrecorded p.checkForTimeOut
  timerLeftMS t := unrecorded (p.timerLeftMS t)
  timerCountdown n := unrecorded (p.timerCountdown n)

/-- A call gave less than it was asked for. -/
def Cut (e : σ × List (Nat × Int)) : Prop := ∃ r ∈ e.2, r.2 ≠ r.1

instance (e : σ × List (Nat × Int)) : Decidable (Cut e) := inferInstanceAs (Decidable (∃ r ∈ e.2, r.2 ≠ r.1))

/-- No call of `SSL_read` is cut when `n` packets are read, as far as it goes. -/
def Uncut (p : FreeRTOSPlatform σ T) (timer : T) (n : Nat) (s : Live (σ × List (Nat × Int)) (MQTTFreeRTOS T)) : Prop :=
  ∀ fuel, ¬ Cut ((readPackets (watched p) (espSslRead (watched p)) timer n).run fuel s).2.env

theorem marks_watched (p : FreeRTOSPlatform σ T) : Marks (watched p) Cut where
  select _ _ := id
  sslRead _ _ := fun ⟨r, hr, hne⟩ => ⟨r, List.mem_append_left _ hr, hne⟩
  setTimeOutState _ := id
  checkForTimeOut _ := id
  timerLeftMS _ _ := id
  timerCountdown _ _ := id
  cut _ _ hne := ⟨_, List.mem_append_right _ (List.mem_singleton_self _), hne⟩

theorem Waits.watched (hw : Waits p unread) : Waits (watched p) fun e => unread e.1 where
  select n e := hw.select n e.1
  select_unread n e := hw.select_unread n e.1
  setTimeOutState e := hw.setTimeOutState e.1
  checkForTimeOut e := hw.checkForTimeOut e.1
  timerLeftMS t e := hw.timerLeftMS t e.1
  timerCountdown n e := hw.timerCountdown n e.1

/-- Packets come over TLS as over TCP when each has a remaining length of one
digit, which is not zero but for the last: this in any run in which no call of
`SSL_read` is cut. -/
theorem agree_iff_short (hw : Waits p unread) (hrecv : Delivers p.recv unread) (hssl : Delivers p.sslRead unread) {timer : T}
    {fs : List Frame} {tcp tls : Live (σ × List (Nat × Int)) (MQTTFreeRTOS T)} (hcount : tls.self.readCount = 0)
    (htcp : unread tcp.env.1 = fs.flatMap Frame.bytes) (htls : unread tls.env.1 = fs.flatMap Frame.bytes)
    (hfit : ∀ f ∈ fs, f.bytes.length ≤ tcp.self.readbuf.length) (hfit' : ∀ f ∈ fs, f.bytes.length ≤ tls.self.readbuf.length)
    (huncut : Uncut p timer fs.length tls) : Agree (watched p) timer fs tcp tls ↔ Short fs := by
  have hrecv' : Delivers (watched p).recv fun e => unread e.1 := fun n e => hrecv n e.1
  have hssl' : Delivers (watched p).sslRead fun e => unread e.1 := fun n e => hssl n e.1
  obtain ⟨out, t, hreads, hseen⟩ := readPackets_returns hw.watched hrecv' timer htcp hfit
  rw [← readPackets_ssl_returns hw.watched hssl' (marks_watched p) timer hcount htls hfit' (.of_runs huncut)]
  constructor
  · rintro ⟨out', out'', _, t', hreads', htlsReads, hsame⟩
    obtain ⟨rfl, _⟩ := hreads.det hreads'
    exact ⟨out'', t', htlsReads, hsame.symm.trans hseen⟩
  · rintro ⟨out', t', htlsReads, hseen'⟩
    exact ⟨out, out', t, t', hreads, htlsReads, hseen.trans hseen'.symm⟩

/-! ## On the wire -/

namespace Wire

/-- At most `n` bytes of the first record that has any. -/
def take (n : Nat) : List Bytes → (Int × Bytes) × List Bytes
  | [] => ((0, []), [])
  | [] :: rs => take n rs
  | (b :: bs) :: rs => (((((b :: bs).take n).length : Int), (b :: bs).take n), (b :: bs).drop n :: rs)

/-- A connection: what is unread of it, in records. `recv` gives a byte at a
time, and `SSL_read` no more than what is left of a record. -/
def line : FreeRTOSPlatform (List Bytes) Unit where
  select _ e := (⟨1, true, false⟩, e)
  recv _ e := take 1 e
  sslRead n e := take n e
  setTimeOutState := id
  checkForTimeOut e := (false, e)
  timerLeftMS _ e := (1000, e)
  timerCountdown _ e := ((), e)

theorem line_waits : Waits line List.flatten where
  select _ _ _ := ⟨Int.zero_lt_one, rfl, rfl⟩
  select_unread _ _ := rfl
  setTimeOutState _ := rfl
  checkForTimeOut _ := ⟨rfl, rfl⟩
  timerLeftMS _ _ := rfl
  timerCountdown _ _ := rfl

theorem take_delivers : Delivers take List.flatten := by
  intro n e hn he
  induction e with
  | nil => exact absurd rfl he
  | cons r rs ih =>
    cases r with
    | nil => exact ih he
    | cons b bs =>
      have hle := List.length_take_le' n (b :: bs)
      have htake := List.length_take_le n (b :: bs)
      refine ⟨((b :: bs).take n).length, ?_, htake, ?_, ?_, ?_⟩
      · rw [List.length_take, List.length_cons]
        omega
      · rw [List.flatten_cons, List.length_append]
        omega
      · refine Prod.ext rfl ?_
        rw [List.flatten_cons, List.take_append_of_le_length hle, List.length_take, ← List.take_eq_take_min]
        rfl
      · rw [List.flatten_cons, List.drop_append_of_le_length hle, List.length_take, ← List.drop_eq_drop_min]
        rfl

theorem line_delivers : Delivers line.recv List.flatten := by
  intro n e hn he
  obtain ⟨k, hk, hk₁, h⟩ := take_delivers 1 e Nat.one_pos he
  exact ⟨k, hk, by omega, h⟩

def client (readbuf : Bytes) : MQTTFreeRTOS Unit := ⟨readbuf, 0, (), 0, 0, none⟩

def pingresp : Frame := ⟨0xd0, [], by decide, by decide⟩

/-- A PUBLISH packet of two bytes for the topic `t`. -/
def publish : Frame := ⟨0x30, [0, 1, 0x74, 0x68, 0x69], by decide, by decide⟩

/-- A client with a record for each packet. -/
def received (fs : List Frame) : Live (List Bytes × List (Nat × Int)) (MQTTFreeRTOS Unit) :=
  ⟨client (List.replicate 8 0), fs.map Frame.bytes, []⟩

theorem publish_pingresp_uncut : Uncut line () 2 (received [publish, pingresp]) := by
  intro fuel
  rcases Nat.lt_or_ge fuel 9 with h | h
  · exact (by decide : ∀ fuel < 9, ¬ Cut ((readPackets (watched line) (espSslRead (watched line)) () 2).run fuel
      (received [publish, pingresp])).2.env) fuel h
  · rw [Prog.settled _ _ h (by decide)]
    decide

theorem publish_pingresp_agree :
    Agree (watched line) () [publish, pingresp] (received [publish, pingresp]) (received [publish, pingresp]) :=
  (agree_iff_short line_waits line_delivers take_delivers rfl rfl rfl (by decide) (by decide) publish_pingresp_uncut).mpr
    ⟨by decide, by decide⟩

/-- Two answers to pings come over TCP. Over TLS the second is not read: two
bytes of it go into `i`. -/
theorem pingresp_pingresp :
    Waits line List.flatten ∧ Delivers line.recv List.flatten ∧ Delivers line.sslRead List.flatten ∧
      ¬ Agree line () [pingresp, pingresp] ⟨client (List.replicate 8 0), [[0xd0, 0], [0xd0, 0]]⟩
        ⟨client (List.replicate 8 0), [[0xd0, 0], [0xd0, 0]]⟩ := by
  refine ⟨line_waits, line_delivers, take_delivers, ?_⟩
  rintro ⟨_, _, _, _, _, htls, _⟩
  have hundef : (readPackets line (espSslRead line) () 2).Undef ⟨client (List.replicate 8 0), [[0xd0, 0], [0xd0, 0]]⟩ := ⟨9, by decide⟩
  exact hundef.not_returns htls

end Wire

end MQTTFreeRTOS

end FEmbed
