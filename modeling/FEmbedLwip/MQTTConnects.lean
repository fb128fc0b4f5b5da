/-
What a success of `connect` says.

One variable holds the result of the handshake and then that of the publish
that is sent again. Where a publish is in flight, the handshake counts for
nothing.
-/
import FEmbedLwip.MQTTEndings
import FEmbedLwip.MQTTOutcomes
import FEmbedLwip.MQTTSteps

namespace FEmbed

open Live
open Relation (ReflTransGen)

namespace MQTTClient

variable {σ T : Type} {p : MQTTPlatform σ T} {charSigned : Bool}

/-! ## An answer at once -/

/-- A call of a timer, by what is outside before and after it. -/
inductive Clocked (p : MQTTPlatform σ T) : σ → σ → Prop
  | timer (e) : Clocked p e (p.timer e).2
  | countdown (n e) : Clocked p e (p.countdown n e).2
  | expired (t e) : Clocked p e (p.expired t e).2
  | leftMs (t e) : Clocked p e (p.leftMs t e).2

/-- The next bytes that are read are these, whatever timers are looked at before
and in between. -/
inductive Brings (p : MQTTPlatform σ T) : Bytes → σ → Prop
  | intro {bs e}
      (first : ∀ e', ReflTransGen (Clocked p) e e' → ∀ n t, 0 < n → n ≤ bs.length → (p.read n t e').1 = ((n : Int), bs.take n))
      (rest : ∀ e', ReflTransGen (Clocked p) e e' → ∀ n t, 0 < n → n ≤ bs.length → Brings p (bs.drop n) (p.read n t e').2) :
      Brings p bs e

theorem Brings.clocked {bs : Bytes} {e e' : σ} (h : Brings p bs e) (he : Clocked p e e') : Brings p bs e' := by
  cases h with
  | intro first rest => exact ⟨fun e'' he' => first e'' (he'.head he), fun e'' he' => rest e'' (he'.head he)⟩

theorem Brings.read {bs : Bytes} {e : σ} (h : Brings p bs e) {n : Nat} {t : Int} (hn : 0 < n) (hlen : n ≤ bs.length) :
    (p.read n t e).1 = ((n : Int), bs.take n) ∧ Brings p (bs.drop n) (p.read n t e).2 := by
  cases h with
  | intro first rest => exact ⟨first e .refl n t hn hlen, rest e .refl n t hn hlen⟩

/-- An accepting CONNACK, with its flags. -/
def connackAccepting (flags : UInt8) : Bytes := [32, 2, flags, 0]

/-- The timer for what is received next does not run out as it is set. -/
def LastsAtFirst (p : MQTTPlatform σ T) (keepAliveInterval : Nat) : Prop :=
  0 < keepAliveInterval → ∀ e, (p.expired (p.countdown (receiveSeconds keepAliveInterval) e).1
    (p.countdown (receiveSeconds keepAliveInterval) e).2).1 = false

/-- Bytes in the read buffer from its start, and those that are stored behind them. -/
theorem stored_behind {readbuf out : Bytes} (bs bs' : Bytes) (h : readbuf.take bs.length = bs) (hout : poke readbuf bs.length bs' = some out) :
    out.take (bs ++ bs').length = bs ++ bs' := by
  rw [List.length_append, poke_take hout, h]

/-- A read of what comes next. -/
theorem Brings.returns {α : Type} {bs : Bytes} {t : T} {n : Nat} {f : Int × Bytes → Prog (Live σ (MQTTClient σ T)) α}
    {s : Live σ (MQTTClient σ T)} {a : α} {s'} (h : (call (p.leftMs t) >>= fun timeout => call (p.read n timeout) >>= f).Returns s a s')
    (hb : Brings p bs s.env) (hn : 0 < n) (hlen : n ≤ bs.length) : ∃ e, Brings p (bs.drop n) e ∧ (f (n, bs.take n)).Returns ⟨s.self, e⟩ a s' := by
  rw [returns_call_bind, returns_call_bind] at h
  obtain ⟨hfirst, hrest⟩ := (hb.clocked (.leftMs t _)).read (t := (p.leftMs t s.env).1) hn hlen
  rw [← hfirst]
  exact ⟨_, hrest, h⟩

/-- A remaining length of one digit. -/
theorem Brings.decodePacket {b : UInt8} {bs : Bytes} {timeout : Int} {s : Live σ (MQTTClient σ T)} {n : Nat} {s'}
    (hb : Brings p (b :: bs) s.env) (hlast : b.toNat / 128 = 0) (h : (decodePacket p timeout).Returns s n s') :
    n = b.toNat % 128 ∧ s'.self = s.self ∧ Brings p bs s'.env := by
  obtain ⟨hfirst, hrest⟩ := hb.read (t := timeout) Nat.one_pos (Nat.le_add_left 1 bs.length)
  rw [MQTTClient.decodePacket, decodePacket.go, returns_call_bind] at h
  generalize (p.read 1 timeout s.env).1 = r at h hfirst
  obtain rfl := hfirst
  rcases Prog.returns_ite.mp h with ⟨hno, _⟩ | ⟨_, h⟩
  · exact absurd rfl hno
  rcases Prog.returns_ite.mp h with ⟨_, h⟩ | ⟨hno, _⟩
  · obtain ⟨rfl, rfl⟩ := Prog.returns_pure.mp h
    exact ⟨by rw [Nat.zero_add, Nat.mul_one]; rfl, rfl, hrest⟩
  · exact absurd hlast hno

/-- The CONNACK that comes is read. -/
structure ConnackRead (p : MQTTPlatform σ T) (flags : UInt8) (s s' : Live σ (MQTTClient σ T)) : Prop where
  readbuf : s'.self.readbuf.take 4 = connackAccepting flags
  interval : s'.self.keepAliveInterval = s.self.keepAliveInterval
  armed : 0 < s.self.keepAliveInterval → ∃ e, s'.self.lastReceived = (p.countdown (receiveSeconds s.self.keepAliveInterval) e).1 ∧
    s'.env = (p.countdown (receiveSeconds s.self.keepAliveInterval) e).2

theorem readPacket_brought (hmax : 8 ≤ p.maxMqttPacketSize) {t : T} {flags : UInt8} {s : Live σ (MQTTClient σ T)}
    (hb : Brings p (connackAccepting flags) s.env) {rc : Int} {s'} (h : (readPacket p t).Returns s rc s') :
    rc = MsgType.connack.code ∧ ConnackRead p flags s s' := by
  obtain ⟨e₁, hb, h⟩ := hb.returns h Nat.one_pos (Nat.le_add_left 1 3)
  obtain ⟨_, _, hstore, h⟩ := Prog.returns_bind.mp h
  obtain ⟨buf₁, hbuf₁, rfl⟩ := store_poke hstore
  have htake₁ : buf₁.take 1 = [32] := poke_take hbuf₁
  rcases Prog.returns_ite.mp h with ⟨hno, _⟩ | ⟨_, h⟩
  · exact absurd rfl hno
  rw [returns_call_bind] at h
  obtain ⟨remLen, v, hdecode, h⟩ := Prog.returns_bind.mp h
  have hb' : Brings p [2, flags, 0] (p.leftMs t e₁).2 := hb.clocked (.leftMs t _)
  obtain ⟨hrem, hself, hb⟩ := hb'.decodePacket (by decide) hdecode
  obtain rfl : remLen = 2 := hrem
  obtain ⟨_, _, hstore, h⟩ := Prog.returns_bind.mp h
  obtain ⟨buf₂, hbuf₂, rfl⟩ := store_poke hstore
  rw [hself] at hbuf₂ h
  have htake₂ : buf₂.take 2 = [32, 2] := stored_behind [32] _ htake₁ hbuf₂
  rcases Prog.returns_ite.mp h with ⟨hno, _⟩ | ⟨_, h⟩
  · exact absurd (show ((2 : Nat) : Int) > p.maxMqttPacketSize - (2 : Nat) from hno) (by omega)
  rcases Prog.returns_ite.mp h with ⟨_, h⟩ | ⟨hno, _⟩
  · obtain ⟨e₃, _, h⟩ := hb.returns h (by decide) (Nat.le_refl 2)
    obtain ⟨_, _, hstore, h⟩ := Prog.returns_bind.mp h
    obtain ⟨buf₃, hbuf₃, rfl⟩ := store_poke hstore
    have htake₃ : buf₃.take 4 = connackAccepting flags := stored_behind [32, 2] [flags, 0] htake₂ hbuf₃
    rcases Prog.returns_ite.mp h with ⟨hno, _⟩ | ⟨_, h⟩
    · exact absurd rfl hno
    have htype : MQTTPacket.headerType (buf₃.headD 0) = MsgType.connack.code := by
      cases buf₃ with
      | nil => exact nomatch htake₃
      | cons b buf₃ =>
        obtain ⟨rfl, _⟩ := List.cons.inj htake₃
        exact (by decide : MQTTPacket.headerType 32 = MsgType.connack.code)
    rw [packetRead, returns_obj_bind] at h
    dsimp only at h
    rw [htype] at h
    rcases Prog.returns_ite.mp h with ⟨_, h⟩ | ⟨hzero, h⟩
    · rw [returns_call_bind, returns_set_bind, returns_happened_bind] at h
      obtain ⟨rfl, rfl⟩ := Prog.returns_pure.mp h
      exact ⟨rfl, htake₃, rfl, fun _ => ⟨e₃, rfl, rfl⟩⟩
    · rw [returns_happened_bind] at h
      obtain ⟨rfl, rfl⟩ := Prog.returns_pure.mp h
      exact ⟨rfl, htake₃, rfl, fun hpos => absurd hpos hzero⟩
  · exact absurd (show 0 < 2 by decide) hno

/-- A turn that reads an accepting CONNACK. -/
theorem cycle_brought (hmax : 8 ≤ p.maxMqttPacketSize) {t : T} {flags : UInt8} {s : Live σ (MQTTClient σ T)}
    (hb : Brings p (connackAccepting flags) s.env) (hlast : LastsAtFirst p s.self.keepAliveInterval) {rc : Int} {s'}
    (h : (cycle p t).Returns s rc s') : rc = MsgType.connack.code ∧ s'.self.readbuf.take 4 = connackAccepting flags := by
  rw [cycle, returns_call_bind] at h
  obtain ⟨code, u, hpacket, h⟩ := Prog.returns_bind.mp h
  have hb' : Brings p (connackAccepting flags) (p.timer s.env).2 := hb.clocked (.timer _)
  obtain ⟨rfl, hread⟩ := readPacket_brought hmax hb' hpacket
  obtain ⟨r, v, hswitch, hexit⟩ := Prog.returns_bind.mp h
  obtain ⟨rfl, rfl⟩ : r = .ok () ∧ v = u := by
    rcases Prog.returns_ite.mp hswitch with ⟨_, hswitch⟩ | ⟨hno, _⟩
    · exact Prog.returns_pure.mp hswitch
    · exact absurd (.inr (.inl rfl)) hno
  obtain ⟨krc, w, hkeep, hexit⟩ := Prog.returns_bind.mp hexit
  obtain ⟨rfl, hself⟩ : krc = success ∧ w.self = v.self := by
    rw [keepalive, returns_obj_bind] at hkeep
    rcases Prog.returns_ite.mp hkeep with ⟨_, hkeep⟩ | ⟨hpos, hkeep⟩
    · obtain ⟨rfl, rfl⟩ := Prog.returns_pure.mp hkeep
      exact ⟨rfl, rfl⟩
    -- The timer was set when the CONNACK had come.
    rw [hread.interval] at hpos
    obtain ⟨e, hl, he⟩ := hread.armed (Nat.pos_of_ne_zero hpos)
    rw [returns_call_bind, hl, he, hlast (Nat.pos_of_ne_zero hpos) e] at hkeep
    obtain ⟨rfl, rfl⟩ := Prog.returns_pure.mp hkeep
    exact ⟨rfl, rfl⟩
  rcases Prog.returns_ite.mp hexit with ⟨_, hexit⟩ | ⟨hno, _⟩
  · obtain ⟨rfl, rfl⟩ := Prog.returns_pure.mp hexit
    exact ⟨rfl, by rw [hself]; exact hread.readbuf⟩
  · exact absurd rfl hno

/-- A wait for the CONNACK that comes at once. -/
theorem awaitConnack_brought (hmax : 8 ≤ p.maxMqttPacketSize) {t : T} {flags : UInt8} {s : Live σ (MQTTClient σ T)}
    (hb : Brings p (connackAccepting flags) s.env) (htime : (p.expired t s.env).1 = false)
    (hlast : LastsAtFirst p s.self.keepAliveInterval) {x : Int × Option ConnackData} {u} (h : (awaitConnack p t).Returns s x u) :
    x.1 = success := by
  obtain ⟨wrc, v, hwait, h⟩ := Prog.returns_bind.mp h
  obtain ⟨rfl, hbuf⟩ : wrc = MsgType.connack.code ∧ v.self.readbuf.take 4 = connackAccepting flags := by
    have turn {r : Turn Int Int} {w} (hturn : (do
        if ← call (p.expired t) then
          return .exit failure
        let rc ← cycle p t
        if rc ≠ MsgType.connack.code ∧ rc ≥ 0 then
          return .next rc
        return .exit rc : Prog (Live σ (MQTTClient σ T)) (Turn Int Int)).Returns s r w) :
        r = .exit (MsgType.connack.code : Int) ∧ w.self.readbuf.take 4 = connackAccepting flags := by
      rw [returns_call_bind, htime, if_neg Bool.false_ne_true] at hturn
      obtain ⟨rc, w', hcycle, hturn⟩ := Prog.returns_bind.mp hturn
      obtain ⟨rfl, hbuf⟩ := cycle_brought (s := ⟨s.self, (p.expired t s.env).2⟩) hmax (hb.clocked (.expired t _)) hlast hcycle
      rcases Prog.returns_ite.mp hturn with ⟨hno, _⟩ | ⟨_, hturn⟩
      · exact absurd rfl hno.1
      · obtain ⟨rfl, rfl⟩ := Prog.returns_pure.mp hturn
        exact ⟨rfl, hbuf⟩
    rw [waitfor, Prog.returns_loop] at hwait
    rcases hwait with hexit | ⟨_, _, hnext, _⟩
    · obtain ⟨hrc, hbuf⟩ := turn hexit
      exact ⟨Turn.exit.inj hrc, hbuf⟩
    · exact nomatch (turn hnext).1
  have hack : MQTTPacket.deserializeConnack v.self.readbuf =
      some { rc := 1, sessionPresent := some (flags.toNat % 2 = 1), connackRc := some 0 } := by
    rw [← List.take_append_drop 4 v.self.readbuf, hbuf]
    exact MQTTPacket.deserializeConnack_append rfl _
  rw [if_pos rfl, returns_obj_bind, hack] at h
  obtain ⟨rfl, _⟩ := Prog.returns_pure.mp h
  rfl

/-! ## Accepting CONNACKs -/

/-- A CONNACK with its return code, and the code is 0. -/
def Accepts (packet : Bytes) : Prop := ∃ ack, MQTTPacket.deserializeConnack packet = some ack ∧ ack.rc = 1 ∧ ack.connackRc = some 0

/-- A CONNACK accepts the connection. -/
def Accepted : MQTTEvent σ → Prop
  | .received packet _ => packetType packet = MsgType.connack.code ∧ Accepts packet
  | _ => False

/-- A publish is started, or it is gone on with. -/
def Starts (ev : MQTTEvent σ) : Prop := Sends .publish ev ∨ Sends .pubrel ev

/-- A call of `connect` opens a session only when its first CONNACK accepts, and
it starts nothing before. -/
structure OpensAccepted (c : ClientCall σ T) : Prop where
  accepted : c.out = success → ∃ packet, (packetsOf .connack (log c)).head? = some packet ∧ Accepts packet
  opened : c.before.self.isconnected = false → c.after.self.isconnected →
    ∃ packet, (packetsOf .connack (log c)).head? = some packet ∧ Accepts packet
  silent : Preceded Starts Accepted (log c)

/-- When the CONNECT is out, an accepting CONNACK comes at once: the timer of
`connect` has not run out, and none that is set for what is received has. -/
structure AnsweredAtOnce (p : MQTTPlatform σ T) (options : ConnectData) (c : ClientCall σ T) : Prop where
  answered : ∃ bs e rest flags, log c = .sent bs e :: rest ∧ Brings p (connackAccepting flags) e ∧
    ∀ e', (e' = e ∨ ∃ n, e' = (p.countdown n e).2) → (p.expired (p.timerMs 5000 c.before.env).1 e').1 = false
  lasts : LastsAtFirst p options.keepAliveInterval

/-- No publish is in flight, or an accepting CONNACK comes at once; no CONNACK
lacks its code, and no PUBREC comes before. -/
structure WellAnswered (p : MQTTPlatform σ T) (options : ConnectData) (c : ClientCall σ T) : Prop where
  unburdened : c.before.self.inflightMsgid = 0 ∨ AnsweredAtOnce p options c
  whole : ∀ packet ∈ packetsOf .connack (log c), ∃ ack, MQTTPacket.deserializeConnack packet = some ack ∧ ack.connackRc.isSome
  released : Preceded (Hears .pubrec) Accepted (log c)

theorem mem_of_packetsOf {type : MsgType} {log : List (MQTTEvent σ)} {packet : Bytes} (h : packet ∈ packetsOf type log) :
    ∃ e, .received packet e ∈ log ∧ packetType packet = type.code := by
  obtain ⟨a, ha, hpacket⟩ := List.mem_filterMap.mp h
  obtain ⟨ev, hev, hea⟩ := List.mem_filterMap.mp ha
  cases a with
  | cutShort => exact nomatch hpacket
  | packet bs =>
    dsimp only at hpacket
    split at hpacket
    · obtain rfl := Option.some.inj hpacket
      cases ev with
      | received packet e =>
        obtain rfl := Arrival.packet.inj (Option.some.inj hea)
        exact ⟨e, hev, ‹_›⟩
      | _ => exact nomatch hea
    · exact nomatch hpacket

theorem connackRc_isSome {buf : Bytes} {ack : MQTTPacket.Connack} (h : MQTTPacket.deserializeConnack buf = some ack)
    (hsome : ack.connackRc.isSome) : ack.rc = 1 := by
  simp only [MQTTPacket.deserializeConnack, Option.bind_eq_bind, Option.bind_eq_some_iff] at h
  obtain ⟨b, _, h⟩ := h
  split at h
  · obtain rfl := Option.some.inj h
    cases hsome
  obtain ⟨x, _, h⟩ := Option.bind_eq_some_iff.mp h
  split at h
  · obtain rfl := Option.some.inj h
    cases hsome
  obtain ⟨_, _, h⟩ := Option.bind_eq_some_iff.mp h
  obtain ⟨_, _, h⟩ := Option.bind_eq_some_iff.mp h
  obtain rfl := Option.some.inj h
  rfl

/-- A handshake that succeeds has seen one CONNACK, which accepts. -/
theorem Greeted.accepts {s u : Live σ (MQTTClient σ T)} {data : Option ConnackData} (h : Greeted s u (success, data))
    (hwhole : ∀ packet ∈ packetsOf .connack (since s u), ∃ ack, MQTTPacket.deserializeConnack packet = some ack ∧ ack.connackRc.isSome) :
    ∃ packet, packetsOf .connack (since s u) = [packet] ∧ Accepts packet := by
  generalize hr : (success, data) = r at h
  cases h with
  | unanswered => exact absurd (show success = failure from congrArg Prod.fst hr) (by decide)
  | @answered packet ack data' rc hwait hack hdata hrc =>
    have hrc' : rc = success := (congrArg Prod.fst hr).symm
    refine ⟨packet, hwait.packets, ?_⟩
    obtain ⟨ack', hack', hsome⟩ := hwhole packet (by rw [hwait.packets]; exact .head _)
    obtain ⟨rest, hbuf⟩ := hwait.readbuf
    rw [← hbuf, MQTTPacket.deserializeConnack_append hack' rest] at hack
    obtain rfl := Option.some.inj hack
    have hone := connackRc_isSome hack' hsome
    refine ⟨ack', hack', hone, ?_⟩
    obtain ⟨code, hcode⟩ := Option.isSome_iff_exists.mp hsome
    rw [if_pos hone, hrc', hdata, hcode, Option.getD_some] at hrc
    rw [hcode, show code = 0 from Int.ofNat_eq_zero.mp hrc.symm]

theorem greeting_events {options : ConnectData} {s u : Live σ (MQTTClient σ T)} {bs : Bytes} {l : T} {e e' : σ} {rcs : List Int}
    (hcycles : Cycles p (greeting s options bs l e e') rcs u) :
    u.self.events = s.self.events ++ (.sent bs e :: since (greeting s options bs l e e') u) := by
  rw [← List.singleton_append, ← List.append_assoc]
  exact hcycles.events

/-- What happens up to the CONNACK: what is started then goes on with a publish
for which a PUBREC came. -/
theorem greeting_log {options : ConnectData} {s u : Live σ (MQTTClient σ T)} {bs : Bytes} {l : T} {e e' : σ} {rcs : List Int}
    (hbs : MQTTPacket.serializeConnect p.maxMqttPacketSize options = some (.ok bs))
    (hcycles : Cycles p (greeting s options bs l e e') rcs u) :
    u.self.events = s.self.events ++ since s u ∧ Preceded Starts (Hears .pubrec) (since s u) ∧
      packetsOf .connack (since s u) = packetsOf .connack (since (greeting s options bs l e e') u) := by
  have hev := greeting_events hcycles
  have hconnect : ∀ ev ∈ [MQTTEvent.sent bs e], ¬ Starts ev := by
    intro ev hmem hstarts
    obtain rfl := List.mem_singleton.mp hmem
    have htype : packetType bs = MsgType.connect.code := MQTTPacket.serializeConnect_type hbs
    rcases hstarts with hsends | hsends
    · exact absurd (hsends.symm.trans htype) (by decide)
    · exact absurd (hsends.symm.trans htype) (by decide)
  have hturns : Preceded Starts (Hears .pubrec) (since (greeting s options bs l e e') u) := by
    intro before ev after heq hstarts
    rcases hstarts with hsends | hsends
    · exact absurd hsends (hcycles.prompted.never (by decide) rfl ev (by rw [heq]; simp))
    · obtain ⟨ev', hmem, heard, hheard, hhears⟩ := hcycles.prompted .pubrel (by decide) before ev after heq hsends
      obtain rfl := Option.mem_some_iff.mp hheard
      exact ⟨ev', hmem, hhears⟩
  rw [since_eq hev]
  exact ⟨hev, (Preceded.none hconnect).append hturns, packetsOf_append _ [_] _⟩

/-- The end of a call, from the client as it was when the handshake was over. -/
theorem opened_log {s u v s' : Live σ (MQTTClient σ T)} {rc rc' : Int} (hu : u.self.events = s.self.events ++ since s u)
    (hresend : Resending p u rc rc' v) (hs' : s' = ⟨opened rc' v.self, v.env⟩) : ∃ rest, since s s' = since s u ++ rest := by
  have hv := (hresend.steps rfl : Steps p (.connect {}) u v).events
  have hs := (opened_steps : Steps p (.connect {}) v ⟨opened rc' v.self, v.env⟩).events
  rw [← hs'] at hs
  obtain ⟨rest, hrest⟩ := hv.trans hs
  refine ⟨rest, since_eq ?_⟩
  rw [← hrest, hu, List.append_assoc]

/-- The first CONNACK of a call accepts, and nothing is started before it. -/
theorem opensAccepted_of_greeted {c : ClientCall σ T} {options : ConnectData} {bs : Bytes} {l : T} {e e' : σ} {rcs : List Int}
    {u v : Live σ (MQTTClient σ T)} {rc : Int} {data : Option ConnackData} (h : WellAnswered p options c)
    (hbs : MQTTPacket.serializeConnect p.maxMqttPacketSize options = some (.ok bs))
    (hcycles : Cycles p (greeting c.before options bs l e e') rcs u)
    (hgreet : Greeted (greeting c.before options bs l e e') u (success, data)) (hresend : Resending p u success rc v)
    (hafter : c.after = ⟨opened rc v.self, v.env⟩) : OpensAccepted c := by
  obtain ⟨hev, hstarts, hpackets⟩ := greeting_log hbs hcycles
  obtain ⟨rest, hlog⟩ := opened_log hev hresend hafter
  obtain ⟨hun, hwhole, hreleased⟩ := h
  rw [log, hlog] at hwhole hreleased
  obtain ⟨packet, hone, haccepts⟩ := hgreet.accepts fun packet hpacket =>
    hwhole packet (by rw [packetsOf_append, hpackets]; exact List.mem_append_left _ hpacket)
  have hhead : (packetsOf .connack (log c)).head? = some packet := by
    rw [log, hlog, packetsOf_append, hpackets, hone]
    rfl
  refine ⟨fun _ => ⟨packet, hhead, haccepts⟩, fun _ _ => ⟨packet, hhead, haccepts⟩, ?_⟩
  have hpacket : packet ∈ packetsOf .connack (since c.before u) := by
    rw [hpackets, hone]
    exact .head _
  obtain ⟨e, hmem, htype⟩ := mem_of_packetsOf hpacket
  rw [log, hlog]
  exact (hstarts.trans hreleased.left).append_of_mem hmem ⟨htype, haccepts⟩ rest

/-- Where an accepting CONNACK comes at once, the wait for it succeeds. -/
theorem AnsweredAtOnce.success {options : ConnectData} {c : ClientCall σ T} (h : AnsweredAtOnce p options c)
    (hmax : 8 ≤ p.maxMqttPacketSize) {bs : Bytes} {l : T} {e e' : σ} {rest : List (MQTTEvent σ)} {x : Int × Option ConnackData} {u}
    (hlog : log c = .sent bs e :: rest) (he' : e' = e ∨ ∃ n, e' = (p.countdown n e).2)
    (hwait : (awaitConnack p (p.timerMs 5000 c.before.env).1).Returns (greeting c.before options bs l e e') x u) : x.1 = success := by
  obtain ⟨⟨bs₁, e₁, rest₁, flags, hlog₁, hbrings, htime⟩, hlast⟩ := h
  obtain ⟨hev, _⟩ := List.cons.inj (hlog.symm.trans hlog₁)
  obtain ⟨_, rfl⟩ := MQTTEvent.sent.inj hev
  have hbrings' : Brings p (connackAccepting flags) e' := by
    rcases he' with rfl | ⟨n, rfl⟩
    · exact hbrings
    · exact hbrings.clocked (.countdown ..)
  exact awaitConnack_brought hmax hbrings' (htime e' he') hlast hwait

/-- A connect that meets the condition opens a session with an accepting CONNACK only. -/
theorem connect_opensAccepted (hread : Reads p) (hmax : 8 ≤ p.maxMqttPacketSize) {c : ClientCall σ T} {options : ConnectData}
    {data : Option ConnackData} (h : (connect p options).Returns c.before (c.out, data) c.after) (hwell : WellAnswered p options c) :
    OpensAccepted c := by
  have refused (hout : c.out ≠ success) (hcon : c.before.self.isconnected = false → c.after.self.isconnected = false)
      (hstarts : Preceded Starts Accepted (log c)) : OpensAccepted c :=
    ⟨fun h => absurd h hout, fun hno hyes => absurd ((hcon hno).symm.trans hyes) (by decide), hstarts⟩
  have quiet (hlog : log c = []) : Preceded Starts Accepted (log c) := by
    rw [hlog]
    exact .none fun _ hev => nomatch hev
  generalize hr : (c.out, data) = r at h
  generalize hafter : c.after = after at h
  cases connect_parts h with
  | connected hcon =>
    have hout : c.out = failure := congrArg Prod.fst hr
    refine refused (by rw [hout]; decide) (fun hno => absurd (hno.symm.trans hcon) (by decide)) (quiet ?_)
    rw [log, hafter]
    exact since_eq (List.append_nil _).symm
  | unsent hcon =>
    have hout : c.out = failure := congrArg Prod.fst hr
    refine refused (by rw [hout]; decide) (fun _ => by rw [hafter]; exact hcon) (quiet ?_)
    rw [log, hafter]
    exact since_eq (List.append_nil _).symm
  | @sent bs l e e' x u rc v hcon hbs _ he' hwait hresend =>
    obtain ⟨rcs, hcycles, hgreet⟩ := awaitConnack_returns hread hwait
    have hresend := resend_returns hread hresend
    obtain ⟨hev, hstarts, _⟩ := greeting_log hbs hcycles
    by_cases hx : x.1 = success
    · obtain ⟨_, data'⟩ := x
      obtain rfl := hx
      exact opensAccepted_of_greeted hwell hbs hcycles hgreet hresend hafter
    -- The handshake has failed, so nothing was in flight.
    have hst := hcycles.unconnected hcon
    have hin : u.self.inflightMsgid = 0 := by
      rcases hwell.unburdened with hin | hatOnce
      · exact (congrArg Standing.inflightMsgid hst).trans hin
      · obtain ⟨rest, hlog⟩ := opened_log hev hresend rfl
        rw [since_eq (greeting_events hcycles), ← hafter] at hlog
        exact absurd (hatOnce.success hmax hlog he' hwait) hx
    obtain ⟨rfl, rfl⟩ : rc = x.1 ∧ v = u := by
      cases hresend with
      | nothing => exact ⟨rfl, rfl⟩
      | tooLong hpos => omega
      | pubrel hpos => omega
      | publish hpos => omega
    rw [opened, if_neg hx] at hafter
    have hout : c.out = x.1 := congrArg Prod.fst hr
    have hlog : log c = since c.before v := by rw [log, hafter]
    refine refused (by rw [hout]; exact hx) (fun _ => ?_) ?_
    · rw [hafter]
      exact (congrArg Standing.isconnected hst).trans hcon
    · rw [hlog]
      exact hstarts.trans (hlog ▸ hwell.released)

/-- **A connection is opened by an accepting CONNACK**, in any run, where no
publish is in flight or it comes at once; and every `connect` comes to an end. -/
theorem opensAccepted (hread : Reads p) (hp : RunsOut p) (hmax : 8 ≤ p.maxMqttPacketSize) {s s' : Live σ (MQTTClient σ T)}
    {cs : List (ClientCall σ T)} (h : Prog.Calls (ClientOp.run p charSigned) s cs s') :
    (∀ c ∈ cs, ∀ options, c.op = .connect options → WellAnswered p options c → OpensAccepted c) ∧
      ∀ t options, t.self.readbuf.length = p.maxMqttPacketSize → (MQTTPacket.serializeConnect p.maxMqttPacketSize options).isSome →
        Prog.Halts (connect p options) t fun u => ∃ ev ∈ since t u, Hears .publish ev := by
  constructor
  · intro c hc options hop hwell
    have hrun := h.mem hc
    rw [hop] at hrun
    obtain ⟨data, hconnect⟩ := returns_fst hrun
    exact connect_opensAccepted hread hmax hconnect hwell
  · intro t options hbuf hserial
    exact connect_halts hread hp hmax hserial ⟨hbuf, Nat.le_refl t.self.events.length⟩

namespace Wire

/-- A publish with QoS 1 is not acknowledged, the session is lost, and the client connects again. -/
def reconnecting : List ClientOp := [connectOp false, .publish [97] [1] 0 1 false, .disconnect, connectOp false]

/-- The network by script, where every test of a timer takes a time unit. -/
def ticking : MQTTPlatform Script Nat where
  maxMqttPacketSize := 24
  maxMessageHandlers := 2
  maxIncomingQoS2Messages := 1
  read n _ e := read n e
  write packet _ e := (packet.length, e)
  timer e := (e.now + 4, e)
  timerMs _ e := (e.now + 4, e)
  countdown _ e := (e.now + 4, e)
  countdownMs _ e := (e.now + 4, e)
  expired t e := (t ≤ e.now, { e with now := e.now + 1 })
  leftMs t e := (t - e.now, e)
  malloc _ e := (true, e)
  callback _ _ _ e := e
  indeterminate e := (0, e)

theorem ticking_reads : Reads ticking := fun n t e => reads n t e

theorem ticking_later {e e' : Script} (h : ReflTransGen (Outside ticking) e e') : e.now ≤ e'.now := by
  have later (n : Nat) (e : Script) : e.now ≤ (read n e).2.now := by
    unfold read
    split
    · exact Nat.le_succ _
    · exact Nat.le_succ _
    · exact Nat.le_refl _
  induction h with
  | refl => exact Nat.le_refl _
  | tail _ hstep ih =>
    refine Nat.le_trans ih ?_
    cases hstep with
    | read n => exact later n _
    | expired => exact Nat.le_succ _
    | _ => exact Nat.le_refl _

theorem ticking_runsOut : RunsOut ticking where
  expires t := by
    refine Subrelation.wf (fun {e' e} h => ?_) (measure fun e : Script => t - e.now).wf
    obtain ⟨hearly, hlater⟩ := h
    have hlt : ¬ t ≤ e.now := of_decide_eq_false hearly
    have hnow : e.now + 1 ≤ e'.now := ticking_later hlater
    show t - e'.now < t - e.now
    omega
  stored n t e := by
    show (read n e).1.2.length ≤ n
    unfold read
    split
    · exact Nat.zero_le n
    · exact Nat.zero_le n
    · exact List.length_take_le ..

/-- A piece is read from its start. -/
theorem ticking_brings (bs more : Bytes) (rest : List Bytes) {e : Script} (he : e.pieces = (bs ++ more) :: rest) : Brings ticking bs e := by
  have clocked {e e' : Script} (h : ReflTransGen (Clocked ticking) e e') : e'.pieces = e.pieces := by
    induction h with
    | refl => rfl
    | tail _ hstep ih => cases hstep <;> exact ih
  have reads {e e' : Script} {bs : Bytes} (he : e.pieces = (bs ++ more) :: rest) (h : ReflTransGen (Clocked ticking) e e') {n : Nat}
      (hn : 0 < n) (hlen : n ≤ bs.length) : read n e' = (((n : Int), bs.take n), ⟨e'.now, (bs.drop n ++ more) :: rest⟩) := by
    obtain ⟨now, pieces⟩ := e'
    obtain rfl : pieces = (bs ++ more) :: rest := (clocked h).trans he
    cases bs with
    | nil => exact absurd hlen (Nat.not_le_of_lt hn)
    | cons b bs =>
      have htake : ((b :: bs ++ more).take n).length = n := List.length_take_of_le (by rw [List.length_append]; omega)
      show (((((b :: bs ++ more).take n).length : Int), (b :: bs ++ more).take n), (⟨now, (b :: bs ++ more).drop n :: rest⟩ : Script)) = _
      rw [htake, List.take_append_of_le_length hlen, List.drop_append_of_le_length hlen]
  induction hk : bs.length using Nat.strongRecOn generalizing bs e with
  | ind k ih =>
    refine ⟨fun e' h n t hn hlen => ?_, fun e' h n t hn hlen => ?_⟩
    · exact congrArg Prod.fst (reads he h hn hlen)
    · refine ih (bs.drop n).length (by rw [List.length_drop]; omega) (bs.drop n) ?_ rfl
      exact congrArg (fun r => r.2.pieces) (reads he h hn hlen)

/-- The broker accepts the second connection, and acknowledges the publish. -/
def acceptedAgain : ClientCall Script Nat :=
  (Prog.walked (ClientOp.run ticking true) 12 (start [connack, [], connack ++ [64, 2, 0, 1]]) reconnecting).1.get ⟨3, by decide⟩

theorem connect_accepted : (OpensAccepted acceptedAgain ∧ acceptedAgain.out = success ∧ acceptedAgain.before.self.inflightMsgid = 1) ∧
    Prog.Halts (connect ticking { keepAliveInterval := 0, cleansession := true }) (start [])
      fun u => ∃ ev ∈ since (start []) u, Hears .publish ev := by
  have h := opensAccepted ticking_reads ticking_runsOut (by decide)
    (.of_walked (show (Prog.walk (ClientOp.run ticking true) 12 (start [connack, [], connack ++ [64, 2, 0, 1]]) reconnecting).isSome
      by decide))
  refine ⟨⟨h.1 acceptedAgain (List.get_mem _ _) _ rfl ⟨.inr ⟨?_, fun hpos => absurd hpos (by decide)⟩, ?_, ?_⟩, by decide, by decide⟩,
    h.2 (start []) _ (by decide) (by decide)⟩
  · refine ⟨[16, 12, 0, 4, 77, 81, 84, 84, 4, 0, 0, 0, 0, 0], ⟨10, [connack ++ [64, 2, 0, 1]]⟩, _, 0, cut (n := 0) (by decide),
      ticking_brings connack [64, 2, 0, 1] [] rfl, fun e' he' => ?_⟩
    have hnow : e'.now = 10 := by
      rcases he' with rfl | ⟨n, rfl⟩
      · rfl
      · rfl
    show decide (13 ≤ e'.now) = false
    rw [hnow]
    rfl
  · rw [show packetsOf .connack (log acceptedAgain) = [connack] by decide]
    exact fun packet hmem => ⟨{ rc := 1, sessionPresent := some false, connackRc := some 0 }, by rw [List.mem_singleton.mp hmem]; decide, rfl⟩
  · exact .none (by decide)

/-- The broker refuses the second connection, and acknowledges the publish. -/
def refusedAgain : ClientCall Script Nat :=
  (calls [connack, [], [], [32, 2, 0, 5, 64, 2, 0, 1]] reconnecting).1.get ⟨3, by decide⟩

theorem connect_refused : ¬ ∀ cs s', Prog.Calls (ClientOp.run platform true) (start [connack, [], [], [32, 2, 0, 5, 64, 2, 0, 1]]) cs s' →
    ∀ c ∈ cs, ∀ options, c.op = .connect options → OpensAccepted c := by
  intro h
  obtain ⟨packet, hhead, ack, hack, _, hcode⟩ :=
    (h _ (calls _ reconnecting).2 (calls_run (by decide)) refusedAgain (List.get_mem _ _) _ rfl).accepted (by decide)
  rw [show packetsOf .connack (log refusedAgain) = [[32, 2, 0, 5]] by decide] at hhead
  obtain rfl := Option.some.inj hhead
  rw [show MQTTPacket.deserializeConnack [32, 2, 0, 5] = some { rc := 1, sessionPresent := some false, connackRc := some 5 } by decide]
    at hack
  obtain rfl := Option.some.inj hack
  exact absurd hcode (by decide)

end Wire

end MQTTClient

end FEmbed
