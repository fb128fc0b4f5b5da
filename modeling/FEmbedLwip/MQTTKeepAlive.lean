/-
The keep-alive of `MQTT::Client`, in discrete time: what a connected client
that runs `cycle` in every time unit owes its broker, and when it closes the
session by itself.

`keepalive` pings when `last_received` has expired, and it is armed for half
of the interval (60 at most) with each packet received and for 15 with each
ping. So it is the broker that says when the client speaks (`Prompts`), and a
broker that keeps sending can leave it silent for too long.
-/
import FEmbedLwip.MQTTTurns
import FEmbedLwip.MQTTPacketFacts
import Mathlib.Data.List.Chain

namespace FEmbed

open Live
open Prog (Guarantee Guarantees)
open Relation (ReflTransGen)

namespace MQTTClient

variable {σ T : Type} {p : MQTTPlatform σ T}

/-! ## Time -/

/-- Network and timers in discrete time: no call takes a time unit, a timer
has expired from its deadline on, and `read` gives no more than it was asked for. -/
structure Clock (p : MQTTPlatform σ T) where
  now : σ → Nat
  deadline : T → Nat
  still : ∀ {e e'}, Outside p e e' → now e' = now e
  countdown : ∀ n e, deadline (p.countdown n e).1 = now e + n.toNat
  expired : ∀ t e, (p.expired t e).1 = true ↔ deadline t ≤ now e
  read : ∀ n t e, (p.read n t e).1.1 ≤ n

/-- When the packets of a log were sent. -/
def sentTimes (c : Clock p) (log : List (MQTTEvent σ)) : List Nat :=
  log.filterMap fun
    | .sent _ e => some (c.now e)
    | _ => none

/-- When packets came, one having come at `a₀` before the log. -/
def heardTimes (c : Clock p) (a₀ : Nat) (log : List (MQTTEvent σ)) : List Nat :=
  a₀ :: log.filterMap fun
    | .received _ e => some (c.now e)
    | _ => none

/-- When the last packet was sent, one having been sent at `t₀` before the log. -/
def lastSent (c : Clock p) (t₀ : Nat) (log : List (MQTTEvent σ)) : Nat := (sentTimes c log).getLast?.getD t₀

/-- The PINGREQs that wait for their PINGRESP after one more event. -/
def answering (n : Nat) : MQTTEvent σ → Nat
  | .sent packet _ => if packetType packet = MsgType.pingreq.code then n + 1 else n
  | .received packet _ => if packetType packet = MsgType.pingresp.code then 0 else n
  | .cutShort _ | .delivered .. | .called .. | .cleaned | .closed _ => n

/-- The PINGREQs of a log since its last PINGRESP. -/
def unanswered (log : List (MQTTEvent σ)) : Nat := log.foldl answering 0

/-- Nothing was received. -/
def silent (log : List (MQTTEvent σ)) : Prop := ∀ packet e, .received packet e ∉ log

/-! ## Runs -/

/-- A client that is connected runs `cycle` in every time unit, once or more
often; `ran` says whether it did in this one. What else happens outside from
one unit to the next is anybody's. `ok` is required where a unit ends. -/
inductive KeepAliveRun (c : Clock p) (ok : Live σ (MQTTClient σ T) → Prop) (s₀ : Live σ (MQTTClient σ T)) :
    Bool → Live σ (MQTTClient σ T) → Prop
  | start : KeepAliveRun c ok s₀ false s₀
  | cycle {ran s timer rc s'} (before : KeepAliveRun c ok s₀ ran s) (conn : s.self.isconnected)
      (h : (cycle p timer).Returns s rc s') : KeepAliveRun c ok s₀ true s'
  | tick {s e} (before : KeepAliveRun c ok s₀ true s) (conn : s.self.isconnected) (hok : ok s)
      (h : c.now e = c.now s.env + 1) : KeepAliveRun c ok s₀ false ⟨s.self, e⟩

/-- A session as `connect` leaves it when the CONNACK has come: the last packet
was sent at `t₀`, which is not yet too long ago, and the timer is armed. A
CONNECT would not have fit in less than two bytes. -/
structure Started (c : Clock p) (t₀ : Nat) (s₀ : Live σ (MQTTClient σ T)) : Prop where
  room : 2 ≤ p.maxMqttPacketSize
  interval : 0 < s₀.self.keepAliveInterval
  pings : s₀.self.pingOutstanding = 0
  sent : t₀ ≤ c.now s₀.env
  recent : c.now s₀.env ≤ t₀ + s₀.self.keepAliveInterval
  armed : c.deadline s₀.self.lastReceived = c.now s₀.env + receiveSeconds s₀.self.keepAliveInterval

/-- A packet that is answered: a PUBLISH with an id, a PUBREC or a PUBREL. -/
def Asks (packet : Bytes) : Prop :=
  (MQTTPacket.idOfPublish packet).isSome ∨ packetType packet = MsgType.pubrec.code ∨ packetType packet = MsgType.pubrel.code

/-- What the broker does at `t` makes the client speak: it sends a packet that
is answered, or it has sent nothing since `a` and a PINGREQ is due: the first
half an interval (60 at most) after `a`, and one in every 15 units from then on. -/
inductive Prompts (c : Clock p) (keepAliveInterval a₀ : Nat) (log : List (MQTTEvent σ)) (t : Nat) : Prop
  | asks {packet e} (mem : .received packet e ∈ log) (asks : Asks packet) (now : c.now e = t)
  | waits {a n} (mem : a ∈ heardTimes c a₀ log) (last : ∀ b ∈ heardTimes c a₀ log, b ≤ t → b ≤ a)
      (due : t = a + receiveSeconds keepAliveInterval + 15 * n)

/-- The broker has made the client speak in the last interval, if the session is older. -/
def PromptedInTime (c : Clock p) (t₀ : Nat) (s₀ s : Live σ (MQTTClient σ T)) : Prop :=
  t₀ + s₀.self.keepAliveInterval ≤ c.now s.env → ∃ t, t ≤ c.now s.env ∧ c.now s.env < t + s₀.self.keepAliveInterval ∧
    Prompts c s₀.self.keepAliveInterval (c.now s₀.env) (since s₀ s) t

/-- The obligation: while the client is connected no two packets it sends are
further apart than the interval, and at most six PINGREQs are not answered; if
it then receives nothing any more, it closes the session. -/
structure KeepsAlive (c : Clock p) (t₀ : Nat) (s₀ s : Live σ (MQTTClient σ T)) : Prop where
  spaced : (t₀ :: sentTimes c (since s₀ s)).IsChain fun a b => b ≤ a + s₀.self.keepAliveInterval
  recent : s.self.isconnected → c.now s.env ≤ lastSent c t₀ (since s₀ s) + s₀.self.keepAliveInterval
  pings : s.self.isconnected → unanswered (since s₀ s) ≤ 6
  closes : ∀ {ok ran s'}, KeepAliveRun c ok s ran s' → silent (since s s') →
    max (c.now s.env) (c.deadline s.self.lastReceived) + 6 * 15 < c.now s'.env → s'.self.isconnected = false

/-! ## One cycle -/

/-- Nothing that is said to be calm is received, and no ping is sent. -/
def calm (c : Clock p) (t : Nat) : MQTTEvent σ → Prop
  | .sent packet e => packetType packet ≠ MsgType.pingreq.code ∧ c.now e = t
  | .received _ _ => False
  | .cutShort _ | .delivered .. | .called .. | .cleaned | .closed _ => True

theorem foldl_calm {c : Clock p} {t : Nat} {evs : List (MQTTEvent σ)} (h : ∀ ev ∈ evs, calm c t ev) (n : Nat) :
    evs.foldl answering n = n := by
  induction evs with
  | nil => rfl
  | cons ev evs ih =>
    have hev : answering n ev = n := by
      have := h ev (.head _)
      cases ev with
      | sent => exact if_neg this.1
      | received => exact this.elim
      | cutShort | delivered | called | cleaned | closed => rfl
    rw [List.foldl_cons, hev]
    exact ih fun ev h' => h ev (.tail _ h')

/-- What the timer and the count depend on is left, and what happens is calm. -/
def quiet (c : Clock p) : Guarantee (Live σ (MQTTClient σ T)) where
  rel s s' := c.now s'.env = c.now s.env ∧ s'.self.lastReceived = s.self.lastReceived ∧
    s'.self.pingOutstanding = s.self.pingOutstanding ∧ s'.self.isconnected = s.self.isconnected ∧
    s'.self.keepAliveInterval = s.self.keepAliveInterval ∧
    ∃ evs, s'.self.events = s.self.events ++ evs ∧ ∀ ev ∈ evs, calm c (c.now s.env) ev
  refl s := ⟨rfl, rfl, rfl, rfl, rfl, [], by simp, by simp⟩
  trans := by
    rintro s t u ⟨hn, hl, hp, hc, hk, evs, hev, hcalm⟩ ⟨hn', hl', hp', hc', hk', evs', hev', hcalm'⟩
    refine ⟨hn'.trans hn, hl'.trans hl, hp'.trans hp, hc'.trans hc, hk'.trans hk, evs ++ evs', by rw [hev', hev, List.append_assoc], ?_⟩
    intro ev h
    rcases List.mem_append.mp h with h | h
    · exact hcalm ev h
    · rw [← hn]; exact hcalm' ev h

theorem quiet_allows (c : Clock p) : Allows p (quiet c) fun bs => packetType bs ≠ MsgType.pingreq.code where
  mute s e h := ⟨c.still h.outside, rfl, rfl, rfl, rfl, [], by simp, by simp⟩
  write s bs t := ⟨c.still (.write bs t s.env), rfl, rfl, rfl, rfl, [], by simp, by simp⟩
  delivered s n m := ⟨rfl, rfl, rfl, rfl, rfl, [.delivered n m], rfl, by simp [calm]⟩
  called s cb n m := ⟨rfl, rfl, rfl, rfl, rfl, [.called cb n m], rfl, by simp [calm]⟩
  ack {type dup id bs} hne h := by
    rw [MQTTPacket.serializeAck] at h
    split at h
    · cases h
    · obtain rfl := Except.ok.inj h
      rw [packetType, List.cons_append, List.headD_cons, MQTTPacket.headerType_header]
      exact fun h => hne (MsgType.code_inj h)
  buffered s bs _ := ⟨rfl, rfl, rfl, rfl, rfl, [], by simp, by simp⟩
  sent s h := ⟨rfl, rfl, rfl, rfl, rfl, [.sent s.self.sendbuf s.env], rfl, by simpa [calm] using h⟩
  incoming s ids := ⟨rfl, rfl, rfl, rfl, rfl, [], by simp, by simp⟩

/-- `readPacket` receives a packet and arms the timer, or it does neither and
its result is at most that of one byte. -/
inductive PacketTimed (c : Clock p) (s : Live σ (MQTTClient σ T)) : Int → Live σ (MQTTClient σ T) → Prop
  | nothing {rc : Int} {readbuf e evs} (hrc : rc ≤ 1) (hnow : c.now e = c.now s.env)
      (hcalm : ∀ ev ∈ evs, calm c (c.now s.env) ev) :
      PacketTimed c s rc ⟨{ s.self with readbuf := readbuf, events := s.self.events ++ evs }, e⟩
  | packet {bs readbuf e t} (hnow : c.now e = c.now s.env)
      (ht : c.deadline t = c.now s.env + receiveSeconds s.self.keepAliveInterval) :
      PacketTimed c s (packetType bs) ⟨{ s.self with
        readbuf := readbuf, lastReceived := t, events := s.self.events ++ [.received bs e] }, e⟩

theorem Clock.still_reaches (c : Clock p) {e e' : σ} (h : ReflTransGen (Outside p) e e') : c.now e' = c.now e := by
  induction h with
  | refl => rfl
  | tail _ hstep ih => exact (c.still hstep).trans ih

theorem readPacket_timed (c : Clock p) {t : T} {s s₁ : Live σ (MQTTClient σ T)} (h₀ : Idle p s s₁)
    (hK : 0 < s.self.keepAliveInterval) {rc s'} (h : (readPacket p t).Returns s₁ rc s') : PacketTimed c s rc s' := by
  obtain ⟨evs, hread⟩ := readPacket_returns c.read h₀ h
  cases hread with
  | nothing hrc hs' =>
    obtain ⟨readbuf, e, rfl, he⟩ := hs'
    have hnone : s.self.events ++ [] = s.self.events := List.append_nil _
    have hquiet : PacketTimed c s rc ⟨{ s.self with readbuf := readbuf, events := s.self.events ++ [] }, e⟩ :=
      .nothing (by omega) (c.still_reaches he) fun _ hev => nomatch hev
    rwa [hnone] at hquiet
  | cutShort hs' =>
    obtain ⟨readbuf, e, rfl, he⟩ := hs'
    refine .nothing (by decide) (c.still_reaches he) fun ev hev => ?_
    rw [List.mem_singleton.mp hev]
    trivial
  | packet he ht =>
    obtain ⟨e', he', rfl⟩ := ht hK
    refine .packet (c.still_reaches he) ((c.countdown ..).trans ?_)
    rw [c.still_reaches he']
    rfl

/-- How the `switch` ends: with no ping counted any more after a PINGRESP, quietly
after anything else; without going on only for a PUBLISH, if not with an error. -/
inductive Switched (c : Clock p) (packetType : Int) (s : Live σ (MQTTClient σ T)) : CycleExit → Live σ (MQTTClient σ T) → Prop
  | on {s'} (htype : packetType ≠ MsgType.pingresp.code) (hq : (quiet c).rel s s') : Switched c packetType s (.ok ()) s'
  | pong {s'} (htype : packetType = MsgType.pingresp.code) (hs' : s' = ⟨{ s.self with pingOutstanding := 0 }, s.env⟩) :
      Switched c packetType s (.ok ()) s'
  | unread {s'} (htype : packetType = MsgType.publish.code) (hq : (quiet c).rel s s') :
      Switched c packetType s (.error success) s'
  | failed {rc s'} (hrc : rc ≠ success) : Switched c packetType s (.error rc) s'

theorem cycleSwitch_timed (c : Clock p) {packetType : Int} {t : T} {s : Live σ (MQTTClient σ T)} {x : CycleExit} {s'}
    (h : (cycleSwitch p packetType t).Returns s x s') : Switched c packetType s x s' := by
  have A := quiet_allows c
  have release {type : MsgType} (hne : packetType ≠ MsgType.pingresp.code) (h : (cycleRelease p type t).Returns s x s') :
      Switched c packetType s x s' := by
    cases x with
    | ok => exact .on hne (A.sends.cycleRelease (.inl trivial) h)
    | error rc => exact .failed (by rw [cycleRelease_error h]; decide)
  rcases Prog.returns_ite.mp h with ⟨htype, h⟩ | ⟨hother, h⟩
  · obtain ⟨rfl, rfl⟩ := Prog.returns_pure.mp h
    refine .on ?_ ((quiet c).refl _)
    rcases htype with rfl | rfl | rfl | rfl | rfl <;> decide
  rcases Prog.returns_ite.mp h with ⟨htype, h⟩ | ⟨_, h⟩
  · cases x with
    | ok => exact .on (by rw [htype]; decide) (A.sends.cyclePublish (.inl trivial) h)
    | error rc =>
      rcases cyclePublish_error h with rfl | rfl
      · exact .unread htype (A.sends.cyclePublish (.inl trivial) h)
      · exact .failed (by decide)
  rcases Prog.returns_ite.mp h with ⟨htype, h⟩ | ⟨_, h⟩
  · exact release (by rw [htype]; decide) h
  rcases Prog.returns_ite.mp h with ⟨htype, h⟩ | ⟨_, h⟩
  · exact release (by rw [htype]; decide) h
  rcases Prog.returns_ite.mp h with ⟨htype, h⟩ | ⟨_, h⟩
  · rw [returns_set_bind] at h
    obtain ⟨rfl, rfl⟩ := Prog.returns_pure.mp h
    exact .pong htype rfl
  · obtain ⟨rfl, rfl⟩ := Prog.returns_pure.mp h
    exact .failed fun h0 => hother (.inl h0)

/-- `keepalive` succeeds where the timer has not expired, and with a ping. -/
inductive KeptAlive (c : Clock p) (s s' : Live σ (MQTTClient σ T)) : Prop
  | early {e} (hs' : s' = ⟨s.self, e⟩) (hnow : c.now e = c.now s.env)
      (hd : c.now s.env < c.deadline s.self.lastReceived) : KeptAlive c s s'
  | ping {bs sendbuf e e' t} (hs' : s' = ⟨{ s.self with
        sendbuf := sendbuf, lastReceived := t, pingOutstanding := s.self.pingOutstanding + 1
        events := s.self.events ++ [.sent bs e] }, e'⟩)
      (hnow : c.now e = c.now s.env) (hd : c.deadline s.self.lastReceived ≤ c.now s.env) (hp : s.self.pingOutstanding ≤ 5)
      (hbs : packetType bs = MsgType.pingreq.code) (ht : c.deadline t = c.now s.env + 15) : KeptAlive c s s'

theorem keepalive_timed (c : Clock p) (hroom : 2 ≤ p.maxMqttPacketSize) {s : Live σ (MQTTClient σ T)}
    (hK : 0 < s.self.keepAliveInterval) {s'} (h : (keepalive p).Returns s success s') : KeptAlive c s s' := by
  rw [keepalive, returns_obj_bind, if_neg (by omega), returns_call_bind] at h
  have hstill := c.still (.expired s.self.lastReceived s.env)
  rcases Prog.returns_ite.mp h with ⟨hexp, h⟩ | ⟨hexp, h⟩
  · have hd := (c.expired ..).mp hexp
    rcases Prog.returns_ite.mp h with ⟨_, h⟩ | ⟨hp, h⟩
    · exact absurd (Prog.returns_pure.mp h).1 (by decide)
    have hpacket : MQTTPacket.serializePingreq p.maxMqttPacketSize =
        .ok (MQTTPacket.header .pingreq false 0 false :: MQTTPacket.encode 0) := if_neg (by omega)
    rw [returns_call_bind, hpacket] at h
    obtain ⟨r, u, hsend, h⟩ := Prog.returns_bind.mp h
    obtain ⟨e, he, ⟨rfl, rfl⟩ | ⟨rfl, rfl⟩⟩ := sendSerialized_returns hsend
    · have hnow : c.now e = c.now s.env := (c.still_reaches he).trans ((c.still (.timerMs ..)).trans hstill)
      dsimp only at h
      rw [if_pos rfl, returns_call_bind, returns_set_bind] at h
      obtain ⟨_, rfl⟩ := Prog.returns_pure.mp h
      refine .ping rfl hnow hd (by omega) ?_ ((c.countdown ..).trans (by rw [hnow]; rfl))
      exact MQTTPacket.headerType_header ..
    · exact absurd (Prog.returns_pure.mp h).1 (by decide)
  · obtain ⟨_, rfl⟩ := Prog.returns_pure.mp h
    exact .early rfl hstill (by rw [← not_le]; exact fun hd => hexp ((c.expired ..).mpr hd))

theorem cycleExit_closes {packetType rc : Int} {s : Live σ (MQTTClient σ T)} {x s'}
    (h : (cycleExit packetType rc).Returns s x s') : (rc = success ∧ s' = s) ∨ s'.self.isconnected = false := by
  rcases cycleExit_returns h with ⟨hrc, _, hs'⟩ | ⟨_, _, rfl⟩
  · exact .inl ⟨hrc, hs'⟩
  · exact .inr (shut_isconnected s.self)

/-- What is said to happen now. -/
def happensNow (c : Clock p) (t : Nat) : MQTTEvent σ → Prop
  | .sent _ e | .received _ e => c.now e = t
  | .cutShort _ | .delivered .. | .called .. | .cleaned | .closed _ => True

/-- A cycle takes no time: what it sends and receives it does now. -/
def inUnit (c : Clock p) : Guarantee (Live σ (MQTTClient σ T)) where
  rel s s' := c.now s'.env = c.now s.env ∧ s'.self.keepAliveInterval = s.self.keepAliveInterval ∧
    ∃ evs, s'.self.events = s.self.events ++ evs ∧ ∀ ev ∈ evs, happensNow c (c.now s.env) ev
  refl s := ⟨rfl, rfl, [], by simp, List.forall_mem_nil _⟩
  trans := by
    rintro s t u ⟨hn, hk, evs, hev, hall⟩ ⟨hn', hk', evs', hev', hall'⟩
    refine ⟨hn'.trans hn, hk'.trans hk, evs ++ evs', by rw [hev', hev, List.append_assoc], fun ev h => ?_⟩
    rcases List.mem_append.mp h with h | h
    · exact hall ev h
    · rw [← hn]; exact hall' ev h

theorem inUnit_same (c : Clock p) {s : Live σ (MQTTClient σ T)} {self : MQTTClient σ T}
    (hk : self.keepAliveInterval = s.self.keepAliveInterval) (he : self.events = s.self.events) :
    (inUnit c).rel s ⟨self, s.env⟩ := ⟨rfl, hk, [], by simp [he], List.forall_mem_nil _⟩

theorem inUnit_one (c : Clock p) {s : Live σ (MQTTClient σ T)} {self : MQTTClient σ T} {ev : MQTTEvent σ}
    (hk : self.keepAliveInterval = s.self.keepAliveInterval) (he : self.events = s.self.events ++ [ev])
    (hev : happensNow c (c.now s.env) ev) : (inUnit c).rel s ⟨self, s.env⟩ :=
  ⟨rfl, hk, [ev], he, fun ev' h => by rwa [List.mem_singleton.mp h]⟩

theorem inUnit_allows (c : Clock p) : AllowsAll p (inUnit c) where
  mute s e h := ⟨c.still h.outside, rfl, [], by simp, List.forall_mem_nil _⟩
  write s bs t := ⟨c.still (.write bs t s.env), rfl, [], by simp, List.forall_mem_nil _⟩
  delivered s n m := inUnit_one c rfl rfl trivial
  called s cb n m := inUnit_one c rfl rfl trivial
  ack _ _ := trivial
  buffered s bs _ := inUnit_same c rfl rfl
  sent s _ := inUnit_one c rfl rfl rfl
  incoming s ids := inUnit_same c rfl rfl
  readbuf s bs _ := inUnit_same c rfl rfl
  received s packet := inUnit_one c rfl rfl rfl
  cutShort s := inUnit_one c rfl rfl trivial
  lastReceived s t := inUnit_same c rfl rfl
  pingOutstanding s n := inUnit_same c rfl rfl
  closed s := inUnit_same c rfl rfl
  cleaned := by
    rintro s _ s' h
    rw [cleanSession_returns.mp h]
    exact inUnit_one c rfl rfl trivial
  ended s left := inUnit_one c rfl rfl trivial

/-- Where `keepalive` begins: an event has changed the count as it should, and
the timer is the one there was unless a packet was received. -/
structure Handled (c : Clock p) (s u : Live σ (MQTTClient σ T)) : Prop where
  now : c.now u.env = c.now s.env
  interval : u.self.keepAliveInterval = s.self.keepAliveInterval
  conn : u.self.isconnected = s.self.isconnected
  events : u.self.events = s.self.events ++ since s u
  counted : u.self.pingOutstanding = (since s u).foldl answering s.self.pingOutstanding
  pings : u.self.pingOutstanding ≤ s.self.pingOutstanding
  silent : silent (since s u) →
    u.self.lastReceived = s.self.lastReceived ∧ u.self.pingOutstanding = s.self.pingOutstanding
  heard : ¬ MQTTClient.silent (since s u) →
    c.deadline u.self.lastReceived = c.now s.env + receiveSeconds s.self.keepAliveInterval

theorem not_received_of_calm {c : Clock p} {t : Nat} {evs : List (MQTTEvent σ)} (h : ∀ ev ∈ evs, calm c t ev) (packet : Bytes)
    (e : σ) : .received packet e ∉ evs := fun hm => (h _ hm).elim

theorem Handled.of_switched (c : Clock p) {s t u : Live σ (MQTTClient σ T)} {packetType : Int}
    (hr : PacketTimed c s packetType t) (hs : Switched c packetType t (.ok ()) u) : Handled c s u := by
  cases hr with
  | @nothing rc readbuf e evs' hrc hnow hcalm' =>
    cases hs with
    | on _ hq =>
      obtain ⟨hn, hl, hp, hcon, hk, evs, hev, hcalm⟩ := hq
      have hev : u.self.events = s.self.events ++ (evs' ++ evs) := by rw [hev, List.append_assoc]
      have hcalm : ∀ ev ∈ evs' ++ evs, calm c (c.now s.env) ev := by
        intro ev hmem
        rcases List.mem_append.mp hmem with hmem | hmem
        · exact hcalm' ev hmem
        · exact hnow ▸ hcalm ev hmem
      have hsince : since s u = evs' ++ evs := since_eq hev
      have hsil : MQTTClient.silent (since s u) := fun packet e' hmem => not_received_of_calm hcalm packet e' (hsince ▸ hmem)
      exact ⟨hn.trans hnow, hk, hcon, by rw [hsince]; exact hev, by rw [hsince, foldl_calm hcalm]; exact hp, hp.le,
        fun _ => ⟨hl, hp⟩, fun h => absurd hsil h⟩
    | pong htype _ => exact absurd (htype ▸ hrc) (by decide)
  | @packet bs readbuf e t' hnow ht =>
    cases hs with
    | on htype hq =>
      obtain ⟨hn, hl, hp, hcon, hk, evs, hev, hcalm⟩ := hq
      have hev : u.self.events = s.self.events ++ (.received bs e :: evs) := by rw [hev]; simp
      have hsince : since s u = .received bs e :: evs := since_eq hev
      have hstep : answering s.self.pingOutstanding (.received bs e) = s.self.pingOutstanding :=
        if_neg fun h => htype (congrArg Nat.cast h)
      refine ⟨hn.trans hnow, hk, hcon, by rw [hsince]; exact hev, ?_, hp.le, fun hsil => ?_, fun _ => ?_⟩
      · rw [hsince, List.foldl_cons, hstep, foldl_calm hcalm]; exact hp
      · exact absurd (by simp [hsince]) (hsil bs e)
      · rw [hl]; exact ht
    | pong htype hu =>
      have hev : u.self.events = s.self.events ++ [.received bs e] := by rw [hu]
      have hsince : since s u = [.received bs e] := since_eq hev
      have hstep : answering s.self.pingOutstanding (.received bs e) = 0 := if_pos (Int.ofNat_inj.mp htype)
      refine ⟨by rw [hu]; exact hnow, by rw [hu], by rw [hu], by rw [hsince]; exact hev, ?_, by rw [hu]; exact Nat.zero_le _, fun hsil => ?_,
        fun _ => ?_⟩
      · rw [hsince, List.foldl_cons, hstep, hu]; rfl
      · exact absurd (by simp [hsince]) (hsil bs e)
      · rw [hu]; exact ht

/-- What a cycle does: while the client stays connected its count is that of
the log; where nothing is received it pings when the timer is due, and a packet
that is received arms the timer. -/
structure CycleTimed (c : Clock p) (s s' : Live σ (MQTTClient σ T)) : Prop where
  now : c.now s'.env = c.now s.env
  interval : s'.self.keepAliveInterval = s.self.keepAliveInterval
  events : s'.self.events = s.self.events ++ since s s'
  unit : ∀ ev ∈ since s s', happensNow c (c.now s.env) ev
  counted : s'.self.isconnected → s'.self.pingOutstanding = (since s s').foldl answering s.self.pingOutstanding
  pings : s'.self.isconnected → s.self.pingOutstanding ≤ 6 → s'.self.pingOutstanding ≤ 6
  silent : s'.self.isconnected → silent (since s s') →
    (c.now s.env < c.deadline s.self.lastReceived ∧ s'.self.lastReceived = s.self.lastReceived ∧
      s'.self.pingOutstanding = s.self.pingOutstanding) ∨
    (c.deadline s.self.lastReceived ≤ c.now s.env ∧ s.self.pingOutstanding ≤ 5 ∧
      c.deadline s'.self.lastReceived = c.now s.env + 15 ∧ s'.self.pingOutstanding = s.self.pingOutstanding + 1 ∧
      c.now s.env ∈ sentTimes c (since s s'))
  heard : s'.self.isconnected → ¬ MQTTClient.silent (since s s') → 2 ≤ s.self.keepAliveInterval →
    c.deadline s'.self.lastReceived = c.now s.env + receiveSeconds s.self.keepAliveInterval

theorem receiveSeconds_pos {keepAliveInterval : Nat} (h : 2 ≤ keepAliveInterval) : 0 < receiveSeconds keepAliveInterval := by
  rw [receiveSeconds]
  split <;> omega

theorem CycleTimed.of_keptAlive {c : Clock p} {s u s' : Live σ (MQTTClient σ T)} (hu : Handled c s u) (hs' : KeptAlive c u s')
    (hf : (inUnit c).rel s s') : CycleTimed c s s' := by
  obtain ⟨hnow, hint, evs, hev, hunit⟩ := hf
  obtain rfl : since s s' = evs := since_eq hev
  cases hs' with
  | @early e hs' he hd =>
    have hsame : since s s' = since s u := by rw [hs']; rfl
    rw [hu.now] at hd
    refine ⟨hnow, hint, hev, hunit, fun _ => ?_, fun _ hp => ?_, fun _ hsil => ?_, fun _ hheard _ => ?_⟩
    · rw [hsame, hs']; exact hu.counted
    · rw [hs']; exact hu.pings.trans hp
    · rw [hsame] at hsil
      obtain ⟨hl, hp⟩ := hu.silent hsil
      rw [hs']
      exact .inl ⟨by rw [← hl]; exact hd, hl, hp⟩
    · rw [hsame] at hheard
      rw [hs']
      exact hu.heard hheard
  | @ping bs sendbuf e e' t hs' he hd hp hbs ht =>
    have hmore : since s s' = since s u ++ [.sent bs e] :=
      since_eq (by rw [hs', ← List.append_assoc, ← hu.events])
    have hstep (n : Nat) : answering n (.sent bs e : MQTTEvent σ) = n + 1 := if_pos hbs
    have hquiet (h : MQTTClient.silent (since s s')) : MQTTClient.silent (since s u) := fun packet e' hm =>
      h packet e' (by rw [hmore]; exact List.mem_append_left _ hm)
    rw [hu.now] at hd ht
    refine ⟨hnow, hint, hev, hunit, fun _ => ?_, fun _ _ => ?_, fun _ hsil => ?_, fun _ hheard hK => ?_⟩
    · rw [hmore, List.foldl_append, ← hu.counted, List.foldl_cons, hstep, hs']; rfl
    · rw [hs']; exact Nat.succ_le_succ hp
    · obtain ⟨hl, hpu⟩ := hu.silent (hquiet hsil)
      rw [hl] at hd
      rw [hpu] at hp
      have hsent : c.now s.env ∈ sentTimes c (since s s') := by
        rw [hmore, sentTimes, List.filterMap_append]
        exact List.mem_append_right _ (List.mem_singleton.mpr (he.trans hu.now).symm)
      refine .inr ⟨hd, hp, ?_, ?_, hsent⟩
      · rw [hs']; exact ht
      · rw [hs']; exact congrArg (· + 1) hpu
    · -- A timer that was armed in this unit is not due.
      have hheard : ¬ MQTTClient.silent (since s u) := by
        refine fun h => hheard fun packet e' hm => ?_
        rw [hmore] at hm
        rcases List.mem_append.mp hm with hm | hm
        · exact h packet e' hm
        · exact nomatch List.mem_singleton.mp hm
      have hpos := receiveSeconds_pos hK
      rw [hu.heard hheard] at hd
      omega

theorem CycleTimed.of_closed {c : Clock p} {s s' : Live σ (MQTTClient σ T)} (hclosed : s'.self.isconnected = false)
    (hf : (inUnit c).rel s s') : CycleTimed c s s' := by
  obtain ⟨hnow, hint, evs, hev, hunit⟩ := hf
  obtain rfl : since s s' = evs := since_eq hev
  have hnot : ¬ s'.self.isconnected = true := by simp [hclosed]
  exact ⟨hnow, hint, hev, hunit, fun h => absurd h hnot, fun h => absurd h hnot, fun h => absurd h hnot, fun h => absurd h hnot⟩

/-- The PUBLISH that could not be read has armed the timer all the same. -/
theorem CycleTimed.of_unread {c : Clock p} {s t s' : Live σ (MQTTClient σ T)} (hr : PacketTimed c s MsgType.publish.code t)
    (hq : (quiet c).rel t s') (hf : (inUnit c).rel s s') : CycleTimed c s s' := by
  obtain ⟨hnow, hint, evs, hev, hunit⟩ := hf
  obtain rfl : since s s' = evs := since_eq hev
  obtain ⟨_, hl, hp, _, _, evs, hev', hcalm⟩ := hq
  generalize hcode : (MsgType.publish.code : Int) = code at hr
  cases hr with
  | nothing hrc => exact absurd (hcode ▸ hrc) (by decide)
  | @packet bs readbuf e t' hnow' ht =>
    have hsince : since s s' = .received bs e :: evs := since_eq (by rw [hev']; simp)
    have hstep : answering s.self.pingOutstanding (.received bs e) = s.self.pingOutstanding :=
      if_neg fun h => by rw [← Int.ofNat_inj.mp hcode] at h; exact absurd h (by decide)
    refine ⟨hnow, hint, hev, hunit, fun _ => ?_, fun _ h => hp.le.trans h, fun _ hsil => ?_, fun _ _ _ => ?_⟩
    · rw [hsince, List.foldl_cons, hstep, foldl_calm hcalm]; exact hp
    · exact absurd (by simp [hsince]) (hsil bs e)
    · rw [hl]; exact ht

/-- From the `switch` on. -/
theorem CycleTimed.of_handled {c : Clock p} {s u s' : Live σ (MQTTClient σ T)} (hu : Handled c s u)
    (hroom : 2 ≤ p.maxMqttPacketSize) (hK : 0 < s.self.keepAliveInterval) {packetType rc : Int}
    (h : (keepalive p >>= fun r => cycleExit packetType (if r = success then success else failure)).Returns u rc s')
    (hf : (inUnit c).rel s s') : CycleTimed c s s' := by
  obtain ⟨r, w, hkeep, h⟩ := Prog.returns_bind.mp h
  rcases cycleExit_closes h with ⟨hok, rfl⟩ | hclosed
  · split at hok
    · rename_i hr
      rw [hr] at hkeep
      exact .of_keptAlive hu (keepalive_timed c hroom (by rw [hu.interval]; exact hK) hkeep) hf
    · exact absurd hok (by decide)
  · exact .of_closed hclosed hf

theorem cycle_timed (c : Clock p) (hroom : 2 ≤ p.maxMqttPacketSize) {t : T} {s : Live σ (MQTTClient σ T)}
    (hK : 0 < s.self.keepAliveInterval) {rc s'} (h : (cycle p t).Returns s rc s') : CycleTimed c s s' := by
  have hf : (inUnit c).rel s s' := (inUnit_allows c).cycles.cycle (.inl trivial) h
  rw [cycle, returns_call_bind] at h
  have h₀ : Idle p s ⟨s.self, (p.timer s.env).2⟩ := (Idle.refl s).call (.timer _)
  obtain ⟨packetType, u, hread, h⟩ := Prog.returns_bind.mp h
  obtain ⟨x, v, hswitch, h⟩ := Prog.returns_bind.mp h
  have hr := readPacket_timed c h₀ hK hread
  cases cycleSwitch_timed c hswitch with
  | failed hrc =>
    rcases cycleExit_closes h with ⟨hok, _⟩ | hclosed
    · exact absurd hok hrc
    · exact .of_closed hclosed hf
  | unread htype hq =>
    rcases cycleExit_closes h with ⟨_, rfl⟩ | hclosed
    · exact .of_unread (htype ▸ hr) hq hf
    · exact .of_closed hclosed hf
  | on htype hq =>
    exact .of_handled (.of_switched c hr (.on htype hq)) hroom hK h hf
  | pong htype hv =>
    exact .of_handled (.of_switched c hr (.pong htype hv)) hroom hK h hf

/-- What came in a cycle that the client is still connected after was answered, if it asks for it. -/
theorem Cycled.answers {s s' : Live σ (MQTTClient σ T)} {rc : Int} (h : Cycled p s rc s') (hcon : s'.self.isconnected)
    {packet : Bytes} {e : σ} (hmem : .received packet e ∈ since s s') (hasks : Asks packet) : ∃ bs e', .sent bs e' ∈ since s s' := by
  cases h with
  | @failed _ _ _ w => exact absurd hcon (by rw [shut_isconnected]; decide)
  | kept h hr hlisted =>
    obtain @⟨arr, u, evs, ids, pings, hread, hserved, hpinged, hworked⟩ := h
    have hsince : since s s' = arr ++ (evs ++ pings) :=
      since_eq (by rw [hworked.events, hread.worked.2.1, List.append_assoc])
    suffices ∃ bs e', .sent bs e' ∈ evs by
      obtain ⟨bs, e', hsent⟩ := this
      exact ⟨bs, e', by rw [hsince]; exact List.mem_append_right _ (List.mem_append_left _ hsent)⟩
    have harr : .received packet e ∈ arr := by
      have hin : arrivals (evs ++ pings) = [] := by
        rw [arrivals_append, hserved.arrivals]
        cases hpinged with
        | none => rfl
        | sent => rfl
      rw [hsince] at hmem
      rcases List.mem_append.mp hmem with hmem | hmem
      · exact hmem
      · have : Arrival.packet packet ∈ arrivals (evs ++ pings) := List.mem_filterMap.mpr ⟨_, hmem, rfl⟩
        rw [hin] at this
        exact absurd this List.not_mem_nil
    have answered {type : MsgType} {id : Nat} {acks : List (MQTTEvent σ)} {r : CycleExit} (h : Answered p type id acks r)
        (hr : r = .ok () ∨ r = .error success) : ∃ bs e', .sent bs e' ∈ acks := by
      cases h with
      | sent => exact ⟨_, _, .head _⟩
      | failed => exact absurd hr (by decide)
    cases hread with
    | nothing => exact absurd harr List.not_mem_nil
    | cutShort => cases List.mem_singleton.mp harr
    | @packet bs rest =>
      obtain ⟨rfl, -⟩ := MQTTEvent.received.inj (List.mem_singleton.mp harr)
      have hread (hid : (MQTTPacket.idOfPublish packet).isSome) {pub : MQTTPacket.Publish}
          (hpub : MQTTPacket.deserializePublish (packet ++ rest) = some pub) : pub.rc = 1 ∧ 0 < pub.qos := by
        obtain ⟨id, hid⟩ := Option.isSome_iff_exists.mp hid
        have hsome := MQTTPacket.idOfPublish_append hid rest
        rw [MQTTPacket.idOfPublish, hpub] at hsome
        exact MQTTPacket.deserializePublish_of_id hpub hsome
      generalize hcode : (packetType packet : Int) = code at hserved
      have htype (type : MsgType) (h : code = type.code) : packetType packet = type.code := Int.ofNat_inj.mp (hcode.trans h)
      cases hserved with
      | idle _ hne =>
        exfalso
        rcases hasks with hid | htype | htype
        · obtain ⟨id, hid⟩ := Option.isSome_iff_exists.mp hid
          obtain ⟨b, _, _, _, _, hb, htype, _⟩ := MQTTPacket.idOfPublish_iff.mp hid
          refine hne .publish (by decide) (hcode.symm.trans (congrArg Nat.cast ?_))
          rw [← htype, packetType]
          cases packet with
          | nil => cases hb
          | cons b' packet => rw [Option.some.inj hb, List.headD_cons]
        · exact hne .pubrec (by decide) (hcode.symm.trans (congrArg Nat.cast htype))
        · exact hne .pubrel (by decide) (hcode.symm.trans (congrArg Nat.cast htype))
      | unlisted hno => exact absurd (hcode ▸ hlisted) hno
      | unread hpub hrc => exact absurd (hread (hasks.resolve_right (by rw [htype .publish rfl]; decide)) hpub).1 hrc
      | publish hpub hrc htells htaken hcalls hack =>
        have hqos := (hread (hasks.resolve_right (by rw [htype .publish rfl]; decide)) hpub).2
        rw [← htells.qos] at hqos
        cases hack with
        | none hzero => omega
        | bad => exact absurd hr (by decide)
        | answered _ hans =>
          obtain ⟨bs, e', hsent⟩ := answered hans hr
          exact ⟨bs, e', List.mem_append_right _ (List.mem_append_right _ hsent)⟩
      | pubrec _ _ hans => exact answered hans hr
      | pubrel _ _ hans => exact answered hans hr

/-! ## Runs keep the obligation -/

theorem sentTimes_now {c : Clock p} {t : Nat} {evs : List (MQTTEvent σ)} (h : ∀ ev ∈ evs, happensNow c t ev) :
    ∀ t' ∈ sentTimes c evs, t' = t := by
  intro t' ht
  obtain ⟨ev, hev, heq⟩ := List.mem_filterMap.mp ht
  cases ev with
  | sent packet e => exact (Option.some.inj heq).symm.trans (h _ hev)
  | received => exact nomatch heq
  | cutShort | delivered | called | cleaned | closed => exact nomatch heq

theorem mem_sentTimes {c : Clock p} {log : List (MQTTEvent σ)} {packet : Bytes} {e : σ} (h : .sent packet e ∈ log) :
    c.now e ∈ sentTimes c log := List.mem_filterMap.mpr ⟨_, h, rfl⟩

theorem mem_heardTimes {c : Clock p} {a₀ a : Nat} {log : List (MQTTEvent σ)} :
    a ∈ heardTimes c a₀ log ↔ a = a₀ ∨ ∃ packet e, .received packet e ∈ log ∧ c.now e = a := by
  rw [heardTimes, List.mem_cons, List.mem_filterMap]
  refine or_congr_right ⟨?_, ?_⟩
  · rintro ⟨ev, hev, heq⟩
    cases ev with
    | received packet e => exact ⟨packet, e, hev, Option.some.inj heq⟩
    | sent | cutShort | delivered | called | cleaned | closed => exact nomatch heq
  · rintro ⟨packet, e, hev, rfl⟩
    exact ⟨_, hev, rfl⟩

/-- More packets, all sent now. -/
theorem isChain_append_now {K t₀ now : Nat} {ts ns : List Nat} (h : (t₀ :: ts).IsChain fun a b => b ≤ a + K)
    (hn : ∀ t ∈ ns, t = now) (hr : now ≤ ts.getLast?.getD t₀ + K) : (t₀ :: (ts ++ ns)).IsChain fun a b => b ≤ a + K := by
  rw [← List.cons_append, List.isChain_append]
  refine ⟨h, List.Pairwise.isChain ?_, fun x hx y hy => ?_⟩
  · exact List.pairwise_of_forall_mem_list fun a ha b hb => by rw [hn a ha, hn b hb]; omega
  · rw [List.getLast?_cons, Option.mem_some_iff] at hx
    rw [hn y (List.mem_of_mem_head? hy), ← hx]
    exact hr

theorem lastSent_append {c : Clock p} (t₀ : Nat) {now : Nat} (log : List (MQTTEvent σ)) {new : List (MQTTEvent σ)}
    (hn : ∀ t ∈ sentTimes c new, t = now) :
    lastSent c t₀ (log ++ new) = if sentTimes c new = [] then lastSent c t₀ log else now := by
  rw [lastSent, sentTimes, List.filterMap_append, List.getLast?_append]
  split
  · rename_i h
    rw [sentTimes] at h
    rw [h]
    rfl
  · rename_i h
    obtain ⟨t, ht⟩ := Option.ne_none_iff_exists'.mp (mt List.getLast?_eq_none_iff.mp h)
    rw [sentTimes] at ht
    rw [ht]
    exact hn t (List.mem_of_getLast? ht)

/-- The timer counts from the last packet that came: half an interval, and 15 for each PINGREQ since. -/
def Armed (c : Clock p) (keepAliveInterval a₀ : Nat) (log : List (MQTTEvent σ)) (deadline : Nat) : Prop :=
  ∃ a n, a ∈ heardTimes c a₀ log ∧ (∀ b ∈ heardTimes c a₀ log, b ≤ a) ∧
    deadline = a + receiveSeconds keepAliveInterval + 15 * n ∧
    ∀ m < n, a + receiveSeconds keepAliveInterval + 15 * m ∈ sentTimes c log

/-- What a run keeps; `ran` says that there was a cycle in this unit. -/
structure Kept (c : Clock p) (t₀ : Nat) (s₀ : Live σ (MQTTClient σ T)) (ran : Bool) (s : Live σ (MQTTClient σ T)) : Prop where
  interval : s.self.keepAliveInterval = s₀.self.keepAliveInterval
  events : s.self.events = s₀.self.events ++ since s₀ s
  started : c.now s₀.env ≤ c.now s.env
  spaced : (t₀ :: sentTimes c (since s₀ s)).IsChain fun a b => b ≤ a + s₀.self.keepAliveInterval
  recent : s.self.isconnected → c.now s.env ≤ lastSent c t₀ (since s₀ s) + s₀.self.keepAliveInterval
  last : ∀ t ∈ t₀ :: sentTimes c (since s₀ s), t ≤ lastSent c t₀ (since s₀ s)
  past : lastSent c t₀ (since s₀ s) ≤ c.now s.env
  heard : ∀ packet e, .received packet e ∈ since s₀ s → c.now e ≤ c.now s.env ∧ (ran = false → c.now e < c.now s.env)
  counted : s.self.isconnected → s.self.pingOutstanding = unanswered (since s₀ s)
  pings : s.self.isconnected → s.self.pingOutstanding ≤ 6
  armed : s.self.isconnected →
    Armed c s₀.self.keepAliveInterval (c.now s₀.env) (since s₀ s) (c.deadline s.self.lastReceived)
  ahead : s.self.isconnected → c.now s.env ≤ c.deadline s.self.lastReceived ∧ (ran → c.now s.env < c.deadline s.self.lastReceived)
  spoken : s.self.isconnected → ∀ t, t < c.now s.env ∨ ran ∧ t = c.now s.env →
    Prompts c s₀.self.keepAliveInterval (c.now s₀.env) (since s₀ s) t → t ∈ sentTimes c (since s₀ s)

theorem Kept.start {c : Clock p} {t₀ : Nat} {s₀ : Live σ (MQTTClient σ T)} (h : Started c t₀ s₀)
    (hK : 2 ≤ s₀.self.keepAliveInterval) : Kept c t₀ s₀ false s₀ := by
  have hnone : since s₀ s₀ = [] := since_eq (by simp)
  have hpos := receiveSeconds_pos hK
  have harmed := h.armed
  refine ⟨rfl, by simp [hnone], Nat.le_refl _, by simp [hnone, sentTimes], fun _ => ?_, fun t ht => ?_, ?_, fun packet e hev => ?_,
    fun _ => ?_, fun _ => ?_, fun _ => ?_, fun _ => ⟨by omega, fun hr => nomatch hr⟩, fun _ t ht hp => ?_⟩
  · rw [hnone]; exact h.recent
  · rw [hnone] at ht ⊢
    exact (List.mem_singleton.mp ht).le
  · rw [hnone]; exact h.sent
  · rw [hnone] at hev; exact nomatch hev
  · rw [hnone]; exact h.pings
  · rw [h.pings]; exact Nat.zero_le _
  · rw [hnone]
    exact ⟨c.now s₀.env, 0, .head _, fun b hb => (List.mem_singleton.mp hb).le, by omega, fun m hm => absurd hm (Nat.not_lt_zero m)⟩
  · -- Nothing came after the CONNACK, and no PINGREQ was due before it.
    exfalso
    rw [hnone] at hp
    cases hp with
    | asks mem => exact nomatch mem
    | waits mem _ due =>
      obtain rfl := List.mem_singleton.mp mem
      rcases ht with ht | ⟨hr, _⟩
      · omega
      · exact nomatch hr

namespace Kept

variable {c : Clock p} {t₀ : Nat} {s₀ s s' : Live σ (MQTTClient σ T)} {ran : Bool}

theorem since_cycle (h : Kept c t₀ s₀ ran s) (hc : CycleTimed c s s') : since s₀ s' = since s₀ s ++ since s s' :=
  since_trans h.events hc.events

theorem sentTimes_cycle (h : Kept c t₀ s₀ ran s) (hc : CycleTimed c s s') :
    sentTimes c (since s₀ s') = sentTimes c (since s₀ s) ++ sentTimes c (since s s') := by
  rw [h.since_cycle hc, sentTimes, List.filterMap_append]
  rfl

theorem lastSent_cycle (h : Kept c t₀ s₀ ran s) (hc : CycleTimed c s s') :
    lastSent c t₀ (since s₀ s') = if sentTimes c (since s s') = [] then lastSent c t₀ (since s₀ s) else c.now s.env := by
  rw [h.since_cycle hc]
  exact lastSent_append t₀ _ (sentTimes_now hc.unit)

theorem mem_sentTimes_left (h : Kept c t₀ s₀ ran s) (hc : CycleTimed c s s') {t : Nat} (ht : t ∈ sentTimes c (since s₀ s)) :
    t ∈ sentTimes c (since s₀ s') := by
  rw [h.sentTimes_cycle hc]
  exact List.mem_append_left _ ht

theorem mem_sentTimes_right (h : Kept c t₀ s₀ ran s) (hc : CycleTimed c s s') {t : Nat} (ht : t ∈ sentTimes c (since s s')) :
    t ∈ sentTimes c (since s₀ s') := by
  rw [h.sentTimes_cycle hc]
  exact List.mem_append_right _ ht

theorem mem_heardTimes_cycle (h : Kept c t₀ s₀ ran s) (hc : CycleTimed c s s') {a : Nat} :
    a ∈ heardTimes c (c.now s₀.env) (since s₀ s') ↔
      a ∈ heardTimes c (c.now s₀.env) (since s₀ s) ∨ ¬ silent (since s s') ∧ a = c.now s.env := by
  simp only [mem_heardTimes, h.since_cycle hc, List.mem_append]
  constructor
  · rintro (rfl | ⟨packet, e, hev | hev, rfl⟩)
    · exact .inl (.inl rfl)
    · exact .inl (.inr ⟨packet, e, hev, rfl⟩)
    · exact .inr ⟨fun hsil => hsil packet e hev, hc.unit _ hev⟩
  · rintro ((rfl | ⟨packet, e, hev, rfl⟩) | ⟨hsil, rfl⟩)
    · exact .inl rfl
    · exact .inr ⟨packet, e, .inl hev, rfl⟩
    · obtain ⟨packet, hsil⟩ := not_forall.mp hsil
      obtain ⟨e, hev⟩ := not_forall_not.mp hsil
      exact .inr ⟨packet, e, .inr hev, hc.unit _ hev⟩

theorem heardTimes_le (h : Kept c t₀ s₀ ran s) {a : Nat} (ha : a ∈ heardTimes c (c.now s₀.env) (since s₀ s)) : a ≤ c.now s.env := by
  rcases mem_heardTimes.mp ha with rfl | ⟨packet, e, hev, rfl⟩
  · exact h.started
  · exact (h.heard packet e hev).1

/-- The timer counts from what came now, or from what it did. -/
theorem armed_cycle (h : Kept c t₀ s₀ ran s) (hK : 2 ≤ s₀.self.keepAliveInterval) (hconn : s.self.isconnected)
    (hc : CycleTimed c s s') (hcon : s'.self.isconnected) :
    Armed c s₀.self.keepAliveInterval (c.now s₀.env) (since s₀ s') (c.deadline s'.self.lastReceived) := by
  by_cases hsil : silent (since s s')
  · obtain ⟨a, n, ha, hlate, hdead, hpings⟩ := h.armed hconn
    have ha' := (h.mem_heardTimes_cycle hc).mpr (.inl ha)
    have hlate : ∀ b ∈ heardTimes c (c.now s₀.env) (since s₀ s'), b ≤ a := fun b hb =>
      hlate b (((h.mem_heardTimes_cycle hc).mp hb).resolve_right fun hnot => hnot.1 hsil)
    rcases hc.silent hcon hsil with ⟨_, hl, _⟩ | ⟨hd, _, hl, _, hping⟩
    · exact ⟨a, n, ha', hlate, by rw [hl]; exact hdead, fun m hm => h.mem_sentTimes_left hc (hpings m hm)⟩
    · have hnow := (h.ahead hconn).1
      refine ⟨a, n + 1, ha', hlate, by omega, fun m hm => ?_⟩
      rcases Nat.lt_succ_iff_lt_or_eq.mp hm with hm | rfl
      · exact h.mem_sentTimes_left hc (hpings m hm)
      · rw [show a + receiveSeconds s₀.self.keepAliveInterval + 15 * m = c.now s.env by omega]
        exact h.mem_sentTimes_right hc hping
  · have hdead := hc.heard hcon hsil (by rw [h.interval]; exact hK)
    rw [h.interval] at hdead
    refine ⟨c.now s.env, 0, (h.mem_heardTimes_cycle hc).mpr (.inr ⟨hsil, rfl⟩), fun b hb => ?_, hdead,
      fun m hm => absurd hm (Nat.not_lt_zero m)⟩
    rcases (h.mem_heardTimes_cycle hc).mp hb with hb | ⟨_, rfl⟩
    · exact h.heardTimes_le hb
    · exact Nat.le_refl _

theorem ahead_cycle (h : Kept c t₀ s₀ ran s) (hK : 2 ≤ s₀.self.keepAliveInterval) (hc : CycleTimed c s s')
    (hcon : s'.self.isconnected) : c.now s'.env < c.deadline s'.self.lastReceived := by
  have hpos := receiveSeconds_pos hK
  rw [hc.now]
  by_cases hsil : silent (since s s')
  · rcases hc.silent hcon hsil with ⟨hd, hl, _⟩ | ⟨_, _, hl, _⟩
    · rw [hl]; exact hd
    · omega
  · rw [hc.heard hcon hsil (by rw [h.interval]; exact hK), h.interval]
    omega

/-- A unit that is over: nothing that came now counts for it. -/
theorem spoken_before (h : Kept c t₀ s₀ ran s) (hconn : s.self.isconnected) (hc : CycleTimed c s s') {t : Nat}
    (ht : t < c.now s.env) (hp : Prompts c s₀.self.keepAliveInterval (c.now s₀.env) (since s₀ s') t) :
    t ∈ sentTimes c (since s₀ s') := by
  refine h.mem_sentTimes_left hc (h.spoken hconn t (.inl ht) ?_)
  cases hp with
  | asks mem hasks hnow =>
    rw [h.since_cycle hc] at mem
    rcases List.mem_append.mp mem with mem | mem
    · exact .asks mem hasks hnow
    · exact absurd ((hc.unit _ mem).symm.trans hnow) (by omega)
  | waits mem hlate due =>
    refine .waits (((h.mem_heardTimes_cycle hc).mp mem).resolve_right fun hnot => ?_)
      (fun b hb => hlate b ((h.mem_heardTimes_cycle hc).mpr (.inl hb))) due
    omega

/-- This unit: what came is answered, and a PINGREQ that is due is sent. -/
theorem spoken_now (h : Kept c t₀ s₀ ran s) (hK : 2 ≤ s₀.self.keepAliveInterval) (hconn : s.self.isconnected)
    (hc : CycleTimed c s s') (hcon : s'.self.isconnected)
    (hanswers : ∀ packet e, .received packet e ∈ since s s' → Asks packet → ∃ bs e', .sent bs e' ∈ since s s')
    (hp : Prompts c s₀.self.keepAliveInterval (c.now s₀.env) (since s₀ s') (c.now s.env)) :
    c.now s.env ∈ sentTimes c (since s₀ s') := by
  cases hp with
  | @asks packet e mem hasks hnow =>
    rw [h.since_cycle hc] at mem
    rcases List.mem_append.mp mem with mem | mem
    · -- It came in an earlier cycle of this unit.
      cases ran with
      | false => exact absurd hnow ((h.heard packet e mem).2 rfl).ne
      | true => exact h.mem_sentTimes_left hc (h.spoken hconn _ (.inr ⟨rfl, rfl⟩) (.asks mem hasks hnow))
    · obtain ⟨bs, e', hev⟩ := hanswers packet e mem hasks
      have hmem := mem_sentTimes (c := c) hev
      rw [sentTimes_now hc.unit _ hmem] at hmem
      exact h.mem_sentTimes_right hc hmem
  | @waits a m mem hlate due =>
    have hsil : silent (since s s') := by
      by_contra hnot
      have := hlate _ ((h.mem_heardTimes_cycle hc).mpr (.inr ⟨hnot, rfl⟩)) (Nat.le_refl _)
      have := receiveSeconds_pos hK
      omega
    obtain ⟨a', n, ha', hlast', hdead, hpings⟩ := h.armed hconn
    have ha := ((h.mem_heardTimes_cycle hc).mp mem).resolve_right fun hnot => hnot.1 hsil
    obtain rfl : a' = a :=
      Nat.le_antisymm (hlate a' ((h.mem_heardTimes_cycle hc).mpr (.inl ha')) (h.heardTimes_le ha')) (hlast' a ha)
    rcases hc.silent hcon hsil with ⟨hd, _⟩ | ⟨_, _, _, _, hping⟩
    · rw [due]
      exact h.mem_sentTimes_left hc (hpings m (by omega))
    · exact h.mem_sentTimes_right hc hping

theorem cycle (h : Kept c t₀ s₀ ran s) (hK : 2 ≤ s₀.self.keepAliveInterval) (hconn : s.self.isconnected) (hc : CycleTimed c s s')
    (hanswers : s'.self.isconnected → ∀ packet e, .received packet e ∈ since s s' → Asks packet → ∃ bs e', .sent bs e' ∈ since s s') :
    Kept c t₀ s₀ true s' := by
  have hlast := h.lastSent_cycle hc
  have hpast := h.past
  refine ⟨hc.interval.trans h.interval, by rw [h.since_cycle hc, ← List.append_assoc, ← h.events]; exact hc.events, ?_, ?_, fun _ => ?_,
    fun t ht => ?_, ?_, fun packet e hev => ?_, fun hcon => ?_, fun hcon => hc.pings hcon (h.pings hconn),
    fun hcon => h.armed_cycle hK hconn hc hcon, fun hcon => ?_, fun hcon t ht hp => ?_⟩
  · rw [hc.now]; exact h.started
  · rw [h.sentTimes_cycle hc]
    exact isChain_append_now h.spaced (sentTimes_now hc.unit) (h.recent hconn)
  · rw [hlast, hc.now]
    split
    · exact h.recent hconn
    · omega
  · rw [hlast]
    rw [h.sentTimes_cycle hc, ← List.cons_append] at ht
    rcases List.mem_append.mp ht with ht | ht
    · have := h.last t ht
      split <;> omega
    · rw [if_neg (List.ne_nil_of_mem ht), sentTimes_now hc.unit t ht]
  · rw [hlast, hc.now]
    split
    · exact hpast
    · exact Nat.le_refl _
  · rw [h.since_cycle hc] at hev
    rw [hc.now]
    rcases List.mem_append.mp hev with hev | hev
    · exact ⟨(h.heard packet e hev).1, fun hr => nomatch hr⟩
    · exact ⟨(hc.unit _ hev).le, fun hr => nomatch hr⟩
  · rw [hc.counted hcon, h.counted hconn, h.since_cycle hc, unanswered, unanswered, List.foldl_append]
  · have hahead := h.ahead_cycle hK hc hcon
    exact ⟨hahead.le, fun _ => hahead⟩
  · rw [hc.now, and_iff_right rfl] at ht
    rcases ht with ht | rfl
    · exact h.spoken_before hconn hc ht hp
    · exact h.spoken_now hK hconn hc hcon (hanswers hcon) hp

end Kept

theorem Kept.tick {c : Clock p} {t₀ : Nat} {s₀ s : Live σ (MQTTClient σ T)} (h : Kept c t₀ s₀ true s)
    (hconn : s.self.isconnected) (hprompted : PromptedInTime c t₀ s₀ s) {e : σ} (he : c.now e = c.now s.env + 1) :
    Kept c t₀ s₀ false ⟨s.self, e⟩ := by
  have hrecent := h.recent hconn
  have hlast : c.now s.env + 1 ≤ lastSent c t₀ (since s₀ s) + s₀.self.keepAliveInterval := by
    by_cases hlate : t₀ + s₀.self.keepAliveInterval ≤ c.now s.env
    · obtain ⟨t, hle, hlt, hp⟩ := hprompted hlate
      have hmem := h.spoken hconn t (by rw [and_iff_right rfl]; omega) hp
      have := h.last t (.tail _ hmem)
      omega
    · have := h.last t₀ (.head _)
      omega
  refine ⟨h.interval, h.events, ?_, h.spaced, fun _ => by rw [he]; exact hlast, h.last, ?_, fun packet e' hev => ?_, h.counted, h.pings,
    h.armed, fun hcon => ⟨?_, fun hr => nomatch hr⟩, fun hcon t ht hp => ?_⟩
  · rw [he]; exact h.started.trans (Nat.le_succ _)
  · rw [he]; exact h.past.trans (Nat.le_succ _)
  · have := (h.heard packet e' hev).1
    rw [he]
    exact ⟨by omega, fun _ => by omega⟩
  · rw [he]; exact (h.ahead hconn).2 rfl
  · refine h.spoken hcon t ?_ hp
    rw [he] at ht
    rcases ht with ht | ⟨hr, _⟩
    · rw [and_iff_right rfl]
      omega
    · exact nomatch hr

/-- How long the client can still be connected if the broker is silent. -/
structure Fading (c : Clock p) (s : Live σ (MQTTClient σ T)) (ran : Bool) (s' : Live σ (MQTTClient σ T)) : Prop where
  interval : s'.self.keepAliveInterval = s.self.keepAliveInterval
  events : s'.self.events = s.self.events ++ since s s'
  left : silent (since s s') → s'.self.isconnected →
    max (c.now s'.env) (c.deadline s'.self.lastReceived) + 15 * (6 - s'.self.pingOutstanding) ≤
      max (c.now s.env) (c.deadline s.self.lastReceived) + 6 * 15
  looked : silent (since s s') → s'.self.isconnected → ran → c.now s'.env < c.deadline s'.self.lastReceived

theorem Fading.of_run {c : Clock p} (hroom : 2 ≤ p.maxMqttPacketSize) {ok : Live σ (MQTTClient σ T) → Prop}
    {s : Live σ (MQTTClient σ T)} (hK : 0 < s.self.keepAliveInterval) {ran : Bool} {s' : Live σ (MQTTClient σ T)}
    (h : KeepAliveRun c ok s ran s') : Fading c s ran s' := by
  induction h with
  | start =>
    have hnone : since s s = [] := since_eq (by simp)
    exact ⟨rfl, by simp [hnone], fun _ _ => by omega, fun _ _ hr => nomatch hr⟩
  | @cycle ran u timer rc u' _ hconn hcycle ih =>
    have hc := cycle_timed c hroom (by rw [ih.interval]; exact hK) hcycle
    have hsince : since s u' = since s u ++ since u u' := since_trans ih.events hc.events
    have hsil (h : silent (since s u')) : silent (since s u) ∧ silent (since u u') := by
      rw [hsince] at h
      exact ⟨fun packet e hm => h packet e (List.mem_append_left _ hm), fun packet e hm => h packet e (List.mem_append_right _ hm)⟩
    refine ⟨hc.interval.trans ih.interval, by rw [hsince, ← List.append_assoc, ← ih.events]; exact hc.events,
      fun h hcon => ?_, fun h hcon _ => ?_⟩
    · have hleft := ih.left (hsil h).1 hconn
      rw [hc.now]
      rcases hc.silent hcon (hsil h).2 with ⟨hd, hl, hp⟩ | ⟨hd, hp, hl, hp'⟩
      · rw [hl, hp]; exact hleft
      · omega
    · rw [hc.now]
      rcases hc.silent hcon (hsil h).2 with ⟨hd, hl, _⟩ | ⟨_, _, hl, _⟩
      · rw [hl]; exact hd
      · omega
  | @tick u e _ hconn _ he ih =>
    refine ⟨ih.interval, ih.events, fun h hcon => ?_, fun _ _ hr => nomatch hr⟩
    have hleft := ih.left h hcon
    have hlooked := ih.looked h hcon rfl
    show max (c.now e) (c.deadline u.self.lastReceived) + 15 * (6 - u.self.pingOutstanding) ≤ _
    rw [he]
    omega

/-- A client that receives nothing more closes the session by itself. -/
theorem closes_of_silent {c : Clock p} (hroom : 2 ≤ p.maxMqttPacketSize) {ok : Live σ (MQTTClient σ T) → Prop}
    {s : Live σ (MQTTClient σ T)} (hK : 0 < s.self.keepAliveInterval) {ran : Bool} {s' : Live σ (MQTTClient σ T)}
    (h : KeepAliveRun c ok s ran s') (hsil : silent (since s s'))
    (hlate : max (c.now s.env) (c.deadline s.self.lastReceived) + 6 * 15 < c.now s'.env) : s'.self.isconnected = false := by
  have hf := Fading.of_run hroom hK h
  by_contra hcon
  have hleft := hf.left hsil (by simpa using hcon)
  omega

theorem Kept.of_run {c : Clock p} {t₀ : Nat} {s₀ : Live σ (MQTTClient σ T)} (h₀ : Started c t₀ s₀)
    (hK : 2 ≤ s₀.self.keepAliveInterval) {ran : Bool} {s : Live σ (MQTTClient σ T)}
    (h : KeepAliveRun c (PromptedInTime c t₀ s₀) s₀ ran s) : Kept c t₀ s₀ ran s := by
  induction h with
  | start => exact .start h₀ hK
  | cycle _ hconn hcycle ih =>
    refine ih.cycle hK hconn (cycle_timed c h₀.room (by rw [ih.interval]; exact h₀.interval) hcycle) fun hcon packet e hev hasks => ?_
    exact (cycle_returns c.read hcycle).answers hcon hev hasks
  | tick _ hconn hok he ih => exact ih.tick hconn hok he

/-- **The keep-alive obligation** is met in every run in which the broker makes
the client speak once in every interval. -/
theorem keepsAlive_of_prompted {c : Clock p} {t₀ : Nat} {s₀ : Live σ (MQTTClient σ T)} (h₀ : Started c t₀ s₀)
    (hK : 2 ≤ s₀.self.keepAliveInterval) {ran : Bool} {s : Live σ (MQTTClient σ T)}
    (h : KeepAliveRun c (PromptedInTime c t₀ s₀) s₀ ran s) : KeepsAlive c t₀ s₀ s := by
  have hk := Kept.of_run h₀ hK h
  refine ⟨hk.spaced, hk.recent, fun hcon => ?_, fun hrun hsil hlate => ?_⟩
  · rw [← hk.counted hcon]; exact hk.pings hcon
  · exact closes_of_silent h₀.room (by rw [hk.interval]; exact h₀.interval) hrun hsil hlate

/-! ## A silent broker -/

namespace KeepAliveDemo

/-- A platform whose outside is the time and what there is to receive. -/
def platform : MQTTPlatform (Nat × Bytes) Nat where
  maxMqttPacketSize := 100
  maxMessageHandlers := 0
  maxIncomingQoS2Messages := 0
  read n _ e := (((e.2.take n).length, e.2.take n), (e.1, e.2.drop n))
  write packet _ e := (packet.length, e)
  timer e := (e.1 + 10, e)
  timerMs _ e := (e.1 + 1, e)
  countdown n e := (e.1 + n.toNat, e)
  countdownMs n e := (e.1 + n, e)
  expired t e := (t ≤ e.1, e)
  leftMs t e := (t - e.1, e)
  malloc _ e := (true, e)
  callback _ _ _ e := e
  indeterminate e := (0, e)

def clock : Clock platform where
  now := (·.1)
  deadline := id
  still h := by cases h <;> rfl
  countdown _ _ := rfl
  expired t e := by simp [platform]
  read n _ e := Int.ofNat_le.mpr (List.length_take_le n e.2)

/-- A connected client with an interval of 2, whose CONNACK has just come. -/
def connected : Live (Nat × Bytes) (MQTTClient (Nat × Bytes) Nat) :=
  ⟨{ sendbuf := [], readbuf := [0, 0], lastReceived := 1, keepAliveInterval := 2, pingOutstanding := 0
     cleansession := false, packetid := 0, messageHandlers := [], defaultMessageHandler := {}, isconnected := true
     pubbuf := [], inflightLen := 0, inflightMsgid := 0, inflightQoS := 0, pubrel := false
     incomingQoS2messages := [], events := [] }, 0, []⟩

/-- The client after a cycle. -/
def turned (s : Live (Nat × Bytes) (MQTTClient (Nat × Bytes) Nat)) : Live (Nat × Bytes) (MQTTClient (Nat × Bytes) Nat) :=
  ((cycle platform 0).run 8 s).2

/-- One unit after that, when `bs` has come. -/
def later (s : Live (Nat × Bytes) (MQTTClient (Nat × Bytes) Nat)) (bs : Bytes) : Live (Nat × Bytes) (MQTTClient (Nat × Bytes) Nat) :=
  ⟨(turned s).self, (turned s).env.1 + 1, bs⟩

theorem later_run {ok : Live (Nat × Bytes) (MQTTClient (Nat × Bytes) Nat) → Prop}
    {s₀ s : Live (Nat × Bytes) (MQTTClient (Nat × Bytes) Nat)} (bs : Bytes) (rc : Int) (h : KeepAliveRun clock ok s₀ false s)
    (hs : s.self.isconnected ∧ (turned s).self.isconnected ∧ ((cycle platform 0).run 8 s).1 = .done rc)
    (hok : ok (turned s)) : KeepAliveRun clock ok s₀ false (later s bs) :=
  .tick (.cycle h hs.1 ⟨8, Prod.ext hs.2.2 rfl⟩) hs.2.1 hok rfl

/-- A broker that answers each PINGREQ in the next unit. -/
theorem answered_keepsAlive :
    sentTimes clock (since connected (later (later (later (later (later connected []) [208, 0]) []) [208, 0]) [])) = [1, 3] ∧
      KeepsAlive clock 0 connected (later (later (later (later (later connected []) [208, 0]) []) [208, 0]) []) := by
  -- A PINGREQ is due one unit after what was heard last.
  have waits {s : Live (Nat × Bytes) (MQTTClient (Nat × Bytes) Nat)} (as : List Nat) (a : Nat)
      (has : heardTimes clock 0 (since connected s) = as) (hmem : a ∈ as) (hlast : ∀ b ∈ as, b ≤ a + 1 → b ≤ a)
      (hnow : a + 1 ≤ clock.now s.env ∧ clock.now s.env < a + 1 + 2) : PromptedInTime clock 0 connected s := by
    intro _
    exact ⟨a + 1, hnow.1, hnow.2, .waits (n := 0) (by rw [← has] at hmem; exact hmem) (by rw [← has] at hlast; exact hlast) rfl⟩
  have h₀ : KeepAliveRun clock (PromptedInTime clock 0 connected) connected false connected := .start
  have h₁ := later_run [] 0 h₀ (by decide) fun h => absurd h (by decide)
  have h₂ := later_run [208, 0] 0 h₁ (by decide) fun h => absurd h (by decide)
  have h₃ := later_run [] 13 h₂ (by decide) (waits [0, 2] 0 (by decide) (by decide) (by decide) (by decide))
  have h₄ := later_run [208, 0] 0 h₃ (by decide) (waits [0, 2] 2 (by decide) (by decide) (by decide) (by decide))
  have h₅ := later_run [] 13 h₄ (by decide) (waits [0, 2, 4] 2 (by decide) (by decide) (by decide) (by decide))
  exact ⟨by decide, keepsAlive_of_prompted ⟨by decide, by decide, rfl, by decide, by decide, rfl⟩ (by decide) h₅⟩

/-- A broker that is silent: the client pings once, and then says nothing for 15 units. -/
theorem silent_run : KeepAliveRun clock (fun _ => True) connected false (later (later (later (later connected []) []) []) []) := by
  have h₀ : KeepAliveRun clock (fun _ => True) connected false connected := .start
  have h₁ := later_run [] 0 h₀ (by decide) trivial
  exact later_run [] 0 (later_run [] 0 (later_run [] 0 h₁ (by decide) trivial) (by decide) trivial) (by decide) trivial

end KeepAliveDemo

open KeepAliveDemo in
theorem silent_too_long : ¬ ∀ s₀ ran s, Started clock 0 s₀ → KeepAliveRun clock (fun _ => True) s₀ ran s →
    KeepsAlive clock 0 s₀ s := by
  intro h
  have hk := h _ _ _ ⟨by decide, by decide, rfl, by decide, by decide, rfl⟩ silent_run
  exact absurd (hk.recent (by decide)) (by decide)

end MQTTClient

end FEmbed
