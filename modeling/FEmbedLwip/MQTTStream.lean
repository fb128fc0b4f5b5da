/-
What `MQTT::Client` has written to its network, over a whole run.

A send is an attempt: the network takes a first part of a packet, all of it if
the send succeeds. A send that fails leaves the session open where it is a
`publish` or another request that failed, so what is sent next follows in
the middle of that packet.
-/
import FEmbedLwip.MQTTCodec
import FEmbedLwip.MQTTCleanSessions

namespace FEmbed

open Live
open Prog (Guarantee Guarantees)

namespace MQTTClient

/-- A packet that was to be sent, and the part of it that the network took. -/
structure Attempt where
  packet : Packet
  bytes : Bytes
  part : Bytes
  sent : Bool
  written : packet.Written bytes
  first : part <+: bytes
  whole : sent = true → part = bytes

variable {σ T : Type} {p : MQTTPlatform σ T}

/-- The packets that were sent. -/
def sentPackets (log : List (MQTTEvent σ)) : List Bytes := log.filterMap fun e => match e with
  | .sent packet _ => some packet
  | _ => none

/-- The calls of a platform that do not write. -/
inductive Writeless (p : MQTTPlatform σ T) : {α : Type} → (σ → α × σ) → Prop
  | read (n : Nat) (timeout : Int) : Writeless p (p.read n timeout)
  | timer : Writeless p p.timer
  | timerMs (ms : Int) : Writeless p (p.timerMs ms)
  | countdown (seconds : Int) : Writeless p (p.countdown seconds)
  | countdownMs (ms : Nat) : Writeless p (p.countdownMs ms)
  | expired (timer : T) : Writeless p (p.expired timer)
  | leftMs (timer : T) : Writeless p (p.leftMs timer)
  | malloc (n : Nat) : Writeless p (p.malloc n)
  | indeterminate : Writeless p p.indeterminate

/-- A write takes the first bytes of what it is given, as many as it returns;
nothing else that the client calls takes any. -/
structure Conveys (p : MQTTPlatform σ T) (taken : σ → Bytes) : Prop where
  write : ∀ bs timeout e, ∃ n ≤ bs.length, taken (p.write bs timeout e).2 = taken e ++ bs.take n ∧
    (0 ≤ (p.write bs timeout e).1 → (p.write bs timeout e).1 = n)
  silent : ∀ {α : Type} {f : σ → α × σ}, Writeless p f → ∀ e, taken (f e).2 = taken e
  callback : ∀ cb topicName message e, taken (p.callback cb topicName message e) = taken e

/-- What is in flight was written as a packet. -/
def Resendable (c : MQTTClient σ T) : Prop :=
  0 < c.inflightMsgid → ∃ q : Packet, q.Written (c.pubbuf.take c.inflightLen.toNat)

/-- What was taken between two states, attempt by attempt. -/
def Streamed (taken : σ → Bytes) (attempts : List Attempt) (s s' : Live σ (MQTTClient σ T)) : Prop :=
  taken s'.env = taken s.env ++ attempts.flatMap (·.part) ∧
    ∃ log, s'.self.events = s.self.events ++ log ∧ sentPackets log = (attempts.filter (·.sent)).map (·.bytes)

/-- What the network takes are such attempts. -/
def streaming (taken : σ → Bytes) (ok : Attempt → Prop) : Guarantee (Live σ (MQTTClient σ T)) where
  rel s s' := Resendable s.self → Resendable s'.self ∧ ∃ attempts, (∀ a ∈ attempts, ok a) ∧ Streamed taken attempts s s'
  refl s h := ⟨h, [], by simp, by simp, [], by simp, rfl⟩
  trans := by
    intro s s' s'' h h' hs
    obtain ⟨hs', attempts, hok, htaken, log, hevents, hsent⟩ := h hs
    obtain ⟨hs'', attempts', hok', htaken', log', hevents', hsent'⟩ := h' hs'
    refine ⟨hs'', attempts ++ attempts', fun a ha => (List.mem_append.mp ha).elim (hok a) (hok' a), ?_, log ++ log', ?_, ?_⟩
    · rw [htaken', htaken, List.flatMap_append, List.append_assoc]
    · rw [hevents', hevents, List.append_assoc]
    · rw [sentPackets, List.filterMap_append, List.filter_append, List.map_append, ← hsent, ← hsent']
      rfl

/-! ## Steps -/

variable {taken : σ → Bytes} {ok : Attempt → Prop}

theorem streaming_unsent {s s' : Live σ (MQTTClient σ T)} {log : List (MQTTEvent σ)} (hresend : Resendable s.self → Resendable s'.self)
    (htaken : taken s'.env = taken s.env) (hevents : s'.self.events = s.self.events ++ log) (hlog : sentPackets log = []) :
    (streaming taken ok).rel s s' :=
  fun hs => ⟨hresend hs, [], by simp, by simpa using htaken, log, hevents, by simpa using hlog⟩

theorem streaming_still {s s' : Live σ (MQTTClient σ T)} (hresend : Resendable s.self → Resendable s'.self)
    (htaken : taken s'.env = taken s.env) (hevents : s'.self.events = s.self.events) : (streaming taken ok).rel s s' :=
  streaming_unsent hresend htaken (hevents.trans (List.append_nil _).symm) rfl

/-- Fields are written that are neither history nor what is in flight. -/
theorem streaming_set {f : MQTTClient σ T → MQTTClient σ T} (hevents : ∀ c, (f c).events = c.events)
    (hid : ∀ c, (f c).inflightMsgid = c.inflightMsgid) (hbuf : ∀ c, (f c).pubbuf = c.pubbuf)
    (hlen : ∀ c, (f c).inflightLen = c.inflightLen) :
    (set f : Prog (Live σ (MQTTClient σ T)) Unit).Guarantees (streaming taken ok) := by
  refine guarantees_set fun s => streaming_still (fun h => ?_) rfl (hevents _)
  rw [Resendable, hid, hbuf, hlen]
  exact h

theorem streaming_silent (hp : Conveys p taken) {α : Type} {f : σ → α × σ} (hf : Writeless p f) :
    (call f : Prog (Live σ (MQTTClient σ T)) α).Guarantees (streaming taken ok) :=
  guarantees_call fun s => streaming_still id (hp.silent hf s.env) rfl

/-! ## Sending -/

/-- So far the network has taken the first `sent` bytes. -/
def Partly (taken : σ → Bytes) (s : Live σ (MQTTClient σ T)) (sent : Int) (u : Live σ (MQTTClient σ T)) : Prop :=
  u.self = s.self ∧ ∃ n ≤ s.self.sendbuf.length, taken u.env = taken s.env ++ s.self.sendbuf.take n ∧ sent = n

/-- The network takes a first part of a packet, and all of one that is sent. -/
theorem sendPacket_takes (hp : Conveys p taken) {t : T} {s : Live σ (MQTTClient σ T)} {rc : Int} {s'}
    (h : (sendPacket p t).Returns s rc s') : ∃ n ≤ s.self.sendbuf.length, taken s'.env = taken s.env ++ s.self.sendbuf.take n ∧
      (rc = failure ∧ s'.self = s.self ∨ rc = success ∧ n = s.self.sendbuf.length ∧
        ∃ e, s'.self = { s.self with events := s.self.events ++ [.sent s.self.sendbuf e] }) := by
  rw [sendPacket, returns_obj_bind] at h
  obtain ⟨sent, u, hloop, h⟩ := Prog.returns_bind.mp h
  have hpart : u.self = s.self ∧ ∃ n ≤ s.self.sendbuf.length, taken u.env = taken s.env ++ s.self.sendbuf.take n ∧
      (sent = s.self.sendbuf.length → n = s.self.sendbuf.length) := by
    have hexit {sent : Int} {u : Live σ (MQTTClient σ T)} (h : Partly taken s sent u) : u.self = s.self ∧
        ∃ n ≤ s.self.sendbuf.length, taken u.env = taken s.env ++ s.self.sendbuf.take n ∧
          (sent = s.self.sendbuf.length → n = s.self.sendbuf.length) := by
      obtain ⟨hself, n, hn, htaken, rfl⟩ := h
      exact ⟨hself, n, hn, htaken, Int.natCast_inj.mp⟩
    refine hloop.loop_inv (Partly taken s) (fun (sent : Int) u => u.self = s.self ∧ ∃ n ≤ s.self.sendbuf.length,
      taken u.env = taken s.env ++ s.self.sendbuf.take n ∧ (sent = s.self.sendbuf.length → n = s.self.sendbuf.length)) ?_
      (And.intro rfl ⟨0, Nat.zero_le _, by simp, rfl⟩)
    intro sent u r u' hinv hturn
    rcases Prog.returns_ite.mp hturn with ⟨-, hturn⟩ | ⟨hlt, hturn⟩
    · obtain ⟨rfl, rfl⟩ := Prog.returns_pure.mp hturn
      exact hexit hinv
    obtain ⟨hself, n, hn, htaken, rfl⟩ := hinv
    rw [returns_call_bind] at hturn
    have hexpired := hp.silent (.expired t) u.env
    rcases Prog.returns_ite.mp hturn with ⟨-, hturn⟩ | ⟨-, hturn⟩
    · obtain ⟨rfl, rfl⟩ := Prog.returns_pure.mp hturn
      exact hexit ⟨hself, n, hn, hexpired.trans htaken, rfl⟩
    rw [returns_call_bind, returns_call_bind] at hturn
    dsimp only at hturn
    have hleft := hp.silent (.leftMs t) (p.expired t u.env).2
    obtain ⟨m, hm, hwrite, hcount⟩ := hp.write (s.self.sendbuf.drop (n : Int).toNat) (p.leftMs t (p.expired t u.env).2).1
      (p.leftMs t (p.expired t u.env).2).2
    rw [hleft, hexpired, htaken, Int.toNat_natCast, List.append_assoc, ← List.take_add] at hwrite
    rw [Int.toNat_natCast, List.length_drop] at hm
    have hmore : n + m ≤ s.self.sendbuf.length := by omega
    rcases Prog.returns_ite.mp hturn with ⟨-, hturn⟩ | ⟨hpos, hturn⟩
    · obtain ⟨rfl, rfl⟩ := Prog.returns_pure.mp hturn
      exact ⟨hself, n + m, hmore, hwrite, fun heq => by omega⟩
    · obtain ⟨rfl, rfl⟩ := Prog.returns_pure.mp hturn
      exact ⟨hself, n + m, hmore, hwrite, by rw [hcount (Int.not_lt.mp hpos)]; rfl⟩
  obtain ⟨hself, n, hn, htaken, hwhole⟩ := hpart
  obtain ⟨c, e⟩ := u
  obtain rfl : c = s.self := hself
  rcases Prog.returns_ite.mp h with ⟨heq, h⟩ | ⟨-, h⟩
  · obtain ⟨w, v, hevent, h⟩ := Prog.returns_bind.mp h
    obtain ⟨rfl, rfl⟩ := Prog.returns_pure.mp h
    rw [happened, Prog.returns_gets_bind] at hevent
    obtain rfl := returns_set.mp hevent
    exact ⟨n, hn, htaken, .inr ⟨rfl, hwhole heq, e, rfl⟩⟩
  · obtain ⟨rfl, rfl⟩ := Prog.returns_pure.mp h
    exact ⟨n, hn, htaken, .inl ⟨rfl, rfl⟩⟩

/-- What a send takes is an attempt; `ok` are all those that succeed. -/
theorem sendPacket_streams (hp : Conveys p taken) (hok : ∀ a : Attempt, a.sent = true → ok a) {t : T} {q : Packet}
    {s : Live σ (MQTTClient σ T)} {rc : Int} {s'} (hwell : (∀ a, ok a) ∨ rc ≠ failure) (hq : q.Written s.self.sendbuf)
    (h : (sendPacket p t).Returns s rc s') : (streaming taken ok).rel s s' := by
  obtain ⟨n, -, htaken, ⟨rfl, hself⟩ | ⟨rfl, rfl, e, hself⟩⟩ := sendPacket_takes hp h
  · intro hs
    have hany : ∀ a, ok a := hwell.resolve_right fun hne => hne rfl
    refine ⟨hself ▸ hs, [⟨q, s.self.sendbuf, s.self.sendbuf.take n, false, hq, List.take_prefix .., by simp⟩], fun a _ => hany a, ?_,
      [], ?_, rfl⟩
    · rw [htaken, List.flatMap_singleton]
    · rw [hself, List.append_nil]
  · intro hs
    refine ⟨?_, [⟨q, s.self.sendbuf, s.self.sendbuf, true, hq, List.prefix_rfl, fun _ => rfl⟩], fun a ha => ?_, ?_, _,
      congrArg MQTTClient.events hself, rfl⟩
    · rw [hself]
      exact hs
    · obtain rfl := List.mem_singleton.mp ha
      exact hok _ rfl
    · rw [htaken, List.take_length, List.flatMap_singleton]

theorem Conveys.taken_mute (hp : Conveys p taken) {e e' : σ} (h : Mute p e e') : taken e' = taken e := by
  cases h with
  | read n t => exact hp.silent (.read n t) e
  | timer => exact hp.silent .timer e
  | timerMs ms => exact hp.silent (.timerMs ms) e
  | countdown n => exact hp.silent (.countdown n) e
  | countdownMs n => exact hp.silent (.countdownMs n) e
  | expired t => exact hp.silent (.expired t) e
  | leftMs t => exact hp.silent (.leftMs t) e
  | callback cb n m => exact hp.callback cb n m e
  | indeterminate => exact hp.silent .indeterminate e

theorem streaming_cycles (hp : Conveys p taken) (hok : ∀ a : Attempt, a.sent = true → ok a) :
    AllowsCycle p (streaming taken ok) (fun bs => ∃ q : Packet, q.Written bs) (∀ a, ok a) where
  mute _ _ h := streaming_still id (hp.taken_mute h) rfl
  called _ _ _ _ := streaming_unsent id rfl rfl rfl
  delivered _ _ _ := streaming_unsent id rfl rfl rfl
  incoming _ _ := streaming_still id rfl rfl
  readbuf _ _ _ := streaming_still id rfl rfl
  received _ _ := streaming_unsent id rfl rfl rfl
  cutShort _ := streaming_unsent id rfl rfl rfl
  lastReceived _ _ := streaming_still id rfl rfl
  pingOutstanding _ _ := streaming_still id rfl rfl
  closed _ := streaming_still id rfl rfl
  cleaned := by
    rintro s _ s' h
    rw [cleanSession_returns.mp h]
    exact streaming_unsent (fun _ hin => absurd hin (Nat.lt_irrefl 0)) rfl rfl rfl
  ended _ _ := streaming_unsent id rfl rfl rfl
  ack {type dup id _} _ hbs := ⟨.ack type dup id, _, congrArg some hbs⟩
  buffered _ _ _ := streaming_still id rfl rfl
  sends hq hwell h := hq.elim fun _ hq => sendPacket_streams hp hok hwell hq h
  pingreq hbs := ⟨.zero .pingreq, _, congrArg some hbs⟩

/-! ## The operations -/

section Operations

variable (hp : Conveys p taken)

include hp

omit hp in
theorem streaming_getNext : (getNext : Prog (Live σ (MQTTClient σ T)) Nat).Guarantees (streaming taken ok) := by
  refine .bind ?_ fun _ => .bind guarantees_obj fun _ => .pure
  exact streaming_set (fun _ => rfl) (fun _ => rfl) (fun _ => rfl) fun _ => rfl

theorem streaming_setHandler {topicFilter : Bytes} {attach : Option (FP → FP)} :
    (setHandler p topicFilter attach).Guarantees (streaming taken ok) := by
  refine .bind guarantees_obj fun c => ?_
  have slot {f : MQTTClient σ T → MQTTClient σ T} (hevents : ∀ c, (f c).events = c.events)
      (hid : ∀ c, (f c).inflightMsgid = c.inflightMsgid) (hbuf : ∀ c, (f c).pubbuf = c.pubbuf)
      (hlen : ∀ c, (f c).inflightLen = c.inflightLen) :
      (set f >>= fun _ => pure success : Prog (Live σ (MQTTClient σ T)) Int).Guarantees (streaming taken ok) :=
    .bind (streaming_set hevents hid hbuf hlen) fun _ => .pure
  cases attach with
  | none =>
    dsimp only
    split
    · exact slot (fun _ => rfl) (fun _ => rfl) (fun _ => rfl) fun _ => rfl
    · exact .pure
  | some attach =>
    dsimp only
    split
    · refine .bind (streaming_silent hp (.malloc _)) fun _ => .ite .undefined ?_
      exact slot (fun _ => rfl) (fun _ => rfl) (fun _ => rfl) fun _ => rfl
    · exact .pure

variable (hok : ∀ a : Attempt, a.sent = true → ok a)

include hok

omit hp hok in
/-- A step that does not send, and what follows. -/
theorem streaming_then {α β : Type} {x : Prog (Live σ (MQTTClient σ T)) β} {f : β → Prog (Live σ (MQTTClient σ T)) α}
    (hx : x.Guarantees (streaming taken ok)) {s : Live σ (MQTTClient σ T)} {a : α} {s'} (h : (x >>= f).Returns s a s') :
    ∃ b u, x.Returns s b u ∧ (f b).Returns u a s' ∧ ((streaming taken ok).rel u s' → (streaming taken ok).rel s s') := by
  obtain ⟨b, u, hfirst, h⟩ := Prog.returns_bind.mp h
  exact ⟨b, u, hfirst, h, (streaming taken ok).trans (hx s b u hfirst)⟩

omit hp hok in
theorem streaming_set_then {α : Type} {f : MQTTClient σ T → MQTTClient σ T} {x : Prog (Live σ (MQTTClient σ T)) α}
    {s : Live σ (MQTTClient σ T)} {a : α} {s'} (h : (set f >>= fun _ => x).Returns s a s') (hevents : ∀ c, (f c).events = c.events)
    (hid : ∀ c, (f c).inflightMsgid = c.inflightMsgid) (hbuf : ∀ c, (f c).pubbuf = c.pubbuf)
    (hlen : ∀ c, (f c).inflightLen = c.inflightLen) :
    x.Returns ⟨f s.self, s.env⟩ a s' ∧ ((streaming taken ok).rel ⟨f s.self, s.env⟩ s' → (streaming taken ok).rel s s') := by
  obtain ⟨_, u, hset, h, hthen⟩ := streaming_then (streaming_set hevents hid hbuf hlen) h
  obtain rfl := returns_set.mp hset
  exact ⟨h, hthen⟩

theorem awaitAck_streams {packetType : MsgType} {t : T} {s : Live σ (MQTTClient σ T)} {rc : Int} {s'} (hwell : (∀ a, ok a) ∨ 0 ≤ rc)
    (h : (awaitAck p packetType t).Returns s rc s') : (streaming taken ok).rel s s' := by
  obtain ⟨rc', u, hwait, h⟩ := Prog.returns_bind.mp h
  rcases Prog.returns_ite.mp h with ⟨htype, h⟩ | ⟨-, h⟩
  · refine (streaming taken ok).trans ((streaming_cycles hp hok).waitfor (.inr (htype ▸ Int.natCast_nonneg _)) hwait) ?_
    rw [returns_obj_bind] at h
    split at h
    · exact absurd h Prog.returns_undefined
    · refine Guarantees.ite .pure (.bind (streaming_cycles hp hok).orIndeterminate fun id => .bind guarantees_obj fun c => ?_) u rc s' h
      refine .ite (.bind ?_ fun _ => .pure) .pure
      exact guarantees_set fun s => streaming_still (fun _ hin => absurd hin (Nat.lt_irrefl 0)) rfl rfl
  · obtain ⟨rfl, rfl⟩ := Prog.returns_pure.mp h
    exact (streaming_cycles hp hok).waitfor (hwell.imp_right fun hfail => absurd hfail (by decide)) hwait

theorem publishPacket_streams {t : T} {qos : Nat} {q : Packet} {s : Live σ (MQTTClient σ T)} {rc : Int} {s'}
    (hwell : (∀ a, ok a) ∨ 0 ≤ rc) (hq : q.Written s.self.sendbuf) (h : (publishPacket p t qos).Returns s rc s') :
    (streaming taken ok).rel s s' := by
  obtain ⟨rc', u, hsend, h⟩ := Prog.returns_bind.mp h
  rcases Prog.returns_ite.mp h with ⟨-, h⟩ | ⟨hrc, h⟩
  · obtain ⟨rfl, rfl⟩ := Prog.returns_pure.mp h
    exact sendPacket_streams hp hok (hwell.imp_right ne_failure) hq hsend
  have hsent : rc' ≠ failure := ne_failure (not_not.mp hrc ▸ Int.le_refl 0)
  refine (streaming taken ok).trans (sendPacket_streams hp hok (.inr hsent) hq hsend) ?_
  rcases Prog.returns_ite.mp h with ⟨-, h⟩ | ⟨-, h⟩
  · exact awaitAck_streams hp hok hwell h
  rcases Prog.returns_ite.mp h with ⟨-, h⟩ | ⟨-, h⟩
  · exact awaitAck_streams hp hok hwell h
  · exact Guarantees.pure u rc s' h

/-- `publishId`, once the packet has its id. -/
theorem publishing_streams {t : T} {topicName payload : Bytes} {id qos : Nat} {retained : Bool} {s : Live σ (MQTTClient σ T)}
    {r : Int × Nat} {s'} (hwell : (∀ a, ok a) ∨ 0 ≤ r.1) (h : (do
      match MQTTPacket.serializePublish p.maxMqttPacketSize false qos retained id topicName payload with
      | .error _ => return (failure, id)
      | .ok bs =>
        set fun c => { c with sendbuf := bs }
        if ¬ (← obj).cleansession then
          set fun c => { c with pubbuf := bs, inflightMsgid := id, inflightLen := bs.length, inflightQoS := qos, pubrel := false }
        let rc ← publishPacket p t qos
        return (rc, id) : Prog (Live σ (MQTTClient σ T)) (Int × Nat)).Returns s r s') : (streaming taken ok).rel s s' := by
  split at h
  · obtain ⟨-, rfl⟩ := Prog.returns_pure.mp h
    exact (streaming taken ok).refl _
  · next bs hbs =>
    have hq : (Packet.publish false qos retained (some id) topicName payload).Written bs := ⟨_, congrArg some hbs⟩
    rw [returns_set_bind, returns_obj_bind] at h
    have send {u : Live σ (MQTTClient σ T)} (hu : u.self.sendbuf = bs) (h : (do
        let rc ← publishPacket p t qos
        return (rc, id) : Prog (Live σ (MQTTClient σ T)) (Int × Nat)).Returns u r s') : (streaming taken ok).rel u s' := by
      obtain ⟨rc, v, hpublish, h⟩ := Prog.returns_bind.mp h
      obtain ⟨rfl, rfl⟩ := Prog.returns_pure.mp h
      exact publishPacket_streams hp hok hwell (hu ▸ hq) hpublish
    rcases Prog.returns_ite.mp h with ⟨-, h⟩ | ⟨-, h⟩
    · rw [returns_set_bind] at h
      refine (streaming taken ok).trans ?_ (send ?_ h)
      · refine streaming_still (fun _ _ => ⟨.publish false qos retained (some id) topicName payload, ?_⟩) rfl rfl
        dsimp only
        rw [Int.toNat_natCast, List.take_length]
        exact hq
      · rfl
    · refine (streaming taken ok).trans ?_ (send ?_ h)
      · exact streaming_still (fun hs => hs) rfl rfl
      · rfl

theorem publishId_streams {topicName payload : Bytes} {id qos : Nat} {retained : Bool} {s : Live σ (MQTTClient σ T)} {r : Int × Nat} {s'}
    (hwell : (∀ a, ok a) ∨ 0 ≤ r.1) (h : (publishId p topicName payload id qos retained).Returns s r s') :
    (streaming taken ok).rel s s' := by
  obtain ⟨t, u, -, h, hfirst⟩ := streaming_then (streaming_silent hp .timer) h
  refine hfirst ?_
  rw [returns_obj_bind] at h
  rcases Prog.returns_ite.mp h with ⟨-, h⟩ | ⟨-, h⟩
  · exact Guarantees.pure u r s' h
  rcases Prog.returns_ite.mp h with ⟨-, h⟩ | ⟨-, h⟩
  · obtain ⟨_, _, -, h, hnext⟩ := streaming_then streaming_getNext h
    exact hnext (publishing_streams hp hok hwell h)
  · exact publishing_streams hp hok hwell h

/-- With nothing in flight the result is the one so far. -/
theorem resend_streams {t : T} {rc rc' : Int} {s : Live σ (MQTTClient σ T)} {s'} (hwell : (∀ a, ok a) ∨ 0 ≤ rc')
    (h : (resend p t rc).Returns s rc' s') : (s.self.inflightMsgid = 0 → rc' = rc) ∧ (streaming taken ok).rel s s' := by
  rw [resend, returns_obj_bind] at h
  rcases Prog.returns_ite.mp h with ⟨hin, h⟩ | ⟨-, h⟩
  · refine ⟨fun hzero => absurd hin.1 (by omega), ?_⟩
    split at h
    · exact Guarantees.pure s rc' s' h
    · next bs hbs =>
      rw [returns_set_bind] at h
      have hq : (Packet.ack .pubrel false s.self.inflightMsgid).Written bs := ⟨_, congrArg some hbs⟩
      have hstreams : (streaming taken ok).rel ⟨{ s.self with sendbuf := bs }, s.env⟩ s' := publishPacket_streams hp hok hwell hq h
      exact hstreams
  · rcases Prog.returns_ite.mp h with ⟨hin, h⟩ | ⟨-, h⟩
    · refine ⟨fun hzero => absurd hin (by omega), fun hs => ?_⟩
      rw [returns_set_bind] at h
      obtain ⟨q, hq⟩ := hs hin
      have hstreams : (streaming taken ok).rel ⟨{ s.self with sendbuf := s.self.pubbuf.take s.self.inflightLen.toNat }, s.env⟩ s' :=
        publishPacket_streams hp hok hwell hq h
      exact hstreams hs
    · obtain ⟨rfl, rfl⟩ := Prog.returns_pure.mp h
      exact ⟨fun _ => rfl, (streaming taken ok).refl _⟩

omit hp hok in
/-- Nothing gets in flight. -/
theorem idle_allows : AllowsAll p (⟨fun s s' => s.self.inflightMsgid = 0 → s'.self.inflightMsgid = 0, fun _ => id,
    fun h h' => h' ∘ h⟩ : Guarantee (Live σ (MQTTClient σ T))) where
  mute _ _ _ := id
  write _ _ _ := id
  delivered _ _ _ := id
  called _ _ _ _ := id
  ack _ _ := trivial
  buffered _ _ _ := id
  sent _ _ := id
  incoming _ _ := id
  readbuf _ _ _ := id
  received _ _ := id
  cutShort _ := id
  lastReceived _ _ := id
  pingOutstanding _ _ := id
  closed _ := id
  cleaned s _ s' h _ := by rw [cleanSession_returns.mp h]; rfl
  ended _ _ := id

/-- `connect`, once the CONNECT packet is sent. -/
theorem greeted_streams {t : T} {s : Live σ (MQTTClient σ T)} {out : Int × Option ConnackData} {s'}
    (hwell : (∀ a, ok a) ∨ 0 ≤ out.1 ∧ s.self.inflightMsgid = 0) (h : (awaitConnack p t >>= fun x => resend p t x.1 >>= fun rc =>
      connectExit rc x.2).Returns s out s') : (streaming taken ok).rel s s' := by
  obtain ⟨x, u, hwait, h⟩ := Prog.returns_bind.mp h
  obtain ⟨rc, v, hresend, h⟩ := Prog.returns_bind.mp h
  have hexit : out = (rc, x.2) ∧ (streaming taken ok).rel v s' := by
    rcases Prog.returns_ite.mp h with ⟨-, h⟩ | ⟨-, h⟩
    · rw [returns_set_bind] at h
      obtain ⟨rfl, rfl⟩ := Prog.returns_pure.mp h
      exact ⟨rfl, streaming_still (fun hs => hs) rfl rfl⟩
    · obtain ⟨rfl, rfl⟩ := Prog.returns_pure.mp h
      exact ⟨rfl, (streaming taken ok).refl _⟩
  obtain ⟨rfl, hexit⟩ := hexit
  obtain ⟨hsame, hresent⟩ := resend_streams hp hok (hwell.imp_right fun hwell => hwell.1) hresend
  -- What is sent again replaces the result so far.
  have hidle : s.self.inflightMsgid = 0 → u.self.inflightMsgid = 0 := idle_allows.cycles.awaitConnack (.inl trivial) hwait
  have hwaited : (streaming taken ok).rel s u :=
    (streaming_cycles hp hok).awaitConnack (hwell.imp_right fun hwell => hsame (hidle hwell.2) ▸ hwell.1) hwait
  exact (streaming taken ok).trans hwaited ((streaming taken ok).trans hresent hexit)

theorem connect_streams {options : ConnectData} {s : Live σ (MQTTClient σ T)} {out : Int × Option ConnackData} {s'}
    (hwell : (∀ a, ok a) ∨ 0 ≤ out.1 ∧ s.self.inflightMsgid = 0) (h : (connect p options).Returns s out s') :
    (streaming taken ok).rel s s' := by
  obtain ⟨t, u, htimer, h, hfirst⟩ := streaming_then (streaming_silent hp (.timerMs 5000)) h
  refine hfirst ?_
  obtain ⟨-, rfl⟩ := returns_call.mp htimer
  rw [returns_obj_bind] at h
  rcases Prog.returns_ite.mp h with ⟨-, h⟩ | ⟨-, h⟩
  · exact Guarantees.pure _ out s' h
  obtain ⟨h, hnext⟩ := streaming_set_then h (fun _ => rfl) (fun _ => rfl) (fun _ => rfl) fun _ => rfl
  refine hnext ?_
  split at h
  · exact absurd h Prog.returns_undefined
  rename_i packet hpacket
  obtain ⟨r, w, hsend, h⟩ := Prog.returns_bind.mp h
  have hidle : s.self.inflightMsgid = 0 → w.self.inflightMsgid = 0 := fun hzero => idle_allows.sendSerialized (fun _ _ => trivial) _ r w hsend hzero
  obtain ⟨len, rfl, hstreams⟩ | ⟨rc, rfl, hstreams⟩ := (streaming_cycles hp hok).sendSerialized (fun bs hbs => ⟨.connect options, _, hbs ▸ hpacket⟩) hsend
  · obtain ⟨-, rfl⟩ := Prog.returns_pure.mp h
    exact hstreams
  rcases Prog.returns_ite.mp h with ⟨-, h⟩ | ⟨hrc, h⟩
  · obtain ⟨rfl, rfl⟩ := Prog.returns_pure.mp h
    exact hstreams (hwell.imp_right fun hwell => ne_failure hwell.1)
  refine (streaming taken ok).trans (hstreams (.inr (ne_failure (not_not.mp hrc ▸ Int.le_refl 0)))) ?_
  have hwell' : (∀ a, ok a) ∨ 0 ≤ out.1 ∧ w.self.inflightMsgid = 0 := hwell.imp_right fun hwell => ⟨hwell.1, hidle hwell.2⟩
  rcases Prog.returns_ite.mp h with ⟨-, h⟩ | ⟨-, h⟩
  · obtain ⟨_, x, hcountdown, h, hthen⟩ := streaming_then (streaming_silent hp (.countdown _)) h
    obtain ⟨-, rfl⟩ := returns_call.mp hcountdown
    obtain ⟨h, hlast⟩ := streaming_set_then h (fun _ => rfl) (fun _ => rfl) (fun _ => rfl) fun _ => rfl
    exact hthen (hlast (greeted_streams hp hok hwell' h))
  · exact greeted_streams hp hok hwell' h

theorem subscribeTo_streams {charSigned : Bool} {topicFilter : Bytes} {qos : Nat} {register : Prog (Live σ (MQTTClient σ T)) Int}
    (hregister : register.Guarantees (streaming taken ok)) {s : Live σ (MQTTClient σ T)} {out : Int × Option Int} {s'}
    (hwell : (∀ a, ok a) ∨ 0 ≤ out.1) (h : (subscribeTo p charSigned topicFilter qos register).Returns s out s') :
    (streaming taken ok).rel s s' := by
  obtain ⟨t, u, -, h, hfirst⟩ := streaming_then (streaming_silent hp .timer) h
  refine hfirst ?_
  rw [returns_obj_bind] at h
  rcases Prog.returns_ite.mp h with ⟨-, h⟩ | ⟨-, h⟩
  · exact Guarantees.pure u out s' h
  obtain ⟨id, v, -, h, hnext⟩ := streaming_then streaming_getNext h
  refine hnext ?_
  obtain ⟨r, w, hsend, h⟩ := Prog.returns_bind.mp h
  obtain ⟨len, rfl, hstreams⟩ | ⟨rc, rfl, hstreams⟩ :=
    (streaming_cycles hp hok).sendSerialized (fun bs hbs => ⟨_, _, Packet.serialize_filter hbs⟩) hsend
  · obtain ⟨-, rfl⟩ := Prog.returns_pure.mp h
    exact hstreams
  rcases Prog.returns_ite.mp h with ⟨-, h⟩ | ⟨hrc, h⟩
  · obtain ⟨rfl, rfl⟩ := Prog.returns_pure.mp h
    exact hstreams (hwell.imp_right ne_failure)
  refine (streaming taken ok).trans (hstreams (.inr (ne_failure (not_not.mp hrc ▸ Int.le_refl 0)))) ?_
  obtain ⟨rc', x, hwait, h⟩ := Prog.returns_bind.mp h
  rcases Prog.returns_ite.mp h with ⟨htype, h⟩ | ⟨-, h⟩
  · refine (streaming taken ok).trans ((streaming_cycles hp hok).waitfor (.inr (htype ▸ Int.natCast_nonneg _)) hwait) ?_
    rw [returns_obj_bind] at h
    split at h
    · exact absurd h Prog.returns_undefined
    · exact Guarantees.ite .undefined (.ite (.bind hregister fun _ => .pure) .pure) x out s' h
  · obtain ⟨rfl, rfl⟩ := Prog.returns_pure.mp h
    exact (streaming_cycles hp hok).waitfor (hwell.imp_right fun hfail => absurd hfail (by decide)) hwait

theorem unsubscribe_streams {topicFilter : Bytes} {s : Live σ (MQTTClient σ T)} {rc : Int} {s'} (hwell : (∀ a, ok a) ∨ 0 ≤ rc)
    (h : (unsubscribe p topicFilter).Returns s rc s') : (streaming taken ok).rel s s' := by
  obtain ⟨t, u, -, h, hfirst⟩ := streaming_then (streaming_silent hp .timer) h
  refine hfirst ?_
  rw [returns_obj_bind] at h
  rcases Prog.returns_ite.mp h with ⟨-, h⟩ | ⟨-, h⟩
  · exact Guarantees.pure u rc s' h
  obtain ⟨id, v, -, h, hnext⟩ := streaming_then streaming_getNext h
  refine hnext ?_
  obtain ⟨r, w, hsend, h⟩ := Prog.returns_bind.mp h
  obtain ⟨len, rfl, hstreams⟩ | ⟨rc', rfl, hstreams⟩ :=
    (streaming_cycles hp hok).sendSerialized (fun bs hbs => ⟨_, _, Packet.serialize_unfilter hbs⟩) hsend
  · obtain ⟨-, rfl⟩ := Prog.returns_pure.mp h
    exact hstreams
  rcases Prog.returns_ite.mp h with ⟨-, h⟩ | ⟨hrc, h⟩
  · obtain ⟨rfl, rfl⟩ := Prog.returns_pure.mp h
    exact hstreams (hwell.imp_right ne_failure)
  refine (streaming taken ok).trans (hstreams (.inr (ne_failure (not_not.mp hrc ▸ Int.le_refl 0)))) ?_
  obtain ⟨rc₁, x, hwait, h⟩ := Prog.returns_bind.mp h
  rcases Prog.returns_ite.mp h with ⟨htype, h⟩ | ⟨-, h⟩
  · refine (streaming taken ok).trans ((streaming_cycles hp hok).waitfor (.inr (htype ▸ Int.natCast_nonneg _)) hwait) ?_
    rw [returns_obj_bind] at h
    split at h
    · exact absurd h Prog.returns_undefined
    · exact Guarantees.ite (.bind (streaming_setHandler hp) fun _ => .pure) .pure x rc s' h
  · obtain ⟨rfl, rfl⟩ := Prog.returns_pure.mp h
    exact (streaming_cycles hp hok).waitfor (hwell.imp_right fun hfail => absurd hfail (by decide)) hwait

theorem disconnect_streams {s : Live σ (MQTTClient σ T)} {rc : Int} {s'} (hwell : (∀ a, ok a) ∨ 0 ≤ rc)
    (h : (disconnect p).Returns s rc s') : (streaming taken ok).rel s s' := by
  obtain ⟨t, u, -, h, hfirst⟩ := streaming_then (streaming_silent hp .timer) h
  refine hfirst ?_
  obtain ⟨r, v, hsend, h⟩ := Prog.returns_bind.mp h
  have close {x : Int} (h : (pure x >>= fun x => closeSession >>= fun _ => pure x : Prog (Live σ (MQTTClient σ T)) Int).Returns v rc s') :
      rc = x ∧ (streaming taken ok).rel v s' := by
    obtain ⟨_, w, hclose, h⟩ := Prog.returns_bind.mp (Prog.returns_pure_bind.mp h)
    obtain ⟨rfl, rfl⟩ := Prog.returns_pure.mp h
    exact ⟨rfl, (streaming_cycles hp hok).closeSession v _ _ hclose⟩
  have hpacket : ∀ bs, MQTTPacket.serializeDisconnect p.maxMqttPacketSize = .ok bs → ∃ q : Packet, q.Written bs :=
    fun bs hbs => ⟨.zero .disconnect, _, congrArg some hbs⟩
  obtain ⟨len, rfl, hstreams⟩ | ⟨rc', rfl, hstreams⟩ := (streaming_cycles hp hok).sendSerialized hpacket hsend
  · exact (streaming taken ok).trans hstreams (close h).2
  · obtain ⟨rfl, hclose⟩ := close h
    exact (streaming taken ok).trans (hstreams (hwell.imp_right ne_failure)) hclose

theorem run_streams {charSigned : Bool} {op : ClientOp} {s : Live σ (MQTTClient σ T)} {rc : Int} {s'}
    (hwell : (∀ a, ok a) ∨ 0 ≤ rc ∧ ∀ options, op = .connect options → s.self.inflightMsgid = 0)
    (h : (ClientOp.run p charSigned op).Returns s rc s') : (streaming taken ok).rel s s' := by
  have well : (∀ a, ok a) ∨ 0 ≤ rc := hwell.imp_right And.left
  have defaulted {fp : FP} (h : (set (fun c => { c with defaultMessageHandler := fp }) >>= fun _ => pure success :
      Prog (Live σ (MQTTClient σ T)) Int).Returns s rc s') : (streaming taken ok).rel s s' := by
    obtain ⟨h, hthen⟩ := streaming_set_then h (fun _ => rfl) (fun _ => rfl) (fun _ => rfl) fun _ => rfl
    exact hthen (Guarantees.pure _ rc s' h)
  cases op with
  | connect options =>
    obtain ⟨out, u, hconnect, h⟩ := Prog.returns_bind.mp h
    obtain ⟨rfl, rfl⟩ := Prog.returns_pure.mp h
    exact connect_streams hp hok (hwell.imp_right fun hwell => ⟨hwell.1, hwell.2 options rfl⟩) hconnect
  | disconnect => exact disconnect_streams hp hok well h
  | yield_ => exact (streaming_cycles hp hok).yield_ well h
  | publish =>
    obtain ⟨out, u, hpublish, h⟩ := Prog.returns_bind.mp h
    obtain ⟨rfl, rfl⟩ := Prog.returns_pure.mp h
    exact publishId_streams hp hok well hpublish
  | subscribe =>
    obtain ⟨out, u, hsubscribe, h⟩ := Prog.returns_bind.mp h
    obtain ⟨rfl, rfl⟩ := Prog.returns_pure.mp h
    exact subscribeTo_streams hp hok (streaming_setHandler hp) well hsubscribe
  | subscribeFunction =>
    obtain ⟨out, u, hsubscribe, h⟩ := Prog.returns_bind.mp h
    obtain ⟨rfl, rfl⟩ := Prog.returns_pure.mp h
    exact subscribeTo_streams hp hok (streaming_setHandler hp) well hsubscribe
  | unsubscribe => exact unsubscribe_streams hp hok well h
  | setMessageHandler => exact streaming_setHandler hp s rc s' h
  | setMessageFunction => exact streaming_setHandler hp s rc s' h
  | setDefaultMessageHandler => exact defaulted h
  | setDefaultFunction => exact defaulted h

end Operations

/-! ## Runs -/

/-- A call that reports no failure; the result of a `connect` is that of what it
sends again, where something is in flight. -/
def Well (c : ClientCall σ T) : Prop := 0 ≤ c.out ∧ ∀ options, c.op = .connect options → c.before.self.inflightMsgid = 0

theorem run_attempts (hp : Conveys p taken) {charSigned : Bool} {c : ClientCall σ T}
    (h : (ClientOp.run p charSigned c.op).Returns c.before c.out c.after) (hresend : Resendable c.before.self) :
    Resendable c.after.self ∧ ∃ attempts, (Well c → ∀ a ∈ attempts, a.sent = true) ∧ Streamed taken attempts c.before c.after := by
  by_cases hwell : Well c
  · obtain ⟨hafter, attempts, hsent, hstreamed⟩ := run_streams hp (fun _ => id) (.inr hwell) h hresend
    exact ⟨hafter, attempts, fun _ => hsent, hstreamed⟩
  · have hstreams : (streaming taken fun _ => True).rel c.before c.after := run_streams hp (fun _ _ => trivial) (.inl fun _ => trivial) h
    obtain ⟨hafter, attempts, -, hstreamed⟩ := hstreams hresend
    exact ⟨hafter, attempts, fun hw => absurd hw hwell, hstreamed⟩

/-- Attempts that were sent are what the history records. -/
theorem Streamed.whole {attempts : List Attempt} {s s' : Live σ (MQTTClient σ T)} (h : Streamed taken attempts s s')
    (hsent : ∀ a ∈ attempts, a.sent = true) : taken s'.env = taken s.env ++ (sentPackets (since s s')).flatten := by
  obtain ⟨htaken, log, hevents, hlog⟩ := h
  rw [since_eq hevents, hlog, List.filter_eq_self.mpr hsent, htaken, ← List.flatMap_def, List.flatMap_congr fun a ha => a.whole (hsent a ha)]

/-- **The network of an `MQTT::Client` takes packets**: in a call that goes well
whole ones, in another the first parts of some, and the history records
those that it took whole. -/
theorem calls_streamed (hp : Conveys p taken) {charSigned : Bool} {s₀ s s' : Live σ (MQTTClient σ T)} {cs : List (ClientCall σ T)}
    (hnew : (construct p).Returns s₀ () s) (h : Prog.Calls (ClientOp.run p charSigned) s cs s') :
    (∀ c ∈ cs, ∃ attempts, (Well c → ∀ a ∈ attempts, a.sent = true) ∧ Streamed taken attempts c.before c.after) ∧
      ((∀ c ∈ cs, Well c) → taken s'.env = taken s.env ++ (sentPackets (since s s')).flatten) := by
  have hresend : Resendable s.self := fun hin => absurd (construct_empty hnew).2.1 (Nat.ne_of_gt hin)
  constructor
  · intro c hc
    have hbefore := ((h.always (I := fun u => Resendable u.self) fun d hd hI => (run_attempts hp hd hI).1) hresend).1 c hc
    exact (run_attempts hp (h.mem hc) hbefore.1).2
  · intro hwell
    have hstreams : (streaming taken fun a => a.sent = true).rel s s' :=
      (h.keeps (I := fun u => (streaming taken fun a => a.sent = true).rel s u) (fun c hc hw hsofar =>
        (streaming taken _).trans hsofar (run_streams hp (fun _ => id) (.inr hw) hc)) hwell ((streaming taken _).refl s)).2
    obtain ⟨-, attempts, hsent, hstreamed⟩ := hstreams hresend
    exact hstreamed.whole hsent

namespace StreamDemo

open MQTTClient.Wire (Script connectOp)

/-- A network by script that keeps what it takes. A write takes as many bytes
as the next of `rooms` allows, and fails if those are not all. -/
structure Line where
  script : Script
  rooms : List Nat
  taken : Bytes
  deriving DecidableEq

def Line.play {α : Type} (f : Script → α × Script) (e : Line) : α × Line := ((f e.script).1, { e with script := (f e.script).2 })

def Line.write (bs : Bytes) (e : Line) : Int × Line :=
  match e.rooms with
  | [] => (bs.length, { e with taken := e.taken ++ bs })
  | room :: rooms => (if room < bs.length then -1 else bs.length, { e with rooms := rooms, taken := e.taken ++ bs.take room })

def platform : MQTTPlatform Line Nat where
  maxMqttPacketSize := 24
  maxMessageHandlers := 2
  maxIncomingQoS2Messages := 1
  read n timeout := Line.play (Wire.platform.read n timeout)
  write bs _ := Line.write bs
  timer := Line.play Wire.platform.timer
  timerMs ms := Line.play (Wire.platform.timerMs ms)
  countdown seconds := Line.play (Wire.platform.countdown seconds)
  countdownMs ms := Line.play (Wire.platform.countdownMs ms)
  expired t := Line.play (Wire.platform.expired t)
  leftMs t := Line.play (Wire.platform.leftMs t)
  malloc n := Line.play (Wire.platform.malloc n)
  callback _ _ _ e := e
  indeterminate := Line.play Wire.platform.indeterminate

theorem conveys : Conveys platform Line.taken where
  write bs timeout e := by
    show ∃ n ≤ bs.length, (e.write bs).2.taken = e.taken ++ bs.take n ∧ (0 ≤ (e.write bs).1 → (e.write bs).1 = n)
    obtain ⟨script, rooms, taken⟩ := e
    cases rooms with
    | nil => exact ⟨bs.length, Nat.le_refl _, by rw [List.take_length]; rfl, fun _ => rfl⟩
    | cons room rooms =>
      rw [Line.write]
      dsimp only
      split
      · exact ⟨min room bs.length, Nat.min_le_right .., by rw [List.take_eq_take_min], fun h => absurd h (by decide)⟩
      · next hroom => exact ⟨bs.length, Nat.le_refl _, by rw [List.take_of_length_le (Nat.not_lt.mp hroom), List.take_length], fun _ => rfl⟩
  silent hf e := by cases hf <;> rfl
  callback _ _ _ _ := rfl

/-- The second write is cut after five bytes. -/
def fresh : Live Line (MQTTClient Line Nat) where
  self := {
    sendbuf := [], readbuf := List.replicate 24 0, lastReceived := 0, keepAliveInterval := 0, pingOutstanding := 0
    cleansession := true, packetid := 0, messageHandlers := [], defaultMessageHandler := {}, isconnected := false
    pubbuf := [], inflightLen := 0, inflightMsgid := 0, inflightQoS := 0, pubrel := false
    incomingQoS2messages := [], events := [] }
  env := ⟨⟨0, [[32, 2, 0, 0]]⟩, [24, 5], []⟩

def constructed : Live Line (MQTTClient Line Nat) := ((construct platform).run 12 fresh).2

theorem constructs : (construct platform).Returns fresh () constructed := .of_run 12 (by decide +kernel)

/-- A message is published, which fails, and again. -/
def walked : Option (List (ClientCall Line Nat) × Live Line (MQTTClient Line Nat)) :=
  Prog.walk (ClientOp.run platform true) 12 constructed
    [connectOp true, .publish [97] [1, 2, 3] 0 0 false, .publish [97] [1, 2, 3] 0 0 false]

def published : List (ClientCall Line Nat) × Live Line (MQTTClient Line Nat) := walked.getD ([], constructed)

theorem walked_published : walked = some published := by
  obtain ⟨x, hx⟩ := Option.isSome_iff_exists.mp (show walked.isSome by decide +kernel)
  rw [published, hx]
  rfl

theorem calls_streamed_cut : (∀ c ∈ published.1, ∃ attempts, (Well c → ∀ a ∈ attempts, a.sent = true) ∧
      Streamed Line.taken attempts c.before c.after) ∧
    ((∀ c ∈ published.1, Well c) →
      published.2.env.taken = constructed.env.taken ++ (sentPackets (since constructed published.2)).flatten) :=
  calls_streamed conveys constructs (.of_walk walked_published)

/-- The session is still open where the packet was cut, and the next one follows in its middle. -/
example : published.1.map (fun c => (c.out, c.after.self.isconnected)) = [(success, true), (failure, true), (success, true)] ∧
    published.2.env.taken = [16, 12, 0, 4, 77, 81, 84, 84, 4, 2, 0, 0, 0, 0] ++ [48, 6, 0, 1, 97] ++ [48, 6, 0, 1, 97, 1, 2, 3] := by
  decide +kernel

end StreamDemo

end MQTTClient

end FEmbed
