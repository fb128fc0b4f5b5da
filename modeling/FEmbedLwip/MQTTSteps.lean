/-
The client as a transition system: whatever a program calls, its client makes
such steps, of which each sends one packet at most, or is a turn of `cycle`.
-/
import FEmbedLwip.MQTTSends

namespace FEmbed

open Live
open Relation (ReflTransGen)

namespace MQTTClient

variable {σ T : Type} {p : MQTTPlatform σ T} {charSigned : Bool}

/-! ## Steps -/

/-- The filter that an operation may register. -/
def ClientOp.Registers (op : ClientOp) (topicFilter : Bytes) : Prop :=
  match op with
  | .subscribe f _ callback => f = topicFilter ∧ callback.isSome
  | .subscribeFunction f _ funcCb => f = topicFilter ∧ funcCb.isSome
  | .setMessageHandler f callback => f = topicFilter ∧ callback.isSome
  | .setMessageFunction f funcCb => f = topicFilter ∧ funcCb.isSome
  | _ => False

/-- A step of a client in a call of `op`. -/
inductive Step (p : MQTTPlatform σ T) (op : ClientOp) (s : Live σ (MQTTClient σ T)) : Live σ (MQTTClient σ T) → Prop
  /-- What is outside has changed, and what is next to be sent. -/
  | prepared {n bs l e} : Step p op s ⟨{ s.self with packetid := n, sendbuf := bs, lastReceived := l }, e⟩
  | options {k clean e} (hcon : s.self.isconnected = false) :
      Step p op s ⟨{ s.self with keepAliveInterval := k, cleansession := clean }, e⟩
  /-- A packet that is neither part of a publish nor an answer is sent. -/
  | asked {type bs e} (htype : type ∈ [MsgType.connect, .subscribe, .unsubscribe, .disconnect]) (hbs : packetType bs = type.code) :
      Step p op s ⟨{ s.self with sendbuf := bs, events := s.self.events ++ [.sent bs e] }, e⟩
  | begun {id₀ qos retained topicName payload bs e} (hop : op = .publish topicName payload id₀ qos retained)
      (hcon : s.self.isconnected = true)
      (hbs : MQTTPacket.serializePublish p.maxMqttPacketSize false qos retained (publishedId s.self id₀ qos) topicName payload = .ok bs) :
      Step p op s ⟨begun s.self (publishedId s.self id₀ qos) qos bs, e⟩
  | published {id₀ qos retained topicName payload bs e e'} (hop : op = .publish topicName payload id₀ qos retained)
      (hcon : s.self.isconnected = true)
      (hbs : MQTTPacket.serializePublish p.maxMqttPacketSize false qos retained (publishedId s.self id₀ qos) topicName payload = .ok bs) :
      Step p op s (afterSending ⟨MQTTClient.begun s.self (publishedId s.self id₀ qos) qos bs, e⟩ e')
  | released {bs e} (hin : 0 < s.self.inflightMsgid) (hqos : s.self.inflightQoS = 2) (hpubrel : s.self.pubrel = true)
      (hbs : MQTTPacket.serializeAck p.maxMqttPacketSize .pubrel false s.self.inflightMsgid = .ok bs) :
      Step p op s (afterSending ⟨{ s.self with sendbuf := bs }, s.env⟩ e)
  | resent {options e} (hop : op = .connect options) (hin : 0 < s.self.inflightMsgid) (hpubrel : ¬ (s.self.inflightQoS = 2 ∧ s.self.pubrel = true)) :
      Step p op s (afterSending ⟨{ s.self with sendbuf := s.self.pubbuf.take s.self.inflightLen.toNat }, s.env⟩ e)
  | turn {e rc s'} (h : Cycled p ⟨s.self, e⟩ rc s') : Step p op s s'
  | acknowledged {id e} : Step p op s ⟨acknowledged id s.self, e⟩
  | opened : Step p op s ⟨{ s.self with isconnected := true, pingOutstanding := 0 }, s.env⟩
  | registered {topicFilter attach rc s'} (hf : op.Registers topicFilter)
      (h : (setHandler p topicFilter (some attach)).Returns s rc s') : Step p op s s'
  | removed {topicFilter rc s'} (h : (setHandler p topicFilter none).Returns s rc s') : Step p op s s'
  | defaulted {fp e} : Step p op s ⟨{ s.self with defaultMessageHandler := fp }, e⟩
  | ended : Step p op s ⟨ended s.self, s.env⟩

/-- One step after the other. -/
abbrev Steps (p : MQTTPlatform σ T) (op : ClientOp) : Live σ (MQTTClient σ T) → Live σ (MQTTClient σ T) → Prop :=
  ReflTransGen (Step p op)

section Steps

variable {op : ClientOp}

theorem steps_outside {s : Live σ (MQTTClient σ T)} {e : σ} : Steps p op s ⟨s.self, e⟩ := .single .prepared

theorem Cycles.steps {s s' : Live σ (MQTTClient σ T)} {rcs : List Int} (h : Cycles p s rcs s') : Steps p op s s' := by
  induction h with
  | nil => exact steps_outside
  | cons hturn _ ih => exact .head (.turn hturn) ih

theorem AckDone.steps {s u s' : Live σ (MQTTClient σ T)} {type : MsgType} {rc : Int} (h : AckDone s u type rc s') :
    Steps p op u s' := by
  cases h with
  | failed hs' => rw [hs']
  | acked => exact .single .acknowledged

/-- What follows once it has been said how the packet is sent, and how it is not. -/
theorem PublishDone.steps {s t s' : Live σ (MQTTClient σ T)} {qos : Nat} {rc : Int} (h : PublishDone p t qos rc s')
    (hunsent : ∀ e, Step p op s ⟨t.self, e⟩) (hsent : ∀ e, Step p op s (afterSending t e)) : Steps p op s s' := by
  cases h with
  | unsent => exact .single (hunsent _)
  | sent => exact .single (hsent _)
  | waited _ hcycles hdone => exact .trans (.head (hsent _) hcycles.steps) hdone.steps

theorem Publishing.steps {topicName payload : Bytes} {id₀ qos : Nat} {retained : Bool} {s s' : Live σ (MQTTClient σ T)}
    {r : Int × Nat} (hop : op = .publish topicName payload id₀ qos retained)
    (h : Publishing p topicName payload id₀ qos retained s r s') : Steps p op s s' := by
  cases h with
  | unconnected => exact steps_outside
  | tooLong hc =>
    subst hc
    exact .single .prepared
  | begun hcon hbs hdone => exact hdone.steps (fun _ => .begun hop hcon hbs) fun _ => .published hop hcon hbs

theorem Resending.steps {options : ConnectData} (hop : op = .connect options) {s s' : Live σ (MQTTClient σ T)} {rc rc' : Int}
    (h : Resending p s rc rc' s') : Steps p op s s' := by
  cases h with
  | nothing => exact .refl
  | tooLong => exact .refl
  | pubrel hin hqos hpubrel hbs hdone => exact hdone.steps (fun _ => .prepared) fun _ => .released hin hqos hpubrel hbs
  | publish hin hpubrel hdone => exact hdone.steps (fun _ => .prepared) fun _ => .resent hop hin hpubrel

theorem opened_steps {s : Live σ (MQTTClient σ T)} {rc : Int} : Steps p op s ⟨opened rc s.self, s.env⟩ := by
  rw [opened]
  split
  · exact .single .opened
  · exact .refl

theorem greeting_steps {options : ConnectData} {s : Live σ (MQTTClient σ T)} {bs : Bytes} {l : T} {e e' : σ}
    (hcon : s.self.isconnected = false) (hbs : MQTTPacket.serializeConnect p.maxMqttPacketSize options = some (.ok bs)) :
    Steps p op s (greeting s options bs l e e') := by
  have hask : Step p op ⟨{ s.self with keepAliveInterval := options.keepAliveInterval, cleansession := options.cleansession }, e⟩ _ :=
    .asked (e := e) (.head _) (MQTTPacket.serializeConnect_type hbs)
  exact .tail (.tail (.single (.options hcon)) hask) .prepared

theorem Connecting.steps {options : ConnectData} (hop : op = .connect options) {s s' : Live σ (MQTTClient σ T)}
    {r : Int × Option ConnackData} (h : Connecting p options s r s') : Steps p op s s' := by
  cases h with
  | connected => exact steps_outside
  | @unsent bs e hcon =>
    have hset : Step p op s
        ⟨{ s.self with keepAliveInterval := options.keepAliveInterval, cleansession := options.cleansession }, e⟩ := .options hcon
    exact .tail (.single hset) .prepared
  | sent hcon hbs hcycles _ hresend =>
    exact .trans (.trans (greeting_steps hcon hbs) hcycles.steps) (.trans (hresend.steps hop) opened_steps)

theorem asked_steps {type : MsgType} (htype : type ∈ [MsgType.connect, .subscribe, .unsubscribe, .disconnect])
    {s : Live σ (MQTTClient σ T)} {bs : Bytes} (hbs : packetType bs = type.code) {e : σ} : Steps p op s (asked s bs e) := by
  have hask : Step p op ⟨{ s.self with packetid := nextId s.self }, e⟩ _ := .asked (e := e) htype hbs
  exact .tail (.single .prepared) hask

/-- A handler that is not attached leaves the table as it is. -/
theorem setHandler_steps {topicFilter : Bytes} {attach : Option (FP → FP)} {s : Live σ (MQTTClient σ T)} {rc : Int} {s'}
    (hf : attach.isSome → rc = success → op.Registers topicFilter) (h : (setHandler p topicFilter attach).Returns s rc s') :
    Steps p op s s' := by
  cases attach with
  | none => exact .single (.removed h)
  | some attach =>
    by_cases hrc : rc = success
    · exact .single (.registered (hf rfl hrc) h)
    · rcases setHandler_returns h with ⟨_, rfl, _⟩ | ⟨hsuccess, _⟩
      · exact .refl
      · exact absurd hsuccess hrc

theorem Subscribing.steps {topicFilter : Bytes} {qos : Nat} {attach : Option (FP → FP)} {s s' : Live σ (MQTTClient σ T)}
    {r : Int × Option Int} (hf : attach.isSome → r.1 = success → op.Registers topicFilter)
    (h : Subscribing p charSigned topicFilter qos (setHandler p topicFilter attach) s r s') : Steps p op s s' := by
  have ask {bs : Bytes} {e : σ} (hbs : MQTTPacket.serializeSubscribe p.maxMqttPacketSize false (nextId s.self) topicFilter qos = .ok bs) :
      Steps p op s (asked s bs e) := asked_steps (by decide) (MQTTPacket.serializeSubscribe_type hbs)
  cases h with
  | unasked => exact .single .prepared
  | unanswered _ hbs hcycles => exact (ask hbs).trans hcycles.steps
  | answered _ hbs hcycles _ _ _ _ hr =>
    refine .trans ((ask hbs).trans hcycles.steps) ?_
    split at hr
    · exact setHandler_steps hf hr
    · rw [hr.2]

theorem Unsubscribing.steps {topicFilter : Bytes} {s s' : Live σ (MQTTClient σ T)} {rc : Int}
    (h : Unsubscribing p topicFilter s rc s') : Steps p op s s' := by
  have ask {bs : Bytes} {e : σ} (hbs : MQTTPacket.serializeUnsubscribe p.maxMqttPacketSize false (nextId s.self) topicFilter = .ok bs) :
      Steps p op s (asked s bs e) := asked_steps (by decide) (MQTTPacket.serializeUnsubscribe_type hbs)
  cases h with
  | unasked => exact .single .prepared
  | unanswered _ hbs hcycles => exact (ask hbs).trans hcycles.steps
  | answered _ hbs hcycles _ _ hs' =>
    refine .trans ((ask hbs).trans hcycles.steps) ?_
    split at hs'
    · obtain ⟨rc, hset⟩ := hs'
      exact setHandler_steps (by exact fun h => nomatch h) hset
    · rw [hs']

theorem disconnect_steps {s : Live σ (MQTTClient σ T)} {rc : Int} {s'} (h : (disconnect p).Returns s rc s') :
    Steps p op s s' := by
  rw [disconnect, returns_call_bind] at h
  obtain ⟨r, u, hsend, h⟩ := Prog.returns_bind.mp h
  obtain rfl : s' = ⟨MQTTClient.ended u.self, u.env⟩ := by
    have close {x : Int} (h : (pure x >>= fun x => closeSession >>= fun _ => pure x : Prog (Live σ (MQTTClient σ T)) Int).Returns
        u rc s') : s' = ⟨MQTTClient.ended u.self, u.env⟩ := by
      obtain ⟨_, w, hclose, h⟩ := Prog.returns_bind.mp (Prog.returns_pure_bind.mp h)
      rw [(Prog.returns_pure.mp h).2]
      exact closeSession_returns.mp hclose
    cases r with
    | error => exact close h
    | ok => exact close h
  refine .tail ?_ .ended
  generalize hpacket : MQTTPacket.serializeDisconnect p.maxMqttPacketSize = packet at hsend
  cases packet with
  | error len =>
    obtain ⟨_, rfl⟩ := sendSerialized_error hsend
    exact steps_outside
  | ok bs =>
    obtain ⟨e, _, ⟨_, rfl⟩ | ⟨_, rfl⟩⟩ := sendSerialized_returns hsend
    · have hask : Step p op s _ := .asked (e := e) (by decide) (MQTTPacket.serializeZero_type hpacket)
      exact .single hask
    · exact .single .prepared

end Steps

/-! ## Operations -/

/-- **Whatever a program calls, its client makes steps.** -/
theorem ClientOp.steps (hread : Reads p) {op : ClientOp} {s s' : Live σ (MQTTClient σ T)} {rc : Int}
    (h : (op.run p charSigned).Returns s rc s') : Steps p op s s' := by
  cases op with
  | connect =>
    obtain ⟨data, h⟩ := returns_fst h
    exact (connect_returns hread h).steps rfl
  | disconnect => exact disconnect_steps h
  | yield_ =>
    obtain ⟨rcs, hcycles, _⟩ := yield_returns hread h
    exact hcycles.steps
  | publish =>
    obtain ⟨id, h⟩ := returns_fst h
    exact (publishId_returns hread h).steps rfl
  | subscribe =>
    obtain ⟨granted, h⟩ := returns_fst h
    exact (subscribeTo_returns hread h).steps fun hsome _ => ⟨rfl, by simpa using hsome⟩
  | subscribeFunction =>
    obtain ⟨granted, h⟩ := returns_fst h
    exact (subscribeTo_returns hread h).steps fun hsome _ => ⟨rfl, by simpa using hsome⟩
  | unsubscribe => exact (unsubscribe_returns hread h).steps
  | setMessageHandler => exact setHandler_steps (fun hsome _ => ⟨rfl, by simpa using hsome⟩) h
  | setMessageFunction => exact setHandler_steps (fun hsome _ => ⟨rfl, by simpa using hsome⟩) h
  | setDefaultMessageHandler =>
    obtain ⟨_, u, hset, h⟩ := Prog.returns_bind.mp h
    obtain ⟨_, rfl⟩ := Prog.returns_pure.mp h
    rw [returns_set.mp hset]
    exact .single .defaulted
  | setDefaultFunction =>
    obtain ⟨_, u, hset, h⟩ := Prog.returns_bind.mp h
    obtain ⟨_, rfl⟩ := Prog.returns_pure.mp h
    rw [returns_set.mp hset]
    exact .single .defaulted

/-- A call registers a filter only where it succeeds: one that fails makes the
steps of an operation that registers none. -/
theorem ClientOp.steps_registering (hread : Reads p) {op : ClientOp} {s s' : Live σ (MQTTClient σ T)} {rc : Int}
    (h : (op.run p charSigned).Returns s rc s') :
    ∃ op' : ClientOp, (∀ f, op'.Registers f → op.Registers f ∧ rc = success) ∧ Steps p op' s s' := by
  by_cases hrc : rc = success
  · exact ⟨op, fun f hf => ⟨hf, hrc⟩, ClientOp.steps hread h⟩
  cases op with
  | subscribe =>
    obtain ⟨granted, h⟩ := returns_fst h
    exact ⟨.yield_ 0, fun _ => False.elim, (subscribeTo_returns hread h).steps fun _ hsuccess => absurd hsuccess hrc⟩
  | subscribeFunction =>
    obtain ⟨granted, h⟩ := returns_fst h
    exact ⟨.yield_ 0, fun _ => False.elim, (subscribeTo_returns hread h).steps fun _ hsuccess => absurd hsuccess hrc⟩
  | setMessageHandler => exact ⟨.yield_ 0, fun _ => False.elim, setHandler_steps (fun _ hsuccess => absurd hsuccess hrc) h⟩
  | setMessageFunction => exact ⟨.yield_ 0, fun _ => False.elim, setHandler_steps (fun _ hsuccess => absurd hsuccess hrc) h⟩
  | connect | disconnect | yield_ | publish | unsubscribe | setDefaultMessageHandler | setDefaultFunction =>
    exact ⟨_, fun _ => False.elim, ClientOp.steps hread h⟩

/-! ## History -/

/-- A filter that is removed is removed, and no other takes its place. -/
theorem removeHandler_filters {topicFilter : Bytes} {s : Live σ (MQTTClient σ T)} {rc : Int} {s'}
    (h : (setHandler p topicFilter none).Returns s rc s') : ∃ hs, s' = ⟨{ s.self with messageHandlers := hs }, s.env⟩ ∧
      ∀ f, some f ∈ hs.map (·.topicFilter) → some f ∈ s.self.messageHandlers.map (·.topicFilter) := by
  rcases removeHandler_returns h with ⟨_, rfl, _⟩ | ⟨_, i, _, rfl⟩
  · exact ⟨_, rfl, fun _ => id⟩
  · refine ⟨_, rfl, fun f hf => ?_⟩
    obtain ⟨e, he, hfe⟩ := List.mem_map.mp hf
    obtain ⟨j, hj⟩ := List.getElem?_of_mem he
    rw [List.getElem?_modify] at hj
    split at hj
    · obtain ⟨_, _, rfl⟩ := Option.map_eq_some_iff.mp hj
      cases hfe
    · exact List.mem_map.mpr ⟨e, List.mem_of_getElem? (by simpa using hj), hfe⟩

theorem events_since {s₀ s : Live σ (MQTTClient σ T)} (h : s₀.self.events <+: s.self.events) :
    s.self.events = s₀.self.events ++ since s₀ s := by
  obtain ⟨log, hlog⟩ := h
  rw [since_eq hlog.symm, hlog]

theorem ended_events (c : MQTTClient σ T) : c.events <+: (ended c).events := by
  unfold ended disconnected
  dsimp only
  split <;> split <;> simp [cleaned]

theorem Step.events {op : ClientOp} {s s' : Live σ (MQTTClient σ T)} (h : Step p op s s') :
    s.self.events <+: s'.self.events := by
  have begun_events (id qos : Nat) (bs : Bytes) (e : σ) : (MQTTClient.begun s.self id qos bs).events = s.self.events := by
    rw [MQTTClient.begun]
    dsimp only
    split <;> rfl
  cases h with
  | prepared => exact List.prefix_rfl
  | options => exact List.prefix_rfl
  | asked => exact List.prefix_append ..
  | @begun _ _ _ _ _ bs e => exact (begun_events _ _ _ e) ▸ List.prefix_rfl
  | @published _ _ _ _ _ bs e => rw [afterSending, begun_events _ _ _ e]; exact List.prefix_append ..
  | released => exact List.prefix_append ..
  | resent => exact List.prefix_append ..
  | turn h => exact ⟨_, h.events.symm⟩
  | acknowledged => rw [MQTTClient.acknowledged]; split <;> exact List.prefix_rfl
  | opened => exact List.prefix_rfl
  | registered _ h =>
    rcases setHandler_returns h with ⟨_, rfl, _⟩ | ⟨_, i, e, _, rfl⟩
    · exact List.prefix_rfl
    · exact List.prefix_rfl
  | removed h =>
    obtain ⟨hs, rfl, _⟩ := removeHandler_filters h
    exact List.prefix_rfl
  | defaulted => exact List.prefix_rfl
  | ended => exact ended_events s.self

theorem Steps.events {op : ClientOp} {s s' : Live σ (MQTTClient σ T)} (h : Steps p op s s') :
    s.self.events <+: s'.self.events := by
  induction h with
  | refl => exact List.prefix_rfl
  | tail _ hstep ih => exact ih.trans hstep.events

/-! ## The publish in flight -/

/-- What is in flight is the packet of a `publish`, one of those that meet `made`. -/
def Buffered (p : MQTTPlatform σ T) (made : ClientOp → Prop) (c : MQTTClient σ T) : Prop :=
  0 < c.inflightMsgid → ∃ topicName payload id₀ retained, made (.publish topicName payload id₀ c.inflightQoS retained) ∧
    MQTTPacket.serializePublish p.maxMqttPacketSize false c.inflightQoS retained c.inflightMsgid topicName payload =
      .ok (c.pubbuf.take c.inflightLen.toNat)

theorem Buffered.of_zero {made : ClientOp → Prop} {c : MQTTClient σ T} (h : c.inflightMsgid = 0) : Buffered p made c :=
  fun hin => absurd h hin.ne'

theorem Buffered.of_standing {made : ClientOp → Prop} {c c' : MQTTClient σ T} (h : Buffered p made c)
    (hst : standing c' = standing c) : Buffered p made c' := by
  unfold Buffered
  rw [show c'.inflightMsgid = c.inflightMsgid from congrArg Standing.inflightMsgid hst,
    show c'.inflightQoS = c.inflightQoS from congrArg Standing.inflightQoS hst,
    show c'.inflightLen = c.inflightLen from congrArg Standing.inflightLen hst,
    show c'.pubbuf = c.pubbuf from congrArg Standing.pubbuf hst]
  exact h

theorem Buffered.ended {made : ClientOp → Prop} {c : MQTTClient σ T} (h : Buffered p made c) : Buffered p made (ended c) := by
  unfold MQTTClient.ended disconnected cleaned
  dsimp only
  by_cases hclean : c.cleansession = true
  · rw [if_pos hclean]
    split <;> exact .of_zero rfl
  · rw [if_neg hclean]
    split <;> exact h

theorem Buffered.shut {made : ClientOp → Prop} {c : MQTTClient σ T} (h : Buffered p made c) : Buffered p made (shut c) := by
  rw [MQTTClient.shut]
  split
  · exact h.ended
  · exact h

theorem Buffered.begun {made : ClientOp → Prop} {c : MQTTClient σ T} {topicName payload bs : Bytes} {id₀ id qos : Nat} {retained : Bool}
    (h : Buffered p made c) (hmade : made (.publish topicName payload id₀ qos retained))
    (hbs : MQTTPacket.serializePublish p.maxMqttPacketSize false qos retained id topicName payload = .ok bs) :
    Buffered p made (begun c id qos bs) := by
  unfold MQTTClient.begun
  dsimp only
  split
  · exact h
  · refine fun _ => ⟨topicName, payload, id₀, retained, hmade, ?_⟩
    rw [hbs]
    exact congrArg _ (List.take_length ..).symm

theorem Step.buffered {made : ClientOp → Prop} {op : ClientOp} {s s' : Live σ (MQTTClient σ T)} (h : Step p op s s')
    (hop : made op) (hb : Buffered p made s.self) : Buffered p made s'.self := by
  cases h with
  | prepared => exact hb
  | options => exact hb
  | asked => exact hb
  | begun hpub _ hbs => exact hb.begun (hpub ▸ hop) hbs
  | published hpub _ hbs => exact (hb.begun (hpub ▸ hop) hbs : Buffered p made (MQTTClient.begun ..))
  | released => exact hb
  | resent => exact hb
  | turn h =>
    cases h with
    | kept h => exact hb.of_standing h.left.1
    | failed h => exact (hb.of_standing h.left.1).shut
  | acknowledged =>
    unfold MQTTClient.acknowledged
    split
    · exact .of_zero rfl
    · exact hb
  | opened => exact hb
  | registered _ h =>
    rcases setHandler_returns h with ⟨_, rfl, _⟩ | ⟨_, i, e, _, rfl⟩
    · exact hb
    · exact hb
  | removed h =>
    obtain ⟨hs, rfl, _⟩ := removeHandler_filters h
    exact hb
  | defaulted => exact hb
  | ended => exact hb.ended

end MQTTClient

end FEmbed
