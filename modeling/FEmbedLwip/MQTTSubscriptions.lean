/-
What `subscribe` and `unsubscribe` report, and what the broker has decided.

The id and the code of the answer are not looked at, but for the code 0x80,
which leaves the success of the sending as the result.
-/
import FEmbedLwip.MQTTOutcomes

namespace FEmbed

open Live
open Prog (Guarantee Guarantees)

namespace MQTTClient

variable {σ T : Type} {p : MQTTPlatform σ T} {charSigned : Bool}

/-! ## The table -/

/-- The table gives a filter to a callback, or to none. -/
def Maps (topicFilter : Bytes) (hs : List MessageHandler) : Option Callback → Prop
  | some cb => ∃ i h, slotOf (some topicFilter) hs = some i ∧ hs[i]? = some h ∧ h.fp.target = some (some cb)
  | none => slotOf (some topicFilter) hs = none

/-- What is attached for a callback. -/
def attachOf : Callback → FP → FP
  | .function f => FP.attachFunction f
  | .method object m => FP.attachMethod object m

/-- A function goes where no object is. -/
def FitsIn (topicFilter : Bytes) (hs : List MessageHandler) (callback : Option Callback) : Prop :=
  ∀ f, callback = some (.function f) → ∀ i h, slotFor topicFilter hs = some i → hs[i]? = some h → h.fp.objCallback = none

theorem slotOf_of_filterAt {topicFilter : Bytes} {hs : List MessageHandler} (hu : Unique hs) {i : Nat}
    (hi : filterAt hs i = some topicFilter) : slotOf (some topicFilter) hs = some i := by
  cases hj : slotOf (some topicFilter) hs with
  | none => exact absurd hi (filterAt_of_slotOf_none hj i)
  | some j => rw [hu i j topicFilter hi (filterAt_of_slotOf hj)]

theorem getElem?_of_slotFor {topicFilter : Bytes} {hs : List MessageHandler} {i : Nat} (h : slotFor topicFilter hs = some i) :
    ∃ e, hs[i]? = some e := by
  have found {f : Option Bytes} (h : slotOf f hs = some i) : ∃ e, hs[i]? = some e := by
    obtain ⟨hlt, _, _⟩ := List.findIdx?_eq_some_iff_getElem.mp h
    exact ⟨_, List.getElem?_eq_getElem hlt⟩
  rcases Option.or_eq_some_iff.mp h with h | ⟨_, h⟩
  · exact found h
  · exact found h

/-- A registration that succeeds maps its filter, if the callback fits. -/
theorem setHandler_maps {topicFilter : Bytes} {callback : Option Callback} {s s' : Live σ (MQTTClient σ T)}
    (hu : Unique s.self.messageHandlers) (h : (setHandler p topicFilter (callback.map attachOf)).Returns s success s') :
    Maps topicFilter s'.self.messageHandlers callback ↔ FitsIn topicFilter s.self.messageHandlers callback := by
  cases callback with
  | none =>
    refine iff_of_true ?_ fun f hf => nomatch hf
    rcases removeHandler_returns h with ⟨hfail, _⟩ | ⟨_, i, hi, rfl⟩
    · exact absurd hfail (by decide)
    refine List.findIdx?_eq_none_iff.mpr fun e he => ?_
    obtain ⟨j, hj⟩ := List.getElem?_of_mem he
    simp only [List.getElem?_modify] at hj
    split at hj
    · obtain ⟨_, _, rfl⟩ := Option.map_eq_some_iff.mp hj
      rfl
    · rename_i hij
      have hj : s.self.messageHandlers[j]? = some e := by simpa using hj
      refine Bool.eq_false_iff.mpr fun hf => hij ?_
      refine hu i j topicFilter (filterAt_of_slotOf hi) ?_
      rw [filterAt, hj]
      simpa using hf
  | some cb =>
    rcases setHandler_returns h with ⟨hfail, _⟩ | ⟨_, i, e, hi, rfl⟩
    · exact absurd hfail (by decide)
    have hu' := hu.modify hi (g := fun h => { topicFilter := some topicFilter, fp := attachOf cb h.fp }) fun _ => rfl
    obtain ⟨h₀, h₀at⟩ := getElem?_of_slotFor hi
    have hat : (s.self.messageHandlers.modify i fun h => { topicFilter := some topicFilter, fp := attachOf cb h.fp })[i]? =
        some { topicFilter := some topicFilter, fp := attachOf cb h₀.fp } := by
      simp [h₀at]
    have hslot : slotOf (some topicFilter) _ = some i := slotOf_of_filterAt hu' (by rw [filterAt, hat]; rfl)
    constructor
    · rintro ⟨j, h', hj, h'at, ht⟩ f hf k h₁ hk h₁at
      obtain rfl := Option.some.inj hf
      obtain rfl : i = k := Option.some.inj (hi.symm.trans hk)
      obtain rfl : i = j := Option.some.inj (hslot.symm.trans hj)
      obtain rfl := Option.some.inj (h₀at.symm.trans h₁at)
      obtain rfl := Option.some.inj (hat.symm.trans h'at)
      cases hobj : h₀.fp.objCallback with
      | none => rfl
      | some object => simp [attachOf, FP.attachFunction, FP.target, hobj] at ht
    · intro hfits
      refine ⟨i, _, hslot, hat, ?_⟩
      cases cb with
      | method object m => rfl
      | function f =>
        have hobj := hfits f rfl i h₀ hi h₀at
        simp [attachOf, FP.attachFunction, FP.target, hobj]

/-! ## No filter gets two entries -/

theorem Unheard.shed {s s' : Live σ (MQTTClient σ T)} (h : Unheard s s') : Shed s s' :=
  .same h.connected h.cleansession h.handlers h.default

theorem PublishDone.shed {s s' : Live σ (MQTTClient σ T)} {qos : Nat} {rc : Int} (h : PublishDone p s qos rc s') : Shed s s' := by
  cases h with
  | unsent => exact .same rfl rfl rfl rfl
  | @sent e => exact (unheard_sending s e).shed
  | @waited e type rcs u _ _ _ hcycles hdone =>
    refine ((unheard_sending s e).shed.trans hcycles.shed).trans ?_
    cases hdone with
    | failed hs' => rw [hs']; exact .same rfl rfl rfl rfl
    | @acked packet ack id e' => exact (unheard_acknowledged u id e').shed

theorem Publishing.shed {topicName payload : Bytes} {id₀ qos : Nat} {retained : Bool} {s s' : Live σ (MQTTClient σ T)}
    {r : Int × Nat} (h : Publishing p topicName payload id₀ qos retained s r s') : Shed s s' := by
  cases h with
  | unconnected => exact .same rfl rfl rfl rfl
  | tooLong hc => rw [hc]; exact .same rfl rfl rfl rfl
  | @begun bs e _ _ _ _ hdone => exact (unheard_begun s _ qos bs e).shed.trans hdone.shed

theorem Resending.shed {s s' : Live σ (MQTTClient σ T)} {rc rc' : Int} (h : Resending p s rc rc' s') : Shed s s' := by
  have start (bs : Bytes) : Shed s ⟨{ s.self with sendbuf := bs }, s.env⟩ := .same rfl rfl rfl rfl
  cases h with
  | nothing => exact .same rfl rfl rfl rfl
  | tooLong => exact .same rfl rfl rfl rfl
  | pubrel _ _ _ _ hdone => exact (start _).trans hdone.shed
  | publish _ _ hdone => exact (start _).trans hdone.shed

/-- `connect` has no session to close. -/
theorem Connecting.handlers {options : ConnectData} {s s' : Live σ (MQTTClient σ T)} {r : Int × Option ConnackData}
    (h : Connecting p options s r s') : s'.self.messageHandlers = s.self.messageHandlers ∧
      s'.self.defaultMessageHandler = s.self.defaultMessageHandler := by
  cases h with
  | connected => exact ⟨rfl, rfl⟩
  | unsent => exact ⟨rfl, rfl⟩
  | @sent bs l e e' rcs u rc data rc' v hcon _ hcycles _ hresend =>
    have hsw : Shed (greeting s options bs l e e') v := hcycles.shed.trans hresend.shed
    have hkept : v.self.messageHandlers = s.self.messageHandlers := hsw.kept hcon
    have hdefault : v.self.defaultMessageHandler = s.self.defaultMessageHandler := hsw.default
    unfold opened
    split
    · exact ⟨hkept, hdefault⟩
    · exact ⟨hkept, hdefault⟩

theorem Connecting.stays {options : ConnectData} {s s' : Live σ (MQTTClient σ T)} {r : Int × Option ConnackData}
    (h : Connecting p options s r s') (hcon : s.self.isconnected = true) : s'.self.isconnected = true := by
  cases h with
  | connected => exact hcon
  | unsent hno => exact absurd (hno.symm.trans hcon) (by decide)
  | sent hno => exact absurd (hno.symm.trans hcon) (by decide)

theorem Subscribing.unique {topicFilter : Bytes} {qos : Nat} {attach : Option (FP → FP)} {s s' : Live σ (MQTTClient σ T)}
    {r : Int × Option Int} (hu : Unique s.self.messageHandlers)
    (h : Subscribing p charSigned topicFilter qos (setHandler p topicFilter attach) s r s') : Unique s'.self.messageHandlers := by
  cases h with
  | unasked => exact hu
  | @unanswered bs e rcs _ _ _ hcycles => exact ((unheard_asked s bs e).shed.trans hcycles.shed).unique hu
  | @answered bs e rcs packet u ack granted r _ _ _ hcycles _ _ _ _ hr =>
    have hu' : Unique u.self.messageHandlers := ((unheard_asked s bs e).shed.trans hcycles.shed).unique hu
    split at hr
    · exact setHandler_unique hu' hr
    · rw [hr.2]
      exact hu'

theorem Unsubscribing.unique {topicFilter : Bytes} {s s' : Live σ (MQTTClient σ T)} {rc : Int} (hu : Unique s.self.messageHandlers)
    (h : Unsubscribing p topicFilter s rc s') : Unique s'.self.messageHandlers := by
  cases h with
  | unasked => exact hu
  | @unanswered bs e rcs _ _ _ hcycles => exact ((unheard_asked s bs e).shed.trans hcycles.shed).unique hu
  | @answered bs e rcs packet u ack _ _ _ hcycles _ _ hs' =>
    have hu' : Unique u.self.messageHandlers := ((unheard_asked s bs e).shed.trans hcycles.shed).unique hu
    split at hs'
    · obtain ⟨_, hset⟩ := hs'
      exact setHandler_unique hu' hset
    · rw [hs']
      exact hu'

/-- `disconnect` closes the session, whatever became of its packet. -/
theorem disconnect_returns {s s' : Live σ (MQTTClient σ T)} {rc : Int} (h : (disconnect p).Returns s rc s') :
    ∃ u, Unheard s u ∧ s' = ⟨ended u.self, u.env⟩ := by
  have close {u : Live σ (MQTTClient σ T)} {r : Int} (hu : Unheard s u)
      (h : (do closeSession; return r : Prog (Live σ (MQTTClient σ T)) Int).Returns u rc s') :
      ∃ u, Unheard s u ∧ s' = ⟨ended u.self, u.env⟩ := by
    obtain ⟨_, v, hclose, h⟩ := Prog.returns_bind.mp h
    obtain ⟨-, rfl⟩ := Prog.returns_pure.mp h
    exact ⟨u, hu, closeSession_returns.mp hclose⟩
  rw [disconnect, returns_call_bind] at h
  obtain ⟨r, u, hsend, h⟩ := Prog.returns_bind.mp h
  generalize MQTTPacket.serializeDisconnect p.maxMqttPacketSize = packet at hsend
  have hu : Unheard s u := by
    cases packet with
    | error len =>
      obtain ⟨-, rfl⟩ := sendSerialized_error hsend
      exact .same rfl rfl rfl rfl rfl
    | ok bs =>
      obtain ⟨e, _, ⟨-, rfl⟩ | ⟨-, rfl⟩⟩ := sendSerialized_returns hsend
      · exact ⟨⟨_, rfl, rfl⟩, rfl, rfl, rfl, rfl⟩
      · exact .same rfl rfl rfl rfl rfl
  cases r with
  | error => exact close hu h
  | ok => exact close hu h

theorem ended_handlers (c : MQTTClient σ T) :
    (ended c).messageHandlers = if c.cleansession then cleared c.messageHandlers else c.messageHandlers := by
  unfold ended disconnected cleaned
  dsimp only
  by_cases hclean : c.cleansession = true <;> by_cases hcon : c.isconnected = true <;> simp [hclean, hcon, cleared]

theorem ended_default (c : MQTTClient σ T) : (ended c).defaultMessageHandler = c.defaultMessageHandler := by
  unfold ended disconnected cleaned
  dsimp only
  split <;> split <;> rfl

theorem ended_unique {c : MQTTClient σ T} (hu : Unique c.messageHandlers) : Unique (ended c).messageHandlers := by
  rw [ended_handlers]
  split
  · exact .cleared _
  · exact hu

theorem ClientOp.unique (hread : Reads p) {op : ClientOp} {s s' : Live σ (MQTTClient σ T)} {rc : Int}
    (hu : Unique s.self.messageHandlers) (h : (op.run p charSigned).Returns s rc s') : Unique s'.self.messageHandlers := by
  cases op with
  | connect =>
    obtain ⟨data, h⟩ := returns_fst h
    rw [(connect_returns hread h).handlers.1]
    exact hu
  | disconnect =>
    obtain ⟨u, hunheard, rfl⟩ := disconnect_returns h
    exact ended_unique (hunheard.shed.unique hu)
  | yield_ =>
    obtain ⟨rcs, hcycles, _⟩ := yield_returns hread h
    exact hcycles.shed.unique hu
  | publish =>
    obtain ⟨id, h⟩ := returns_fst h
    exact (publishId_returns hread h).shed.unique hu
  | subscribe =>
    obtain ⟨granted, h⟩ := returns_fst h
    exact (subscribeTo_returns hread h).unique hu
  | subscribeFunction =>
    obtain ⟨granted, h⟩ := returns_fst h
    exact (subscribeTo_returns hread h).unique hu
  | unsubscribe => exact (unsubscribe_returns hread h).unique hu
  | setMessageHandler => exact setHandler_unique hu h
  | setMessageFunction => exact setHandler_unique hu h
  | setDefaultMessageHandler =>
    obtain ⟨_, t, hset, hpure⟩ := Prog.returns_bind.mp h
    obtain rfl := returns_set.mp hset
    obtain ⟨_, rfl⟩ := Prog.returns_pure.mp hpure
    exact hu
  | setDefaultFunction =>
    obtain ⟨_, t, hset, hpure⟩ := Prog.returns_bind.mp h
    obtain rfl := returns_set.mp hset
    obtain ⟨_, rfl⟩ := Prog.returns_pure.mp hpure
    exact hu

/-! ## Decisions -/

/-- The filter of a `subscribe`, and its handler. -/
def subscription : ClientOp → Option (Bytes × Option Callback)
  | .subscribe topicFilter _ callback => some (topicFilter, callback.map (.method · .messageHandler))
  | .subscribeFunction topicFilter _ funcCb => some (topicFilter, funcCb.map .function)
  | _ => none

/-- A SUBACK that grants the request with this id. -/
def Grants (id : Nat) (packet : Bytes) : Prop := ∃ granted ∈ ([0, 1, 2] : List Int),
  MQTTPacket.deserializeSuback false 1 packet = some { rc := 1, packetid := some id, grantedQoSs := [granted] }

/-- A SUBACK that refuses, or cannot be decoded. -/
def Denies (packet : Bytes) : Prop := ∀ ack, MQTTPacket.deserializeSuback false 1 packet = some ack → ack.rc = 1 →
  ack.packetid.isSome → 0x80 ∈ ack.grantedQoSs

/-- The table has a place for the filter, or an entry to be removed. -/
def HasRoom (topicFilter : Bytes) (hs : List MessageHandler) (callback : Option Callback) : Prop :=
  if callback.isSome then slotFor topicFilter hs ≠ none else slotOf (some topicFilter) hs ≠ none

/-- The result of a `subscribe` is what the broker has decided. -/
structure SubscribeAgrees (c : ClientCall σ T) (topicFilter : Bytes) (callback : Option Callback) : Prop where
  granted : c.out = success → ∃ packet ∈ packetsOf .suback (log c), Grants (nextId c.before.self) packet
  mapped : c.out = success → Maps topicFilter c.after.self.messageHandlers callback
  denied : ∀ packet ∈ packetsOf .suback (log c), Denies packet → c.out ≠ success ∧
    (c.after.self.isconnected → c.after.self.messageHandlers = c.before.self.messageHandlers)
  done : ∀ packet ∈ packetsOf .suback (log c), Grants (nextId c.before.self) packet → c.after.self.isconnected →
    HasRoom topicFilter c.before.self.messageHandlers callback → c.out = success

/-- The result of a `subscribe` or `unsubscribe` is what the broker has decided. -/
def Agrees (c : ClientCall σ T) : Prop :=
  (∀ topicFilter callback, subscription c.op = some (topicFilter, callback) → SubscribeAgrees c topicFilter callback) ∧
  (∀ topicFilter, c.op = .unsubscribe topicFilter → c.out = success →
    ∃ packet ∈ packetsOf .unsuback (log c), ackId packet = some (nextId c.before.self))

/-- The table that a registration finds at the end of a call. -/
def tableThen (c : ClientCall σ T) : List MessageHandler :=
  if (∃ a ∈ arrivals (log c), ¬ listed a.code) ∧ c.before.self.cleansession then cleared c.before.self.messageHandlers
  else c.before.self.messageHandlers

/-- The answers that come grant the request, and the handler fits. -/
def SubscribeGranted (c : ClientCall σ T) (topicFilter : Bytes) (callback : Option Callback) : Prop :=
  (∀ packet ∈ packetsOf .suback (log c), Grants (nextId c.before.self) packet) ∧ FitsIn topicFilter (tableThen c) callback

/-- The answers that come during a call grant its own request. -/
def Granted (c : ClientCall σ T) : Prop :=
  (∀ topicFilter callback, subscription c.op = some (topicFilter, callback) → SubscribeGranted c topicFilter callback) ∧
  (∀ topicFilter, c.op = .unsubscribe topicFilter →
    ∀ packet ∈ packetsOf .unsuback (log c), ackId packet = some (nextId c.before.self))

/-- The codes that grant are the same however a `char` is read. -/
theorem deserializeSuback_signed {packet : Bytes} {id : Nat} {granted : Int} (hg : granted ∈ ([0, 1, 2] : List Int))
    (h : MQTTPacket.deserializeSuback false 1 packet = some { rc := 1, packetid := some id, grantedQoSs := [granted] })
    (charSigned : Bool) :
    MQTTPacket.deserializeSuback charSigned 1 packet = some { rc := 1, packetid := some id, grantedQoSs := [granted] } := by
  simp only [MQTTPacket.deserializeSuback, Option.bind_eq_bind, Option.bind_eq_some_iff] at h ⊢
  obtain ⟨b, hb, h⟩ := h
  refine ⟨b, hb, ?_⟩
  split
  · rw [if_pos ‹_›] at h
    exact absurd (show (0 : Int) = 1 from congrArg MQTTPacket.Suback.rc (Option.some.inj h)) (by decide)
  rw [if_neg ‹_›] at h
  obtain ⟨x, hx, h⟩ := Option.bind_eq_some_iff.mp h
  refine Option.bind_eq_some_iff.mpr ⟨x, hx, ?_⟩
  split
  · rw [if_pos ‹_›] at h
    exact absurd (congrArg MQTTPacket.Suback.packetid (Option.some.inj h)) (by simp)
  rw [if_neg ‹_›] at h
  obtain ⟨id', hid, h⟩ := Option.bind_eq_some_iff.mp h
  refine Option.bind_eq_some_iff.mpr ⟨id', hid, ?_⟩
  split
  · rw [if_pos ‹_›] at h
    cases h
  rw [if_neg ‹_›] at h
  obtain ⟨hrc, hpid, hcodes⟩ := MQTTPacket.Suback.mk.inj (Option.some.inj h)
  obtain ⟨code, hcode, hval⟩ := List.map_eq_singleton_iff.mp hcodes
  have hsmall : code.toNat < 128 := by
    simp only [MQTTPacket.charValue, Bool.false_eq_true, false_and, if_false] at hval
    simp only [List.mem_cons, List.not_mem_nil, or_false] at hg
    omega
  have hval' : MQTTPacket.charValue charSigned code = granted := by
    rw [← hval, MQTTPacket.charValue, MQTTPacket.charValue, if_neg (by omega), if_neg (by omega)]
  rw [hcode] at hcodes ⊢
  exact congrArg some (MQTTPacket.Suback.mk.injEq .. ▸ ⟨hrc, hpid, by rw [List.map_singleton, hval']⟩)

theorem Grants.not_denies {id : Nat} {packet : Bytes} (h : Grants id packet) : ¬ Denies packet := by
  obtain ⟨granted, hg, hack⟩ := h
  intro hdeny
  have hmem := List.mem_singleton.mp (hdeny _ hack rfl rfl)
  subst hmem
  exact absurd hg (by decide)

theorem mem_packetsOf {type : MsgType} {log : List (MQTTEvent σ)} {packet : Bytes} :
    packet ∈ packetsOf type log ↔ .packet packet ∈ arrivals log ∧ packetType packet = type.code := by
  rw [packetsOf, List.mem_filterMap]
  constructor
  · rintro ⟨_ | _, ha, h⟩
    · rcases Option.ite_none_right_eq_some.mp h with ⟨htype, h⟩
      obtain rfl := Option.some.inj h
      exact ⟨ha, htype⟩
    · cases h
  · rintro ⟨ha, htype⟩
    exact ⟨_, ha, if_pos htype⟩

/-- A registration fails where there is no room, and leaves all as it is. -/
theorem setHandler_failure {topicFilter : Bytes} {callback : Option Callback} {s s' : Live σ (MQTTClient σ T)} {rc : Int}
    (h : (setHandler p topicFilter (callback.map attachOf)).Returns s rc s') (hrc : rc ≠ success) :
    rc = failure ∧ s' = s ∧ ¬ HasRoom topicFilter s.self.messageHandlers callback := by
  cases callback with
  | none =>
    rcases removeHandler_returns h with ⟨rfl, rfl, hnone⟩ | ⟨hok, _⟩
    · exact ⟨rfl, rfl, fun hroom => hroom hnone⟩
    · exact absurd hok hrc
  | some cb =>
    rcases setHandler_returns h with ⟨rfl, rfl, hnone⟩ | ⟨hok, _⟩
    · exact ⟨rfl, rfl, fun hroom => hroom hnone⟩
    · exact absurd hok hrc

/-- A `subscribe` that fails agrees, if it leaves the table alone, and what it
heard granted no request for which there was room. -/
theorem SubscribeAgrees.failed {c : ClientCall σ T} {topicFilter : Bytes} {callback : Option Callback} (hout : c.out = failure)
    (hsame : c.after.self.isconnected → c.after.self.messageHandlers = c.before.self.messageHandlers)
    (hno : c.after.self.isconnected → packetsOf .suback (log c) ≠ [] → ¬ HasRoom topicFilter c.before.self.messageHandlers callback) :
    SubscribeAgrees c topicFilter callback := by
  have hne : c.out ≠ success := by rw [hout]; decide
  refine ⟨fun h => absurd h hne, fun h => absurd h hne, fun _ _ _ => ⟨hne, hsame⟩, fun packet hpacket _ hcon hroom => ?_⟩
  exact absurd hroom (hno hcon (List.ne_nil_of_mem hpacket))

section Asked

variable {s u s' : Live σ (MQTTClient σ T)} {bs : Bytes} {e : σ} {type : MsgType} {packet : Bytes}

/-- Nothing comes around the wait for the answer to a request. -/
theorem Awaited.arrivals_asked (h : Awaited (asked s bs e) type packet u) (hev : s'.self.events = u.self.events) :
    arrivals (since s s') = arrivals (since (asked s bs e) u) := by
  obtain ⟨rcs, hp⟩ := h.passed
  rw [since, hev, ← since]
  exact arrivals_around (unheard_asked s bs e) hp (.refl u)

theorem Awaited.packets_asked (h : Awaited (asked s bs e) type packet u) (hev : s'.self.events = u.self.events) :
    packetsOf type (since s s') = [packet] := by
  rw [packetsOf, h.arrivals_asked hev]
  exact h.packets

/-- The table at the answer is the one that the registration finds. -/
theorem Awaited.table_asked (h : Awaited (asked s bs e) type packet u) (hev : s'.self.events = u.self.events)
    (hcon : s.self.isconnected = true) {op : ClientOp} {r : Int} : u.self.messageHandlers = tableThen ⟨op, s, r, s'⟩ := by
  obtain ⟨rcs, hp⟩ := h.passed
  rw [tableThen, show log (⟨op, s, r, s'⟩ : ClientCall σ T) = since s s' from rfl, h.arrivals_asked hev]
  by_cases hall : ∀ a ∈ arrivals (since (asked s bs e) u), listed a.code
  · rw [if_neg fun hex => hex.1.elim fun a ha => ha.2 (hall a ha.1)]
    exact congrArg Standing.messageHandlers (hp.standing hall)
  · have hex : ∃ a ∈ arrivals (since (asked s bs e) u), ¬ listed a.code := by simpa using hall
    rw [hp.table hex hcon]
    simp only [hex, true_and]
    rfl

/-- An answer would have ended the wait. -/
theorem Cycles.packets_asked {rcs : List Int} (h : Cycles p (asked s bs e) rcs s') (hno : (type.code : Int) ∉ rcs)
    (hcon : s'.self.isconnected) : packetsOf type (since s s') = [] := by
  refine List.eq_nil_iff_forall_not_mem.mpr fun packet hpacket => ?_
  obtain ⟨evs, hev, hnone⟩ := (unheard_asked s bs e).log
  have hall : s'.self.events = s.self.events ++ (evs ++ since (asked s bs e) s') := by
    rw [h.events, hev, List.append_assoc]
  obtain ⟨ha, htype⟩ := mem_packetsOf.mp hpacket
  rw [since_eq hall, arrivals_append, hnone, List.nil_append] at ha
  have hin := h.heard hcon _ ha
  rw [Arrival.code, htype] at hin
  exact hno hin

end Asked

/-- What a `subscribe` has asked and heard decides its result and the table. -/
theorem Subscribing.agreement {op : ClientOp} {topicFilter : Bytes} {qos : Nat} {callback : Option Callback}
    {s s' : Live σ (MQTTClient σ T)} {r : Int × Option Int} (hu : Unique s.self.messageHandlers)
    (h : Subscribing p charSigned topicFilter qos (setHandler p topicFilter (callback.map attachOf)) s r s') :
    let c : ClientCall σ T := ⟨op, s, r.1, s'⟩
    (SubscribeGranted c topicFilter callback → SubscribeAgrees c topicFilter callback) ∧
      (c.out = success → SubscribeAgrees c topicFilter callback → SubscribeGranted c topicFilter callback) := by
  intro c
  have failed (hrc : r.1 = failure) (hagrees : SubscribeAgrees c topicFilter callback) :
      (SubscribeGranted c topicFilter callback → SubscribeAgrees c topicFilter callback) ∧
        (c.out = success → SubscribeAgrees c topicFilter callback → SubscribeGranted c topicFilter callback) :=
    ⟨fun _ => hagrees, fun hout => absurd (hrc.symm.trans hout) (by decide)⟩
  cases h with
  | unasked =>
    refine failed rfl (.failed rfl (fun _ => rfl) fun _ hsome => ?_)
    have hnone : log c = [] := since_eq (List.append_nil _).symm
    rw [hnone] at hsome
    exact absurd rfl hsome
  | @unanswered bs e rcs _ _ _ hcycles hno =>
    refine failed rfl (.failed rfl (fun hcon => ?_) fun hcon hsome => absurd (hcycles.packets_asked hno hcon) hsome)
    exact (congrArg Standing.messageHandlers (hcycles.standing hcon)).trans (unheard_asked s bs e).handlers
  | @answered bs e rcs packet u ack granted r _ hcon _ hcycles hwait hack _ hgranted hr =>
    by_cases hrc : r = success
    · subst hrc
      have hev : s'.self.events = u.self.events := by
        split at hr
        · exact (setHandler_others hr).1
        · rw [hr.2]
      have hone : packetsOf .suback (log c) = [packet] := hwait.packets_asked hev
      -- An answer that grants is registered.
      have register (hgrants : Grants (nextId s.self) packet) :
          Maps topicFilter s'.self.messageHandlers callback ↔ FitsIn topicFilter (tableThen c) callback := by
        obtain ⟨g, hg, hdec⟩ := hgrants
        obtain ⟨rest, hrest⟩ := hwait.readbuf
        have hdec' := MQTTPacket.deserializeSuback_append (deserializeSuback_signed hg hdec charSigned) rest
        rw [hrest, hack] at hdec'
        obtain rfl := Option.some.inj hdec'
        obtain rfl : granted = g := hgranted
        rw [if_pos ⟨rfl, fun h => absurd hg (by rw [h]; decide)⟩] at hr
        rw [← hwait.table_asked hev hcon]
        exact setHandler_maps (((unheard_asked s bs e).shed.trans hcycles.shed).unique hu) hr
      rw [SubscribeGranted, hone]
      constructor
      · rintro ⟨hgrants, hfits⟩
        have hgrants := hgrants packet (List.mem_singleton_self packet)
        refine ⟨fun _ => ⟨packet, by rw [hone]; exact List.mem_singleton_self packet, hgrants⟩,
          fun _ => (register hgrants).mpr hfits, fun packet' hmem hdeny => ?_, fun _ _ _ _ _ => rfl⟩
        rw [hone, List.mem_singleton] at hmem
        exact absurd (hmem ▸ hdeny) hgrants.not_denies
      · intro _ hagree
        obtain ⟨packet', hmem, hgrants⟩ := hagree.granted rfl
        rw [hone, List.mem_singleton] at hmem
        subst hmem
        exact ⟨fun _ hmem => List.mem_singleton.mp hmem ▸ hgrants, (register hgrants).mp (hagree.mapped rfl)⟩
    · -- The table was full, or there was nothing to remove.
      have hno : r = failure ∧ s' = u ∧ ¬ HasRoom topicFilter u.self.messageHandlers callback := by
        split at hr
        · exact setHandler_failure hr hrc
        · exact absurd hr.1 hrc
      obtain ⟨rfl, rfl, hno⟩ := hno
      have hsame (hcon : s'.self.isconnected) : s'.self.messageHandlers = s.self.messageHandlers :=
        (congrArg Standing.messageHandlers (hcycles.standing hcon)).trans (unheard_asked s bs e).handlers
      refine failed rfl (.failed rfl hsame fun hcon _ => ?_)
      show ¬ HasRoom topicFilter s.self.messageHandlers callback
      rw [← hsame hcon]
      exact hno

/-- What comes before the answer does not bear its type. -/
theorem Unsubscribing.answered_once {topicFilter : Bytes} {s s' : Live σ (MQTTClient σ T)}
    (h : Unsubscribing p topicFilter s success s') : ∃ packet, packetsOf .unsuback (since s s') = [packet] := by
  generalize hr : success = rc at h
  cases h with
  | unasked => exact absurd hr (by decide)
  | unanswered => exact absurd hr (by decide)
  | @answered bs e rcs packet u ack _ _ _ _ hwait _ hs' =>
    refine ⟨packet, hwait.packets_asked ?_⟩
    split at hs'
    · obtain ⟨rc, hset⟩ := hs'
      exact (setHandler_others hset).1
    · rw [hs']

theorem setMessageHandler_eq (topicFilter : Bytes) (callback : Option Nat) :
    (setMessageHandler p topicFilter callback : Prog (Live σ (MQTTClient σ T)) Int) =
      setHandler p topicFilter ((callback.map (.method · .messageHandler)).map attachOf) := by
  rw [setMessageHandler, Option.map_map]
  rfl

theorem setMessageFunction_eq (topicFilter : Bytes) (funcCb : Option Nat) :
    (setMessageFunction p topicFilter funcCb : Prog (Live σ (MQTTClient σ T)) Int) =
      setHandler p topicFilter ((funcCb.map .function).map attachOf) := by
  rw [setMessageFunction, Option.map_map]
  rfl

/-- **The result of `subscribe` and `unsubscribe` is what the broker has decided**, in
any run, where each answer that comes grants the request. Of the calls that
report success, it is so for no others. -/
theorem agrees_iff (hread : Reads p) {s s' : Live σ (MQTTClient σ T)} {cs : List (ClientCall σ T)}
    (hu : Unique s.self.messageHandlers) (h : Prog.Calls (ClientOp.run p charSigned) s cs s') :
    ∀ c ∈ cs, (Granted c → Agrees c) ∧ (c.out = success → Agrees c → Granted c) := by
  have hunique := (h.always (I := fun s => Unique s.self.messageHandlers) (fun c hc hI => ClientOp.unique hread hI hc) hu).1
  intro c hc
  have hu := (hunique c hc).1
  have hrun := h.mem hc
  have subscribed {topicFilter : Bytes} {callback : Option Callback} (hop : subscription c.op = some (topicFilter, callback)) :
      (SubscribeGranted c topicFilter callback → SubscribeAgrees c topicFilter callback) ∧
        (c.out = success → SubscribeAgrees c topicFilter callback → SubscribeGranted c topicFilter callback) := by
    obtain ⟨op, before, out, after⟩ := c
    dsimp only at hop hrun hu
    cases op with
    | subscribe f qos cb =>
      obtain ⟨rfl, rfl⟩ := Prod.mk.inj (Option.some.inj hop)
      obtain ⟨granted, hsub⟩ := returns_fst hrun
      rw [subscribe, setMessageHandler_eq] at hsub
      exact (subscribeTo_returns hread hsub).agreement hu
    | subscribeFunction f qos cb =>
      obtain ⟨rfl, rfl⟩ := Prod.mk.inj (Option.some.inj hop)
      obtain ⟨granted, hsub⟩ := returns_fst hrun
      rw [subscribeFunction, setMessageFunction_eq] at hsub
      exact (subscribeTo_returns hread hsub).agreement hu
    | connect | disconnect | yield_ | publish | unsubscribe | setMessageHandler | setMessageFunction
    | setDefaultMessageHandler | setDefaultFunction => exact nomatch hop
  have unsubscribed {topicFilter : Bytes} (hop : c.op = .unsubscribe topicFilter) (hout : c.out = success) :
      ∃ packet, packetsOf .unsuback (log c) = [packet] := by
    rw [hop, hout] at hrun
    exact (unsubscribe_returns hread hrun).answered_once
  constructor
  · rintro ⟨hsub, hunsub⟩
    refine ⟨fun topicFilter callback hop => (subscribed hop).1 (hsub topicFilter callback hop), fun topicFilter hop hout => ?_⟩
    obtain ⟨packet, hone⟩ := unsubscribed hop hout
    have hmem : packet ∈ packetsOf .unsuback (log c) := by rw [hone]; exact List.mem_singleton_self packet
    exact ⟨packet, hmem, hunsub topicFilter hop packet hmem⟩
  · rintro hout ⟨hsub, hunsub⟩
    refine ⟨fun topicFilter callback hop => (subscribed hop).2 hout (hsub topicFilter callback hop), fun topicFilter hop packet hpacket => ?_⟩
    obtain ⟨packet', hone⟩ := unsubscribed hop hout
    obtain ⟨own, hown, hid⟩ := hunsub topicFilter hop hout
    rw [hone, List.mem_singleton] at hown hpacket
    rw [hpacket, ← hown]
    exact hid

namespace Wire

theorem start_unique (pieces : List Bytes) : Unique (start pieces).self.messageHandlers := by
  rintro (_ | _ | i) j f hi _
  · exact nomatch hi
  · exact nomatch hi
  · exact nomatch hi

/-- `subscribe`, and its SUBACK with one code. -/
def subscribeCall (code : UInt8) : ClientCall Script Nat :=
  ((calls [connack ++ [144, 3, 0, 1, code]] [connectOp true, .subscribe [97] 1 (some 5)]).1[1]?).getD ⟨.disconnect, start [], 0, start []⟩

theorem subscribe_granted : (subscribeCall 1).out = success ∧ Agrees (subscribeCall 1) := by
  have hmem : subscribeCall 1 ∈ (calls [connack ++ [144, 3, 0, 1, 1]] [connectOp true, .subscribe [97] 1 (some 5)]).1 :=
    List.mem_of_getElem? (i := 1) rfl
  refine ⟨by decide, (agrees_iff reads (start_unique _) (calls_run (by decide)) _ hmem).1 ⟨fun f cb hop => ⟨fun packet hpacket => ?_, ?_⟩, ?_⟩⟩
  · rw [show packetsOf .suback (log (subscribeCall 1)) = [[144, 3, 0, 1, 1]] by decide, List.mem_singleton] at hpacket
    subst hpacket
    exact ⟨1, by decide, by decide⟩
  · obtain ⟨rfl, rfl⟩ := Prod.mk.inj (Option.some.inj (show some ([97], some (.method 5 .messageHandler)) = some (f, cb) from hop))
    exact fun _ hf => nomatch hf
  · exact fun _ hop => nomatch hop

/-- The broker refuses, and `subscribe` reports success. -/
theorem subscribe_refused : ¬ ∀ cs s', Prog.Calls (ClientOp.run platform true) (start [connack ++ [144, 3, 0, 1, 128]]) cs s' →
    ∀ c ∈ cs, Agrees c := by
  intro h
  have hmem : subscribeCall 128 ∈ (calls [connack ++ [144, 3, 0, 1, 128]] [connectOp true, .subscribe [97] 1 (some 5)]).1 :=
    List.mem_of_getElem? (i := 1) rfl
  obtain ⟨packet, hpacket, hgrants⟩ := ((h _ _ (calls_run (by decide)) _ hmem).1 [97] (some (.method 5 .messageHandler)) rfl).granted (by decide)
  rw [show packetsOf .suback (log (subscribeCall 128)) = [[144, 3, 0, 1, 128]] by decide, List.mem_singleton] at hpacket
  subst hpacket
  obtain ⟨granted, hg, hdec⟩ := hgrants
  have hcode : ([128] : List Int) = [granted] := congrArg MQTTPacket.Suback.grantedQoSs (Option.some.inj hdec)
  rw [← List.head_eq_of_cons_eq hcode] at hg
  exact absurd hg (by decide)

end Wire

end MQTTClient

end FEmbed
