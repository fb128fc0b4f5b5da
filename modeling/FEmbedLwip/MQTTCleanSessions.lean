/-
What of a session is left to the next one.

A session is cleaned when it is closed, if it was opened with `cleansession`.
That the next one is to be clean is not looked at: it is, where the sessions
before have left nothing, or what they left has been cleaned away since.
-/
import FEmbedLwip.MQTTConnects

namespace FEmbed

open Live
open Relation (ReflTransGen)

/-- Nothing is recorded. -/
def SessionState.Empty (left : SessionState) : Prop :=
  (∀ f ∈ left.topicFilters, f = none) ∧ left.inflightMsgid = 0 ∧ ∀ id ∈ left.incomingQoS2messages, id = 0

instance (left : SessionState) : Decidable left.Empty := inferInstanceAs (Decidable (_ ∧ _ ∧ _))

namespace MQTTClient

variable {σ T : Type} {p : MQTTPlatform σ T} {charSigned : Bool}

/-! ## The ends of sessions -/

/-- A session is cleaned or closed. -/
def Ends : MQTTEvent σ → Prop
  | .cleaned => True
  | .closed _ => True
  | _ => False

/-- No session has left anything that was not cleaned away since. -/
def Swept (log : List (MQTTEvent σ)) : Prop :=
  ∀ before left after, log = before ++ .closed left :: after → left.Empty ∨ .cleaned ∈ after

/-- What a session that is closed has left. -/
def MQTTEvent.left : MQTTEvent σ → Option SessionState
  | .closed left => some left
  | _ => none

theorem swept_cons {ev : MQTTEvent σ} {log : List (MQTTEvent σ)} :
    Swept (ev :: log) ↔ (∀ left ∈ MQTTEvent.left ev, left.Empty ∨ log.any isCleaned) ∧ Swept log := by
  have hcleaned : log.any isCleaned ↔ .cleaned ∈ log := by
    rw [List.any_eq_true]
    constructor
    · rintro ⟨ev, hev, hcleaned⟩
      cases ev <;> first | exact hev | exact nomatch hcleaned
    · exact fun h => ⟨_, h, rfl⟩
  rw [hcleaned]
  constructor
  · intro h
    refine ⟨fun left hleft => ?_, fun before left after heq => h (ev :: before) left after (by rw [heq]; rfl)⟩
    cases ev with
    | closed left' =>
      obtain rfl := Option.some.inj hleft
      exact h [] left' log rfl
    | _ => exact nomatch hleft
  · rintro ⟨hfirst, hrest⟩ before left after heq
    cases before with
    | nil =>
      obtain ⟨rfl, rfl⟩ := List.cons.inj heq
      exact hfirst left rfl
    | cons _ before =>
      obtain ⟨_, rfl⟩ := List.cons.inj heq
      exact hrest before left after rfl

instance decidableSwept : (log : List (MQTTEvent σ)) → Decidable (Swept log)
  | [] => isTrue fun before _ _ h => absurd h (by simp)
  | ev :: log =>
    have := decidableSwept log
    decidable_of_iff _ (swept_cons : Swept (ev :: log) ↔ _).symm

theorem Swept.append_iff {log evs : List (MQTTEvent σ)} (hevs : ∀ ev ∈ evs, ¬ Ends ev) : Swept (log ++ evs) ↔ Swept log := by
  constructor
  · rintro h before left after rfl
    rcases h before left (after ++ evs) (by rw [List.append_assoc, List.cons_append]) with h | h
    · exact .inl h
    · exact .inr ((List.mem_append.mp h).resolve_right fun hmem => hevs _ hmem trivial)
  · intro h before left after heq
    rcases List.append_eq_append_iff.mp heq with ⟨mid, rfl, hevs'⟩ | ⟨mid, hlog, hafter⟩
    · exact absurd trivial (hevs (.closed left) (by rw [hevs']; simp))
    · cases mid with
      | nil => exact absurd trivial (hevs (.closed left) (by rw [← List.nil_append evs, ← hafter]; exact .head _))
      | cons ev mid =>
        obtain ⟨rfl, rfl⟩ := List.cons.inj hafter
        rcases h before left mid hlog with h | h
        · exact .inl h
        · exact .inr (List.mem_append_left _ h)

/-- A message with QoS 2 was delivered, and no session has ended since. -/
def DeliveredSince (id : Nat) (log : List (MQTTEvent σ)) : Prop :=
  ∃ before topicName msg after, log = before ++ .delivered topicName msg :: after ∧ msg.qos = 2 ∧ msg.id = id ∧
    ∀ ev ∈ after, ¬ Ends ev

theorem DeliveredSince.append {id : Nat} {log evs : List (MQTTEvent σ)} (h : DeliveredSince id log)
    (hevs : ∀ ev ∈ evs, ¬ Ends ev) : DeliveredSince id (log ++ evs) := by
  obtain ⟨before, topicName, msg, after, rfl, hqos, hid, hafter⟩ := h
  refine ⟨before, topicName, msg, after ++ evs, by rw [List.append_assoc, List.cons_append], hqos, hid, fun ev hev => ?_⟩
  rcases List.mem_append.mp hev with hev | hev
  · exact hafter ev hev
  · exact hevs ev hev

theorem DeliveredSince.of_mem {log evs : List (MQTTEvent σ)} {topicName : MQTTLenString} {msg : Message}
    (h : .delivered topicName msg ∈ evs) (hqos : msg.qos = 2) (hevs : ∀ ev ∈ evs, ¬ Ends ev) :
    DeliveredSince msg.id (log ++ evs) := by
  obtain ⟨before, after, rfl⟩ := List.append_of_mem h
  exact ⟨log ++ before, topicName, msg, after, (List.append_assoc ..).symm, hqos, rfl, fun ev hev => hevs ev (by simp [hev])⟩

/-! ## What a step leaves -/

/-- The filters of a client. -/
def topicFilters (c : MQTTClient σ T) : List (Option Bytes) := c.messageHandlers.map (·.topicFilter)

/-- No session ends. Ids are recorded with a delivery, and filters as they are allowed to. -/
structure Quiet (allowed : Bytes → Prop) (s s' : Live σ (MQTTClient σ T)) : Prop where
  log : ∃ evs, s'.self.events = s.self.events ++ evs ∧ (∀ ev ∈ evs, ¬ Ends ev) ∧
    ∀ id ∈ s'.self.incomingQoS2messages, id ≠ 0 → id ∈ s.self.incomingQoS2messages ∨
      ∃ topicName msg, .delivered topicName msg ∈ evs ∧ msg.qos = 2 ∧ msg.id = id
  handlers : ∀ f, some f ∈ topicFilters s'.self → some f ∈ topicFilters s.self ∨ allowed f
  inflight : s'.self.isconnected = false →
    s.self.isconnected = false ∧ (s'.self.inflightMsgid = 0 ∨ s'.self.inflightMsgid = s.self.inflightMsgid)

theorem Quiet.of_events {allowed : Bytes → Prop} {s s' : Live σ (MQTTClient σ T)} {evs : List (MQTTEvent σ)}
    (hev : s'.self.events = s.self.events ++ evs) (hevs : ∀ ev ∈ evs, ¬ Ends ev)
    (hids : s'.self.incomingQoS2messages = s.self.incomingQoS2messages)
    (handlers : ∀ f, some f ∈ topicFilters s'.self → some f ∈ topicFilters s.self ∨ allowed f)
    (inflight : s'.self.isconnected = false →
      s.self.isconnected = false ∧ (s'.self.inflightMsgid = 0 ∨ s'.self.inflightMsgid = s.self.inflightMsgid)) :
    Quiet allowed s s' :=
  ⟨⟨evs, hev, hevs, fun _ hid _ => .inl (hids ▸ hid)⟩, handlers, inflight⟩

theorem mem_of_replaceFirst {old new : Nat} {ids ids' : List Nat} (h : replaceFirst old new ids = some ids') :
    ∀ id ∈ ids', id = new ∨ id ∈ ids := by
  induction ids generalizing ids' with
  | nil => exact nomatch h
  | cons i ids ih =>
    rw [replaceFirst] at h
    split at h
    · obtain rfl := Option.some.inj h
      intro id hid
      rcases List.mem_cons.mp hid with rfl | hid
      · exact .inl rfl
      · exact .inr (.tail _ hid)
    · obtain ⟨ids'', hids, rfl⟩ := Option.map_eq_some_iff.mp h
      intro id hid
      rcases List.mem_cons.mp hid with rfl | hid
      · exact .inr (.head _)
      · exact (ih hids id hid).imp_right (.tail _)

theorem Taken.quiet {topicName : MQTTLenString} {msg : Message} {ids ids' : List Nat} {taken : List (MQTTEvent σ)}
    (h : Taken topicName msg ids taken ids') : (∀ ev ∈ taken, ¬ Ends ev) ∧ ∀ id ∈ ids', id ≠ 0 → id ∈ ids ∨
      ∃ topicName msg, .delivered topicName msg ∈ taken ∧ msg.qos = 2 ∧ msg.id = id := by
  have delivered : ∀ ev ∈ [MQTTEvent.delivered topicName msg (σ := σ)], ¬ Ends ev := by
    intro ev hev
    obtain rfl := List.mem_singleton.mp hev
    exact id
  cases h with
  | plain => exact ⟨delivered, fun _ hid _ => .inl hid⟩
  | placed hqos _ hids =>
    refine ⟨delivered, fun id hid _ => ?_⟩
    rcases mem_of_replaceFirst hids id hid with rfl | hid
    · exact .inr ⟨topicName, msg, .head _, hqos, rfl⟩
    · exact .inl hid
  | known => exact ⟨fun _ hev => (nomatch hev), fun _ hid _ => .inl hid⟩
  | full => exact ⟨fun _ hev => (nomatch hev), fun _ hid _ => .inl hid⟩

theorem Answered.quiet {type : MsgType} {id : Nat} {acks : List (MQTTEvent σ)} {r : CycleExit} (h : Answered p type id acks r) :
    ∀ ev ∈ acks, ¬ Ends ev := by
  intro ev hev
  cases h with
  | sent =>
    obtain rfl := List.mem_singleton.mp hev
    exact fun hends => hends
  | failed => exact nomatch hev

theorem Acked.quiet {msg : Message} {acks : List (MQTTEvent σ)} {r : CycleExit} (h : Acked p msg acks r) :
    ∀ ev ∈ acks, ¬ Ends ev := by
  cases h with
  | none => exact fun _ hev => nomatch hev
  | bad => exact fun _ hev => nomatch hev
  | answered _ hans => exact hans.quiet

theorem Served.quiet {readbuf : Bytes} {ids ids' : List Nat} {code : Int} {evs : List (MQTTEvent σ)} {r : CycleExit}
    (h : Served p readbuf ids code evs ids' r) : (∀ ev ∈ evs, ¬ Ends ev) ∧ ∀ id ∈ ids', id ≠ 0 → id ∈ ids ∨
      ∃ topicName msg, .delivered topicName msg ∈ evs ∧ msg.qos = 2 ∧ msg.id = id := by
  have nothing {ids : List Nat} : ∀ id ∈ ids, id ≠ 0 → id ∈ ids ∨
      ∃ topicName msg, MQTTEvent.delivered topicName msg ∈ evs ∧ msg.qos = 2 ∧ msg.id = id := fun _ hid _ => .inl hid
  cases h with
  | idle => exact ⟨fun _ hev => (nomatch hev), nothing⟩
  | unlisted => exact ⟨fun _ hev => (nomatch hev), nothing⟩
  | unread => exact ⟨fun _ hev => (nomatch hev), nothing⟩
  | publish _ _ _ htaken hcalls hack =>
    obtain ⟨hquiet, hids⟩ := htaken.quiet
    refine ⟨fun ev hev => ?_, fun id hid hne => (hids id hid hne).imp_right ?_⟩
    · rcases List.mem_append.mp hev with hev | hev
      · exact hquiet ev hev
      rcases List.mem_append.mp hev with hev | hev
      · obtain ⟨_, _, _, rfl⟩ := hcalls ev hev
        exact fun hends => hends
      · exact hack.quiet ev hev
    · rintro ⟨topicName, msg, hmem, hmsg⟩
      exact ⟨topicName, msg, List.mem_append_left _ hmem, hmsg⟩
  | pubrec _ _ hans => exact ⟨hans.quiet, nothing⟩
  | @pubrel ack id acks r _ _ hans =>
    refine ⟨hans.quiet, fun id' hid' hne => .inl ?_⟩
    split at hid'
    · cases hfree : replaceFirst id 0 ids with
      | none => rwa [hfree] at hid'
      | some freed =>
        rw [hfree] at hid'
        exact (mem_of_replaceFirst hfree id' hid').resolve_left hne
    · exact hid'

theorem PacketRead.quiet {s u : Live σ (MQTTClient σ T)} {code : Int} {arr : List (MQTTEvent σ)} (h : PacketRead p s code arr u) :
    ∀ ev ∈ arr, ¬ Ends ev := by
  intro ev hev
  cases h with
  | nothing => exact nomatch hev
  | cutShort =>
    obtain rfl := List.mem_singleton.mp hev
    exact id
  | packet =>
    obtain rfl := List.mem_singleton.mp hev
    exact id

/-- A turn up to its end leaves the session open. -/
theorem Attended.quiet {allowed : Bytes → Prop} {s w : Live σ (MQTTClient σ T)} {code : Int} {r : CycleExit}
    (h : Attended p s code r w) : Quiet allowed s w := by
  have hst := h.left.1
  obtain @⟨arr, u, evs, ids, pings, hread, hserved, hpinged, hworked⟩ := h
  obtain ⟨_, hev, hin, _⟩ := hread.worked
  obtain ⟨hquiet, hids⟩ := hserved.quiet
  refine ⟨⟨arr ++ (evs ++ pings), by rw [hworked.events, hev, List.append_assoc], fun ev hmem => ?_, fun id hid hne => ?_⟩, ?_, ?_⟩
  · rcases List.mem_append.mp hmem with hmem | hmem
    · exact hread.quiet ev hmem
    rcases List.mem_append.mp hmem with hmem | hmem
    · exact hquiet ev hmem
    cases hpinged with
    | none => exact nomatch hmem
    | sent =>
      obtain rfl := List.mem_singleton.mp hmem
      exact fun hends => hends
  · rw [hworked.incoming] at hid
    rw [← hin]
    refine (hids id hid hne).imp_right ?_
    rintro ⟨topicName, msg, hmem, hmsg⟩
    exact ⟨topicName, msg, List.mem_append_right _ (List.mem_append_left _ hmem), hmsg⟩
  · intro f hf
    rw [topicFilters, show w.self.messageHandlers = s.self.messageHandlers from congrArg Standing.messageHandlers hst] at hf
    exact .inl hf
  · intro hcon
    exact ⟨(congrArg Standing.isconnected hst).symm.trans hcon, .inr (congrArg Standing.inflightMsgid hst)⟩

/-- The end of a session leaves nothing, or what it leaves is seen in the history. -/
theorem ended_empty (c : MQTTClient σ T) (hcon : c.isconnected ∨ c.cleansession) (hswept : Swept (ended c).events) :
    (ended c).recorded.Empty := by
  have hcleaned (c : MQTTClient σ T) : (cleaned c).recorded.Empty := by
    refine ⟨fun f hf => ?_, rfl, fun id hid => ?_⟩
    · obtain ⟨h, hh, rfl⟩ := List.mem_map.mp hf
      obtain ⟨_, _, rfl⟩ := List.mem_map.mp hh
      rfl
    · obtain ⟨_, _, rfl⟩ := List.mem_map.mp hid
      rfl
  by_cases hclean : c.cleansession = true
  · unfold ended disconnected
    rw [if_pos hclean]
    dsimp only
    split
    · exact hcleaned _
    · exact hcleaned _
  · replace hcon := hcon.resolve_right hclean
    unfold ended disconnected at hswept ⊢
    rw [if_neg hclean, if_pos hcon] at hswept ⊢
    exact (hswept c.events _ [] rfl).resolve_right (fun h => nomatch h)

/-- **A step leaves the session open, or it ends one**, which leaves nothing
where the history is swept. -/
theorem Step.quiet_or_empty {op : ClientOp} {s s' : Live σ (MQTTClient σ T)} (h : Step p op s s') :
    Quiet op.Registers s s' ∨ (Swept s'.self.events → s'.self.recorded.Empty) := by
  have silent {c : MQTTClient σ T} {e : σ} (hev : c.events = s.self.events) (hids : c.incomingQoS2messages = s.self.incomingQoS2messages)
      (handlers : ∀ f, some f ∈ topicFilters c → some f ∈ topicFilters s.self ∨ op.Registers f)
      (inflight : c.isconnected = false → s.self.isconnected = false ∧ (c.inflightMsgid = 0 ∨ c.inflightMsgid = s.self.inflightMsgid)) :
      Quiet op.Registers s ⟨c, e⟩ :=
    .of_events (show c.events = s.self.events ++ [] by rw [List.append_nil]; exact hev) (fun _ hev => by cases hev) hids handlers inflight
  have sent {c : MQTTClient σ T} {bs : Bytes} {e e' : σ} (hev : c.events = s.self.events ++ [.sent bs e])
      (hids : c.incomingQoS2messages = s.self.incomingQoS2messages) (handlers : c.messageHandlers = s.self.messageHandlers)
      (inflight : c.isconnected = false → s.self.isconnected = false ∧ (c.inflightMsgid = 0 ∨ c.inflightMsgid = s.self.inflightMsgid)) :
      Quiet op.Registers s ⟨c, e'⟩ := by
    refine .of_events hev (fun ev hmem => ?_) hids (fun f hf => .inl ?_) inflight
    · obtain rfl := List.mem_singleton.mp hmem
      exact id
    · rwa [topicFilters, handlers] at hf
  have same : ∀ f, some f ∈ topicFilters s.self → some f ∈ topicFilters s.self ∨ op.Registers f := fun _ hf => .inl hf
  have still : s.self.isconnected = false → s.self.isconnected = false ∧ (s.self.inflightMsgid = 0 ∨ s.self.inflightMsgid = s.self.inflightMsgid) :=
    fun hno => ⟨hno, .inr rfl⟩
  -- Whether a publish is recorded or not, its session is open.
  have began {id qos : Nat} {bs : Bytes} : (MQTTClient.begun s.self id qos bs).isconnected = s.self.isconnected ∧
      (MQTTClient.begun s.self id qos bs).events = s.self.events ∧
      (MQTTClient.begun s.self id qos bs).incomingQoS2messages = s.self.incomingQoS2messages ∧
      (MQTTClient.begun s.self id qos bs).messageHandlers = s.self.messageHandlers := by
    unfold MQTTClient.begun
    dsimp only
    split <;> exact ⟨rfl, rfl, rfl, rfl⟩
  cases h with
  | prepared => exact .inl (silent rfl rfl same still)
  | options => exact .inl (silent rfl rfl same still)
  | asked => exact .inl (sent rfl rfl rfl still)
  | begun _ hcon =>
    obtain ⟨hcon', hev, hids, hh⟩ := began
    exact .inl (silent hev hids (fun f hf => .inl (by rwa [topicFilters, hh] at hf))
      fun hno => absurd ((hcon'.trans hcon).symm.trans hno) (by decide))
  | published _ hcon =>
    obtain ⟨hcon', hev, hids, hh⟩ := began
    exact .inl (sent (congrArg (· ++ _) hev) hids hh fun hno => absurd ((hcon'.trans hcon).symm.trans hno) (by decide))
  | released => exact .inl (sent rfl rfl rfl still)
  | resent => exact .inl (sent rfl rfl rfl still)
  | @turn e rc _ h =>
    have quiet {c : MQTTClient σ T} {e' : σ} (h : Quiet op.Registers ⟨s.self, e⟩ ⟨c, e'⟩) : Quiet op.Registers s ⟨c, e'⟩ := ⟨h.log, h.handlers, h.inflight⟩
    cases h with
    | kept h => exact .inl (quiet h.quiet)
    | @failed _ _ _ w h =>
      rw [shut]
      by_cases hcon : w.self.isconnected
      · rw [if_pos hcon]
        exact .inr (ended_empty w.self (.inl hcon))
      · rw [if_neg hcon]
        exact .inl (quiet h.quiet)
  | acknowledged =>
    unfold MQTTClient.acknowledged
    split
    · exact .inl (silent rfl rfl same fun hno => ⟨hno, .inl rfl⟩)
    · exact .inl (silent rfl rfl same still)
  | opened => exact .inl (silent rfl rfl same fun hno => by cases hno)
  | @registered topicFilter attach rc _ hf h =>
    rcases setHandler_returns h with ⟨_, rfl, _⟩ | ⟨_, i, e, _, rfl⟩
    · exact .inl (silent rfl rfl same still)
    · refine .inl (silent rfl rfl (fun f hmem => ?_) still)
      obtain ⟨g, hg, hfg⟩ := List.mem_map.mp hmem
      obtain ⟨j, hj⟩ := List.getElem?_of_mem hg
      rw [List.getElem?_modify] at hj
      split at hj
      · obtain ⟨_, _, rfl⟩ := Option.map_eq_some_iff.mp hj
        exact .inr (Option.some.inj hfg ▸ hf)
      · exact .inl (List.mem_map.mpr ⟨g, List.mem_of_getElem? (by simpa using hj), hfg⟩)
  | removed h =>
    obtain ⟨hs, rfl, hfilters⟩ := removeHandler_filters h
    exact .inl (silent rfl rfl (fun f hf => .inl (hfilters f hf)) still)
  | defaulted => exact .inl (silent rfl rfl same still)
  | ended =>
    by_cases hends : s.self.isconnected ∨ s.self.cleansession
    · exact .inr (ended_empty s.self hends)
    · obtain ⟨hcon, hclean⟩ := not_or.mp hends
      unfold MQTTClient.ended disconnected
      rw [if_neg hclean, if_neg hcon]
      exact .inl (silent rfl rfl same fun _ => ⟨Bool.eq_false_iff.mpr hcon, .inr rfl⟩)

/-! ## What a run has recorded -/

/-- What `t` has recorded, it has recorded since the last end of a session, or
it has a filter of `s` and no session has ended. -/
structure Recorded (allowed : Bytes → Prop) (s t : Live σ (MQTTClient σ T)) : Prop where
  inflight : t.self.isconnected = false → t.self.inflightMsgid = 0
  incoming : ∀ id ∈ t.self.incomingQoS2messages, id ≠ 0 → DeliveredSince id t.self.events
  handlers : ∀ f, some f ∈ topicFilters t.self → allowed f ∨ some f ∈ topicFilters s.self ∧ ∀ ev ∈ since s t, ¬ Ends ev

theorem Recorded.of_empty {allowed : Bytes → Prop} {s t : Live σ (MQTTClient σ T)} (h : t.self.recorded.Empty) :
    Recorded allowed s t := by
  obtain ⟨hfilters, hinflight, hids⟩ := h
  exact ⟨fun _ => hinflight, fun id hid hne => absurd (hids id hid) hne, fun f hf => nomatch hfilters (some f) hf⟩

theorem Recorded.quiet {allowed : Bytes → Prop} {s t u : Live σ (MQTTClient σ T)} (h : Recorded allowed s t)
    (hst : s.self.events <+: t.self.events) (hq : Quiet allowed t u) : Recorded allowed s u := by
  obtain ⟨⟨evs, hev, hevs, hids⟩, hhandlers, hinflight⟩ := hq
  have hsince : since s u = since s t ++ evs := since_eq (by rw [hev, events_since hst, List.append_assoc])
  refine ⟨fun hcon => ?_, fun id hid hne => ?_, fun f hf => ?_⟩
  · obtain ⟨hcon', hzero | hsame⟩ := hinflight hcon
    · exact hzero
    · rw [hsame]
      exact h.inflight hcon'
  · rw [hev]
    rcases hids id hid hne with hid | ⟨topicName, msg, hmem, hqos, rfl⟩
    · exact (h.incoming id hid hne).append hevs
    · exact .of_mem hmem hqos hevs
  · rcases hhandlers f hf with hf | hf
    · refine (h.handlers f hf).imp_right fun ⟨hf, hquiet⟩ => ⟨hf, fun ev hmem => ?_⟩
      rw [hsince] at hmem
      rcases List.mem_append.mp hmem with hmem | hmem
      · exact hquiet ev hmem
      · exact hevs ev hmem
    · exact .inl hf

theorem Steps.recorded {op : ClientOp} {s t : Live σ (MQTTClient σ T)} (h : Steps p op s t)
    (hs : Swept s.self.events → Recorded op.Registers s s) : Swept t.self.events → Recorded op.Registers s t := by
  induction h with
  | refl => exact hs
  | @tail t u hsteps hstep ih =>
    intro hswept
    rcases hstep.quiet_or_empty with hq | hempty
    · obtain ⟨evs, hev, hevs, _⟩ := hq.log
      rw [hev, Swept.append_iff hevs] at hswept
      exact (ih hswept).quiet (Steps.events hsteps) hq
    · exact .of_empty (hempty hswept)

/-- A filter was registered by a call, which succeeded and has it in the table,
after the last end of a session, or by the one it ended in. -/
def RegisteredSince (topicFilter : Bytes) (past : List (ClientCall σ T)) : Prop :=
  ∃ before c after, past = before ++ c :: after ∧ (c.op.Registers topicFilter ∧ c.out = success) ∧
    some topicFilter ∈ topicFilters c.after.self ∧ ∀ c' ∈ after, ∀ ev ∈ log c', ¬ Ends ev

theorem RegisteredSince.snoc {topicFilter : Bytes} {past : List (ClientCall σ T)} (h : RegisteredSince topicFilter past)
    {c : ClientCall σ T} (hc : ∀ ev ∈ log c, ¬ Ends ev) : RegisteredSince topicFilter (past ++ [c]) := by
  obtain ⟨before, d, after, rfl, hreg, hmem, hafter⟩ := h
  refine ⟨before, d, after ++ [c], by rw [List.append_assoc, List.cons_append], hreg, hmem, fun c' hc' => ?_⟩
  rcases List.mem_append.mp hc' with hc' | hc'
  · exact hafter c' hc'
  · rw [List.mem_singleton.mp hc']
    exact hc

/-- What a client has recorded is of the time after the last end of a session. -/
structure Recent (past : List (ClientCall σ T)) (s : Live σ (MQTTClient σ T)) : Prop where
  inflight : s.self.isconnected = false → s.self.inflightMsgid = 0
  incoming : ∀ id ∈ s.self.incomingQoS2messages, id ≠ 0 → DeliveredSince id s.self.events
  handlers : ∀ f, some f ∈ topicFilters s.self → RegisteredSince f past

theorem recent (hread : Reads p) {s s' : Live σ (MQTTClient σ T)} {cs : List (ClientCall σ T)}
    (h : Prog.Calls (ClientOp.run p charSigned) s cs s') (hs : s.self.recorded.Empty) : Swept s'.self.events → Recent cs s' := by
  have hrun : Swept s'.self.events → Recent ([] ++ cs) s' := h.induct (I := fun past s => Swept s.self.events → Recent past s) ?_ fun _ => ?_
  · rwa [List.nil_append] at hrun
  · intro past c hc ih hswept
    obtain ⟨op', hregisters, hsteps⟩ := ClientOp.steps_registering hread hc
    have hrec := Steps.recorded hsteps (fun hswept => ?_) hswept
    · refine ⟨hrec.inflight, hrec.incoming, fun f hf => ?_⟩
      rcases hrec.handlers f hf with hreg | ⟨hf, hquiet⟩
      · exact ⟨past, c, [], rfl, hregisters f hreg, hf, fun _ hc' => nomatch hc'⟩
      · rw [events_since (Steps.events hsteps), Swept.append_iff hquiet] at hswept
        exact ((ih hswept).handlers f hf).snoc hquiet
    · obtain ⟨hinflight, hincoming, _⟩ := ih hswept
      refine ⟨hinflight, hincoming, fun f hf => .inr ⟨hf, ?_⟩⟩
      rw [since_self]
      exact fun _ hev => nomatch hev
  · obtain ⟨hfilters, hinflight, hids⟩ := hs
    exact ⟨fun _ => hinflight, fun id hid hne => absurd (hids id hid) hne, fun f hf => nomatch hfilters (some f) hf⟩

/-! ## Clean sessions -/

/-- Where there is no session, turns end none. -/
theorem Cycles.quiet {s s' : Live σ (MQTTClient σ T)} {rcs : List Int} (h : Cycles p s rcs s') (hcon : s.self.isconnected = false) :
    ∀ ev ∈ since s s', ¬ Ends ev := by
  induction h with
  | @nil s e =>
    rw [show since s ⟨s.self, e⟩ = [] from since_self s]
    exact fun _ hev => nomatch hev
  | @cons s e rc t rcs u hturn hrest ih =>
    have hquiet : Quiet (fun _ => False) ⟨s.self, e⟩ t := by
      cases hturn with
      | kept h => exact h.quiet
      | @failed _ _ _ w h =>
        rw [shut, if_neg (by rw [show w.self.isconnected = false from (congrArg Standing.isconnected h.left.1).trans hcon]; decide)]
        exact h.quiet
    obtain ⟨evs, hev, hevs, _⟩ := hquiet.log
    have ht := (congrArg Standing.isconnected (hturn.unconnected hcon)).trans hcon
    rw [show since s u = since ⟨s.self, e⟩ u from rfl, since_trans hturn.events hrest.events, since_eq hev]
    intro ev hmem
    rcases List.mem_append.mp hmem with hmem | hmem
    · exact hevs ev hmem
    · exact ih ht ev hmem

/-- With a call of `connect` after the calls `past`, nothing of an earlier session is there. -/
structure StartsClean (past : List (ClientCall σ T)) (c : ClientCall σ T) : Prop where
  handlers : ∀ f, some f ∈ topicFilters c.after.self → RegisteredSince f past
  inflight : c.after.self.inflightMsgid = 0
  unsent : ∀ ev ∈ log c, ¬ Sends .publish ev
  incoming : ∀ id ∈ c.after.self.incomingQoS2messages, id ≠ 0 → DeliveredSince id c.after.self.events

/-- A call of `connect` that succeeds when nothing is in flight. -/
theorem connect_quiet (hread : Reads p) {options : ConnectData} {s s' : Live σ (MQTTClient σ T)} {data : Option ConnackData}
    (h : (connect p options).Returns s (success, data) s') (hin : s.self.isconnected = false → s.self.inflightMsgid = 0) :
    s'.self.inflightMsgid = 0 ∧ ∀ ev ∈ since s s', ¬ Ends ev ∧ ¬ Sends .publish ev := by
  generalize hr : (success, data) = r at h
  cases connect_returns hread h with
  | connected => exact absurd (show success = failure from congrArg Prod.fst hr) (by decide)
  | unsent => exact absurd (show success = failure from congrArg Prod.fst hr) (by decide)
  | @sent bs l e e' rcs u rc data' rc' v hcon hbs hcycles hgreet hresend =>
    have hst := hcycles.unconnected hcon
    have hzero : u.self.inflightMsgid = 0 := (congrArg Standing.inflightMsgid hst).trans (hin hcon)
    obtain ⟨rfl, rfl⟩ : rc' = rc ∧ v = u := by
      cases hresend with
      | nothing => exact ⟨rfl, rfl⟩
      | tooLong hpos => omega
      | pubrel hpos => omega
      | publish hpos => omega
    obtain rfl : success = rc' := congrArg Prod.fst hr
    refine ⟨hzero, ?_⟩
    rw [show since s ⟨opened success v.self, v.env⟩ = since s v from rfl, since_eq (greeting_events hcycles)]
    intro ev hmem
    rcases List.mem_cons.mp hmem with rfl | hmem
    · exact ⟨id, fun hsends => absurd (hsends.symm.trans (MQTTPacket.serializeConnect_type hbs)) (by decide)⟩
    · exact ⟨hcycles.quiet hcon ev hmem, hcycles.prompted.never (by decide) rfl ev hmem⟩

/-- **A clean session starts with nothing**, after any calls, where the sessions
before have left nothing that was not cleaned away. -/
theorem startsClean (hread : Reads p) {s s' : Live σ (MQTTClient σ T)} {cs : List (ClientCall σ T)}
    (h : Prog.Calls (ClientOp.run p charSigned) s cs s') (hs : s.self.recorded.Empty) : ∀ past c rest, cs = past ++ c :: rest →
    ∀ options, c.op = .connect options → options.cleansession = true → c.out = success → Swept c.before.self.events →
      StartsClean past c := by
  rintro past c rest rfl options hop _ hout hswept
  obtain ⟨t, hpast, hrest⟩ := h.split
  cases hrest with
  | cons hc _ =>
    have hrecent := recent hread hpast hs hswept
    have hsteps := ClientOp.steps hread hc
    rw [hop] at hc hsteps
    rw [hout] at hc
    obtain ⟨data, hconnect⟩ := returns_fst hc
    obtain ⟨hinflight, hlog⟩ := connect_quiet hread hconnect hrecent.inflight
    have hafter : Swept c.after.self.events := by
      rw [events_since (Steps.events hsteps), Swept.append_iff fun ev hmem => (hlog ev hmem).1]
      exact hswept
    have hrec := Steps.recorded hsteps (fun _ => ?_) hafter
    · refine ⟨fun f hf => ?_, hinflight, fun ev hmem => (hlog ev hmem).2, hrec.incoming⟩
      rcases hrec.handlers f hf with hreg | ⟨hf, _⟩
      · exact hreg.elim
      · exact hrecent.handlers f hf
    · refine ⟨hrecent.inflight, hrecent.incoming, fun f hf => .inr ⟨hf, ?_⟩⟩
      rw [since_self]
      exact fun _ hev => nomatch hev

/-- Nothing is recorded by a client that was just constructed. -/
theorem construct_empty {s s' : Live σ (MQTTClient σ T)} (h : (construct p).Returns s () s') : s'.self.recorded.Empty := by
  rw [construct, returns_call_bind, returns_set_bind] at h
  rw [closeSession_returns.mp h]
  unfold ended disconnected cleaned recorded
  dsimp only
  split <;> exact ⟨by simp, rfl, by simp⟩

namespace Wire

/-- A handler is set and a publish is not acknowledged, the session is closed, and the client connects again. -/
def again (cleansession : Bool) : List ClientOp :=
  [connectOp cleansession, .setMessageHandler [97] (some 0), .publish [97] [1] 0 1 false, .disconnect, connectOp true]

/-- The session before was clean. -/
def cleanRun : List (ClientCall Script Nat) := (calls [connack, [], [], connack] (again true)).1

theorem clean_after_clean : StartsClean (cleanRun.take 4) (cleanRun.get ⟨4, by decide⟩) :=
  startsClean reads (calls_run (by decide)) (by decide) _ _ _ (cut (by decide)) _ rfl rfl (by decide) (by decide)

/-- The session before was not, and its publish is sent again. -/
def keptRun : List (ClientCall Script Nat) := (calls [connack, [], [], connack ++ [64, 2, 0, 1]] (again false)).1

theorem clean_after_kept : ¬ ∀ cs s', Prog.Calls (ClientOp.run platform true) (start [connack, [], [], connack ++ [64, 2, 0, 1]]) cs s' →
    ∀ past c rest, cs = past ++ c :: rest → ∀ options, c.op = .connect options → options.cleansession = true → c.out = success →
      StartsClean past c := by
  intro h
  have hrun : Prog.Calls (ClientOp.run platform true) _ keptRun _ := calls_run (by decide)
  have hclean := h _ _ hrun _ (keptRun.get ⟨4, by decide⟩) _ (cut (by decide)) _ rfl rfl (by decide)
  exact absurd hclean.unsent (by decide)

end Wire

end MQTTClient

end FEmbed
