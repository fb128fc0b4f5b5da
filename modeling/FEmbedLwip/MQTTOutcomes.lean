/-
What a success of `publish`, `subscribe`, `unsubscribe` and `yield` says.

A wait ends with the first packet of its type. Its id is never compared, and
the turns before it may have shut the session with a code that is not negative:
so a success is to be believed only where no such packet came.
-/
import FEmbedLwip.MQTTRequests

namespace FEmbed

open Live
open Prog (Guarantee Guarantees)

namespace MQTTClient

variable {σ T : Type} {p : MQTTPlatform σ T} {charSigned : Bool}

/-! ## Calls -/

/-- What happened in a call. -/
def log (c : ClientCall σ T) : List (MQTTEvent σ) := since c.before c.after

/-- The packets of a type that were received. -/
def packetsOf (type : MsgType) (log : List (MQTTEvent σ)) : List Bytes :=
  (arrivals log).filterMap fun
    | .packet bs => if packetType bs = type.code then some bs else none
    | .cutShort => none

theorem packetsOf_append (type : MsgType) (log log' : List (MQTTEvent σ)) :
    packetsOf type (log ++ log') = packetsOf type log ++ packetsOf type log' := by
  rw [packetsOf, arrivals_append, List.filterMap_append]
  rfl

/-- A wait ends with the only packet it is for. -/
theorem Awaited.packets {s u : Live σ (MQTTClient σ T)} {type : MsgType} {packet : Bytes} (h : Awaited s type packet u) :
    packetsOf type (since s u) = [packet] := by
  obtain ⟨as, harr, hno⟩ := h.first
  rw [packetsOf, harr, List.filterMap_append, List.filterMap_eq_nil_iff.mpr, List.nil_append]
  · simp [h.ofType]
  · intro a ha
    cases a with
    | packet bs => exact if_neg (hno _ ha)
    | cutShort => rfl

/-- Nothing was heard of the broker, and the handlers are what they were. -/
structure Unheard (s s' : Live σ (MQTTClient σ T)) : Prop where
  log : ∃ evs, s'.self.events = s.self.events ++ evs ∧ arrivals evs = []
  connected : s'.self.isconnected = s.self.isconnected
  cleansession : s'.self.cleansession = s.self.cleansession
  handlers : s'.self.messageHandlers = s.self.messageHandlers
  default : s'.self.defaultMessageHandler = s.self.defaultMessageHandler

theorem Unheard.same {s s' : Live σ (MQTTClient σ T)} (hev : s'.self.events = s.self.events)
    (hcon : s'.self.isconnected = s.self.isconnected) (hclean : s'.self.cleansession = s.self.cleansession)
    (hh : s'.self.messageHandlers = s.self.messageHandlers)
    (hd : s'.self.defaultMessageHandler = s.self.defaultMessageHandler) : Unheard s s' :=
  ⟨⟨[], by rw [hev, List.append_nil], rfl⟩, hcon, hclean, hh, hd⟩

theorem Unheard.trans {s t u : Live σ (MQTTClient σ T)} (h : Unheard s t) (h' : Unheard t u) : Unheard s u := by
  obtain ⟨⟨evs, hev, harr⟩, hcon, hclean, hh, hd⟩ := h
  obtain ⟨⟨evs', hev', harr'⟩, hcon', hclean', hh', hd'⟩ := h'
  refine ⟨⟨evs ++ evs', by rw [hev', hev, List.append_assoc], ?_⟩, hcon'.trans hcon, hclean'.trans hclean, hh'.trans hh, hd'.trans hd⟩
  rw [arrivals_append, harr, harr', List.append_nil]

theorem Unheard.arrivals {s s' : Live σ (MQTTClient σ T)} (h : Unheard s s') : MQTTClient.arrivals (since s s') = [] := by
  obtain ⟨evs, hev, harr⟩ := h.log
  rw [since_eq hev, harr]

theorem unheard_sending (s : Live σ (MQTTClient σ T)) (e : σ) : Unheard s (afterSending s e) :=
  ⟨⟨_, rfl, rfl⟩, rfl, rfl, rfl, rfl⟩

theorem unheard_asked (s : Live σ (MQTTClient σ T)) (bs : Bytes) (e : σ) : Unheard s (asked s bs e) :=
  ⟨⟨_, rfl, rfl⟩, rfl, rfl, rfl, rfl⟩

theorem unheard_begun (s : Live σ (MQTTClient σ T)) (id qos : Nat) (bs : Bytes) (e : σ) : Unheard s ⟨begun s.self id qos bs, e⟩ := by
  unfold begun
  dsimp only
  split
  · exact .same rfl rfl rfl rfl rfl
  · exact .same rfl rfl rfl rfl rfl

theorem unheard_acknowledged (s : Live σ (MQTTClient σ T)) (id : Nat) (e : σ) : Unheard s ⟨acknowledged id s.self, e⟩ := by
  unfold acknowledged
  split
  · exact .same rfl rfl rfl rfl rfl
  · exact .same rfl rfl rfl rfl rfl

/-- What arrived in a wait is what arrived in all. -/
theorem arrivals_around {s t u v : Live σ (MQTTClient σ T)} {rcs : List Int} (h : Unheard s t) (hp : PassedAll t rcs u)
    (h' : Unheard u v) : arrivals (since s v) = arrivals (since t u) := by
  obtain ⟨evs, hev, harr⟩ := h.log
  obtain ⟨evs', hev', harr'⟩ := h'.log
  have hall : v.self.events = s.self.events ++ (evs ++ (since t u ++ evs')) := by
    rw [hev', hp.events, hev, List.append_assoc, List.append_assoc]
  rw [since_eq hall, arrivals_append, arrivals_append, harr, harr', List.append_nil, List.nil_append]

/-! ## Acknowledgements -/

/-- The id that an acknowledgement carries. -/
def ackId (packet : Bytes) : Option Nat := (MQTTPacket.deserializeAck packet).bind (·.packetid)

/-- A `publish` that reports success was acknowledged with the id it took. -/
def OwnAck (p : MQTTPlatform σ T) (c : ClientCall σ T) : Prop :=
  ∀ topicName payload id₀ qos retained type, c.op = .publish topicName payload id₀ qos retained → awaited qos = some type →
    c.out = success → ∃ id, (publishId p topicName payload id₀ qos retained).Returns c.before (success, id) c.after ∧
      ∃ packet ∈ packetsOf type (log c), ackId packet = some id

/-- Of the packets of a type, none with another id comes before the first with this one. -/
def OwnFirst (type : MsgType) (id : Nat) (log : List (MQTTEvent σ)) : Prop :=
  ∀ before packet after, packetsOf type log = before ++ packet :: after → ackId packet ≠ some id →
    ∃ own ∈ before, ackId own = some id

/-- What arrives during a `publish` acknowledges no other one before it. -/
def NoStaleAck (c : ClientCall σ T) : Prop :=
  ∀ topicName payload id₀ qos retained type, c.op = .publish topicName payload id₀ qos retained → awaited qos = some type →
    OwnFirst type (publishedId c.before.self id₀ qos) (log c)

theorem OwnFirst.singleton {type : MsgType} {id : Nat} {log : List (MQTTEvent σ)} {packet : Bytes}
    (hone : packetsOf type log = [packet]) : OwnFirst type id log ↔ ackId packet = some id := by
  constructor
  · intro h
    by_contra hother
    obtain ⟨own, hown, _⟩ := h [] packet [] hone hother
    exact nomatch hown
  · intro hid before packet' after hsplit hother
    rw [hone] at hsplit
    cases before with
    | nil =>
      obtain rfl := (List.cons.inj hsplit).1
      exact absurd hid hother
    | cons own before => exact absurd (List.cons.inj hsplit).2.symm (by simp)

/-- A publish that reports success was acknowledged, once. -/
theorem publishId_acked (hread : Reads p) {topicName payload : Bytes} {id₀ qos : Nat} {retained : Bool} {type : MsgType}
    (htype : awaited qos = some type) {id : Nat} {s s' : Live σ (MQTTClient σ T)}
    (h : (publishId p topicName payload id₀ qos retained).Returns s (success, id) s') :
    id = publishedId s.self id₀ qos ∧ ∃ packet, packetsOf type (since s s') = [packet] := by
  generalize hr : (success, id) = r at h
  cases publishId_returns hread h with
  | unconnected => exact absurd (show success = failure from congrArg Prod.fst hr) (by decide)
  | tooLong => exact absurd (show success = failure from congrArg Prod.fst hr) (by decide)
  | @begun bs e rc _ hcon hbs hdone =>
    obtain rfl : success = rc := congrArg Prod.fst hr
    refine ⟨congrArg Prod.snd hr, ?_⟩
    generalize hrc : success = rc at hdone
    cases hdone with
    | unsent => exact absurd hrc (by decide)
    | sent hqos => exact nomatch htype.symm.trans hqos
    | @waited e' type' rcs u _ _ hqos hcycles hdone =>
      obtain rfl := Option.some.inj (htype.symm.trans hqos)
      cases hdone with
      | failed => exact absurd hrc (by decide)
      | @acked packet ack aid e'' hwait hack hid =>
        have hbegin := (unheard_begun s (publishedId s.self id₀ qos) qos bs e).trans (unheard_sending _ e')
        obtain ⟨rcs, hp⟩ := hwait.passed
        refine ⟨packet, ?_⟩
        rw [packetsOf, arrivals_around hbegin hp (unheard_acknowledged u aid e'')]
        exact hwait.packets

/-- What a `publish` with a QoS that reports success has heard. -/
theorem publish_acked (hread : Reads p) {c : ClientCall σ T} (hrun : (c.op.run p charSigned).Returns c.before c.out c.after)
    {topicName payload : Bytes} {id₀ qos : Nat} {retained : Bool} {type : MsgType}
    (hop : c.op = .publish topicName payload id₀ qos retained) (htype : awaited qos = some type) (hout : c.out = success) :
    (publishId p topicName payload id₀ qos retained).Returns c.before (success, publishedId c.before.self id₀ qos) c.after ∧
      ∃ packet, packetsOf type (log c) = [packet] := by
  rw [hop, hout] at hrun
  obtain ⟨id, hpub⟩ := returns_fst hrun
  obtain ⟨rfl, hone⟩ := publishId_acked hread htype hpub
  exact ⟨hpub, hone⟩

/-- **A publish is confirmed by its own acknowledgement**, in any run, where no
other of the type comes before it during the call. Of the calls that report
success, it is so for no others. -/
theorem ownAck_iff (hread : Reads p) {s s' : Live σ (MQTTClient σ T)} {cs : List (ClientCall σ T)}
    (h : Prog.Calls (ClientOp.run p charSigned) s cs s') :
    ∀ c ∈ cs, (NoStaleAck c → OwnAck p c) ∧ (c.out = success → OwnAck p c → NoStaleAck c) := by
  intro c hc
  have hrun := h.mem hc
  constructor
  · intro hnone topicName payload id₀ qos retained type hop htype hout
    obtain ⟨hpub, packet, hone⟩ := publish_acked hread hrun hop htype hout
    have hown := hnone topicName payload id₀ qos retained type hop htype
    rw [OwnFirst.singleton hone] at hown
    exact ⟨_, hpub, packet, by rw [hone]; exact List.mem_singleton_self packet, hown⟩
  · intro hout hown topicName payload id₀ qos retained type hop htype
    obtain ⟨hpub, packet, hone⟩ := publish_acked hread hrun hop htype hout
    obtain ⟨id, hpub', own, hmem, hid⟩ := hown topicName payload id₀ qos retained type hop htype hout
    obtain rfl : id = publishedId c.before.self id₀ qos := congrArg Prod.snd (hpub'.det hpub).1
    rw [hone, List.mem_singleton] at hmem
    rw [OwnFirst.singleton hone, ← hmem]
    exact hid

namespace Wire

/-- The CONNACK of an accepted connection. -/
def connack : Bytes := [32, 2, 0, 0]

/-- Two publishes with QoS 1, whose ids are 1 and 2. -/
def publishTwo : List ClientOp := [connectOp true, .publish [97] [1] 0 1 false, .publish [97] [2] 0 1 false]

/-- The first publish gives up, and its PUBACK comes while the client yields. A
message and its own PUBACK come to the second. -/
def inTime : ClientCall Script Nat :=
  (calls [connack, [], [64, 2, 0, 1], [], [48, 4, 0, 1, 97, 9, 64, 2, 0, 2]]
    [connectOp true, .publish [97] [1] 0 1 false, .yield_ 2, .publish [97] [2] 0 1 false]).1.get ⟨3, by decide⟩

theorem inTime_fresh : NoStaleAck inTime := by
  intro topicName payload id₀ qos retained type hop htype
  obtain ⟨rfl, rfl, rfl, rfl, rfl⟩ := ClientOp.publish.inj hop
  obtain rfl := Option.some.inj htype
  exact (OwnFirst.singleton (show packetsOf .puback (log inTime) = [[64, 2, 0, 2]] by decide)).mpr (by decide)

theorem acked_inTime : inTime.out = success ∧ OwnAck platform inTime :=
  ⟨by decide, (ownAck_iff reads (calls_run (by decide)) inTime (List.get_mem _ _)).1 inTime_fresh⟩

/-- The first publish gives up before its PUBACK comes, which confirms the second. -/
def second : ClientCall Script Nat := (calls [connack, [], [64, 2, 0, 1]] publishTwo).1.get ⟨2, by decide⟩

theorem acked_late : ¬ ∀ cs s', Prog.Calls (ClientOp.run platform true) (start [connack, [], [64, 2, 0, 1]]) cs s' →
    ∀ c ∈ cs, OwnAck platform c := by
  intro h
  obtain ⟨id, hpub, packet, hpacket, hid⟩ := h _ (calls _ publishTwo).2 (calls_run (by decide)) second (List.get_mem _ _)
    [97] [2] 0 1 false .puback (by decide) (by decide) (by decide)
  have htwo := Prog.Returns.of_run (x := publishId platform [97] [2] 0 1 false) (s := second.before) (a := (success, 2)) 12 (by decide)
  obtain rfl : id = 2 := congrArg Prod.snd (hpub.det htwo).1
  rw [show packetsOf .puback (log second) = [[64, 2, 0, 1]] by decide, List.mem_singleton] at hpacket
  subst hpacket
  exact absurd hid (by decide)

end Wire

/-! ## Sessions that last -/

/-- The entries of other filters are what they were. -/
def OthersSame (topicFilter : Option Bytes) (hs hs' : List MessageHandler) : Prop :=
  ∀ (i : Nat) (h : MessageHandler), h.topicFilter ≠ none → h.topicFilter ≠ topicFilter → (hs'[i]? = some h ↔ hs[i]? = some h)

theorem OthersSame.modify {topicFilter : Bytes} {hs : List MessageHandler} {i : Nat} {g : MessageHandler → MessageHandler}
    (hi : filterAt hs i = none ∨ filterAt hs i = some topicFilter)
    (hg : ∀ h, (g h).topicFilter = none ∨ (g h).topicFilter = some topicFilter) :
    OthersSame (some topicFilter) hs (hs.modify i g) := by
  intro j h hsome hother
  rw [List.getElem?_modify]
  split
  · rename_i hij
    subst hij
    constructor
    · intro hj
      obtain ⟨h₀, _, rfl⟩ := Option.map_eq_some_iff.mp hj
      exact absurd (hg h₀) (by simp [hsome, hother])
    · intro hj
      rw [filterAt, hj] at hi
      exact absurd hi (by simp [hsome, hother])
  · simp

/-- What `setMessageHandler` leaves alone. -/
theorem setHandler_others {topicFilter : Bytes} {attach : Option (FP → FP)} {s : Live σ (MQTTClient σ T)} {rc : Int} {s'}
    (h : (setHandler p topicFilter attach).Returns s rc s') :
    s'.self.events = s.self.events ∧ s'.self.isconnected = s.self.isconnected ∧
      s'.self.defaultMessageHandler = s.self.defaultMessageHandler ∧
      OthersSame (some topicFilter) s.self.messageHandlers s'.self.messageHandlers := by
  have same : OthersSame (some topicFilter) s.self.messageHandlers s.self.messageHandlers := fun _ _ _ _ => Iff.rfl
  cases attach with
  | none =>
    rcases removeHandler_returns h with ⟨_, rfl, _⟩ | ⟨_, i, hi, rfl⟩
    · exact ⟨rfl, rfl, rfl, same⟩
    · exact ⟨rfl, rfl, rfl, .modify (.inr (filterAt_of_slotOf hi)) fun _ => .inl rfl⟩
  | some attach =>
    rcases setHandler_returns h with ⟨_, rfl, _⟩ | ⟨_, i, e, hi, rfl⟩
    · exact ⟨rfl, rfl, rfl, same⟩
    · refine ⟨rfl, rfl, rfl, .modify ?_ fun _ => .inr rfl⟩
      rcases Option.or_eq_some_iff.mp hi with hi | ⟨_, hi⟩
      · exact .inr (filterAt_of_slotOf hi)
      · exact .inl (filterAt_of_slotOf hi)

/-- The session is still open, and its handlers but one are what they were. -/
structure Lasts (topicFilter : Option Bytes) (s s' : Live σ (MQTTClient σ T)) : Prop where
  connected : s'.self.isconnected
  handlers : OthersSame topicFilter s.self.messageHandlers s'.self.messageHandlers
  default : s'.self.defaultMessageHandler = s.self.defaultMessageHandler

/-- Something was sent, turns passed, and an entry was perhaps changed. -/
theorem lasts_iff {topicFilter : Option Bytes} {s t u v : Live σ (MQTTClient σ T)} {rcs : List Int} (hcon : s.self.isconnected)
    (h : Unheard s t) (hp : PassedAll t rcs u) (hev : v.self.events = u.self.events)
    (hcon' : v.self.isconnected = u.self.isconnected) (hd' : v.self.defaultMessageHandler = u.self.defaultMessageHandler)
    (hh' : OthersSame topicFilter u.self.messageHandlers v.self.messageHandlers) :
    Lasts topicFilter s v ↔ ∀ a ∈ arrivals (since s v), listed a.code := by
  have harr : arrivals (since s v) = arrivals (since t u) := by
    obtain ⟨evs, hevs, hnone⟩ := h.log
    have hall : v.self.events = s.self.events ++ (evs ++ since t u) := by rw [hev, hp.events, hevs, List.append_assoc]
    rw [since_eq hall, arrivals_append, hnone, List.nil_append]
  rw [harr]
  constructor
  · intro hlast
    exact (hp.connected.mp (hcon' ▸ hlast.connected)).2
  · intro hlisted
    have hst := hp.standing hlisted
    refine ⟨?_, ?_, ?_⟩
    · rw [hcon']
      exact hp.connected.mpr ⟨h.connected ▸ hcon, hlisted⟩
    · rw [← h.handlers, ← show u.self.messageHandlers = t.self.messageHandlers from congrArg Standing.messageHandlers hst]
      exact hh'
    · rw [hd', show u.self.defaultMessageHandler = t.self.defaultMessageHandler from congrArg Standing.defaultMessageHandler hst]
      exact h.default

/-- The operations that report on the session, with the filter that they set or remove. -/
inductive Reports : ClientOp → Option Bytes → Prop
  | yield_ {timeoutMs} : Reports (.yield_ timeoutMs) none
  | publish {topicName payload id qos retained} : Reports (.publish topicName payload id qos retained) none
  | subscribe {topicFilter qos callback} : Reports (.subscribe topicFilter qos callback) (some topicFilter)
  | subscribeFunction {topicFilter qos funcCb} : Reports (.subscribeFunction topicFilter qos funcCb) (some topicFilter)
  | unsubscribe {topicFilter} : Reports (.unsubscribe topicFilter) (some topicFilter)

theorem Unheard.refl (s : Live σ (MQTTClient σ T)) : Unheard s s := .same rfl rfl rfl rfl rfl

theorem publish_lasts (hread : Reads p) {topicName payload : Bytes} {id₀ qos : Nat} {retained : Bool} {id : Nat}
    {s s' : Live σ (MQTTClient σ T)} (hcon : s.self.isconnected)
    (h : (publishId p topicName payload id₀ qos retained).Returns s (success, id) s') :
    Lasts none s s' ↔ ∀ a ∈ arrivals (since s s'), listed a.code := by
  have same {u v : Live σ (MQTTClient σ T)} (h : v.self.messageHandlers = u.self.messageHandlers) :
      OthersSame none u.self.messageHandlers v.self.messageHandlers := by
    rw [h]
    exact fun _ _ _ _ => Iff.rfl
  generalize hr : (success, id) = r at h
  cases publishId_returns hread h with
  | unconnected => exact absurd (show success = failure from congrArg Prod.fst hr) (by decide)
  | tooLong => exact absurd (show success = failure from congrArg Prod.fst hr) (by decide)
  | @begun bs e rc _ _ hbs hdone =>
    obtain rfl : success = rc := congrArg Prod.fst hr
    generalize hrc : success = rc at hdone
    have hbegin {e'} := (unheard_begun s (publishedId s.self id₀ qos) qos bs e).trans (unheard_sending _ e')
    cases hdone with
    | unsent => exact absurd hrc (by decide)
    | sent hqos => exact lasts_iff hcon hbegin (.refl _) rfl rfl rfl (same rfl)
    | @waited e' type rcs u _ _ hqos hcycles hdone =>
      cases hdone with
      | failed => exact absurd hrc (by decide)
      | @acked packet ack aid e'' hwait hack hid =>
        obtain ⟨rcs, hp⟩ := hwait.passed
        have hack := unheard_acknowledged u aid e''
        refine lasts_iff hcon hbegin hp ?_ hack.connected hack.default (same hack.handlers)
        unfold acknowledged
        split
        · rfl
        · rfl

theorem subscribe_lasts (hread : Reads p) {topicFilter : Bytes} {qos : Nat} {attach : Option (FP → FP)} {granted : Option Int}
    {s s' : Live σ (MQTTClient σ T)} (hcon : s.self.isconnected)
    (h : (subscribeTo p charSigned topicFilter qos (setHandler p topicFilter attach)).Returns s (success, granted) s') :
    Lasts (some topicFilter) s s' ↔ ∀ a ∈ arrivals (since s s'), listed a.code := by
  generalize hr : (success, granted) = r at h
  cases subscribeTo_returns hread h with
  | unasked => exact absurd (show success = failure from congrArg Prod.fst hr) (by decide)
  | unanswered => exact absurd (show success = failure from congrArg Prod.fst hr) (by decide)
  | @answered bs e rcs packet u ack granted r _ _ hbs hcycles hwait hack hone hgranted hr' =>
    obtain ⟨rcs, hp⟩ := hwait.passed
    have hbegin := unheard_asked s bs e
    split at hr'
    · obtain ⟨hev, hcon', hd, hothers⟩ := setHandler_others hr'
      exact lasts_iff hcon hbegin hp hev hcon' hd hothers
    · obtain ⟨_, rfl⟩ := hr'
      exact lasts_iff hcon hbegin hp rfl rfl rfl fun _ _ _ _ => Iff.rfl

theorem unsubscribe_lasts (hread : Reads p) {topicFilter : Bytes} {s s' : Live σ (MQTTClient σ T)} (hcon : s.self.isconnected)
    (h : (unsubscribe p topicFilter).Returns s success s') :
    Lasts (some topicFilter) s s' ↔ ∀ a ∈ arrivals (since s s'), listed a.code := by
  generalize hr : success = rc at h
  cases unsubscribe_returns hread h with
  | unasked => exact absurd hr (by decide)
  | unanswered => exact absurd hr (by decide)
  | @answered bs e rcs packet u ack _ _ hbs hcycles hwait hack hs' =>
    obtain ⟨rcs, hp⟩ := hwait.passed
    have hbegin := unheard_asked s bs e
    split at hs'
    · obtain ⟨rc, hset⟩ := hs'
      obtain ⟨hev, hcon', hd, hothers⟩ := setHandler_others hset
      exact lasts_iff hcon hbegin hp hev hcon' hd hothers
    · subst hs'
      exact lasts_iff hcon hbegin hp rfl rfl rfl fun _ _ _ _ => Iff.rfl

theorem yield_lasts (hread : Reads p) {timeoutMs : Nat} {s s' : Live σ (MQTTClient σ T)} (hcon : s.self.isconnected)
    (h : (yield_ p timeoutMs).Returns s success s') : Lasts none s s' ↔ ∀ a ∈ arrivals (since s s'), listed a.code := by
  obtain ⟨rcs, hcycles, hok⟩ := yield_returns hread h
  exact lasts_iff hcon (.refl s) (hcycles.passed (hok rfl)) rfl rfl rfl fun _ _ _ _ => Iff.rfl

/-- **A success leaves the session open**, in any run, if and only if every packet
of the call came whole and was of a type that `cycle` knows. -/
theorem lasts_of_success_iff (hread : Reads p) {s s' : Live σ (MQTTClient σ T)} {cs : List (ClientCall σ T)}
    (h : Prog.Calls (ClientOp.run p charSigned) s cs s') : ∀ c ∈ cs, ∀ topicFilter, Reports c.op topicFilter →
    c.before.self.isconnected → c.out = success → (Lasts topicFilter c.before c.after ↔ ∀ a ∈ arrivals (log c), listed a.code) := by
  intro c hc topicFilter hop hcon hout
  have hrun := h.mem hc
  rw [hout] at hrun
  generalize c.op = op at hop hrun
  cases hop with
  | yield_ => exact yield_lasts hread hcon hrun
  | publish =>
    obtain ⟨id, hpub⟩ := returns_fst hrun
    exact publish_lasts hread hcon hpub
  | subscribe =>
    obtain ⟨granted, hsub⟩ := returns_fst hrun
    exact subscribe_lasts hread hcon hsub
  | subscribeFunction =>
    obtain ⟨granted, hsub⟩ := returns_fst hrun
    exact subscribe_lasts hread hcon hsub
  | unsubscribe => exact unsubscribe_lasts hread hcon hrun

namespace Wire

/-- A PUBLISH with QoS 0 arrives, and the session lasts. -/
def publishRead : ClientCall Script Nat := (calls [connack ++ [48, 3, 0, 1, 97]] [connectOp true, .yield_ 1]).1.get ⟨1, by decide⟩

theorem yield_lasting : Lasts none publishRead.before publishRead.after :=
  (lasts_of_success_iff reads (calls_run (by decide)) publishRead (List.get_mem _ _) none (.yield_ : Reports (.yield_ 1) none) (by decide)
    (by decide)).mpr (by decide)

/-- A PUBLISH is cut short, and `yield` reports success for a session that is closed. -/
def publishCut : ClientCall Script Nat := (calls [connack ++ [48, 3, 0]] [connectOp true, .yield_ 1]).1.get ⟨1, by decide⟩

theorem yield_hides : ¬ ∀ cs s', Prog.Calls (ClientOp.run platform true) (start [connack ++ [48, 3, 0]]) cs s' → ∀ c ∈ cs,
    ∀ topicFilter, Reports c.op topicFilter → c.before.self.isconnected → c.out = success → Lasts topicFilter c.before c.after := by
  intro h
  have hlast : Lasts none publishCut.before publishCut.after :=
    h _ _ (calls_run (by decide)) publishCut (List.get_mem _ _) none (.yield_ : Reports (.yield_ 1) none) (by decide) (by decide)
  exact absurd hlast.connected (by decide)

end Wire

end MQTTClient

end FEmbed
