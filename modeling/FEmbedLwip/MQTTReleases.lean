/-
Publishes with QoS 2 on their way out, from the PUBLISH to the PUBCOMP.

The client keeps the PUBLISH to send it again, and a flag that says that the
PUBREL is to be sent instead. Nothing sets the flag.
-/
import FEmbedLwip.MQTTExactlyOnce

namespace FEmbed

open Live
open Relation (ReflTransGen)

namespace MQTTClient

variable {σ T : Type} {p : MQTTPlatform σ T} {charSigned : Bool}

/-! ## Phases -/

/-- How far a publish with QoS 2 has got. -/
inductive Phase where
  | idle
  | published
  | released
  deriving DecidableEq, Repr

def phaseAfter (id : Nat) (phase : Phase) (ev : MQTTEvent σ) : Phase :=
  match ev with
  | .sent packet _ =>
    if MQTTPacket.idOfPublish packet = some id then if IsQos2 packet then .published else .idle
    else if sentId .pubrel ev = some id ∧ phase = .published then .released
    else phase
  | .received packet _ => if packetType packet = MsgType.pubcomp.code ∧ ackId packet = some id then .idle else phase
  | .cleaned => .idle
  | _ => phase

/-- How far the publish with an id has got, in this session: its PUBLISH was
sent, then its PUBREL was, and its PUBCOMP ends it. -/
def phase (id : Nat) (log : List (MQTTEvent σ)) : Phase := log.foldl (phaseAfter id) .idle

/-- Only its PUBREL releases a publish. -/
theorem phase_keeps {id : Nat} {log evs : List (MQTTEvent σ)} (hevs : ∀ ev ∈ evs, sentId .pubrel ev ≠ some id)
    (h : phase id log ≠ .released) : phase id (log ++ evs) ≠ .released := by
  induction evs generalizing log with
  | nil => rwa [List.append_nil]
  | cons ev evs ih =>
    rw [List.append_cons]
    refine ih (fun ev' hev' => hevs ev' (.tail _ hev')) ?_
    rw [phase, List.foldl_concat]
    have hno := hevs ev (.head _)
    cases ev with
    | sent packet e =>
      rw [phaseAfter]
      split
      · split <;> exact fun h => nomatch h
      · rw [if_neg fun hrel => hno hrel.1]
        exact h
    | received packet e =>
      rw [phaseAfter]
      split
      · exact fun h => nomatch h
      · exact h
    | cleaned => exact fun h => nomatch h
    | cutShort => exact h
    | delivered => exact h
    | called => exact h
    | closed => exact h

theorem sends_of_sentId {type : MsgType} {ev : MQTTEvent σ} {id : Nat} (h : sentId type ev = some id) : Sends type ev := by
  cases ev with
  | sent packet e =>
    rw [sentId] at h
    split at h
    · assumption
    · cases h
  | _ => cases h

theorem publishes_of_id {packet : Bytes} {id : Nat} {e : σ} (h : MQTTPacket.idOfPublish packet = some id) : Sends .publish (.sent packet e) := by
  obtain ⟨b, _, _, _, _, hb, htype, _⟩ := MQTTPacket.idOfPublish_iff.mp h
  cases packet with
  | nil => exact nomatch hb
  | cons c packet =>
    obtain rfl := Option.some.inj hb
    exact htype

/-! ## A PUBREL answers its PUBREC -/

/-- A PUBREC for an id, or for none, comes. -/
def Recs (id : Nat) : MQTTEvent σ → Prop
  | .received packet _ => packetType packet = MsgType.pubrec.code ∧ ∀ id', ackId packet = some id' → id' = id
  | _ => False

/-- An acknowledgement in the buffer is the one that was received last. -/
theorem PacketRead.ack {s u : Live σ (MQTTClient σ T)} {type : MsgType} {code : Int} {arr : List (MQTTEvent σ)}
    (h : PacketRead p s code arr u) (hcode : code = type.code) (htype : type ≠ .connect) {ack : MQTTPacket.Ack}
    (hack : MQTTPacket.deserializeAck u.self.readbuf = some ack) : ∃ bs e, .received bs e ∈ arr ∧ packetType bs = type.code ∧
      ∀ id, ackId bs = some id → ack.packetid = some id ∧ id < 65536 := by
  have hpos : 1 < type.code := by cases type <;> first | decide | exact absurd rfl htype
  cases h with
  | nothing hrc => omega
  | cutShort => omega
  | @packet bs rest e =>
    refine ⟨bs, e, .head _, Int.ofNat_inj.mp hcode, fun id hid => ?_⟩
    obtain ⟨ack', hack', hsome⟩ := MQTTPacket.deserializeAck_of_id hid rest
    obtain rfl := Option.some.inj (hack.symm.trans hack')
    exact ⟨hsome, MQTTPacket.deserializeAck_id_lt hid⟩

instance (id : Nat) (ev : MQTTEvent σ) : Decidable (Recs id ev) :=
  match ev with
  | .received packet _ => inferInstanceAs (Decidable (_ ∧ ∀ id' ∈ ackId packet, id' = id))
  | .sent .. | .cutShort _ | .delivered .. | .called .. | .cleaned | .closed _ => isFalse fun h => h

theorem Attended.recs {s w : Live σ (MQTTClient σ T)} {code : Int} {r : CycleExit} (h : Attended p s code r w) {id : Nat}
    {ev : MQTTEvent σ} (hev : ev ∈ since s w) (hid : sentId .pubrel ev = some id) : ∃ ev' ∈ since s w, Recs id ev' := by
  have hsends := sends_of_sentId hid
  obtain @⟨arr, u, evs, ids, pings, hread, hserved, hpinged, hworked⟩ := h
  have hevents : w.self.events = s.self.events ++ (arr ++ (evs ++ pings)) := by
    rw [hworked.events, hread.worked.2.1, List.append_assoc]
  rw [since_eq hevents] at hev ⊢
  rcases List.mem_append.mp hev with hev | hev
  · exact absurd hsends (hread.sends ev hev .pubrel)
  rcases List.mem_append.mp hev with hev | hev
  · obtain ⟨heard, hheard, hcode⟩ := hserved.sends ev hev .pubrel hsends
    obtain rfl : MsgType.pubrec = heard := Option.some.inj hheard
    cases hserved with
    | idle => exact nomatch hev
    | unlisted => exact nomatch hev
    | unread => exact nomatch hev
    | publish => exact absurd hcode (by decide)
    | pubrel => exact absurd hcode (by decide)
    | @pubrec ack id' _ _ hack hid' hans =>
      cases hans with
      | failed => exact nomatch hev
      | sent hbs =>
        obtain rfl := List.mem_singleton.mp hev
        obtain ⟨bs, e, hmem, htype, hread⟩ := hread.ack rfl (by decide) hack
        refine ⟨.received bs e, List.mem_append_left _ hmem, htype, fun i hi => ?_⟩
        obtain ⟨hsome, hlt⟩ := hread i hi
        obtain rfl := hid' i hsome
        have hown : ackId _ = some id' := MQTTPacket.deserializeAck_serializeAck hlt hbs
        rw [sentId, if_pos (show packetType _ = _ from hsends), hown] at hid
        exact Option.some.inj hid
  · cases hpinged with
    | none => exact nomatch hev
    | sent hbs =>
      obtain rfl := List.mem_singleton.mp hev
      exact absurd (hsends.symm.trans (MQTTPacket.serializeZero_type hbs)) (by decide)

/-- A PUBREL that turns send has its PUBREC in the same turns. -/
theorem Cycles.recs {s s' : Live σ (MQTTClient σ T)} {rcs : List Int} (h : Cycles p s rcs s') {id : Nat} {ev : MQTTEvent σ}
    (hev : ev ∈ since s s') (hid : sentId .pubrel ev = some id) : ∃ ev' ∈ since s s', Recs id ev' := by
  induction h with
  | @nil s e =>
    rw [show since s ⟨s.self, e⟩ = [] from since_eq (List.append_nil _).symm] at hev
    exact nomatch hev
  | @cons s e rc t rcs u hturn hrest ih =>
    have hsince := since_trans hturn.events hrest.events
    rw [show since s u = since ⟨s.self, e⟩ u from rfl, hsince] at hev ⊢
    rcases List.mem_append.mp hev with hev | hev
    · have hhere : ∃ ev' ∈ since ⟨s.self, e⟩ t, Recs id ev' := by
        cases hturn with
        | kept h => exact h.recs hev hid
        | @failed _ _ _ w h =>
          have hshut : (shut w.self).events = s.self.events ++ (since ⟨s.self, e⟩ w ++ endEvents w.self) := by
            rw [shut_events, h.left.2.1, List.append_assoc]
          have hends : since ⟨s.self, e⟩ ⟨shut w.self, w.env⟩ = _ := since_eq hshut
          rw [hends] at hev ⊢
          rcases List.mem_append.mp hev with hev | hev
          · obtain ⟨ev', hev', hrecs⟩ := h.recs hev hid
            exact ⟨ev', List.mem_append_left _ hev', hrecs⟩
          · exact absurd (sends_of_sentId hid) (endEvents_sends w.self ev hev .pubrel)
      obtain ⟨ev', hev', hrecs⟩ := hhere
      exact ⟨ev', List.mem_append_left _ hev', hrecs⟩
    · obtain ⟨ev', hev', hrecs⟩ := ih hev
      exact ⟨ev', List.mem_append_right _ hev', hrecs⟩

/-! ## PUBLISHes in the history -/

/-- No PUBLISH is sent for an id that is released, after `past`. -/
def Abides (past evs : List (MQTTEvent σ)) : Prop :=
  ∀ before packet e after id, evs = before ++ .sent packet e :: after → MQTTPacket.idOfPublish packet = some id →
    phase id (past ++ before) ≠ .released

theorem Abides.silent {past evs : List (MQTTEvent σ)} (h : ∀ ev ∈ evs, ¬ Sends .publish ev) : Abides past evs := by
  intro before packet e after id heq hid
  exact absurd (publishes_of_id hid) (h _ (heq ▸ List.mem_append_right _ (.head _)))

theorem Abides.append {past evs evs' : List (MQTTEvent σ)} (h : Abides past evs) (h' : Abides (past ++ evs) evs') :
    Abides past (evs ++ evs') := by
  intro before packet e after id heq hid
  rcases List.append_eq_append_iff.mp heq with ⟨rest, rfl, hrest⟩ | ⟨rest, hrest, hafter⟩
  · rw [← List.append_assoc]
    exact h' rest packet e after id hrest hid
  · cases rest with
    | nil =>
      rw [List.append_nil] at hrest
      subst hrest
      have hnone := h' [] packet e after id (by simpa using hafter.symm) hid
      rwa [List.append_nil] at hnone
    | cons ev rest =>
      rw [List.cons_append] at hafter
      obtain ⟨rfl, rfl⟩ := List.cons.inj hafter
      exact h before packet e rest id hrest hid

theorem Abides.sent {past rest : List (MQTTEvent σ)} {packet : Bytes} {e : σ}
    (h : ∀ id, MQTTPacket.idOfPublish packet = some id → phase id past ≠ .released) (hrest : ∀ ev ∈ rest, ¬ Sends .publish ev) :
    Abides past (.sent packet e :: rest) := by
  have hfirst : Abides past [.sent packet e] := by
    intro before packet' e' after id heq hid
    cases before with
    | nil =>
      obtain ⟨hev, _⟩ := List.cons.inj heq
      obtain ⟨rfl, rfl⟩ := MQTTEvent.sent.inj hev
      rw [List.append_nil]
      exact h id hid
    | cons ev before => exact absurd (congrArg List.length heq) (by simp)
  exact hfirst.append (.silent hrest)

/-- The history goes on with no PUBLISH. -/
def Silent (s s' : Live σ (MQTTClient σ T)) : Prop :=
  ∃ evs, s'.self.events = s.self.events ++ evs ∧ ∀ ev ∈ evs, ¬ Sends .publish ev

theorem Silent.of_eq {s s' : Live σ (MQTTClient σ T)} (h : s'.self.events = s.self.events) : Silent s s' :=
  ⟨[], by rw [h, List.append_nil], fun _ hev => nomatch hev⟩

theorem Silent.of_sent {s s' : Live σ (MQTTClient σ T)} {bs : Bytes} {e : σ} {type : MsgType}
    (h : s'.self.events = s.self.events ++ [.sent bs e]) (htype : packetType bs = type.code) (hne : type ≠ .publish) : Silent s s' := by
  refine ⟨_, h, fun ev hev hsends => ?_⟩
  obtain rfl := List.mem_singleton.mp hev
  exact hne (MsgType.code_inj (htype.symm.trans hsends))

theorem Cycled.silent {s s' : Live σ (MQTTClient σ T)} {rc : Int} (h : Cycled p s rc s') : Silent s s' :=
  ⟨_, h.events, h.prompted.never (by decide) rfl⟩

theorem Cycles.silent {s s' : Live σ (MQTTClient σ T)} {rcs : List Int} (h : Cycles p s rcs s') : Silent s s' :=
  ⟨_, h.events, h.prompted.never (by decide) rfl⟩

theorem Silent.trans {s t u : Live σ (MQTTClient σ T)} (h : Silent s t) (h' : Silent t u) : Silent s u := by
  obtain ⟨evs, hev, hevs⟩ := h
  obtain ⟨evs', hev', hevs'⟩ := h'
  refine ⟨evs ++ evs', by rw [hev', hev, List.append_assoc], fun ev hmem => ?_⟩
  rcases List.mem_append.mp hmem with hmem | hmem
  · exact hevs ev hmem
  · exact hevs' ev hmem

theorem ended_silent (s : Live σ (MQTTClient σ T)) : Silent s ⟨ended s.self, s.env⟩ := by
  have hclosed {log : List (MQTTEvent σ)} {c : MQTTClient σ T} (hev : c.events = s.self.events ++ log)
      (hlog : ∀ ev ∈ log, ¬ Sends .publish ev) {left : SessionState} : Silent s ⟨{ c with events := c.events ++ [.closed left] }, s.env⟩ := by
    refine ⟨log ++ [.closed left], by rw [← List.append_assoc, ← hev], fun ev hmem => ?_⟩
    rcases List.mem_append.mp hmem with hmem | hmem
    · exact hlog ev hmem
    · obtain rfl := List.mem_singleton.mp hmem
      exact id
  have hdisconnected : ∃ log, (disconnected s.self).events = s.self.events ++ log ∧ ∀ ev ∈ log, ¬ Sends .publish ev := by
    unfold disconnected
    dsimp only
    split
    · refine ⟨[.cleaned], rfl, fun ev hmem => ?_⟩
      obtain rfl := List.mem_singleton.mp hmem
      exact id
    · exact ⟨[], (List.append_nil _).symm, fun _ hev => nomatch hev⟩
  obtain ⟨log, hev, hlog⟩ := hdisconnected
  unfold ended
  dsimp only
  split
  · exact hclosed hev hlog
  · exact ⟨log, hev, hlog⟩

/-- An operation that neither makes a PUBLISH nor goes on with one. -/
def ClientOp.Unrelated : ClientOp → Prop
  | .publish .. => False
  | .connect _ => False
  | _ => True

theorem Step.silent {op : ClientOp} {s s' : Live σ (MQTTClient σ T)} (h : Step p op s s') (hop : op.Unrelated) : Silent s s' := by
  cases h with
  | prepared => exact .of_eq rfl
  | options => exact .of_eq rfl
  | asked htype hbs =>
    refine .of_sent rfl hbs ?_
    rintro rfl
    exact absurd htype (by decide)
  | begun hpub => exact absurd hop (by rw [hpub]; exact id)
  | published hpub => exact absurd hop (by rw [hpub]; exact id)
  | released _ _ _ hbs => exact .of_sent rfl (MQTTPacket.serializeAck_type hbs) (by decide)
  | resent hcon => exact absurd hop (by rw [hcon]; exact id)
  | @turn e _ _ hturn =>
    obtain ⟨evs, hev, hevs⟩ := hturn.silent
    exact ⟨evs, hev, hevs⟩
  | acknowledged =>
    refine .of_eq ?_
    unfold MQTTClient.acknowledged
    dsimp only
    split <;> rfl
  | opened => exact .of_eq rfl
  | registered _ h =>
    rcases setHandler_returns h with ⟨_, rfl, _⟩ | ⟨_, i, e, _, rfl⟩
    · exact .of_eq rfl
    · exact .of_eq rfl
  | removed h =>
    obtain ⟨hs, rfl, _⟩ := removeHandler_filters h
    exact .of_eq rfl
  | defaulted => exact .of_eq rfl
  | ended => exact ended_silent s

theorem Steps.silent {op : ClientOp} {s s' : Live σ (MQTTClient σ T)} (h : Steps p op s s') (hop : op.Unrelated) : Silent s s' := by
  induction h with
  | refl => exact .of_eq rfl
  | tail _ hstep ih => exact ih.trans (hstep.silent hop)

/-! ## What is in flight -/

/-- The PUBLISH that an operation has made, which meets `made`. -/
def Original (p : MQTTPlatform σ T) (made : ClientOp → Prop) (id qos : Nat) (packet : Bytes) : Prop :=
  ∃ topicName payload id₀ retained, made (.publish topicName payload id₀ qos retained) ∧
    MQTTPacket.Writable id qos topicName payload ∧
    MQTTPacket.serializePublish p.maxMqttPacketSize false qos retained id topicName payload = .ok packet

theorem Original.id {made : ClientOp → Prop} {id qos : Nat} {packet : Bytes} (h : Original p made id qos packet) {i : Nat}
    (hi : MQTTPacket.idOfPublish packet = some i) : i = id ∧ qos ≠ 0 := by
  obtain ⟨topicName, payload, _, retained, _, hw, hbs⟩ := h
  rw [MQTTPacket.idOfPublish_serializePublish hw hbs] at hi
  split at hi
  · exact nomatch hi
  · exact ⟨(Option.some.inj hi).symm, by rintro rfl; contradiction⟩

/-- What is in flight is a PUBLISH to send again, and the flag says so. -/
structure InFlight (p : MQTTPlatform σ T) (made : ClientOp → Prop) (c : MQTTClient σ T) : Prop where
  pubrel : c.pubrel = false
  original : 0 < c.inflightMsgid → Original p made c.inflightMsgid c.inflightQoS (c.pubbuf.take c.inflightLen.toNat)

theorem InFlight.of_zero {made : ClientOp → Prop} {c : MQTTClient σ T} (hpubrel : c.pubrel = false) (hin : c.inflightMsgid = 0) :
    InFlight p made c :=
  ⟨hpubrel, fun hpos => absurd hin hpos.ne'⟩

theorem InFlight.mono {made made' : ClientOp → Prop} {c : MQTTClient σ T} (h : InFlight p made c) (hm : ∀ op, made op → made' op) :
    InFlight p made' c := by
  refine ⟨h.pubrel, fun hin => ?_⟩
  obtain ⟨topicName, payload, id₀, retained, hmade, hbs⟩ := h.original hin
  exact ⟨topicName, payload, id₀, retained, hm _ hmade, hbs⟩

theorem InFlight.of_standing {made : ClientOp → Prop} {c c' : MQTTClient σ T} (h : InFlight p made c)
    (hst : standing c' = standing c) : InFlight p made c' := by
  constructor
  · exact (congrArg Standing.pubrel hst).trans h.pubrel
  · rw [show c'.inflightMsgid = c.inflightMsgid from congrArg Standing.inflightMsgid hst,
      show c'.inflightQoS = c.inflightQoS from congrArg Standing.inflightQoS hst,
      show c'.inflightLen = c.inflightLen from congrArg Standing.inflightLen hst,
      show c'.pubbuf = c.pubbuf from congrArg Standing.pubbuf hst]
    exact h.original

theorem InFlight.ended {made : ClientOp → Prop} {c : MQTTClient σ T} (h : InFlight p made c) : InFlight p made (ended c) := by
  unfold MQTTClient.ended disconnected cleaned
  dsimp only
  by_cases hclean : c.cleansession = true
  · rw [if_pos hclean]
    split <;> exact .of_zero rfl rfl
  · rw [if_neg hclean]
    split <;> exact ⟨h.pubrel, h.original⟩

theorem InFlight.acknowledged {made : ClientOp → Prop} {c : MQTTClient σ T} (h : InFlight p made c) (id : Nat) :
    InFlight p made (acknowledged id c) := by
  unfold MQTTClient.acknowledged
  split
  · exact .of_zero h.pubrel rfl
  · exact h

theorem Cycled.keeps {made : ClientOp → Prop} {s s' : Live σ (MQTTClient σ T)} {rc : Int} (h : Cycled p s rc s')
    (hk : InFlight p made s.self) : InFlight p made s'.self := by
  cases h with
  | kept h => exact hk.of_standing h.left.1
  | failed h =>
    rw [shut]
    split
    · exact (hk.of_standing h.left.1).ended
    · exact hk.of_standing h.left.1

/-- Only a publish changes what is in flight to something else. -/
theorem Step.kept {made : ClientOp → Prop} {op : ClientOp} {s s' : Live σ (MQTTClient σ T)} (h : Step p op s s')
    (hop : ∀ topicName payload id₀ qos retained, op ≠ .publish topicName payload id₀ qos retained) (hk : InFlight p made s.self) :
    InFlight p made s'.self := by
  cases h with
  | prepared => exact ⟨hk.pubrel, hk.original⟩
  | options => exact ⟨hk.pubrel, hk.original⟩
  | asked => exact ⟨hk.pubrel, hk.original⟩
  | begun hpub => exact absurd hpub (hop _ _ _ _ _)
  | published hpub => exact absurd hpub (hop _ _ _ _ _)
  | released => exact ⟨hk.pubrel, hk.original⟩
  | resent => exact ⟨hk.pubrel, hk.original⟩
  | turn h => exact h.keeps hk
  | acknowledged => exact hk.acknowledged _
  | opened => exact ⟨hk.pubrel, hk.original⟩
  | registered _ h =>
    rcases setHandler_returns h with ⟨_, rfl, _⟩ | ⟨_, i, e, _, rfl⟩
    · exact hk
    · exact ⟨hk.pubrel, hk.original⟩
  | removed h =>
    obtain ⟨hs, rfl, _⟩ := removeHandler_filters h
    exact ⟨hk.pubrel, hk.original⟩
  | defaulted => exact ⟨hk.pubrel, hk.original⟩
  | ended => exact hk.ended

theorem Steps.kept {made : ClientOp → Prop} {op : ClientOp} {s s' : Live σ (MQTTClient σ T)} (h : Steps p op s s')
    (hop : ∀ topicName payload id₀ qos retained, op ≠ .publish topicName payload id₀ qos retained) (hk : InFlight p made s.self) :
    InFlight p made s'.self := by
  induction h with
  | refl => exact hk
  | tail _ hstep ih => exact hstep.kept hop ih

theorem Cycles.keeps {made : ClientOp → Prop} {s s' : Live σ (MQTTClient σ T)} {rcs : List Int} (h : Cycles p s rcs s')
    (hk : InFlight p made s.self) : InFlight p made s'.self := by
  induction h with
  | nil => exact hk
  | cons hturn _ ih => exact ih (hturn.keeps hk)

theorem AckDone.keeps {made : ClientOp → Prop} {s u s' : Live σ (MQTTClient σ T)} {type : MsgType} {rc : Int}
    (h : AckDone s u type rc s') (hk : InFlight p made u.self) : InFlight p made s'.self := by
  cases h with
  | failed hs' => rw [hs']; exact hk
  | acked => exact hk.acknowledged _

/-- A packet that is sent for a publish is the one that was to be sent. -/
theorem PublishDone.keeps {made : ClientOp → Prop} {s s' : Live σ (MQTTClient σ T)} {qos : Nat} {rc : Int}
    (h : PublishDone p s qos rc s') (hk : InFlight p made s.self) : InFlight p made s'.self ∧
      ((rc = failure ∧ s'.self.events = s.self.events) ∨
        ∃ e rest, s'.self.events = s.self.events ++ .sent s.self.sendbuf e :: rest ∧ ∀ ev ∈ rest, ¬ Sends .publish ev) := by
  cases h with
  | unsent => exact ⟨hk, .inl ⟨rfl, rfl⟩⟩
  | @sent e => exact ⟨⟨hk.pubrel, hk.original⟩, .inr ⟨e, [], rfl, fun _ hev => nomatch hev⟩⟩
  | @waited e _ _ u _ _ _ hcycles hdone =>
    have hsent : InFlight p made (afterSending s e).self := ⟨hk.pubrel, hk.original⟩
    obtain ⟨rest, hrest, hsilent⟩ := hcycles.silent
    refine ⟨hdone.keeps (hcycles.keeps hsent), .inr ⟨e, rest, ?_, hsilent⟩⟩
    rw [hdone.events, hrest, List.append_cons]
    rfl

/-! ## Writes that fail -/

/-- A packet is not written whole: its timer has run out, or a write of what is
left of it fails, or takes more than that. -/
inductive Unwritten (p : MQTTPlatform σ T) (t : T) (packet : Bytes) (e e' : σ) : Prop
  | late {e₁} (he : ReflTransGen (Outside p) e e₁) (hexpired : (p.expired t e₁).1 = true) (he' : e' = (p.expired t e₁).2)
  | failed {e₁ n left} (he : ReflTransGen (Outside p) e e₁) (hwrite : (p.write (List.drop n packet) left e₁).1 < 0 ∨
      (List.drop n packet).length < (p.write (List.drop n packet) left e₁).1) (he' : e' = (p.write (List.drop n packet) left e₁).2)

theorem Unwritten.of_later {t : T} {packet : Bytes} {e e₁ e' : σ} (h : Unwritten p t packet e₁ e') (he : ReflTransGen (Outside p) e e₁) :
    Unwritten p t packet e e' := by
  cases h with
  | late he₁ hexpired he' => exact .late (he.trans he₁) hexpired he'
  | failed he₁ hwrite he' => exact .failed (he.trans he₁) hwrite he'

theorem sendPacket_unwritten {t : T} {s : Live σ (MQTTClient σ T)} {s'} (h : (sendPacket p t).Returns s failure s') :
    Unwritten p t s.self.sendbuf s.env s'.env := by
  rw [sendPacket, returns_obj_bind] at h
  obtain ⟨sent, u, hloop, h⟩ := Prog.returns_bind.mp h
  obtain ⟨hne, rfl⟩ : sent ≠ s.self.sendbuf.length ∧ s' = u := by
    rcases Prog.returns_ite.mp h with ⟨_, h⟩ | ⟨hne, h⟩
    · rw [returns_happened_bind] at h
      exact absurd (Prog.returns_pure.mp h).1 (by decide)
    · exact ⟨hne, (Prog.returns_pure.mp h).2⟩
  -- What is counted so far is a part of the packet, or it is too much.
  refine hloop.loop_inv (fun (sent : Int) u => ReflTransGen (Outside p) s.env u.env ∧
      (0 ≤ sent ∧ sent ≤ s.self.sendbuf.length ∨ s.self.sendbuf.length < sent ∧ Unwritten p t s.self.sendbuf s.env u.env))
    (fun (sent : Int) u => sent ≠ s.self.sendbuf.length → Unwritten p t s.self.sendbuf s.env u.env) ?_
    (show _ ∧ _ from ⟨.refl, .inl ⟨Int.le_refl 0, Int.natCast_nonneg _⟩⟩) hne
  rintro sent u r u' ⟨he, hsent⟩ hturn
  rcases Prog.returns_ite.mp hturn with ⟨hall, hturn⟩ | ⟨hmore, hturn⟩
  · obtain ⟨rfl, rfl⟩ := Prog.returns_pure.mp hturn
    intro hne
    rcases hsent with hsent | ⟨_, hun⟩
    · omega
    · exact hun
  replace hmore := not_not.mp hmore
  rw [returns_call_bind] at hturn
  rcases Prog.returns_ite.mp hturn with ⟨hexpired, hturn⟩ | ⟨_, hturn⟩
  · obtain ⟨rfl, rfl⟩ := Prog.returns_pure.mp hturn
    exact fun _ => .late he hexpired rfl
  rw [returns_call_bind, returns_call_bind] at hturn
  dsimp only at hturn
  have he₁ := (he.tail (.expired t _)).tail (.leftMs t _)
  rcases Prog.returns_ite.mp hturn with ⟨hneg, hturn⟩ | ⟨hpos, hturn⟩
  · obtain ⟨rfl, rfl⟩ := Prog.returns_pure.mp hturn
    exact fun _ => .failed he₁ (.inl hneg) rfl
  · obtain ⟨rfl, rfl⟩ := Prog.returns_pure.mp hturn
    refine ⟨he₁.tail (.write ..), ?_⟩
    by_cases hfit : (p.write (s.self.sendbuf.drop sent.toNat) (p.leftMs t (p.expired t u.env).2).1
        (p.leftMs t (p.expired t u.env).2).2).1 ≤ (s.self.sendbuf.drop sent.toNat).length
    · refine .inl ?_
      rw [List.length_drop] at hfit
      omega
    · refine .inr ⟨?_, .failed he₁ (.inr (Int.not_le.mp hfit)) rfl⟩
      rw [List.length_drop] at hfit
      omega

/-- A packet that the history does not record was not written. -/
theorem publishPacket_unwritten (hread : Reads p) {t : T} {qos : Nat} {s : Live σ (MQTTClient σ T)} {rc : Int} {s'}
    (h : (publishPacket p t qos).Returns s rc s') (hev : s'.self.events = s.self.events) : Unwritten p t s.self.sendbuf s.env s'.env := by
  obtain ⟨src, u, hsend, h⟩ := Prog.returns_bind.mp h
  obtain ⟨e, _, ⟨rfl, rfl⟩ | ⟨rfl, rfl⟩⟩ := sendPacket_returns hsend
  · -- The history goes on from the packet.
    have grown {rest : List (MQTTEvent σ)} (h : s'.self.events = (s.self.events ++ [.sent s.self.sendbuf e]) ++ rest) : False := by
      have hlen := congrArg List.length (h.symm.trans hev)
      simp only [List.length_append, List.length_singleton] at hlen
      omega
    rw [if_neg (not_not.mpr rfl)] at h
    have waited {type : MsgType} (htype : type ≠ .connect) (h : (awaitAck p type t).Returns (afterSending s e) rc s') : False := by
      obtain ⟨rcs, v, hcycles, hdone⟩ := awaitAck_returns hread htype h
      exact grown (hdone.events.trans hcycles.events)
    rcases Prog.returns_ite.mp h with ⟨_, h⟩ | ⟨_, h⟩
    · exact (waited (by decide) h).elim
    rcases Prog.returns_ite.mp h with ⟨_, h⟩ | ⟨_, h⟩
    · exact (waited (by decide) h).elim
    · obtain ⟨_, rfl⟩ := Prog.returns_pure.mp h
      exact (grown (List.append_nil _).symm).elim
  · rw [if_pos (by decide)] at h
    obtain ⟨_, rfl⟩ := Prog.returns_pure.mp h
    exact sendPacket_unwritten hsend

/-! ## Calls -/

/-- A call does nothing with what is released: a publish takes no id that is,
and no connection was lost after the PUBREL, or is while one is asked for: a
PUBREC that comes then comes after the CONNACK. -/
def Settled (p : MQTTPlatform σ T) (c : ClientCall σ T) : Prop :=
  match c.op with
  | .publish topicName payload id₀ qos retained => c.before.self.isconnected → ∀ bs,
      MQTTPacket.serializePublish p.maxMqttPacketSize false qos retained (publishedId c.before.self id₀ qos) topicName payload = .ok bs →
      MQTTPacket.Writable (publishedId c.before.self id₀ qos) qos topicName payload ∧
        (qos ≠ 0 → phase (publishedId c.before.self id₀ qos) c.before.self.events ≠ .released)
  | .connect _ => c.before.self.isconnected = false → 0 < c.before.self.inflightMsgid →
      phase c.before.self.inflightMsgid c.before.self.events ≠ .released ∧
        Preceded (Recs c.before.self.inflightMsgid) (Hears .connack) (log c)
  | _ => True

/-- What a `connect` goes on with, when `before` has happened in it: the PUBREL
of a publish that is released, or the PUBLISH that was made. -/
def LeftOff (p : MQTTPlatform σ T) (made : ClientOp → Prop) (c : MQTTClient σ T) (before : List (MQTTEvent σ)) (packet : Bytes) : Prop :=
  if phase c.inflightMsgid (c.events ++ before) = .released then
    packetType packet = MsgType.pubrel.code ∧ ackId packet = some c.inflightMsgid
  else Original p made c.inflightMsgid c.inflightQoS packet

/-- What a call leaves in flight and what it adds to the history. -/
def Carried (p : MQTTPlatform σ T) (made : ClientOp → Prop) (s s' : Live σ (MQTTClient σ T)) : Prop :=
  InFlight p made s'.self ∧ ∃ evs, s'.self.events = s.self.events ++ evs ∧ Abides s.self.events evs

theorem Carried.of_silent {made : ClientOp → Prop} {s s' : Live σ (MQTTClient σ T)} (hk : InFlight p made s'.self) (h : Silent s s') :
    Carried p made s s' := by
  obtain ⟨evs, hev, hevs⟩ := h
  exact ⟨hk, evs, hev, .silent hevs⟩

theorem Publishing.carried {made : ClientOp → Prop} {topicName payload : Bytes} {id₀ qos : Nat} {retained : Bool}
    {s s' : Live σ (MQTTClient σ T)} {r : Int × Nat} (h : Publishing p topicName payload id₀ qos retained s r s')
    (hk : InFlight p made s.self) (hmade : made (.publish topicName payload id₀ qos retained))
    (hset : s.self.isconnected → ∀ bs,
      MQTTPacket.serializePublish p.maxMqttPacketSize false qos retained (publishedId s.self id₀ qos) topicName payload = .ok bs →
      MQTTPacket.Writable (publishedId s.self id₀ qos) qos topicName payload ∧
        (qos ≠ 0 → phase (publishedId s.self id₀ qos) s.self.events ≠ .released)) : Carried p made s s' := by
  cases h with
  | unconnected => exact .of_silent hk (.of_eq rfl)
  | tooLong hc =>
    subst hc
    exact .of_silent ⟨hk.pubrel, hk.original⟩ (.of_eq rfl)
  | @begun bs e _ _ hcon hbs hdone =>
    obtain ⟨hw, hphase⟩ := hset hcon bs hbs
    have horiginal : Original p made (publishedId s.self id₀ qos) qos bs := ⟨_, _, _, _, hmade, hw, hbs⟩
    obtain ⟨hkept, hevents, hsendbuf⟩ : InFlight p made (MQTTClient.begun s.self (publishedId s.self id₀ qos) qos bs) ∧
        (MQTTClient.begun s.self (publishedId s.self id₀ qos) qos bs).events = s.self.events ∧
        (MQTTClient.begun s.self (publishedId s.self id₀ qos) qos bs).sendbuf = bs := by
      unfold MQTTClient.begun
      dsimp only
      split
      · exact ⟨⟨hk.pubrel, hk.original⟩, rfl, rfl⟩
      · refine ⟨⟨rfl, fun _ => ?_⟩, rfl, rfl⟩
        dsimp only
        rw [Int.toNat_natCast, List.take_length]
        exact horiginal
    obtain ⟨hk', hout⟩ := hdone.keeps hkept
    dsimp only at hout
    rw [hevents, hsendbuf] at hout
    rcases hout with ⟨_, hev⟩ | ⟨e', rest, hev, hrest⟩
    · exact .of_silent hk' (.of_eq hev)
    · refine ⟨hk', _, hev, .sent (fun id hid => ?_) hrest⟩
      obtain ⟨rfl, hqos⟩ := horiginal.id hid
      exact hphase hqos

theorem opened_keeps {made : ClientOp → Prop} {c : MQTTClient σ T} (hk : InFlight p made c) (rc : Int) :
    InFlight p made (opened rc c) ∧ (opened rc c).events = c.events := by
  rw [opened]
  split
  · exact ⟨⟨hk.pubrel, hk.original⟩, rfl⟩
  · exact ⟨hk, rfl⟩

/-- A PUBREC that comes after a CONNACK only does not come while that is waited for. -/
theorem awaitConnack_unreleased (hread : Reads p) {t : T} {s : Live σ (MQTTClient σ T)} {r : Int × Option ConnackData} {u}
    (h : (awaitConnack p t).Returns s r u) {id : Nat} {bs : Bytes} {e : σ}
    (hprec : Preceded (Recs id) (Hears .connack) (.sent bs e :: since s u)) : ∀ ev ∈ since s u, ¬ Recs id ev := by
  intro ev hmem hrecs
  obtain ⟨before, after, hsplit⟩ := List.append_of_mem hmem
  obtain ⟨ev', hmem', hears⟩ := hprec (.sent bs e :: before) ev after (by rw [hsplit]; rfl) hrecs
  replace hmem' : ev' ∈ before := (List.mem_cons.mp hmem').resolve_left fun heq => (heq ▸ hears : Hears .connack (.sent bs e)).elim
  obtain ⟨as, last, harr, hlast, hno⟩ := awaitConnack_heard hread h
  cases ev with
  | received packet e₁ =>
    cases ev' with
    | received packet' e₂ =>
      have hheard : Arrival.packet packet' ∈ arrivals before := List.mem_filterMap.mpr ⟨_, hmem', rfl⟩
      have hlater : arrivals before ++ .packet packet :: arrivals after = as ++ last := by
        rw [← harr, hsplit, arrivals_append]
        rfl
      have has : Arrival.packet packet' ∈ as := by
        rcases List.append_eq_append_iff.mp hlater with ⟨mid, rfl, _⟩ | ⟨mid, hmid, hend⟩
        · exact List.mem_append_left _ hheard
        · cases mid with
          | nil => rwa [hmid, List.append_nil] at hheard
          | cons a mid =>
            rw [hend] at hlast
            simp at hlast
      exact hno _ has hears
    | _ => exact hears.elim
  | _ => exact hrecs.elim

/-- The handshake publishes nothing. -/
theorem greeting_silent {options : ConnectData} {s u : Live σ (MQTTClient σ T)} {bs : Bytes} {l : T} {e e' : σ} {rcs : List Int}
    (hbs : MQTTPacket.serializeConnect p.maxMqttPacketSize options = some (.ok bs))
    (h : Cycles p (greeting s options bs l e e') rcs u) :
    ∀ ev ∈ (.sent bs e :: since (greeting s options bs l e e') u), ¬ Sends .publish ev := by
  intro ev hmem hsends
  rcases List.mem_cons.mp hmem with rfl | hmem
  · exact absurd (hsends.symm.trans (MQTTPacket.serializeConnect_type hbs)) (by decide)
  · exact h.prompted.never (by decide) rfl ev hmem hsends

/-- What comes in the handshake does not release what is in flight, if it is not for it. -/
theorem greeting_unreleased {options : ConnectData} {s u : Live σ (MQTTClient σ T)} {bs : Bytes} {l : T} {e e' : σ} {rcs : List Int}
    (hbs : MQTTPacket.serializeConnect p.maxMqttPacketSize options = some (.ok bs))
    (h : Cycles p (greeting s options bs l e e') rcs u) {id : Nat} (hphase : phase id s.self.events ≠ .released)
    (hrecs : ∀ ev ∈ since (greeting s options bs l e e') u, ¬ Recs id ev) :
    phase id (s.self.events ++ (.sent bs e :: since (greeting s options bs l e e') u)) ≠ .released := by
  refine phase_keeps (fun ev hmem hid => ?_) hphase
  rcases List.mem_cons.mp hmem with rfl | hmem
  · exact absurd ((sends_of_sentId hid).symm.trans (MQTTPacket.serializeConnect_type hbs)) (by decide)
  · obtain ⟨ev', hmem', hrec⟩ := h.recs hmem hid
    exact hrecs ev' hmem' hrec

/-- What is in flight is sent again after the handshake, which has not released it. -/
theorem connect_carried (hread : Reads p) {made : ClientOp → Prop} {options : ConnectData} {s : Live σ (MQTTClient σ T)}
    {r : Int × Option ConnackData} {s'} (h : (connect p options).Returns s r s') (hk : InFlight p made s.self)
    (hset : s.self.isconnected = false → 0 < s.self.inflightMsgid → phase s.self.inflightMsgid s.self.events ≠ .released ∧
      Preceded (Recs s.self.inflightMsgid) (Hears .connack) (since s s')) :
    Carried p made s s' ∧ (since s s' ≠ [] → 0 < s.self.inflightMsgid → ∃ before packet, LeftOff p made s.self before packet ∧
      ((∃ e after, since s s' = before ++ .sent packet e :: after) ∨
        since s s' = before ∧ Unwritten p (p.timerMs 5000 s.env).1 packet s.env s'.env)) := by
  have hsteps : Steps p (.connect options) s s' := (connect_returns hread h).steps rfl
  have hk' : InFlight p made s'.self := hsteps.kept (fun _ _ _ _ _ h => nomatch h) hk
  cases connect_parts h with
  | @connected e => exact ⟨.of_silent hk' (.of_eq rfl), fun hlog => absurd (since_eq (s := ⟨s.self, e⟩) (List.append_nil _).symm) hlog⟩
  | @unsent bs e => exact ⟨.of_silent hk' (.of_eq rfl), fun hlog => absurd (since_eq (List.append_nil _).symm) hlog⟩
  | @sent bs l e e' x u rc v hcon hbs he he' hwait hresend =>
    obtain ⟨rcs, hcycles, _⟩ := awaitConnack_returns hread hwait
    have hev := greeting_events hcycles
    have hsilent := greeting_silent hbs hcycles
    have hst := hcycles.unconnected hcon
    have hin : u.self.inflightMsgid = s.self.inflightMsgid := congrArg Standing.inflightMsgid hst
    have hqos : u.self.inflightQoS = s.self.inflightQoS := congrArg Standing.inflightQoS hst
    have hku : InFlight p made u.self := hcycles.keeps ⟨hk.pubrel, hk.original⟩
    rw [resend, returns_obj_bind] at hresend
    rcases Prog.returns_ite.mp hresend with ⟨⟨_, _, hpubrel⟩, _⟩ | ⟨_, hresend⟩
    · exact absurd (hku.pubrel.symm.trans hpubrel) (by decide)
    rcases Prog.returns_ite.mp hresend with ⟨hpos, hresend⟩ | ⟨hzero, hresend⟩
    · rw [returns_set_bind] at hresend
      have horiginal := hku.original hpos
      rw [hin, hqos] at horiginal
      have unreleased {rest : List (MQTTEvent σ)} (hrest : since s ⟨opened rc v.self, v.env⟩ =
          (.sent bs e :: since (greeting s options bs l e e') u) ++ rest) :
          phase s.self.inflightMsgid (s.self.events ++ (.sent bs e :: since (greeting s options bs l e e') u)) ≠ .released := by
        obtain ⟨hphase, hprec⟩ := hset hcon (hin ▸ hpos)
        rw [hrest] at hprec
        exact greeting_unreleased hbs hcycles hphase (awaitConnack_unreleased hread hwait hprec.left)
      obtain ⟨hkv, ⟨_, hw⟩ | ⟨e'', rest, hw, hrest⟩⟩ := (publishPacket_returns hread hresend).keeps ⟨hku.pubrel, hku.original⟩
      · have hall : (opened rc v.self).events = s.self.events ++ (.sent bs e :: since (greeting s options bs l e e') u) :=
          (opened_keeps hkv rc).2.trans (hw.trans hev)
        have hsince := since_eq (s := ⟨opened rc v.self, v.env⟩) hall
        refine ⟨.of_silent hk' ⟨_, hall, hsilent⟩, fun _ _ =>
          ⟨_, u.self.pubbuf.take u.self.inflightLen.toNat, ?_, .inr ⟨hsince, ?_⟩⟩⟩
        · rw [LeftOff, if_neg (unreleased (hsince.trans (List.append_nil _).symm))]
          exact horiginal
        · refine (publishPacket_unwritten hread hresend hw).of_later ?_
          have hgreeting : ReflTransGen (Outside p) s.env e' := by
            rcases he' with rfl | ⟨n, rfl⟩
            · exact he
            · exact he.tail (.countdown ..)
          exact hgreeting.trans (going_allows.cycles.awaitConnack (.inl trivial) hwait).1
      · have hall : (opened rc v.self).events = s.self.events ++
            ((.sent bs e :: since (greeting s options bs l e e') u) ++ .sent (u.self.pubbuf.take u.self.inflightLen.toNat) e'' :: rest) := by
          rw [(opened_keeps hkv rc).2, hw, ← List.append_assoc, ← hev]
        have hsince := since_eq (s := ⟨opened rc v.self, v.env⟩) hall
        have hphase := unreleased hsince
        refine ⟨⟨hk', _, hall, (Abides.silent hsilent).append (.sent (fun id hid => ?_) hrest)⟩, fun _ _ => ⟨_, _, ?_, .inl ⟨e'', rest, hsince⟩⟩⟩
        · obtain ⟨rfl, _⟩ := horiginal.id hid
          exact hphase
        · rw [LeftOff, if_neg hphase]
          exact horiginal
    · obtain ⟨rfl, rfl⟩ := Prog.returns_pure.mp hresend
      exact ⟨.of_silent hk' ⟨_, (opened_keeps hku x.1).2.trans hev, hsilent⟩, fun _ hpos => absurd (hin ▸ hpos) hzero⟩

theorem ClientOp.carried (hread : Reads p) {made : ClientOp → Prop} {c : ClientCall σ T}
    (h : (ClientOp.run p charSigned c.op).Returns c.before c.out c.after) (hset : Settled p c) (hk : InFlight p made c.before.self) :
    Carried p (fun op => made op ∨ op = c.op) c.before c.after := by
  have hk' : InFlight p (fun op => made op ∨ op = c.op) c.before.self := hk.mono fun _ => .inl
  have unrelated (hop : c.op.Unrelated) : Carried p (fun op => made op ∨ op = c.op) c.before c.after := by
    have hsteps := ClientOp.steps hread h
    refine .of_silent (Steps.kept hsteps (fun _ _ _ _ _ heq => ?_) hk') (Steps.silent hsteps hop)
    rw [heq] at hop
    exact hop
  obtain ⟨op, before, out, after⟩ := c
  cases op with
  | connect options =>
    obtain ⟨data, hconnect⟩ := returns_fst h
    exact (connect_carried hread hconnect hk' hset).1
  | publish topicName payload id₀ qos retained =>
    obtain ⟨id, hpublish⟩ := returns_fst h
    exact (publishId_returns hread hpublish).carried hk' (.inr rfl) hset
  | _ => exact unrelated trivial

/-! ## Runs -/

namespace Wire

end Wire

end MQTTClient

end FEmbed
