/-
What a client sends of its own accord, and what it sends as an answer.

A turn of `cycle` pings, and it answers what it has received: a PUBLISH with a
PUBACK or a PUBREC, a PUBREC with a PUBREL, a PUBREL with a PUBCOMP. It never
sends a PUBLISH.
-/
import FEmbedLwip.MQTTPacketFacts
import FEmbedLwip.MQTTRequests

namespace FEmbed

namespace MQTTClient

variable {σ T : Type} {p : MQTTPlatform σ T}

/-! ## Packets of a type -/

/-- A packet of this type is sent. -/
def Sends (type : MsgType) : MQTTEvent σ → Prop
  | .sent packet _ => packetType packet = type.code
  | _ => False

/-- A packet of this type is received. -/
def Hears (type : MsgType) : MQTTEvent σ → Prop
  | .received packet _ => packetType packet = type.code
  | _ => False

instance (type : MsgType) (ev : MQTTEvent σ) : Decidable (Hears type ev) :=
  match ev with
  | .received packet _ => inferInstanceAs (Decidable (packetType packet = type.code))
  | .sent .. | .cutShort _ | .delivered .. | .called .. | .cleaned | .closed _ => isFalse id

instance (type : MsgType) (ev : MQTTEvent σ) : Decidable (Sends type ev) :=
  match ev with
  | .sent packet _ => inferInstanceAs (Decidable (packetType packet = type.code))
  | .received .. | .cutShort _ | .delivered .. | .called .. | .cleaned | .closed _ => isFalse id

/-- The event of `cleanSession`. -/
def isCleaned : MQTTEvent σ → Bool
  | .cleaned => true
  | _ => false

/-- What a packet that is an answer answers. -/
def prompt : MsgType → Option MsgType
  | .puback => some .publish
  | .pubrec => some .publish
  | .pubrel => some .pubrec
  | .pubcomp => some .pubrel
  | _ => none

/-- All packets but pings are answers. -/
def Prompted (log : List (MQTTEvent σ)) : Prop :=
  ∀ type, type ≠ .pingreq → Preceded (Sends type) (fun ev => ∃ heard ∈ prompt type, Hears heard ev) log

theorem Prompted.nil : Prompted ([] : List (MQTTEvent σ)) := fun _ _ => .none fun _ h => nomatch h

theorem Prompted.append {log log' : List (MQTTEvent σ)} (h : Prompted log) (h' : Prompted log') : Prompted (log ++ log') :=
  fun type hne => (h type hne).append (h' type hne)

/-- What answers nothing is not sent. -/
theorem Prompted.never {log : List (MQTTEvent σ)} (h : Prompted log) {type : MsgType} (hne : type ≠ .pingreq)
    (hnone : prompt type = none) : ∀ ev ∈ log, ¬ Sends type ev := by
  intro ev hev hsends
  obtain ⟨before, after, rfl⟩ := List.append_of_mem hev
  obtain ⟨_, _, heard, hheard, _⟩ := h type hne before ev after rfl hsends
  rw [hnone] at hheard
  exact nomatch hheard

/-! ## A turn answers what it has received -/

theorem sends_ack {type type' : MsgType} {id : Nat} {bs : Bytes} {e : σ}
    (h : MQTTPacket.serializeAck p.maxMqttPacketSize type false id = .ok bs) :
    Sends type' (.sent bs e) ↔ type' = type := by
  constructor
  · intro hsends
    exact MsgType.code_inj (hsends.symm.trans (MQTTPacket.serializeAck_type h))
  · rintro rfl
    exact MQTTPacket.serializeAck_type h

theorem Answered.sends {type : MsgType} {id : Nat} {acks : List (MQTTEvent σ)} {r : CycleExit} (h : Answered p type id acks r) :
    ∀ ev ∈ acks, ∀ type', Sends type' ev → type' = type := by
  cases h with
  | sent hbs =>
    intro ev hev type' hsends
    obtain rfl := List.mem_singleton.mp hev
    exact (sends_ack hbs).mp hsends
  | failed => exact fun _ hev => nomatch hev

theorem Taken.sends {topicName : MQTTLenString} {msg : Message} {ids ids' : List Nat} {taken : List (MQTTEvent σ)}
    (h : Taken topicName msg ids taken ids') : ∀ ev ∈ taken, ∀ type, ¬ Sends type ev := by
  have delivered : ∀ ev ∈ [MQTTEvent.delivered topicName msg (σ := σ)], ∀ type, ¬ Sends type ev := by
    intro ev hev type
    obtain rfl := List.mem_singleton.mp hev
    exact id
  cases h with
  | plain => exact delivered
  | placed => exact delivered
  | known => exact fun _ hev => nomatch hev
  | full => exact fun _ hev => nomatch hev

/-- What the `switch` sends answers the packet that it is for. -/
theorem Served.sends {readbuf : Bytes} {ids ids' : List Nat} {code : Int} {evs : List (MQTTEvent σ)} {r : CycleExit}
    (h : Served p readbuf ids code evs ids' r) :
    ∀ ev ∈ evs, ∀ type, Sends type ev → ∃ heard ∈ prompt type, code = heard.code := by
  cases h with
  | idle => exact fun _ hev => nomatch hev
  | unlisted => exact fun _ hev => nomatch hev
  | unread => exact fun _ hev => nomatch hev
  | publish _ _ _ htaken hcalls hack =>
    intro ev hev type hsends
    rcases List.mem_append.mp hev with hev | hev
    · exact absurd hsends (htaken.sends ev hev type)
    rcases List.mem_append.mp hev with hev | hev
    · obtain ⟨_, _, _, rfl⟩ := hcalls ev hev
      exact hsends.elim
    cases hack with
    | none => exact nomatch hev
    | bad => exact nomatch hev
    | answered htype hans =>
      obtain rfl := hans.sends ev hev type hsends
      refine ⟨.publish, ?_, rfl⟩
      rw [answerTo] at htype
      split at htype
      · rw [← Option.some.inj htype]; rfl
      · split at htype
        · rw [← Option.some.inj htype]; rfl
        · exact nomatch htype
  | pubrec _ _ hans =>
    intro ev hev type hsends
    obtain rfl := hans.sends ev hev type hsends
    exact ⟨.pubrec, rfl, rfl⟩
  | pubrel _ _ hans =>
    intro ev hev type hsends
    obtain rfl := hans.sends ev hev type hsends
    exact ⟨.pubrel, rfl, rfl⟩

theorem PacketRead.sends {s u : Live σ (MQTTClient σ T)} {code : Int} {arr : List (MQTTEvent σ)} (h : PacketRead p s code arr u) :
    ∀ ev ∈ arr, ∀ type, ¬ Sends type ev := by
  cases h with
  | nothing => exact fun _ hev => nomatch hev
  | cutShort =>
    intro ev hev type
    obtain rfl := List.mem_singleton.mp hev
    exact id
  | packet =>
    intro ev hev type
    obtain rfl := List.mem_singleton.mp hev
    exact id

/-- The type that `readPacket` returns is that of the packet. -/
theorem PacketRead.hears {s u : Live σ (MQTTClient σ T)} {type : MsgType} {arr : List (MQTTEvent σ)}
    (h : PacketRead p s type.code arr u) (htype : type ≠ .connect) : ∃ ev ∈ arr, Hears type ev := by
  have hcode : 1 < type.code := by cases type <;> first | decide | exact absurd rfl htype
  generalize hc : (type.code : Int) = code at h
  cases h with
  | nothing hrc => omega
  | cutShort => omega
  | packet => exact ⟨_, .head _, by rw [Hears]; omega⟩

theorem prompt_ne_connect {type heard : MsgType} (h : heard ∈ prompt type) : heard ≠ .connect := by
  rintro rfl
  cases type <;> exact nomatch h

theorem Attended.prompted {s w : Live σ (MQTTClient σ T)} {code : Int} {r : CycleExit} (h : Attended p s code r w) :
    Prompted (since s w) := by
  obtain @⟨arr, u, evs, ids, pings, hread, hserved, hpinged, hworked⟩ := h
  have hevents : w.self.events = s.self.events ++ ((arr ++ evs) ++ pings) := by
    rw [hworked.events, hread.worked.2.1, List.append_assoc, List.append_assoc]
  rw [since_eq hevents]
  refine .append (fun type _ => ?_) fun type hne => .none fun ev hev hsends => ?_
  · by_cases hany : ∃ ev ∈ evs, Sends type ev
    · obtain ⟨ev, hev, hsends⟩ := hany
      obtain ⟨heard, hheard, rfl⟩ := hserved.sends ev hev type hsends
      obtain ⟨ev', hev', hhears⟩ := hread.hears (prompt_ne_connect hheard)
      exact Preceded.append_of_mem (.none fun ev hev => hread.sends ev hev type) hev' ⟨heard, hheard, hhears⟩ evs
    · refine .none fun ev hev hsends => ?_
      rcases List.mem_append.mp hev with hev | hev
      · exact hread.sends ev hev type hsends
      · exact hany ⟨ev, hev, hsends⟩
  · cases hpinged with
    | none => exact nomatch hev
    | sent hbs =>
      obtain rfl := List.mem_singleton.mp hev
      exact hne (MsgType.code_inj (hsends.symm.trans (MQTTPacket.serializeZero_type hbs)))

theorem endEvents_sends (c : MQTTClient σ T) : ∀ ev ∈ endEvents c, ∀ type, ¬ Sends type ev := by
  intro ev hev type hsends
  rw [endEvents] at hev
  split at hev
  · split at hev
    · rcases List.mem_append.mp hev with hev | hev
      · obtain rfl := List.mem_singleton.mp hev
        exact hsends
      · obtain rfl := List.mem_singleton.mp hev
        exact hsends
    · obtain rfl := List.mem_singleton.mp hev
      exact hsends
  · cases hev

theorem Cycled.prompted {s s' : Live σ (MQTTClient σ T)} {rc : Int} (h : Cycled p s rc s') : Prompted (since s s') := by
  cases h with
  | kept h => exact h.prompted
  | @failed _ _ _ w h =>
    have hev : (shut w.self).events = s.self.events ++ (since s w ++ endEvents w.self) := by
      rw [shut_events, h.left.2.1, List.append_assoc]
    rw [since_eq (s := ⟨shut w.self, w.env⟩) hev]
    exact h.prompted.append fun type _ => .none fun ev hev => endEvents_sends w.self ev hev type

/-- **What the client sends in its turns answers the broker**, but for its pings. -/
theorem Cycles.prompted {s s' : Live σ (MQTTClient σ T)} {rcs : List Int} (h : Cycles p s rcs s') : Prompted (since s s') := by
  induction h with
  | @nil s e =>
    rw [show since s ⟨s.self, e⟩ = [] from since_eq (List.append_nil _).symm]
    exact .nil
  | @cons s e rc t rcs u h hrest ih =>
    have hsince := since_trans h.events hrest.events
    rw [show since s u = since ⟨s.self, e⟩ u from rfl, hsince]
    exact h.prompted.append ih

end MQTTClient

end FEmbed
