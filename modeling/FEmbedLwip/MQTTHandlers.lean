/-
The table of message handlers of `MQTT::Client`: which slot a topic filter has,
what a registration or a removal does to it, and what becomes of it while the
client is busy on the wire.

There it changes in one way only: all filters go when a clean session is closed
(`Shed`). That no filter has two slots is kept by everything (`Unique`).
-/
import FEmbedLwip.MQTTTurns

namespace FEmbed

open Live

namespace MQTTClient

variable {σ T : Type} {p : MQTTPlatform σ T}

/-! ## The table -/

/-- The topic filter of a slot. -/
def filterAt (hs : List MessageHandler) (i : Nat) : Option Bytes := hs[i]?.bind (·.topicFilter)

theorem filterAt_eq {hs : List MessageHandler} {i : Nat} {topicFilter : Bytes} :
    filterAt hs i = some topicFilter ↔ ∃ h, hs[i]? = some h ∧ h.topicFilter = some topicFilter := Option.bind_eq_some_iff

/-- Who a message goes to, where `r` has the callback of each filter: those of
the filters that match, or the default. -/
def Addressed {C : Type} (r : Bytes → Option C) (d : Option C) (topicName : MQTTLenString) (called : List C) : Prop :=
  ∃ hits : List (Bytes × C), (hits.map Prod.fst).Nodup ∧
    (∀ f cb, (f, cb) ∈ hits ↔ r f = some cb ∧ topicMatches f topicName = some true) ∧
    called = if hits = [] then d.toList else hits.map Prod.snd

theorem filterAt_cleared (hs : List MessageHandler) (i : Nat) : filterAt (cleared hs) i = none := by
  simp [filterAt, cleared]

/-- The slot a registration goes to. -/
def slotFor (topicFilter : Bytes) (hs : List MessageHandler) : Option Nat :=
  (slotOf (some topicFilter) hs).or (slotOf none hs)

/-- What a registration does, if it does anything. -/
theorem setHandler_returns {topicFilter : Bytes} {attach : FP → FP} {s : Live σ (MQTTClient σ T)} {rc : Int} {s'}
    (h : (setHandler p topicFilter (some attach)).Returns s rc s') :
    (rc = failure ∧ s' = s ∧ slotFor topicFilter s.self.messageHandlers = none) ∨
    (rc = success ∧ ∃ i e, slotFor topicFilter s.self.messageHandlers = some i ∧ s' = ⟨{ s.self with
      messageHandlers := s.self.messageHandlers.modify i fun h => { topicFilter := some topicFilter, fp := attach h.fp } }, e⟩) := by
  rw [setHandler, returns_obj_bind] at h
  dsimp only at h
  split at h
  · rename_i i hi
    rw [returns_call_bind] at h
    rcases Prog.returns_ite.mp h with ⟨_, h⟩ | ⟨_, h⟩
    · exact absurd h Prog.returns_undefined
    · rw [returns_set_bind] at h
      obtain ⟨rfl, rfl⟩ := Prog.returns_pure.mp h
      exact .inr ⟨rfl, i, _, hi, rfl⟩
  · rename_i hi
    obtain ⟨rfl, rfl⟩ := Prog.returns_pure.mp h
    exact .inl ⟨rfl, rfl, hi⟩

/-- What a removal does: a null callback takes an entry out, if there is one. -/
theorem removeHandler_returns {topicFilter : Bytes} {s : Live σ (MQTTClient σ T)} {rc : Int} {s'}
    (h : (setHandler p topicFilter none).Returns s rc s') :
    (rc = failure ∧ s' = s ∧ slotOf (some topicFilter) s.self.messageHandlers = none) ∨
    (rc = success ∧ ∃ i, slotOf (some topicFilter) s.self.messageHandlers = some i ∧ s' = ⟨{ s.self with
      messageHandlers := s.self.messageHandlers.modify i fun h => { topicFilter := none, fp := h.fp.detach } }, s.env⟩) := by
  rw [setHandler, returns_obj_bind] at h
  dsimp only at h
  split at h
  · rename_i i hi
    rw [returns_set_bind] at h
    obtain ⟨rfl, rfl⟩ := Prog.returns_pure.mp h
    exact .inr ⟨rfl, i, hi, rfl⟩
  · rename_i hi
    obtain ⟨rfl, rfl⟩ := Prog.returns_pure.mp h
    exact .inl ⟨rfl, rfl, hi⟩

theorem filterAt_of_slotOf {topicFilter : Option Bytes} {hs : List MessageHandler} {i : Nat}
    (h : slotOf topicFilter hs = some i) : filterAt hs i = topicFilter := by
  obtain ⟨hlt, heq, _⟩ := List.findIdx?_eq_some_iff_getElem.mp h
  simpa [filterAt, List.getElem?_eq_getElem hlt] using heq

theorem filterAt_of_slotOf_none {topicFilter : Bytes} {hs : List MessageHandler} (h : slotOf (some topicFilter) hs = none)
    (i : Nat) : filterAt hs i ≠ some topicFilter := by
  intro hi
  obtain ⟨e, he, hf⟩ := Option.bind_eq_some_iff.mp hi
  have := List.findIdx?_eq_none_iff.mp h e (List.mem_of_getElem? he)
  simp [hf] at this

/-- No filter has two slots. -/
def Unique (hs : List MessageHandler) : Prop :=
  ∀ i j topicFilter, filterAt hs i = some topicFilter → filterAt hs j = some topicFilter → i = j

theorem Unique.cleared (hs : List MessageHandler) : Unique (cleared hs) := by
  intro i j topicFilter hi _
  rw [filterAt_cleared] at hi
  exact nomatch hi

/-- The filters of a table, each once. -/
theorem Unique.nodup {hs : List MessageHandler} (hu : Unique hs) : (hs.filterMap (·.topicFilter)).Nodup := by
  induction hs with
  | nil => exact List.nodup_nil
  | cons h hs ih =>
    have htail : Unique hs := fun i j f hi hj => Nat.succ.inj (hu (i + 1) (j + 1) f hi hj)
    cases hf : h.topicFilter with
    | none =>
      rw [List.filterMap_cons_none hf]
      exact ih htail
    | some f =>
      rw [List.filterMap_cons_some hf, List.nodup_cons]
      refine ⟨fun hmem => ?_, ih htail⟩
      obtain ⟨h', hh', hf'⟩ := List.mem_filterMap.mp hmem
      obtain ⟨j, hj⟩ := List.getElem?_of_mem hh'
      exact absurd (hu 0 (j + 1) f (filterAt_eq.mpr ⟨h, rfl, hf⟩) (filterAt_eq.mpr ⟨h', hj, hf'⟩)) (by simp)

/-- What an assignment to a slot makes of the filters. -/
theorem filterAt_modify {hs : List MessageHandler} {i : Nat} {g : MessageHandler → MessageHandler} {topicFilter : Option Bytes}
    (hg : ∀ h, (g h).topicFilter = topicFilter) (j : Nat) :
    filterAt (hs.modify i g) j = if i = j then hs[j]?.bind fun _ => topicFilter else filterAt hs j := by
  simp only [filterAt, List.getElem?_modify]
  split
  · cases hs[j]? <;> simp [hg]
  · cases hs[j]? <;> rfl

theorem Unique.forget {hs : List MessageHandler} (hu : Unique hs) {i : Nat} {g : MessageHandler → MessageHandler}
    (hg : ∀ h, (g h).topicFilter = none) : Unique (hs.modify i g) := by
  have kept {j : Nat} {f : Bytes} (hj : filterAt (hs.modify i g) j = some f) : filterAt hs j = some f := by
    rw [filterAt_modify hg] at hj
    split at hj
    · obtain ⟨_, _, hf⟩ := Option.bind_eq_some_iff.mp hj
      exact nomatch hf
    · exact hj
  exact fun j k f hj hk => hu j k f (kept hj) (kept hk)

/-- The other slots do not have the filter that a slot is for. -/
theorem Unique.other {hs : List MessageHandler} (hu : Unique hs) {topicFilter : Bytes} {i j : Nat}
    (hi : slotFor topicFilter hs = some i) (hj : i ≠ j) : filterAt hs j ≠ some topicFilter := by
  rcases Option.or_eq_some_iff.mp hi with hi | ⟨hi, _⟩
  · exact fun h => hj (hu i j topicFilter (filterAt_of_slotOf hi) h)
  · exact filterAt_of_slotOf_none hi j

/-- An entry put in its slot is the only one with its filter. -/
theorem Unique.modify {hs : List MessageHandler} (hu : Unique hs) {topicFilter : Bytes} {i : Nat}
    (hi : slotFor topicFilter hs = some i) {g : MessageHandler → MessageHandler} (hg : ∀ h, (g h).topicFilter = some topicFilter) :
    Unique (hs.modify i g) := by
  intro j k f hj hk
  rw [filterAt_modify hg] at hj hk
  by_cases hij : i = j <;> by_cases hik : i = k
  · exact hij.symm.trans hik
  · rw [if_pos hij] at hj
    rw [if_neg hik] at hk
    obtain ⟨_, _, hf⟩ := Option.bind_eq_some_iff.mp hj
    exact absurd (hk.trans hf.symm) (hu.other hi hik)
  · rw [if_neg hij] at hj
    rw [if_pos hik] at hk
    obtain ⟨_, _, hf⟩ := Option.bind_eq_some_iff.mp hk
    exact absurd (hj.trans hf.symm) (hu.other hi hij)
  · rw [if_neg hij] at hj
    rw [if_neg hik] at hk
    exact hu j k f hj hk

theorem setHandler_unique {topicFilter : Bytes} {attach : Option (FP → FP)} {s s' : Live σ (MQTTClient σ T)} {rc : Int}
    (hu : Unique s.self.messageHandlers) (h : (setHandler p topicFilter attach).Returns s rc s') : Unique s'.self.messageHandlers := by
  cases attach with
  | none =>
    rcases removeHandler_returns h with ⟨_, rfl, _⟩ | ⟨_, i, _, rfl⟩
    · exact hu
    · exact hu.forget fun _ => rfl
  | some attach =>
    rcases setHandler_returns h with ⟨_, rfl, _⟩ | ⟨_, i, e, hi, rfl⟩
    · exact hu
    · exact hu.modify hi fun _ => rfl

/-! ## Shedding -/

/-- What becomes of the table on the wire: the filters go where a clean session
is closed, and no session is opened. -/
structure Shed (s s' : Live σ (MQTTClient σ T)) : Prop where
  connected : s'.self.isconnected → s.self.isconnected
  cleansession : s'.self.cleansession = s.self.cleansession
  handlers : s'.self.messageHandlers = if s.self.isconnected ∧ ¬ s'.self.isconnected ∧ s.self.cleansession
    then cleared s.self.messageHandlers else s.self.messageHandlers
  default : s'.self.defaultMessageHandler = s.self.defaultMessageHandler

namespace Shed

variable {s t u : Live σ (MQTTClient σ T)}

theorem same (hcon : t.self.isconnected = s.self.isconnected) (hclean : t.self.cleansession = s.self.cleansession)
    (hh : t.self.messageHandlers = s.self.messageHandlers) (hd : t.self.defaultMessageHandler = s.self.defaultMessageHandler) :
    Shed s t := by
  refine ⟨fun h => hcon.symm.trans h, hclean, ?_, hd⟩
  rw [if_neg fun h => h.2.1 (hcon.trans h.1)]
  exact hh

theorem of_standing (h : standing t.self = standing s.self) : Shed s t :=
  same (congrArg Standing.isconnected h) (congrArg Standing.cleansession h) (congrArg Standing.messageHandlers h)
    (congrArg Standing.defaultMessageHandler h)

theorem trans (h : Shed s t) (h' : Shed t u) : Shed s u := by
  refine ⟨h.connected ∘ h'.connected, h'.cleansession.trans h.cleansession, ?_, h'.default.trans h.default⟩
  rw [h'.handlers, h.handlers, h.cleansession]
  by_cases ht : t.self.isconnected = true
  · have hs := h.connected ht
    simp [hs, ht]
  · have hu : ¬ u.self.isconnected = true := fun hu => ht (h'.connected hu)
    simp [ht, hu]

theorem shut (s : Live σ (MQTTClient σ T)) (e : σ) : Shed s ⟨shut s.self, e⟩ := by
  by_cases hcon : s.self.isconnected = true
  · have hno : (MQTTClient.shut s.self).isconnected = false := by rw [MQTTClient.shut, if_pos hcon, ended_isconnected]
    refine ⟨fun h => absurd (hno.symm.trans h) (by decide), shut_cleansession s.self, ?_, ?_⟩
    · rw [shut_handlers]
      simp [hcon, hno]
    · unfold MQTTClient.shut ended disconnected cleaned
      rw [if_pos hcon]
      dsimp only
      split <;> split <;> rfl
  · rw [MQTTClient.shut, if_neg hcon]
    exact same rfl rfl rfl rfl

/-- Where there is no session, the table stays. -/
theorem kept (h : Shed s t) (hcon : s.self.isconnected = false) : t.self.messageHandlers = s.self.messageHandlers := by
  rw [h.handlers, if_neg fun hs => absurd (hcon.symm.trans hs.1) (by decide)]

theorem unique (h : Shed s t) (hu : Unique s.self.messageHandlers) : Unique t.self.messageHandlers := by
  rw [h.handlers]
  split
  · exact .cleared _
  · exact hu

end Shed

theorem Cycled.shed {s s' : Live σ (MQTTClient σ T)} {rc : Int} (h : Cycled p s rc s') : Shed s s' := by
  cases h with
  | kept hw => exact .of_standing hw.left.1
  | @failed _ _ _ w hw => exact (Shed.of_standing hw.left.1).trans (.shut w w.env)

theorem Cycles.shed {s s' : Live σ (MQTTClient σ T)} {rcs : List Int} (h : Cycles p s rcs s') : Shed s s' := by
  induction h with
  | nil => exact .same rfl rfl rfl rfl
  | @cons s e _ _ _ _ hturn _ ih =>
    have hstart : Shed s ⟨s.self, e⟩ := .same rfl rfl rfl rfl
    exact hstart.trans (hturn.shed.trans ih)

end MQTTClient

end FEmbed
