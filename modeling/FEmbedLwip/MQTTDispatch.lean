/-
The message handlers of `MQTT::Client`, as a map from topic filters.

The calls of a life say which callback each filter has (`registered`): what was
registered last, if it was not removed, unsubscribed or cleaned away since. The
table is that map (`TableOK`) as long as no function takes the place of a method,
for the object of the method stays in the `FP` (`HandlerOp.fits`). So a message
goes to the callbacks of the filters that match, each once, and to the default
handler if there are none.
-/
import FEmbedLwip.MQTTSubscriptions

namespace FEmbed

open Live
open Function (update)

namespace MQTTClient

variable {σ T : Type} {p : MQTTPlatform σ T}

/-! ## Lives -/

/-- The operations that a handler's life is made of. -/
inductive HandlerOp where
  | setMessageHandler (topicFilter : Bytes) (callback : Option Nat)
  | setMessageFunction (topicFilter : Bytes) (funcCb : Option Nat)
  | setDefaultMessageHandler (mh : Option Nat)
  | setDefaultFunction (mh : Option Nat)
  | unsubscribe (topicFilter : Bytes)
  | closeSession
  | cleanSession
  | connect (options : ConnectData)
  | publish (topicName payload : Bytes) (qos : Nat) (retained : Bool)
  | yield_ (timeoutMs : Nat)
  | disconnect
  deriving DecidableEq, Repr

namespace HandlerOp

def run (p : MQTTPlatform σ T) : HandlerOp → Prog (Live σ (MQTTClient σ T)) Int
  | .setMessageHandler topicFilter callback => MQTTClient.setMessageHandler p topicFilter callback
  | .setMessageFunction topicFilter funcCb => MQTTClient.setMessageFunction p topicFilter funcCb
  | .setDefaultMessageHandler mh => do MQTTClient.setDefaultMessageHandler mh; return success
  | .setDefaultFunction mh => do MQTTClient.setDefaultFunction mh; return success
  | .unsubscribe topicFilter => MQTTClient.unsubscribe p topicFilter
  | .closeSession => do MQTTClient.closeSession; return success
  | .cleanSession => do MQTTClient.cleanSession; return success
  | .connect options => do return (← MQTTClient.connect p options).1
  | .publish topicName payload qos retained => do return (← publishId p topicName payload 0 qos retained).1
  | .yield_ timeoutMs => MQTTClient.yield_ p timeoutMs
  | .disconnect => MQTTClient.disconnect p

/-- The filter that an operation is about, and what it gives it where it succeeds. -/
def assigns : HandlerOp → Option (Bytes × Option Callback)
  | .setMessageHandler topicFilter callback => some (topicFilter, callback.map (.method · .messageHandler))
  | .setMessageFunction topicFilter funcCb => some (topicFilter, funcCb.map .function)
  | .unsubscribe topicFilter => some (topicFilter, none)
  | _ => none

/-- A function follows nothing or a function in its slot. -/
def fits (c : MQTTClient σ T) : HandlerOp → Prop
  | .setMessageFunction topicFilter (some _) =>
    ∀ h ∈ (slotFor topicFilter c.messageHandlers).bind (c.messageHandlers[·]?), h.fp.objCallback = none
  | .setDefaultFunction (some _) => c.defaultMessageHandler.objCallback = none
  | _ => True

instance (c : MQTTClient σ T) : (op : HandlerOp) → Decidable (op.fits c)
  | .setMessageFunction topicFilter (some _) => inferInstanceAs (Decidable
    (∀ h ∈ (slotFor topicFilter c.messageHandlers).bind (c.messageHandlers[·]?), h.fp.objCallback = none))
  | .setDefaultFunction (some _) => inferInstanceAs (Decidable (c.defaultMessageHandler.objCallback = none))
  | .setMessageFunction _ none | .setDefaultFunction none | .setMessageHandler .. | .setDefaultMessageHandler _ | .unsubscribe _
  | .closeSession | .cleanSession | .connect _ | .publish .. | .yield_ _ | .disconnect => isTrue trivial

end HandlerOp

/-- A call of a handler's life. -/
abbrev HandlerCall (σ T : Type) := Prog.Call (Live σ (MQTTClient σ T)) HandlerOp Int

/-- A call that cleans the session, or closes a clean one. -/
def cleans (c : HandlerCall σ T) : Bool :=
  match c.op with
  | .cleanSession => true
  | .closeSession | .disconnect => c.before.self.cleansession
  | _ => c.before.self.isconnected && !c.after.self.isconnected && c.before.self.cleansession

/-- What a call makes of the map. -/
def register (r : Bytes → Option Callback) (c : HandlerCall σ T) : Bytes → Option Callback :=
  let left := if cleans c then fun _ => none else r
  match c.op.assigns with
  | some (topicFilter, callback) => if c.out = success then update left topicFilter callback else left
  | none => left

/-- The callback of each topic filter. -/
def registered (cs : List (HandlerCall σ T)) : Bytes → Option Callback := cs.foldl register fun _ => none

/-- What a call makes of the default handler. -/
def setDefault (d : Option Callback) (c : HandlerCall σ T) : Option Callback :=
  match c.op with
  | .setDefaultMessageHandler mh => mh.map (.method · .defaultHandler)
  | .setDefaultFunction mh => mh.map .function
  | _ => d

/-- The default handler. -/
def defaulted (cs : List (HandlerCall σ T)) : Option Callback := cs.foldl setDefault none

/-- The table has one entry for each filter of the map, and a message is given
to its addressees and to nothing else. -/
structure Dispatches (p : MQTTPlatform σ T) (r : Bytes → Option Callback) (d : Option Callback) (s : Live σ (MQTTClient σ T)) :
    Prop where
  unique : Unique s.self.messageHandlers
  kept : ∀ f, (∃ i, filterAt s.self.messageHandlers i = some f) ↔ (r f).isSome
  delivers : ∀ (topicName : MQTTLenString) (message : Message), topicName.data.isSome →
    ∃ rc s' called, (deliverMessage p topicName message).Returns s rc s' ∧
      s'.self.events = s.self.events ++ called.map (.called · topicName message) ∧ Addressed r d topicName called

/-! ## The invariant -/

/-- The table is the map: each entry calls what its filter has in it. -/
structure TableOK (r : Bytes → Option Callback) (d : Option Callback) (c : MQTTClient σ T) : Prop where
  unique : Unique c.messageHandlers
  entries : ∀ (i : Nat) (h : MessageHandler) (f : Bytes), c.messageHandlers[i]? = some h → h.topicFilter = some f →
    ∃ cb, r f = some cb ∧ h.fp.target = some (some cb)
  kept : ∀ f, (r f).isSome → ∃ i, filterAt c.messageHandlers i = some f
  default : c.defaultMessageHandler.target = some d

namespace TableOK

variable {r : Bytes → Option Callback} {d : Option Callback} {c c' : MQTTClient σ T}

theorem same (h : TableOK r d c) (hh : c'.messageHandlers = c.messageHandlers)
    (hd : c'.defaultMessageHandler = c.defaultMessageHandler) : TableOK r d c' :=
  ⟨hh ▸ h.unique, hh ▸ h.entries, hh ▸ h.kept, hd ▸ h.default⟩

/-- No filter is left. -/
theorem cleared (h : TableOK r d c) (hh : c'.messageHandlers = MQTTClient.cleared c.messageHandlers)
    (hd : c'.defaultMessageHandler = c.defaultMessageHandler) : TableOK (fun _ => none) d c' := by
  refine ⟨hh ▸ .cleared _, fun i e f h₁ h₂ => ?_, nofun, hd ▸ h.default⟩
  have hat : filterAt c'.messageHandlers i = some f := filterAt_eq.mpr ⟨e, h₁, h₂⟩
  rw [hh, filterAt_cleared] at hat
  exact nomatch hat

theorem shed {s s' : Live σ (MQTTClient σ T)} (h : TableOK r d s.self) (hs : Shed s s') :
    TableOK (if s.self.isconnected && !s'.self.isconnected && s.self.cleansession then fun _ => none else r) d s'.self := by
  have hhandlers := hs.handlers
  by_cases hclean : s.self.isconnected ∧ ¬ s'.self.isconnected ∧ s.self.cleansession
  · rw [if_pos hclean] at hhandlers
    rw [if_pos (by simp [hclean])]
    exact h.cleared hhandlers hs.default
  · rw [if_neg hclean] at hhandlers
    rw [if_neg (by simpa [and_assoc] using hclean)]
    exact h.same hhandlers hs.default

theorem ended (h : TableOK r d c) : TableOK (if c.cleansession then fun _ => none else r) d (MQTTClient.ended c) := by
  have hhandlers := ended_handlers c
  by_cases hclean : c.cleansession = true
  · rw [if_pos hclean] at hhandlers ⊢
    exact h.cleared hhandlers (ended_default c)
  · rw [if_neg hclean] at hhandlers ⊢
    exact h.same hhandlers (ended_default c)

/-- A filter that has no slot is not in the map. -/
theorem absent (h : TableOK r d c) {f : Bytes} (hf : slotOf (some f) c.messageHandlers = none) : r f = none := by
  refine Option.not_isSome_iff_eq_none.mp fun hsome => ?_
  obtain ⟨i, hi⟩ := h.kept f hsome
  exact filterAt_of_slotOf_none hf i hi

theorem remove (h : TableOK r d c) {f : Bytes} {i : Nat} (hi : slotOf (some f) c.messageHandlers = some i) :
    TableOK (update r f none) d { c with messageHandlers := c.messageHandlers.modify i fun e =>
      { topicFilter := none, fp := e.fp.detach } } := by
  refine ⟨h.unique.forget fun _ => rfl, fun j e g h₁ h₂ => ?_, fun g hg => ?_, h.default⟩
  · simp only [List.getElem?_modify] at h₁
    split at h₁
    · obtain ⟨_, _, rfl⟩ := Option.map_eq_some_iff.mp h₁
      exact nomatch h₂
    · rename_i hij
      have hj : c.messageHandlers[j]? = some e := by simpa using h₁
      have hne : g ≠ f := by
        rintro rfl
        exact hij (h.unique i j g (filterAt_of_slotOf hi) (filterAt_eq.mpr ⟨e, hj, h₂⟩))
      rw [Function.update_of_ne hne]
      exact h.entries j e g hj h₂
  · by_cases hgf : g = f
    · subst hgf
      rw [Function.update_self] at hg
      exact nomatch hg
    · rw [Function.update_of_ne hgf] at hg
      obtain ⟨j, hj⟩ := h.kept g hg
      refine ⟨j, (filterAt_modify (g := fun e => { topicFilter := none, fp := e.fp.detach }) (fun _ => rfl) j).trans ?_⟩
      rw [if_neg, hj]
      rintro rfl
      exact hgf (Option.some.inj (hj.symm.trans (filterAt_of_slotOf hi)))

theorem assign (h : TableOK r d c) {f : Bytes} {cb : Callback} {attach : FP → FP} {i : Nat}
    (hi : slotFor f c.messageHandlers = some i)
    (ht : ∀ e ∈ c.messageHandlers[i]?, (attach e.fp).target = some (some cb)) :
    TableOK (update r f (some cb)) d { c with messageHandlers := c.messageHandlers.modify i fun e =>
      { topicFilter := some f, fp := attach e.fp } } := by
  refine ⟨h.unique.modify hi fun _ => rfl, fun j e g h₁ h₂ => ?_, fun g hg => ?_, h.default⟩
  · simp only [List.getElem?_modify] at h₁
    split at h₁
    · rename_i hij
      subst hij
      obtain ⟨e₀, he₀, rfl⟩ := Option.map_eq_some_iff.mp h₁
      obtain rfl := Option.some.inj h₂
      exact ⟨cb, Function.update_self .., ht e₀ he₀⟩
    · rename_i hij
      have hj : c.messageHandlers[j]? = some e := by simpa using h₁
      have hne : g ≠ f := by
        rintro rfl
        exact h.unique.other hi hij (filterAt_eq.mpr ⟨e, hj, h₂⟩)
      rw [Function.update_of_ne hne]
      exact h.entries j e g hj h₂
  · have hat (j : Nat) : filterAt (c.messageHandlers.modify i fun e => { topicFilter := some f, fp := attach e.fp }) j =
        if i = j then c.messageHandlers[j]?.bind fun _ => some f else filterAt c.messageHandlers j :=
      filterAt_modify (g := fun e => { topicFilter := some f, fp := attach e.fp }) (fun _ => rfl) j
    by_cases hgf : g = f
    · subst hgf
      obtain ⟨e₀, he₀⟩ := getElem?_of_slotFor hi
      refine ⟨i, (hat i).trans ?_⟩
      rw [if_pos rfl, he₀]
      rfl
    · rw [Function.update_of_ne hgf] at hg
      obtain ⟨j, hj⟩ := h.kept g hg
      refine ⟨j, (hat j).trans ?_⟩
      rw [if_neg, hj]
      rintro rfl
      -- The slot was empty, or it was that of `f`.
      rcases Option.or_eq_some_iff.mp hi with hi | ⟨_, hi⟩
      · exact hgf (Option.some.inj (hj.symm.trans (filterAt_of_slotOf hi)))
      · exact nomatch hj.symm.trans (filterAt_of_slotOf hi)

theorem setHandler {s s' : Live σ (MQTTClient σ T)} {f : Bytes} {callback : Option Callback} {rc : Int} (h : TableOK r d s.self)
    (hfits : FitsIn f s.self.messageHandlers callback)
    (hr : (MQTTClient.setHandler p f (callback.map attachOf)).Returns s rc s') :
    TableOK (if rc = success then update r f callback else r) d s'.self := by
  cases callback with
  | none =>
    rcases removeHandler_returns hr with ⟨rfl, rfl, _⟩ | ⟨rfl, i, hi, rfl⟩
    · rwa [if_neg (by decide)]
    · rw [if_pos rfl]
      exact h.remove hi
  | some cb =>
    rcases setHandler_returns hr with ⟨rfl, rfl, _⟩ | ⟨rfl, i, e, hi, rfl⟩
    · rwa [if_neg (by decide)]
    · rw [if_pos rfl]
      refine h.assign hi fun e₀ he₀ => ?_
      cases cb with
      | method object m => rfl
      | function f =>
        have hobj := hfits f rfl i e₀ hi he₀
        simp [attachOf, FP.attachFunction, FP.target, hobj]

/-- A removal that finds nothing leaves the map as it is. -/
theorem removed {s s' : Live σ (MQTTClient σ T)} {f : Bytes} {rc : Int} (h : TableOK r d s.self)
    (hr : (setMessageFunction p f none).Returns s rc s') : TableOK (update r f none) d s'.self := by
  rcases removeHandler_returns hr with ⟨_, rfl, hno⟩ | ⟨_, i, hi, rfl⟩
  · rwa [← h.absent hno, Function.update_eq_self]
  · exact h.remove hi

end TableOK

/-- An UNSUBACK is taken for one. -/
theorem deserializeUnsuback_of_type {packet buf : Bytes} {ack : MQTTPacket.Ack} (htype : packetType packet = MsgType.unsuback.code)
    (hpre : packet <+: buf) (h : MQTTPacket.deserializeUnsuback buf = some ack) : ack.rc = 1 := by
  obtain ⟨rest, rfl⟩ := hpre
  cases packet with
  | nil => exact absurd htype (by decide)
  | cons b packet =>
    have hb : MQTTPacket.headerType b = MsgType.unsuback.code := htype
    simp only [MQTTPacket.deserializeUnsuback, MQTTPacket.deserializeAck, List.cons_append, List.getElem?_cons_zero,
      Option.bind_eq_bind, Option.bind_some, List.tail_cons, Option.bind_eq_some_iff] at h
    obtain ⟨ack', ⟨x, _, h'⟩, h⟩ := h
    have htype' : ack'.packettype = MsgType.unsuback.code := by
      split at h'
      · obtain rfl := Option.some.inj h'
        exact hb
      · obtain ⟨_, _, h'⟩ := Option.bind_eq_some_iff.mp h'
        obtain rfl := Option.some.inj h'
        exact hb
    rw [if_pos htype'] at h
    obtain rfl := Option.some.inj h
    rfl

/-- A call that leaves the session open does not clean. -/
theorem not_cleans {c : HandlerCall σ T} (hop : c.op ≠ .cleanSession ∧ c.op ≠ .closeSession ∧ c.op ≠ .disconnect)
    (hcon : c.after.self.isconnected = c.before.self.isconnected) : cleans c = false := by
  unfold cleans
  split
  · exact absurd ‹_› hop.1
  · exact absurd ‹_› hop.2.1
  · exact absurd ‹_› hop.2.2
  · rw [hcon, Bool.and_not_self, Bool.false_and]

/-- What a call leaves. -/
theorem TableOK.step (hread : Reads p) {r : Bytes → Option Callback} {d : Option Callback} {c : HandlerCall σ T}
    (h : TableOK r d c.before.self) (hfits : c.op.fits c.before.self) (hr : (c.op.run p).Returns c.before c.out c.after) :
    TableOK (register r c) (setDefault d c) c.after.self := by
  obtain ⟨op, s, out, s'⟩ := c
  dsimp only at h hfits hr ⊢
  cases op with
  | setMessageHandler topicFilter callback =>
    rw [HandlerOp.run, setMessageHandler_eq] at hr
    rw [register, not_cleans (by simp) (setHandler_others hr).2.1]
    exact h.setHandler (fun f hf => by simp at hf) hr
  | setMessageFunction topicFilter funcCb =>
    rw [HandlerOp.run, setMessageFunction_eq] at hr
    rw [register, not_cleans (by simp) (setHandler_others hr).2.1]
    refine h.setHandler (fun f hf i e hi he => ?_) hr
    obtain ⟨f', rfl, _⟩ := Option.map_eq_some_iff.mp hf
    exact hfits e (Option.bind_eq_some_iff.mpr ⟨i, hi, he⟩)
  | setDefaultMessageHandler mh =>
    obtain ⟨_, t, hset, hpure⟩ := Prog.returns_bind.mp hr
    obtain rfl := returns_set.mp hset
    obtain ⟨rfl, rfl⟩ := Prog.returns_pure.mp hpure
    rw [register, not_cleans (by simp) rfl]
    refine ⟨h.unique, h.entries, h.kept, ?_⟩
    cases mh <;> rfl
  | setDefaultFunction mh =>
    obtain ⟨_, t, hset, hpure⟩ := Prog.returns_bind.mp hr
    obtain rfl := returns_set.mp hset
    obtain ⟨rfl, rfl⟩ := Prog.returns_pure.mp hpure
    rw [register, not_cleans (by simp) rfl]
    refine ⟨h.unique, h.entries, h.kept, ?_⟩
    cases mh with
    | none => rfl
    | some f =>
      have hobj : s.self.defaultMessageHandler.objCallback = none := hfits
      simp [FP.attachFunction, FP.target, hobj, setDefault]
  | unsubscribe topicFilter =>
    cases unsubscribe_returns hread hr with
    | unasked => exact h.shed (.same rfl rfl rfl rfl)
    | @unanswered bs e rcs _ _ _ hcycles => exact h.shed ((unheard_asked s bs e).shed.trans hcycles.shed)
    | @answered bs e rcs packet u ack _ _ _ hcycles hwait hack hs' =>
      have hu := h.shed ((unheard_asked s bs e).shed.trans hcycles.shed)
      rw [if_pos (deserializeUnsuback_of_type hwait.ofType hwait.readbuf hack)] at hs'
      obtain ⟨rc, hset⟩ := hs'
      rw [← (setHandler_others hset).2.1] at hu
      exact hu.removed hset
  | closeSession =>
    obtain ⟨_, t, hclose, hpure⟩ := Prog.returns_bind.mp hr
    obtain rfl := closeSession_returns.mp hclose
    obtain ⟨rfl, rfl⟩ := Prog.returns_pure.mp hpure
    exact h.ended
  | cleanSession =>
    obtain ⟨_, t, hclean, hpure⟩ := Prog.returns_bind.mp hr
    obtain rfl := cleanSession_returns.mp hclean
    obtain ⟨rfl, rfl⟩ := Prog.returns_pure.mp hpure
    exact h.cleared rfl rfl
  | connect options =>
    obtain ⟨data, hr⟩ := returns_fst hr
    have hc := connect_returns hread hr
    have hno : cleans (⟨.connect options, s, out, s'⟩ : HandlerCall σ T) = false := by
      unfold cleans
      dsimp only
      cases hcon : s.self.isconnected with
      | false => rfl
      | true =>
        rw [hc.stays hcon]
        rfl
    rw [register, hno]
    exact h.same hc.handlers.1 hc.handlers.2
  | publish topicName payload qos retained =>
    obtain ⟨id, hr⟩ := returns_fst hr
    exact h.shed (publishId_returns hread hr).shed
  | yield_ timeoutMs =>
    obtain ⟨rcs, hcycles, _⟩ := yield_returns hread hr
    exact h.shed hcycles.shed
  | disconnect =>
    obtain ⟨u, hunheard, rfl⟩ := disconnect_returns hr
    have hu : TableOK r d u.self := h.same hunheard.handlers hunheard.default
    have hended := hu.ended
    rw [hunheard.cleansession] at hended
    exact hended

theorem TableOK.construct {s s' : Live σ (MQTTClient σ T)} (h : (construct p).Returns s () s') :
    TableOK (fun _ => none) none s'.self := by
  obtain ⟨t, u, _, h⟩ := Prog.returns_bind.mp h
  rw [returns_set_bind] at h
  obtain rfl := closeSession_returns.mp h
  have hstart : TableOK (fun _ => none) none { u.self with
      lastReceived := t, packetid := 0, messageHandlers := List.replicate p.maxMessageHandlers {}, defaultMessageHandler := {},
      cleansession := true, incomingQoS2messages := List.replicate p.maxIncomingQoS2Messages 0 } := by
    have hnone (i : Nat) (e : MessageHandler) (he : (List.replicate p.maxMessageHandlers ({} : MessageHandler))[i]? = some e) :
        e.topicFilter = none := by
      rw [(List.mem_replicate.mp (List.mem_of_getElem? he)).2]
    refine ⟨fun i j f hi _ => ?_, fun i e f h₁ h₂ => ?_, nofun, rfl⟩
    · obtain ⟨e, he, hf⟩ := filterAt_eq.mp hi
      exact absurd (hf.symm.trans (hnone i e he)) (by simp)
    · exact absurd (h₂.symm.trans (hnone i e h₁)) (by simp)
  exact hstart.ended

theorem TableOK.of_calls (hread : Reads p) {s s' : Live σ (MQTTClient σ T)} {cs : List (HandlerCall σ T)}
    {r : Bytes → Option Callback} {d : Option Callback} (h : TableOK r d s.self) (hcs : Prog.Calls (HandlerOp.run p) s cs s')
    (hfits : ∀ c ∈ cs, c.op.fits c.before.self) : TableOK (cs.foldl register r) (cs.foldl setDefault d) s'.self := by
  induction hcs generalizing r d with
  | nil => exact h
  | @cons c cs s' hc _ ih =>
    exact ih (h.step hread (hfits c List.mem_cons_self) hc) fun c' hc' => hfits c' (List.mem_cons_of_mem c hc')

/-! ## Delivery -/

theorem topicMatches_isSome {f : Bytes} {topicName : MQTTLenString} (h : topicName.data.isSome) :
    (topicMatches f topicName).isSome := by
  obtain ⟨data, hd⟩ := Option.isSome_iff_exists.mp h
  rw [topicMatches, MQTTPacket.equals, isTopicMatched, hd]
  dsimp only
  split
  · rfl
  · rfl
  · rename_i heq
    split at heq <;> exact absurd heq (by simp)

/-- A handler that is followed is called. -/
theorem callHandler_returns {fp : FP} {cb : Callback} (h : fp.target = some (some cb)) (topicName : MQTTLenString)
    (message : Message) (s : Live σ (MQTTClient σ T)) :
    (callHandler p fp topicName message).Returns s ()
      ⟨{ s.self with events := s.self.events ++ [.called cb topicName message] }, p.callback cb topicName message s.env⟩ := by
  rw [callHandler, h]
  exact Prog.returns_bind.mpr ⟨(), _, Prog.returns_gets_bind.mpr (returns_set.mpr rfl), returns_tell.mpr rfl⟩

theorem FP.attached_of_target {fp : FP} {cb : Callback} (h : fp.target = some (some cb)) : fp.attached := by
  cases hc : fp.code with
  | none => simp [FP.target, hc] at h
  | some code => simp [FP.attached, hc]

theorem callHandler_none {fp : FP} (h : fp.target = some none) (topicName : MQTTLenString) (message : Message)
    (s : Live σ (MQTTClient σ T)) : (callHandler p fp topicName message).Returns s () s := by
  rw [callHandler, h]
  exact Prog.returns_pure.mpr ⟨rfl, rfl⟩

/-- The slots whose filters match, each with what its filter has in the map. -/
def hits (r : Bytes → Option Callback) (topicName : MQTTLenString) (hs : List MessageHandler) : List (Bytes × Callback) :=
  hs.filterMap fun h => h.topicFilter.bind fun f => if topicMatches f topicName = some true then (r f).map (f, ·) else none

theorem hits_sublist (r : Bytes → Option Callback) (topicName : MQTTLenString) (hs : List MessageHandler) :
    ((hits r topicName hs).map Prod.fst).Sublist (hs.filterMap (·.topicFilter)) := by
  induction hs with
  | nil => exact .slnil
  | cons h hs ih =>
    cases hf : h.topicFilter with
    | none =>
      rw [hits, List.filterMap_cons_none (by rw [hf]; rfl), List.filterMap_cons_none hf]
      exact ih
    | some f =>
      rw [hits, List.filterMap_cons, hf, List.filterMap_cons_some hf, Option.bind_some]
      by_cases hm : topicMatches f topicName = some true
      · rw [if_pos hm]
        cases r f with
        | none => exact ih.cons f
        | some cb => exact ih.cons_cons f
      · rw [if_neg hm]
        exact ih.cons f

theorem TableOK.mem_hits {r : Bytes → Option Callback} {d : Option Callback} {c : MQTTClient σ T} (h : TableOK r d c)
    {topicName : MQTTLenString} {f : Bytes} {cb : Callback} :
    (f, cb) ∈ hits r topicName c.messageHandlers ↔ r f = some cb ∧ topicMatches f topicName = some true := by
  rw [hits, List.mem_filterMap]
  constructor
  · rintro ⟨e, he, hhit⟩
    obtain ⟨g, hg, hhit⟩ := Option.bind_eq_some_iff.mp hhit
    obtain ⟨hm, hhit⟩ := Option.ite_none_right_eq_some.mp hhit
    obtain ⟨cb', hcb, hpair⟩ := Option.map_eq_some_iff.mp hhit
    obtain ⟨rfl, rfl⟩ := Prod.mk.inj hpair
    exact ⟨hcb, hm⟩
  · rintro ⟨hcb, hm⟩
    obtain ⟨i, hi⟩ := h.kept f (by rw [hcb]; rfl)
    obtain ⟨e, he, hf⟩ := filterAt_eq.mp hi
    refine ⟨e, List.mem_of_getElem? he, ?_⟩
    rw [hf, Option.bind_some, if_pos hm, hcb]
    rfl

/-- The loop calls what the map has for the filters that match, in the order of the table. -/
theorem deliverLoop_returns {r : Bytes → Option Callback} {topicName : MQTTLenString} (hname : topicName.data.isSome) (message : Message)
    {hs : List MessageHandler} (hent : ∀ h ∈ hs, ∀ f, h.topicFilter = some f →
      ∃ cb, r f = some cb ∧ h.fp.target = some (some cb)) (found : Bool) (s : Live σ (MQTTClient σ T)) :
    ∃ e, (deliverLoop p topicName message hs found).Returns s (found || !(hits r topicName hs).isEmpty)
      ⟨{ s.self with events := s.self.events ++ ((hits r topicName hs).map Prod.snd).map (.called · topicName message) }, e⟩ := by
  induction hs generalizing found s with
  | nil => exact ⟨s.env, by simp [deliverLoop, hits]⟩
  | cons h hs ih =>
    have ih := ih fun h' hh => hent h' (.tail _ hh)
    rw [deliverLoop]
    cases hf : h.topicFilter with
    | none =>
      obtain ⟨e, he⟩ := ih found s
      refine ⟨e, ?_⟩
      rw [hits, List.filterMap_cons_none (by rw [hf]; rfl)]
      exact he
    | some f =>
      obtain ⟨hit, hm⟩ := Option.isSome_iff_exists.mp (topicMatches_isSome (f := f) hname)
      obtain ⟨cb, hcb, ht⟩ := hent h (.head _) f hf
      simp only [hm]
      cases hit with
      | false =>
        obtain ⟨e, he⟩ := ih found s
        refine ⟨e, ?_⟩
        rw [hits, List.filterMap_cons_none (by simp [hf, hm]), if_neg (by simp)]
        exact he
      | true =>
        have hcall := callHandler_returns (p := p) ht topicName message s
        obtain ⟨e, he⟩ := ih true ⟨{ s.self with events := s.self.events ++ [.called cb topicName message] },
          p.callback cb topicName message s.env⟩
        refine ⟨e, ?_⟩
        rw [hits, List.filterMap_cons_some (b := (f, cb)) (by simp [hf, hm, hcb]),
          if_pos ⟨rfl, FP.attached_of_target ht⟩, Prog.returns_bind_of hcall]
        simpa [hits] using he

theorem TableOK.delivers {r : Bytes → Option Callback} {d : Option Callback} {s : Live σ (MQTTClient σ T)} (h : TableOK r d s.self)
    {topicName : MQTTLenString} (hname : topicName.data.isSome) (message : Message) :
    ∃ rc s' called, (deliverMessage p topicName message).Returns s rc s' ∧
      s'.self.events = s.self.events ++ called.map (.called · topicName message) ∧ Addressed r d topicName called := by
  have hent : ∀ e ∈ s.self.messageHandlers, ∀ f, e.topicFilter = some f →
      ∃ cb, r f = some cb ∧ e.fp.target = some (some cb) := by
    intro e he f hf
    obtain ⟨i, hi⟩ := List.getElem?_of_mem he
    exact h.entries i e f hi hf
  have addressed {called : List Callback} (hcalled : called = if hits r topicName s.self.messageHandlers = [] then d.toList
      else (hits r topicName s.self.messageHandlers).map Prod.snd) : Addressed r d topicName called :=
    ⟨_, h.unique.nodup.sublist (hits_sublist ..), fun _ _ => h.mem_hits, hcalled⟩
  obtain ⟨e, hl⟩ := deliverLoop_returns (p := p) hname message hent false s
  rw [deliverMessage]
  cases hhits : hits r topicName s.self.messageHandlers with
  | cons hit rest =>
    rw [hhits] at hl addressed
    refine ⟨success, ⟨{ s.self with events := _ }, e⟩, (hit :: rest).map Prod.snd, ?_, rfl, addressed rfl⟩
    rw [returns_obj_bind, Prog.returns_bind_of hl, returns_obj_bind, if_pos (by simp)]
    exact Prog.returns_pure.mpr ⟨rfl, rfl⟩
  | nil =>
    rw [hhits] at hl addressed
    have hl : (deliverLoop p topicName message s.self.messageHandlers false).Returns s false ⟨s.self, e⟩ := by
      simpa using hl
    simp only [returns_obj_bind, Prog.returns_bind_of hl]
    cases d with
    | none =>
      have hcall := callHandler_none (p := p) h.default topicName message ⟨s.self, e⟩
      by_cases hatt : s.self.defaultMessageHandler.attached
      · refine ⟨success, ⟨s.self, e⟩, [], ?_, by simp, addressed rfl⟩
        rw [if_neg (by simp), if_pos hatt, Prog.returns_bind_of hcall]
        exact Prog.returns_pure.mpr ⟨rfl, rfl⟩
      · refine ⟨failure, ⟨s.self, e⟩, [], ?_, by simp, addressed rfl⟩
        rw [if_neg (by simp), if_neg hatt]
        exact Prog.returns_pure.mpr ⟨rfl, rfl⟩
    | some cb =>
      have hcall := callHandler_returns (p := p) h.default topicName message ⟨s.self, e⟩
      refine ⟨success, ⟨{ s.self with events := _ }, p.callback cb topicName message e⟩, [cb], ?_, rfl, addressed rfl⟩
      rw [if_neg (by simp), if_pos (FP.attached_of_target h.default), Prog.returns_bind_of hcall]
      exact Prog.returns_pure.mpr ⟨rfl, rfl⟩

/-- **Handlers are dispatched as they were registered** in every life in which
no function is registered where an object is left. -/
theorem dispatches_of_fits (hread : Reads p) {s₀ s s' : Live σ (MQTTClient σ T)} {cs : List (HandlerCall σ T)}
    (hnew : (construct p).Returns s₀ () s) (hcs : Prog.Calls (HandlerOp.run p) s cs s')
    (hfits : ∀ c ∈ cs, c.op.fits c.before.self) : Dispatches p (registered cs) (defaulted cs) s' := by
  have hok : TableOK (registered cs) (defaulted cs) s'.self := (TableOK.construct hnew).of_calls hread hcs hfits
  refine ⟨hok.unique, fun f => ⟨fun ⟨i, hi⟩ => ?_, hok.kept f⟩, fun topicName message hname => hok.delivers hname message⟩
  obtain ⟨e, he, hf⟩ := filterAt_eq.mp hi
  obtain ⟨cb, hcb, _⟩ := hok.entries i e f he hf
  rw [hcb]
  rfl

/-! ## Two lives -/

namespace Wire

/-- A client that is constructed on memory that held another one. -/
def constructed (pieces : List Bytes) : Live Script (MQTTClient Script Nat) := ((construct platform).run 1 (start pieces)).2

theorem constructed_returns (pieces : List Bytes) : (construct platform).Returns (start pieces) () (constructed pieces) := ⟨1, rfl⟩

def handlerCalls (pieces : List Bytes) (ops : List HandlerOp) : List (HandlerCall Script Nat) × Live Script (MQTTClient Script Nat) :=
  Prog.walked (HandlerOp.run platform) 12 (constructed pieces) ops

/-- A method takes the place of a function, a filter is unsubscribed from, the
session is cleaned, and two filters are registered again. -/
def registrations : List HandlerOp :=
  [.setMessageFunction [97] (some 2), .setMessageHandler [97] (some 1), .setDefaultFunction (some 7), .setMessageHandler [98] (some 3),
    .connect { keepAliveInterval := 0, cleansession := true }, .unsubscribe [98], .setMessageHandler [98] none, .disconnect,
    .setMessageHandler [43] (some 5), .setMessageHandler [97] (some 4)]

/-- The CONNACK and the UNSUBACK for them. -/
def answers : List Bytes := [connack ++ [176, 2, 0, 1]]

theorem registrations_dispatched :
    registered (handlerCalls answers (registrations.take 5)).1 [98] = some (.method 3 .messageHandler) ∧
      registered (handlerCalls answers (registrations.take 6)).1 [98] = none ∧
      registered (handlerCalls answers (registrations.take 8)).1 [97] = none ∧
      registered (handlerCalls answers registrations).1 [97] = some (.method 4 .messageHandler) ∧
      Dispatches platform (registered (handlerCalls answers registrations).1) (defaulted (handlerCalls answers registrations).1)
        (handlerCalls answers registrations).2 := by
  refine ⟨by decide +kernel, by decide +kernel, by decide +kernel, by decide +kernel, ?_⟩
  exact dispatches_of_fits reads (constructed_returns answers) (.of_walked (by decide +kernel)) (by decide +kernel)

/-- A method, then a function in its place. -/
def replacement : List HandlerOp := [.setMessageHandler [97] (some 1), .setMessageFunction [97] (some 2)]

/-- The object is left, and a message for the filter is given to neither. -/
theorem replaced_not_called : ¬ ∀ s₀ s cs s', (construct platform).Returns s₀ () s → Prog.Calls (HandlerOp.run platform) s cs s' →
    Dispatches platform (registered cs) (defaulted cs) s' := by
  intro h
  have hcs : Prog.Calls (HandlerOp.run platform) (constructed []) (handlerCalls [] replacement).1 (handlerCalls [] replacement).2 :=
    .of_walked (by decide +kernel)
  obtain ⟨rc, s', called, hr, _⟩ := (h _ _ _ _ (constructed_returns []) hcs).delivers
    { len := 1, data := some [97] } ⟨0, false, false, 0, [], 0⟩ rfl
  have hu : (deliverMessage platform { len := 1, data := some [97] } ⟨0, false, false, 0, [], 0⟩).Undef
      (handlerCalls [] replacement).2 := ⟨1, rfl⟩
  exact hu.not_returns hr

end Wire

end MQTTClient

end FEmbed
