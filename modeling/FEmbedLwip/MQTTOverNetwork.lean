/-
The C client over a network: what the stack has taken.

A write that fails may have taken any part of what it was given, and does not
say which. But the session is closed then, so in an open session the bytes that
the stack took are those that the client counts.
-/
import FEmbedLwip.MQTTClientSteps
import FEmbedLwip.MQTTNetworkSessions
import FEmbedLwip.MQTTTalk

namespace FEmbed

open Live
open Prog (Guarantee Guarantees)

namespace MQTTClientC

open Packet (Written)

variable {ε σ T : Type} {p : MQTTPlatformC ε T}

/-- What the client calls `mqttwrite` takes the first bytes of what it is given,
as many as it returns; nothing else that the client calls takes any. -/
structure Conveys (p : MQTTPlatformC ε T) (taken : ε → Bytes) : Prop where
  mqttwrite : ∀ bs timeout e, ∃ n ≤ bs.length, taken (p.mqttwrite bs timeout e).2 = taken e ++ bs.take n ∧
    (0 ≤ (p.mqttwrite bs timeout e).1 → (p.mqttwrite bs timeout e).1 = n)
  silent : ∀ {α : Type} {f : ε → α × ε}, Silent p f → ∀ e, taken (f e).2 = taken e
  fp : ∀ f topicName message e, taken (p.fp f topicName message e) = taken e

/-- Between two states, unless a write failed, the bytes taken are on the wire. -/
def onWire (taken : ε → Bytes) : Guarantee (Live ε (MQTTClientC T)) where
  rel s s' := ∃ log bs, s'.self.events = s.self.events ++ log ∧ taken s'.env = taken s.env ++ bs ∧ (.broken ∉ log → bs = wire log)
  refl s := ⟨[], [], (List.append_nil _).symm, (List.append_nil _).symm, fun _ => rfl⟩
  trans := by
    rintro s s' s'' ⟨log, bs, hevents, htaken, hwire⟩ ⟨log', bs', hevents', htaken', hwire'⟩
    refine ⟨log ++ log', bs ++ bs', ?_, ?_, fun hbroken => ?_⟩
    · rw [hevents', hevents, List.append_assoc]
    · rw [htaken', htaken, List.append_assoc]
    · rw [List.mem_append, not_or] at hbroken
      rw [wire_append, hwire hbroken.1, hwire' hbroken.2]

theorem onWire_quiet {taken : ε → Bytes} {e : MQTTEventC} (he : wire [e] = []) {s s' : Live ε (MQTTClientC T)}
    (hevents : s'.self.events = s.self.events ++ [e]) (henv : s'.env = s.env) : (onWire taken).rel s s' :=
  ⟨[e], [], hevents, by rw [henv, List.append_nil], fun _ => he.symm⟩

theorem onWire_silent {taken : ε → Bytes} {s s' : Live ε (MQTTClientC T)} (hevents : s'.self.events = s.self.events)
    (htaken : taken s'.env = taken s.env) : (onWire taken).rel s s' :=
  ⟨[], [], by rw [hevents, List.append_nil], by rw [htaken, List.append_nil], fun _ => rfl⟩

theorem guarantees_offer {taken : ε → Bytes} (hp : Conveys p taken) {sent length : Nat} {left : Int} :
    (offer p sent length left).Guarantees (onWire taken) := by
  intro s rc s' h
  rw [offer, returns_obj_bind] at h
  rcases Prog.returns_ite.mp h with ⟨-, h⟩ | ⟨-, h⟩
  · exact absurd h Prog.returns_undefined
  dsimp only at h
  rw [returns_call_bind] at h
  obtain ⟨n, -, htaken, hrc⟩ := hp.mqttwrite ((s.self.buf.drop sent).take length) left s.env
  rcases Prog.returns_ite.mp h with ⟨hpos, h⟩ | ⟨-, h⟩
  · rw [returns_happened_bind] at h
    obtain ⟨rfl, rfl⟩ := Prog.returns_pure.mp h
    refine ⟨_, _, rfl, htaken, fun _ => ?_⟩
    rw [hrc hpos, Int.toNat_natCast]
    exact (List.append_nil _).symm
  · rw [returns_happened_bind] at h
    obtain ⟨rfl, rfl⟩ := Prog.returns_pure.mp h
    exact ⟨_, _, rfl, htaken, fun hbroken => absurd List.mem_cons_self hbroken⟩

theorem steps_onWire {taken : ε → Bytes} (hp : Conveys p taken) : Steps p (onWire taken) where
  kept _ _ hevents := guarantees_set fun _ => onWire_silent (hevents _) rfl
  silent hf := guarantees_call fun s => onWire_silent rfl (hp.silent hf s.env)
  fp _ _ _ := guarantees_tell fun s => onWire_silent rfl (hp.fp _ _ _ s.env)
  offer _ _ _ := guarantees_offer hp
  connecting := guarantees_set fun _ => onWire_quiet rfl rfl rfl
  received _ := guarantees_set fun _ => onWire_quiet rfl rfl rfl
  delivered _ := onWire_quiet rfl rfl rfl
  cleanSession := by
    intro s u s' h
    rw [MQTTClientC.cleanSession, returns_set_bind] at h
    obtain rfl := returns_set.mp h
    exact onWire_quiet rfl rfl rfl
  setMessageHandler topicFilter fp := by
    intro s rc s' h
    rcases setMessageHandler_sets h with rfl | ⟨hs, rfl⟩
    · exact (onWire _).refl _
    · exact onWire_quiet rfl rfl rfl
  setDefault _ _ := onWire_quiet rfl rfl rfl

/-! ## Runs -/

/-- Whole packets. -/
def Packets (bs : Bytes) : Prop := ∃ said : List (Packet × Bytes), (∀ x ∈ said, Written x.1 x.2) ∧ bs = (said.map (·.2)).flatten

theorem Packets.nil : Packets [] := ⟨[], by simp, rfl⟩

theorem Packets.append {bs bs' : Bytes} (h : Packets bs) (h' : Packets bs') : Packets (bs ++ bs') := by
  obtain ⟨said, hwritten, rfl⟩ := h
  obtain ⟨said', hwritten', rfl⟩ := h'
  refine ⟨said ++ said', fun x hx => (List.mem_append.mp hx).elim (hwritten x) (hwritten' x), ?_⟩
  rw [List.map_append, List.flatten_append]

/-- A session that is open after an operation: a new one, or more of the one before. -/
inductive Continues (taken : ε → Bytes) (op : Op) (s s' : Live ε (MQTTClientC T)) : Prop
  | opened {options connect bs} (heq : op = .connect options) (before : s.self.isconnected = false)
      (written : Written (.connect (options.getD {})) connect) (packets : Packets bs)
      (env : taken s'.env = taken s.env ++ connect ++ bs) : Continues taken op s s'
  | more {bs} (before : s.self.isconnected = true) (packets : Packets bs) (env : taken s'.env = taken s.env ++ bs) :
      Continues taken op s s'

theorem Talk.packets {log : List MQTTEventC} {qs : List (Packet × Bytes)} (h : Talk log qs) :
    Packets (MQTTClientC.wire log) :=
  ⟨qs, h.wire.2, h.wire.1⟩

theorem Op.continues {taken : ε → Bytes} (hp : Conveys p taken) (hreads : Reads p) {charSigned : Bool} {op : Op}
    {s : Live ε (MQTTClientC T)} {rc : Int} {s'} (h : (op.run p charSigned).Returns s rc s') (hopen : s'.self.isconnected = true) :
    Continues taken op s s' := by
  obtain ⟨log, bs, hevents, htaken, hwire⟩ := (steps_onWire hp).run_keeps s rc s' h
  by_cases hop : op.within = true
  · rcases Op.ended hreads hop h with ⟨log', hevents', hcon, htalk⟩ | ⟨-, hclosed⟩
    · obtain rfl := List.append_cancel_left (hevents.symm.trans hevents')
      rw [hopen] at hcon
      have hbefore : s.self.isconnected = true := (Bool.and_eq_true_iff.mp hcon.symm).1
      obtain ⟨qs, hqs⟩ := htalk (hopen.trans hbefore.symm)
      obtain rfl := hwire (hqs.not_mem rfl)
      exact .more hbefore hqs.packets htaken
    · exact absurd (hopen.symm.trans hclosed) (by decide)
  cases op with
  | connect options =>
    obtain ⟨out, s₁, hconnect, hpure⟩ := Prog.returns_bind.mp h
    obtain ⟨-, rfl⟩ := Prog.returns_pure.mp hpure
    cases connect_opens hreads hconnect with
    | already hbefore hsame =>
      subst hsame
      exact .more hbefore .nil (List.append_nil _).symm
    | closed _ hclosed => exact absurd (hopen.symm.trans hclosed) (by decide)
    | @opened connect es log' qs hbefore hwritten hsaid hevents' htalk =>
      obtain rfl := List.append_cancel_left (hevents.symm.trans hevents')
      have hbroken : MQTTEventC.broken ∉ MQTTEventC.connecting :: (es ++ log') := by
        intro hmem
        rcases List.mem_cons.mp hmem with heq | hmem
        · cases heq
        rcases List.mem_append.mp hmem with hmem | hmem
        · exact absurd (hsaid.spoken _ hmem) (by decide)
        · exact htalk.not_mem rfl hmem
      obtain rfl := hwire hbroken
      refine .opened rfl hbefore hwritten htalk.packets (htaken.trans ?_)
      rw [List.append_assoc, ← hsaid.wire, ← wire_append]
      rfl
  | disconnect => exact absurd (hopen.symm.trans (disconnect_closes h)) (by decide)
  | _ => exact absurd rfl hop

/-- The client writes through a network. -/
structure Over (p : MQTTPlatformC ε T) (net : NetworkPlatform σ) (view : ε → Live (σ × List NetworkCall) Network) : Prop where
  mqttwrite : ∀ bs timeout e, (Network.mqttwrite net.recording bs (timeout % 2 ^ 32).toNat).Returns (view e)
    (p.mqttwrite bs timeout e).1 (view (p.mqttwrite bs timeout e).2)
  silent : ∀ {α : Type} {f : ε → α × ε}, Silent p f → ∀ e, Network.taken (view (f e).2).env.2 = Network.taken (view e).env.2
  fp : ∀ f topicName message e, Network.taken (view (p.fp f topicName message e)).env.2 = Network.taken (view e).env.2

variable {net : NetworkPlatform σ} {view : ε → Live (σ × List NetworkCall) Network}

/-- The bytes that the network has taken. -/
def takenBy (view : ε → Live (σ × List NetworkCall) Network) (e : ε) : Bytes := Network.taken (view e).env.2

theorem Over.conveys (h : Over p net view) (hnet : Network.TakesOffered net) : Conveys p (takenBy view) where
  mqttwrite bs timeout e := Network.mqttwrite_taken hnet (h.mqttwrite bs timeout e)
  silent := h.silent
  fp := h.fp

/-- The call that opened the session, and what was taken since. -/
inductive Since (taken : ε → Bytes) (calls : List (Prog.Call (Live ε (MQTTClientC T)) Op Int)) (s : Live ε (MQTTClientC T)) : Prop
  | intro {before c after options connect bs} (cut : calls = before ++ c :: after) (op : c.op = .connect options)
      (closed : c.before.self.isconnected = false) (open_ : ∀ d ∈ after, d.before.self.isconnected = true)
      (written : Written (.connect (options.getD {})) connect) (packets : Packets bs)
      (env : taken s.env = taken c.before.env ++ connect ++ bs) : Since taken calls s

theorem Since.more {taken : ε → Bytes} {past : List (Prog.Call (Live ε (MQTTClientC T)) Op Int)}
    {c : Prog.Call (Live ε (MQTTClientC T)) Op Int} (h : Since taken past c.before) (hopen : c.before.self.isconnected = true)
    {bs : Bytes} (hpackets : Packets bs) (henv : taken c.after.env = taken c.before.env ++ bs) :
    Since taken (past ++ [c]) c.after := by
  cases h with
  | @intro before c₀ after options connect bs₀ cut op closed open_ written packets env =>
    have hcut : past ++ [c] = before ++ c₀ :: (after ++ [c]) := by rw [cut, List.append_assoc, List.cons_append]
    refine .intro hcut op closed (fun d hd => ?_) written (packets.append hpackets) ?_
    · rcases List.mem_append.mp hd with hd | hd
      · exact open_ d hd
      · rw [List.mem_singleton.mp hd]
        exact hopen
    · rw [henv, env, List.append_assoc _ bs₀]

theorem since_step {taken : ε → Bytes} (hp : Conveys p taken) (hreads : Reads p) {charSigned : Bool}
    {past : List (Prog.Call (Live ε (MQTTClientC T)) Op Int)} {c : Prog.Call (Live ε (MQTTClientC T)) Op Int}
    (h : (c.op.run p charSigned).Returns c.before c.out c.after)
    (hsince : c.before.self.isconnected = true → Since taken past c.before) (hopen : c.after.self.isconnected = true) :
    Since taken (past ++ [c]) c.after := by
  cases Op.continues hp hreads h hopen with
  | opened heq hbefore written packets env =>
    exact .intro rfl heq hbefore (by simp) written packets env
  | more hbefore packets env => exact (hsince hbefore).more hbefore packets env

/-- **What the stack has taken in an open session is whole packets**, of which the
CONNECT is the first: no part of a packet, of what is behind it in the buffer
or of a write that failed. -/
theorem stack_whole (hreads : Reads p) (hover : Over p net view) (hnet : Network.TakesOffered net) {charSigned : Bool}
    {s₀ s : Live ε (MQTTClientC T)} {ms : Nat} {s₁} {calls : List (Prog.Call (Live ε (MQTTClientC T)) Op Int)}
    (hinit : (init p ms).Returns s₀ () s₁) (hrun : Prog.Calls (Op.run p charSigned) s₁ calls s)
    (hopen : s.self.isconnected = true) :
    ∃ before c after, calls = before ++ c :: after ∧ ∃ options, c.op = .connect options ∧ c.before.self.isconnected = false ∧
      (∀ d ∈ after, d.before.self.isconnected = true) ∧ ∃ (connect : Bytes) (said : List (Packet × Bytes)),
        (∃ size, Packet.serialize size (.connect (options.getD {})) = some (.ok connect)) ∧
        (∀ x ∈ said, ∃ size, x.1.serialize size = some (.ok x.2)) ∧
        Network.taken (view s.env).env.2 = Network.taken (view c.before.env).env.2 ++ connect ++ (said.map (·.2)).flatten := by
  have hclosed : s₁.self.isconnected = false := by
    rw [init, returns_call_bind, returns_call_bind, returns_set] at hinit
    exact hinit ▸ rfl
  have hstart : s₁.self.isconnected = true → Since (takenBy view) [] s₁ :=
    fun hopen => absurd (hopen.symm.trans hclosed) (by decide)
  have hsince := hrun.induct (I := fun past s => s.self.isconnected = true → Since (takenBy view) past s)
    (fun _ _ h => since_step (hover.conveys hnet) hreads h) hstart hopen
  cases hsince with
  | @intro before c after options connect bs cut op closed open_ written packets env =>
    obtain ⟨said, hsaid, rfl⟩ := packets
    exact ⟨before, c, after, cut, options, op, closed, open_, connect, said, written, hsaid, env⟩

end MQTTClientC

namespace OverDemo

open MQTTClientC

/-- A send takes at most five bytes, and the time is over then. -/
def net : NetworkPlatform Nat := { NetworkDemo.platform with
  send := fun _ bs e => (min 5 bs.length, e)
  checkForTimeOut := fun e => (true, e) }

theorem takesOffered : Network.TakesOffered net where
  send _ _ _ := Int.min_le_right _ _
  sslWrite _ _ _ := Int.min_le_right _ _

/-- What is to come, and the network with its record. -/
abbrev Env := (Bytes × Nat) × List NetworkCall

def network : Network := { mySocket := 3, transport := .esp, readCount := 0, ctx := none, ssl := none }

def view (e : Env) : Live (Nat × List NetworkCall) Network := ⟨network, 0, e.2⟩

def platform : MQTTPlatformC Env Unit where
  mqttread n timeout e := ((TalkDemo.platform.mqttread n timeout e.1).1, (TalkDemo.platform.mqttread n timeout e.1).2, e.2)
  mqttwrite bs _ e := (min 5 bs.length, e.1, e.2 ++ [.use [.socket 3]] ++ [.wrote [.socket 3] (bs.take (min 5 bs.length))])
  timerInit e := ((), e)
  timerCountdown _ e := ((), e)
  timerCountdownMS _ e := ((), e)
  timerIsExpired _ e := (e.1.2 = 0, (e.1.1, e.1.2 - 1), e.2)
  timerLeftMS _ e := (0, e)
  fp _ _ _ e := e
  indeterminate e := (0, e)

theorem reads : Reads platform := fun n timeout e => TalkDemo.reads n timeout e.1

theorem sendAll_once {bs : Bytes} {log : List NetworkCall} :
    (Network.sendAll net.recording (net.recording.send 3) bs).Returns ⟨network, 0, log⟩ (min 5 bs.length)
      ⟨network, 0, log ++ [.wrote [.socket 3] (bs.take (min 5 bs.length))]⟩ := by
  have hlen : min (5 : Int) bs.length = (min 5 bs.length : Nat) := by omega
  refine Prog.returns_loop.mpr (.inl (returns_call_bind.mpr ?_))
  refine Prog.returns_ite.mpr (.inr ⟨?_, ?_⟩)
  · dsimp only [NetworkPlatform.recording, recorded, net]
    rw [List.drop_zero, hlen]
    exact Int.not_lt.mpr (Int.natCast_nonneg _)
  · dsimp only [NetworkPlatform.recording, recorded, net]
    rw [List.drop_zero, hlen, Int.toNat_natCast, Nat.zero_add]
    by_cases hmore : min 5 bs.length < bs.length
    · rw [if_pos hmore]
      exact returns_call_bind.mpr (Prog.returns_pure.mpr ⟨rfl, rfl⟩)
    · rw [if_neg hmore]
      exact Prog.returns_pure.mpr ⟨rfl, rfl⟩

theorem over_net : Over platform net view where
  mqttwrite bs timeout e := by
    rw [Network.mqttwrite, returns_obj_bind]
    have hwait : (Network.awaitWritable net.recording network (timeout % 2 ^ 32).toNat).Returns (view e)
        { ready := 1, writeset := true, errset := false } ⟨network, 0, e.2 ++ [.use [.socket 3]]⟩ := ⟨1, rfl⟩
    exact returns_tell_bind.mpr (Prog.returns_bind.mpr ⟨_, _, hwait, sendAll_once⟩)
  silent hf e := by cases hf <;> rfl
  fp _ _ _ _ := rfl

def memory : Live Env (MQTTClientC Unit) := ⟨TalkDemo.memory.self, TalkDemo.memory.env, []⟩

def started : Live Env (MQTTClientC Unit) := ((init platform 1000).run 1 memory).2

def walked : Option (List (Prog.Call (Live Env (MQTTClientC Unit)) Op Int) × Live Env (MQTTClientC Unit)) :=
  Prog.walk (Op.run platform true) 60 started [.connect (some TalkDemo.options), .yield_ 100]

/-- The CONNECT, and then two acknowledgements. -/
theorem stack_whole_demo : ∃ (connect : Bytes) (said : List (Packet × Bytes)),
    (∃ size, Packet.serialize size (.connect TalkDemo.options) = some (.ok connect)) ∧
      (∀ x ∈ said, ∃ size, x.1.serialize size = some (.ok x.2)) ∧ wire TalkDemo.log = connect ++ (said.map (·.2)).flatten := by
  have hend : walked.map (fun x => (x.2.self.isconnected, Network.taken x.2.env.2,
      x.1.map fun c => (c.op, decide (Network.taken c.before.env.2 = [])))) =
      some (true, wire TalkDemo.log, [(.connect (some TalkDemo.options), true), (.yield_ 100, false)]) := by
    decide +kernel
  obtain ⟨⟨calls, s⟩, hwalk, hs⟩ := Option.map_eq_some_iff.mp hend
  simp only [Prod.mk.injEq] at hs
  obtain ⟨hopen, htaken, hops⟩ := hs
  have hinit : (init platform 1000).Returns memory () started := ⟨1, rfl⟩
  obtain ⟨before, c, after, rfl, options, hop, -, -, connect, said, hconnect, hsaid, henv⟩ :=
    stack_whole reads over_net takesOffered hinit (.of_walk hwalk) hopen
  have hmem : (c.op, decide (Network.taken c.before.env.2 = [])) ∈
      [(Op.connect (some TalkDemo.options), true), (Op.yield_ 100, false)] := by
    rw [← hops]
    exact List.mem_map.mpr ⟨c, by simp, rfl⟩
  rw [hop] at hmem
  simp only [List.mem_cons, Prod.mk.injEq, Op.connect.injEq, decide_eq_true_eq, reduceCtorEq, false_and, List.not_mem_nil,
    or_false] at hmem
  obtain ⟨rfl, hnil⟩ := hmem
  refine ⟨connect, said, hconnect, hsaid, ?_⟩
  have htaken : Network.taken (view s.env).env.2 = wire TalkDemo.log := htaken
  have hnil : Network.taken (view c.before.env).env.2 = [] := hnil
  rw [← htaken, henv, hnil]
  rfl

end OverDemo

end FEmbed
