/-
The message handlers of the C client, as a map from topic filters.

`registered` says what a log has left in the map, and the slots of the client
are an association list for it, whatever was called (`TableOK`). So a message
goes to the handlers that were set last for the filters it matches, each once, and
to the default handler if there are none.
-/
import FEmbedLwip.MQTTClientSteps
import FEmbedLwip.MQTTHandlers
import FEmbedLwip.MQTTTalk
import FEmbedLwip.Represents

namespace FEmbed

open Live
open Prog (Guarantee Guarantees)

namespace MQTTClientC

/-! ## The map -/

/-- What an event does to the map. -/
def register (r : Bytes → Option Nat) : MQTTEventC → Bytes → Option Nat
  | .handler topicFilter fp => Function.update r topicFilter fp
  | .cleaned => fun _ => none
  | _ => r

/-- The handler of each topic filter. -/
def registered (log : List MQTTEventC) : Bytes → Option Nat := log.foldl register fun _ => none

/-- The default handler. -/
def defaulted (log : List MQTTEventC) : Option Nat :=
  log.foldl (fun d e => match e with
    | .defaultHandler fp => fp
    | _ => d) none

theorem registered_snoc (log : List MQTTEventC) (e : MQTTEventC) : registered (log ++ [e]) = register (registered log) e :=
  List.foldl_append

/-- What a slot has in the map. -/
def MessageHandlerC.entry (h : MessageHandlerC) : Option (Bytes × Nat) := h.topicFilter.bind fun topicFilter => h.fp.map (topicFilter, ·)

def entries (hs : List MessageHandlerC) : List (Bytes × Nat) := hs.filterMap MessageHandlerC.entry

/-- Who a message goes to after a log. -/
abbrev Dispatched (log : List MQTTEventC) (topicName : MQTTLenString) (called : List Nat) : Prop :=
  MQTTClient.Addressed (registered log) (defaulted log) topicName called

variable {σ T : Type} {p : MQTTPlatformC σ T}

/-- The slots are the map, and messages went where it said. -/
structure TableOK (c : MQTTClientC T) : Prop where
  represents : Represents (entries c.messageHandlers) (registered c.events)
  used : ∀ h ∈ c.messageHandlers, h.topicFilter.isSome → h.fp.isSome
  default : c.defaultMessageHandler = defaulted c.events
  dispatched : ∀ before topicName message called after, c.events = before ++ .delivered topicName message called :: after →
    Dispatched before topicName called

/-! ## Matching -/

theorem matching_eq {topicName : MQTTLenString} {hs : List MessageHandlerC} {called : List Nat}
    (hused : ∀ h ∈ hs, h.topicFilter.isSome → h.fp.isSome) (h : matching topicName hs = some called) :
    called = ((entries hs).filter fun x => MQTTClient.topicMatches x.1 topicName = some true).map Prod.snd := by
  induction hs generalizing called with
  | nil => exact (Option.some.inj h).symm
  | cons x hs ih =>
    obtain ⟨rest, hrest, h⟩ := Option.bind_eq_some_iff.mp h
    have hrest := ih (fun y hy => hused y (List.mem_cons_of_mem x hy)) hrest
    obtain ⟨topicFilter, fp⟩ := x
    cases topicFilter with
    | none =>
      obtain rfl := Option.some.inj h
      exact hrest
    | some f =>
      have hfp : fp.isSome := hused ⟨some f, fp⟩ List.mem_cons_self rfl
      obtain ⟨handler, rfl⟩ := Option.isSome_iff_exists.mp hfp
      obtain ⟨hit, hhit, h⟩ := Option.bind_eq_some_iff.mp h
      have hentries : entries (⟨some f, some handler⟩ :: hs) = (f, handler) :: entries hs := rfl
      rw [hentries, List.filter_cons, hhit]
      cases hit with
      | true =>
        obtain rfl := Option.some.inj h
        rw [if_pos (by simp), List.map_cons, ← hrest]
        rfl
      | false =>
        obtain rfl := Option.some.inj h
        rw [if_neg (by simp)]
        exact hrest

theorem TableOK.addressees {c : MQTTClientC T} (h : TableOK c) {topicName : MQTTLenString} {called : List Nat}
    (hcalled : addressees topicName c = some called) : Dispatched c.events topicName called := by
  obtain ⟨matched, hmatched, hcalled⟩ := Option.bind_eq_some_iff.mp hcalled
  have hmatched := matching_eq h.used hmatched
  refine ⟨(entries c.messageHandlers).filter fun x => MQTTClient.topicMatches x.1 topicName = some true, ?_, fun f handler => ?_, ?_⟩
  · exact h.represents.nodup.sublist (List.filter_sublist.map _)
  · rw [List.mem_filter, h.represents.mem, decide_eq_true_iff]
  · rw [← Option.some.inj hcalled, hmatched, h.default]
    simp only [List.map_eq_nil_iff]

/-! ## What is called keeps the table -/

/-- Whatever happens, the table is kept. -/
def tables : Guarantee (Live σ (MQTTClientC T)) where
  rel s s' := TableOK s.self → TableOK s'.self
  refl _ := id
  trans h h' := h' ∘ h

theorem TableOK.same {c c' : MQTTClientC T} (h : TableOK c) (hhandlers : c'.messageHandlers = c.messageHandlers)
    (hdefault : c'.defaultMessageHandler = c.defaultMessageHandler) (hevents : c'.events = c.events) : TableOK c' := by
  refine ⟨?_, hhandlers ▸ h.used, ?_, hevents ▸ h.dispatched⟩
  · rw [hhandlers, hevents]
    exact h.represents
  · rw [hdefault, hevents]
    exact h.default

/-- An event that is not a delivery. -/
theorem TableOK.dispatched_snoc {c : MQTTClientC T} (h : TableOK c) {e : MQTTEventC}
    (he : ∀ topicName message called, e ≠ .delivered topicName message called) {before : List MQTTEventC} {topicName : MQTTLenString}
    {message : Message} {called : List Nat} {after : List MQTTEventC}
    (hlog : c.events ++ [e] = before ++ .delivered topicName message called :: after) : Dispatched before topicName called := by
  rcases List.eq_nil_or_concat after with rfl | ⟨after, last, rfl⟩
  · exact absurd (List.append_inj_right' hlog rfl |> List.cons.inj |>.1) (he topicName message called)
  · rw [List.concat_eq_append, ← List.cons_append, ← List.append_assoc] at hlog
    exact h.dispatched _ _ _ _ _ (List.append_inj_left' hlog rfl)

theorem TableOK.quiet {c : MQTTClientC T} (h : TableOK c) {e : MQTTEventC} (hregister : ∀ r, register r e = r)
    (hdefault : defaulted (c.events ++ [e]) = defaulted c.events)
    (he : ∀ topicName message called, e ≠ .delivered topicName message called) : TableOK { c with events := c.events ++ [e] } := by
  refine ⟨?_, h.used, h.default.trans hdefault.symm, fun _ _ _ _ _ hlog => h.dispatched_snoc he hlog⟩
  rw [registered_snoc, hregister]
  exact h.represents

theorem TableOK.deliver {c : MQTTClientC T} (h : TableOK c) {topicName : MQTTLenString} {message : Message} {called : List Nat}
    (hcalled : MQTTClientC.addressees topicName c = some called) :
    TableOK { c with events := c.events ++ [.delivered topicName message called] } := by
  refine ⟨?_, h.used, ?_, fun before t m called' after hlog => ?_⟩
  · rw [registered_snoc]
    exact h.represents
  · rw [defaulted, List.foldl_append]
    exact h.default
  · rcases List.eq_nil_or_concat after with rfl | ⟨after, last, rfl⟩
    · have hlast := (List.cons.inj (List.append_inj_right' hlog rfl)).1
      obtain ⟨rfl, -, rfl⟩ := MQTTEventC.delivered.inj hlast
      rw [← List.append_inj_left' hlog rfl]
      exact h.addressees hcalled
    · rw [List.concat_eq_append, ← List.cons_append, ← List.append_assoc] at hlog
      exact h.dispatched _ _ _ _ _ (List.append_inj_left' hlog rfl)

theorem TableOK.cleaned {c : MQTTClientC T} (h : TableOK c) : TableOK { c with
    messageHandlers := c.messageHandlers.map fun h => { h with topicFilter := none }, events := c.events ++ [.cleaned] } := by
  refine ⟨?_, fun x hx hfilter => ?_, ?_, fun _ _ _ _ _ hlog => h.dispatched_snoc (by simp) hlog⟩
  · have hnone : entries (c.messageHandlers.map fun h => { h with topicFilter := none }) = [] := by
      refine List.filterMap_eq_nil_iff.mpr fun x hx => ?_
      obtain ⟨y, -, rfl⟩ := List.mem_map.mp hx
      rfl
    rw [registered_snoc, hnone]
    exact .empty
  · obtain ⟨y, -, rfl⟩ := List.mem_map.mp hx
    cases hfilter
  · rw [defaulted, List.foldl_append]
    exact h.default

/-- The place that was found, and the list with another slot there. -/
theorem findIdx?_split {hs : List MessageHandlerC} {q : MessageHandlerC → Bool} {i : Nat} (h : hs.findIdx? q = some i) :
    ∃ a x b, hs = a ++ x :: b ∧ q x = true ∧ ∀ y, hs.set i y = a ++ y :: b := by
  induction hs generalizing i with
  | nil => cases h
  | cons x hs ih =>
    rw [List.findIdx?_cons] at h
    cases hx : q x with
    | true =>
      rw [hx, if_pos rfl] at h
      obtain rfl := Option.some.inj h
      exact ⟨[], x, hs, rfl, hx, fun _ => rfl⟩
    | false =>
      rw [hx, if_neg (by simp)] at h
      obtain ⟨j, hj, rfl⟩ := Option.map_eq_some_iff.mp h
      obtain ⟨a, y, b, rfl, hy, hset⟩ := ih hj
      exact ⟨x :: a, y, b, rfl, hy, fun z => congrArg (x :: ·) (hset z)⟩

theorem entries_append (a b : List MessageHandlerC) : entries (a ++ b) = entries a ++ entries b := List.filterMap_append

theorem entries_used (f : Bytes) (h : Nat) (b : List MessageHandlerC) : entries (⟨some f, some h⟩ :: b) = (f, h) :: entries b := rfl

theorem entries_free {x : MessageHandlerC} (hx : x.topicFilter = none) (b : List MessageHandlerC) : entries (x :: b) = entries b := by
  obtain ⟨topicFilter, fp⟩ := x
  obtain rfl : topicFilter = none := hx
  rfl

/-- A slot is given another content. -/
theorem TableOK.set {c : MQTTClientC T} (h : TableOK c) {hs : List MessageHandlerC} {f : Bytes} {fp : Option Nat}
    (hused : ∀ x ∈ hs, x.topicFilter.isSome → x.fp.isSome)
    (hrepresents : Represents (entries hs) (Function.update (registered c.events) f fp)) :
    TableOK { c with messageHandlers := hs, events := c.events ++ [.handler f fp] } := by
  refine ⟨?_, hused, ?_, fun _ _ _ _ _ hlog => h.dispatched_snoc (by simp) hlog⟩
  · rw [registered_snoc]
    exact hrepresents
  · rw [defaulted, List.foldl_append]
    exact h.default

theorem used_set {a b : List MessageHandlerC} {x y : MessageHandlerC}
    (hused : ∀ z ∈ a ++ x :: b, z.topicFilter.isSome → z.fp.isSome) (hy : y.topicFilter.isSome → y.fp.isSome) :
    ∀ z ∈ a ++ y :: b, z.topicFilter.isSome → z.fp.isSome := by
  intro z hz
  rcases List.mem_append.mp hz with hz | hz
  · exact hused z (List.mem_append_left _ hz)
  · rcases List.mem_cons.mp hz with rfl | hz
    · exact hy
    · exact hused z (List.mem_append_right a (List.mem_cons_of_mem x hz))

/-- The slot with a filter holds its handler. -/
theorem slot_eq {a b : List MessageHandlerC} {x : MessageHandlerC} {f : Bytes}
    (hused : ∀ z ∈ a ++ x :: b, z.topicFilter.isSome → z.fp.isSome) (hx : (x.topicFilter == some f) = true) :
    ∃ h, x = ⟨some f, some h⟩ := by
  have hmem := hused x (List.mem_append_right a List.mem_cons_self)
  obtain ⟨topicFilter, fp⟩ := x
  obtain rfl : topicFilter = some f := eq_of_beq hx
  obtain ⟨h, rfl⟩ := Option.isSome_iff_exists.mp (hmem rfl)
  exact ⟨h, rfl⟩

theorem guarantees_setMessageHandler {f : Bytes} {fp : Option Nat} :
    (setMessageHandler f fp : Prog (Live σ (MQTTClientC T)) Int).Guarantees tables := by
  intro s rc s' hreturns h
  rw [setMessageHandler, returns_obj_bind] at hreturns
  dsimp only at hreturns
  cases fp with
  | none =>
    dsimp only at hreturns
    split at hreturns
    · next i hi =>
      rw [returns_set_bind] at hreturns
      obtain ⟨u, s₁, hevent, hreturns⟩ := Prog.returns_bind.mp hreturns
      obtain ⟨-, rfl⟩ := Prog.returns_pure.mp hreturns
      obtain rfl := returns_set.mp hevent
      obtain ⟨a, x, b, hhs, hx, hset⟩ := findIdx?_split hi
      have hused := h.used
      have hrepresents := h.represents
      rw [hhs] at hused hrepresents
      obtain ⟨handler, rfl⟩ := slot_eq hused hx
      rw [entries_append, entries_used] at hrepresents
      rw [hset]
      refine h.set (used_set hused fun hsome => ?_) ?_
      · cases hsome
      · rw [entries_append, entries_free rfl]
        exact hrepresents.erase
    · obtain ⟨-, rfl⟩ := Prog.returns_pure.mp hreturns
      exact h
  | some handler =>
    dsimp only at hreturns
    split at hreturns
    · next i hi =>
      rw [returns_set_bind] at hreturns
      obtain ⟨u, s₁, hevent, hreturns⟩ := Prog.returns_bind.mp hreturns
      obtain ⟨-, rfl⟩ := Prog.returns_pure.mp hreturns
      obtain rfl := returns_set.mp hevent
      have hused := h.used
      have hrepresents := h.represents
      cases hexisting : s.self.messageHandlers.findIdx? (·.topicFilter == some f) with
      | some j =>
        rw [hexisting, Option.some_or] at hi
        obtain rfl := Option.some.inj hi
        obtain ⟨a, x, b, hhs, hx, hset⟩ := findIdx?_split hexisting
        rw [hhs] at hused hrepresents
        obtain ⟨old, rfl⟩ := slot_eq hused hx
        rw [entries_append, entries_used] at hrepresents
        rw [hset]
        refine h.set (used_set hused fun _ => rfl) ?_
        rw [entries_append, entries_used]
        exact hrepresents.replace
      | none =>
        rw [hexisting, Option.none_or] at hi
        obtain ⟨a, x, b, hhs, hx, hset⟩ := findIdx?_split hi
        have hnone : registered s.self.events f = none := by
          refine Option.eq_none_iff_forall_ne_some.mpr fun old hold => ?_
          obtain ⟨y, hy, hentry⟩ := List.mem_filterMap.mp ((hrepresents.mem f old).mpr hold)
          have hfilter := List.findIdx?_eq_none_iff.mp hexisting y hy
          obtain ⟨topicFilter, heq, hentry⟩ := Option.bind_eq_some_iff.mp hentry
          obtain ⟨_, -, hpair⟩ := Option.map_eq_some_iff.mp hentry
          obtain rfl := (Prod.mk.inj hpair).1
          rw [heq] at hfilter
          exact absurd hfilter (by simp)
        rw [hhs] at hused hrepresents
        rw [entries_append, entries_free (eq_of_beq hx)] at hrepresents
        rw [hset]
        refine h.set (used_set hused fun _ => rfl) ?_
        rw [entries_append, entries_used]
        exact hrepresents.insert hnone
    · obtain ⟨-, rfl⟩ := Prog.returns_pure.mp hreturns
      exact h

theorem guarantees_quiet {e : MQTTEventC} (hregister : ∀ r, register r e = r)
    (hdefault : ∀ log : List MQTTEventC, defaulted (log ++ [e]) = defaulted log)
    (he : ∀ topicName message called, e ≠ .delivered topicName message called) :
    (happened e : Prog (Live σ (MQTTClientC T)) Unit).Guarantees tables :=
  guarantees_set fun _ h => h.quiet hregister (hdefault _) he

theorem TableOK.setDefault {c : MQTTClientC T} (h : TableOK c) (fp : Option Nat) :
    TableOK { c with defaultMessageHandler := fp, events := c.events ++ [.defaultHandler fp] } := by
  refine ⟨?_, h.used, ?_, fun _ _ _ _ _ hlog => h.dispatched_snoc (by simp) hlog⟩
  · dsimp only
    rw [registered_snoc]
    exact h.represents
  · dsimp only
    rw [defaulted, List.foldl_append]
    rfl

theorem steps_tables : Steps p tables where
  kept hhandlers hdefault hevents := guarantees_set fun _ h => h.same (hhandlers _) (hdefault _) (hevents _)
  silent _ := guarantees_call fun _ => id
  fp _ _ _ := guarantees_tell fun _ => id
  offer _ _ _ := by
    have hquiet {e : MQTTEventC} (he : (∃ bs, e = .took bs) ∨ e = .broken) :
        (happened e : Prog (Live σ (MQTTClientC T)) Unit).Guarantees tables := by
      obtain ⟨bs, rfl⟩ | rfl := he
      · exact guarantees_quiet (fun _ => rfl) (fun _ => List.foldl_append) (by simp)
      · exact guarantees_quiet (fun _ => rfl) (fun _ => List.foldl_append) (by simp)
    refine .bind guarantees_obj fun c => .ite .undefined (.bind (guarantees_call fun _ => id) fun rc => ?_)
    exact .ite (.bind (hquiet (.inl ⟨_, rfl⟩)) fun _ => .pure) (.bind (hquiet (.inr rfl)) fun _ => .pure)
  connecting := guarantees_quiet (fun _ => rfl) (fun _ => List.foldl_append) (by simp)
  received _ := guarantees_quiet (fun _ => rfl) (fun _ => List.foldl_append) (by simp)
  delivered hcalled h := h.deliver hcalled
  cleanSession := by
    intro s u s' hclean h
    rw [MQTTClientC.cleanSession, returns_set_bind] at hclean
    obtain rfl := returns_set.mp hclean
    exact h.cleaned
  setMessageHandler _ _ := guarantees_setMessageHandler
  setDefault _ fp h := h.setDefault fp

theorem TableOK.init {s : Live σ (MQTTClientC T)} {ms : Nat} {s'} (h : (init p ms).Returns s () s') : TableOK s'.self := by
  rw [MQTTClientC.init, returns_call_bind, returns_call_bind, returns_set] at h
  obtain rfl := h
  refine ⟨?_, fun x hx hfilter => ?_, rfl, fun before t m called after hlog => ?_⟩
  · have hnone : entries (s.self.messageHandlers.map fun h => { h with topicFilter := none }) = [] := by
      refine List.filterMap_eq_nil_iff.mpr fun x hx => ?_
      obtain ⟨y, -, rfl⟩ := List.mem_map.mp hx
      rfl
    dsimp only
    rw [hnone]
    exact .empty
  · obtain ⟨y, -, rfl⟩ := List.mem_map.mp hx
    cases hfilter
  · exact absurd hlog.symm (List.append_ne_nil_of_right_ne_nil _ (by simp))

/-- **Messages go to the handlers that were set last**: in every run each message
is handed to the handlers of the filters that match, one for each, and to the
default handler if there is none. -/
theorem messages_dispatched {charSigned : Bool} {s₀ s : Live σ (MQTTClientC T)} {ms : Nat} {s₁}
    {calls : List (Prog.Call (Live σ (MQTTClientC T)) Op Int)} (hinit : (init p ms).Returns s₀ () s₁)
    (hrun : Prog.Calls (Op.run p charSigned) s₁ calls s) {before : List MQTTEventC} {topicName : MQTTLenString} {message : Message}
    {called : List Nat} {after : List MQTTEventC} (hlog : s.self.events = before ++ .delivered topicName message called :: after) :
    ∃ hits : List (Bytes × Nat), (hits.map Prod.fst).Nodup ∧
      (∀ f h, (f, h) ∈ hits ↔ registered before f = some h ∧ MQTTClient.topicMatches f topicName = some true) ∧
      called = if hits = [] then (defaulted before).toList else hits.map Prod.snd := by
  have hstep (c : Prog.Call (Live σ (MQTTClientC T)) Op Int) (h : (Op.run p charSigned c.op).Returns c.before c.out c.after) :
      TableOK c.before.self → TableOK c.after.self := steps_tables.run_keeps c.before c.out c.after h
  have htable := (hrun.always (I := fun s => TableOK s.self) hstep (TableOK.init hinit)).2
  exact htable.dispatched _ _ _ _ _ hlog

end MQTTClientC

namespace TalkDemo

open MQTTClientC

def handled : Option (List (Prog.Call (Live (Bytes × Nat) (MQTTClientC Unit)) Op Int) × Live (Bytes × Nat) (MQTTClientC Unit)) :=
  Prog.walk (Op.run platform true) 60 started
    [.setDefault (some 7), .setMessageHandler [97] (some 3), .setMessageHandler [35] (some 5), .setMessageHandler [97] (some 4),
      .connect (some options), .yield_ 100]

def before : List MQTTEventC :=
  [.defaultHandler (some 7), .handler [97] (some 3), .handler [35] (some 5), .handler [97] (some 4), .connecting,
    .took [16, 13, 0, 4, 77], .took [81, 84, 84, 4, 2], .took [0, 0, 0, 1, 97], .received [32, 2, 0, 0, 0, 0, 0, 0, 0],
    .received [50, 7, 0, 1, 97, 0, 5, 104, 105]]

def topicName : MQTTLenString := { len := 1, data := some [97] }

def message : Message := { qos := 1, retained := false, dup := false, id := 5, payload := [104, 105], payloadlen := 2 }

def after : List MQTTEventC := [.took [64, 2, 0, 5], .received [98, 2, 0, 9, 97, 0, 5, 104, 105], .took [112, 2, 0, 9]]

/-- Handlers of "a", "#" and "a" again are set before a message to "a" comes. -/
theorem messages_dispatched_replaced : ∃ hits : List (Bytes × Nat), (hits.map Prod.fst).Nodup ∧
    (∀ f h, (f, h) ∈ hits ↔ registered before f = some h ∧ MQTTClient.topicMatches f topicName = some true) ∧
    [4, 5] = if hits = [] then (defaulted before).toList else hits.map Prod.snd := by
  have hend : handled.map (fun x => x.2.self.events) = some (before ++ .delivered topicName message [4, 5] :: after) := by
    decide +kernel
  obtain ⟨⟨calls, s⟩, hwalk, hevents⟩ := Option.map_eq_some_iff.mp hend
  have hinit : (init platform 1000).Returns memory () started := ⟨1, rfl⟩
  exact messages_dispatched hinit (.of_walk hwalk) hevents

end TalkDemo

end FEmbed
