/-
Collected headers over the responses of a client's life.

A response sets the value of a collected header that it has, and no other one:
what `header` and `hasHeader` tell about a key that the last response does not
have is what an earlier one had (`header_responded`). They describe the last
response exactly when nothing is left over (`Fresh`).
-/
import FEmbedLwip.HTTPResponse
import Mathlib.Logic.Relation

namespace FEmbed

open Live
open Prog (Guarantee Guarantees)
open Relation (ReflTransGen)

theorem Str.equalsIgnoreCase_iff {s t : Bytes} : equalsIgnoreCase s t = true ↔ s.map toLower = t.map toLower := by
  rw [equalsIgnoreCase, beq_iff_eq]

namespace HTTPClient

variable {C : Type}

/-! ## One line -/

/-- The first of the keys that is this one in whatever case is this one: it, and
no key behind it, is given values. -/
def Leads (key : Bytes) (keys : List Bytes) : Prop := keys.find? (Str.equalsIgnoreCase · key) = some key

instance {key : Bytes} {keys : List Bytes} : Decidable (Leads key keys) := inferInstanceAs (Decidable (_ = _))

/-- Of two keys that are the same in whatever case, the second has no value. -/
def Shadowed (as : List RequestArgument) : Prop :=
  as.Pairwise fun a b => Str.equalsIgnoreCase a.key b.key = true → b.value = []

theorem leads_cons {key k : Bytes} {keys : List Bytes} :
    Leads key (k :: keys) ↔ if Str.equalsIgnoreCase k key = true then k = key else Leads key keys := by
  rw [Leads, List.find?_cons, Leads]
  cases Str.equalsIgnoreCase k key with
  | true => simp
  | false => simp

theorem collect_keys (name value : Bytes) (as : List RequestArgument) :
    (collect name value as).map (·.key) = as.map (·.key) := by
  induction as with
  | nil => rfl
  | cons a as ih =>
    rw [collect]
    split
    · rfl
    · rw [List.map_cons, List.map_cons, ih]

theorem mem_collect {name value : Bytes} {as : List RequestArgument} {b : RequestArgument} (h : b ∈ collect name value as) :
    b ∈ as ∨ Str.equalsIgnoreCase b.key name = true := by
  induction as with
  | nil => exact nomatch h
  | cons a as ih =>
    rw [collect] at h
    split at h
    · rename_i hname
      rcases List.mem_cons.mp h with rfl | h
      · exact .inr hname
      · exact .inl (List.mem_cons_of_mem a h)
    · rcases List.mem_cons.mp h with rfl | h
      · exact .inl List.mem_cons_self
      · exact (ih h).imp_left (List.mem_cons_of_mem a)

theorem Shadowed.collect {as : List RequestArgument} (h : Shadowed as) (name value : Bytes) : Shadowed (collect name value as) := by
  induction as with
  | nil => exact h
  | cons a as ih =>
    obtain ⟨ha, has⟩ := List.pairwise_cons.mp h
    rw [HTTPClient.collect]
    split
    · exact List.pairwise_cons.mpr ⟨ha, has⟩
    · rename_i hname
      refine List.pairwise_cons.mpr ⟨fun b hb hkey => ?_, ih has⟩
      rcases mem_collect hb with hb | hb
      · exact ha b hb hkey
      · rw [Str.equalsIgnoreCase_iff] at hkey hb hname
        exact absurd (hkey.trans hb) hname

theorem stored_cons (key : Bytes) (a : RequestArgument) (as : List RequestArgument) :
    stored key (a :: as) = if a.key = key then a.value else stored key as := by
  rw [stored, List.find?_cons]
  by_cases h : a.key = key
  · simp [h]
  · simp [h, stored]

/-- A value goes to the key that leads those with the name. -/
theorem stored_collect (key name value : Bytes) (as : List RequestArgument) :
    stored key (collect name value as) =
      if Str.equalsIgnoreCase name key = true ∧ Leads key (as.map (·.key)) then value else stored key as := by
  induction as with
  | nil => exact (if_neg fun h => nomatch h.2).symm
  | cons a as ih =>
    simp only [collect, List.map_cons, leads_cons, Str.equalsIgnoreCase_iff] at ih ⊢
    by_cases hname : a.key.map Str.toLower = name.map Str.toLower
    · rw [if_pos hname, stored_cons, stored_cons]
      by_cases hkey : a.key = key
      · subst hkey
        rw [if_pos rfl, if_pos ⟨hname.symm, by simp⟩]
      · rw [if_neg hkey, if_neg hkey, if_neg]
        rintro ⟨hsame, hleads⟩
        rw [if_pos (hname.trans hsame)] at hleads
        exact hkey hleads
    · rw [if_neg hname, stored_cons, stored_cons]
      by_cases hkey : a.key = key
      · subst hkey
        simp [Ne.symm hname]
      · rw [if_neg hkey, if_neg hkey, ih]
        by_cases hsame : name.map Str.toLower = key.map Str.toLower
        · have hother : ¬ a.key.map Str.toLower = key.map Str.toLower := fun h => hname (h.trans hsame.symm)
          simp only [hsame, hother, true_and, if_false]
        · rw [if_neg fun h => hsame h.1, if_neg fun h => hsame h.1]

/-- Of the entries with a key only the first can have a value. -/
theorem Shadowed.hasHeader {c : HTTPClient C} (h : Shadowed c._currentHeaders) (key : Bytes) :
    c.hasHeader key = decide (c.header key ≠ []) := by
  rw [HTTPClient.hasHeader, header]
  generalize c._currentHeaders = as at h
  induction as with
  | nil => rfl
  | cons a as ih =>
    obtain ⟨ha, has⟩ := List.pairwise_cons.mp h
    rw [List.any_cons, stored_cons, ih has]
    by_cases hkey : a.key = key
    · have hnone : stored key as = [] := by
        rw [stored]
        split
        · rename_i b hb
          have hbkey : b.key = key := by simpa using List.find?_some hb
          exact ha b (List.mem_of_find?_eq_some hb) (by rw [hkey, hbkey, Str.equalsIgnoreCase_iff])
        · rfl
      simp [hkey, hnone]
    · simp [hkey]

/-- What is stored for a key behind another one that is the same. -/
theorem Shadowed.stored_eq_nil {as : List RequestArgument} (h : Shadowed as) {key : Bytes}
    (hleads : ¬ Leads key (as.map (·.key))) : stored key as = [] := by
  induction as with
  | nil => rfl
  | cons a as ih =>
    obtain ⟨ha, has⟩ := List.pairwise_cons.mp h
    rw [List.map_cons, leads_cons] at hleads
    rw [stored_cons]
    split at hleads
    · rename_i hsame
      rw [if_neg hleads, stored]
      split
      · rename_i b hb
        have hbkey : b.key = key := by simpa using List.find?_some hb
        exact ha b (List.mem_of_find?_eq_some hb) (hbkey ▸ hsame)
      · rfl
    · rename_i hother
      rw [if_neg fun h => hother (by rw [h, Str.equalsIgnoreCase_iff])]
      exact ih has hleads

/-! ## One response -/

/-- What a line of a response head, trimmed, makes of the collected headers. -/
def collectLine (as : List RequestArgument) (line : Bytes) : List RequestArgument :=
  (headerLine line [] ({ _currentHeaders := as } : HTTPClient Unit)).1._currentHeaders

theorem headerLine_currentHeaders (line te : Bytes) (c : HTTPClient C) :
    (headerLine line te c).1._currentHeaders = collectLine c._currentHeaders line := by
  rw [collectLine, headerLine, headerLine]
  split
  · rfl
  · split <;> rfl

theorem collectLine_cases (as : List RequestArgument) (line : Bytes) :
    collectLine as line = as ∨ ∃ name value, collectLine as line = collect name value as := by
  rw [collectLine, headerLine]
  split
  · exact .inl rfl
  · split
    · exact .inr ⟨_, _, rfl⟩
    · exact .inl rfl

theorem collectLine_field (as : List RequestArgument) (f : HeaderField) :
    collectLine as (Str.trim f.text) = collect f.name (Str.trim f.value) as := by
  rw [collectLine, headerLine_field]

theorem collectLine_status {status : Bytes} (h : Str.startsWith status (bytes "HTTP/1.") = true) (as : List RequestArgument) :
    collectLine as status = as := by
  rw [collectLine, headerLine, if_pos h]
  rfl

theorem collectLine_empty (as : List RequestArgument) : collectLine as [] = collect [] [] as := by
  rw [collectLine, headerLine_empty]

theorem collectLines_keys (as : List RequestArgument) (lines : List Bytes) :
    (lines.foldl collectLine as).map (·.key) = as.map (·.key) := by
  induction lines generalizing as with
  | nil => rfl
  | cons line lines ih =>
    rw [List.foldl_cons, ih]
    obtain h | ⟨name, value, h⟩ := collectLine_cases as line
    · rw [h]
    · rw [h, collect_keys]

theorem Shadowed.collectLines {as : List RequestArgument} (h : Shadowed as) (lines : List Bytes) :
    Shadowed (lines.foldl collectLine as) := by
  induction lines generalizing as with
  | nil => exact h
  | cons line lines ih =>
    refine ih ?_
    obtain hl | ⟨name, value, hl⟩ := collectLine_cases as line
    · rwa [hl]
    · rw [hl]
      exact h.collect name value

/-- The lines of a response head, trimmed: a status line, whatever it says, the
fields, and the empty line. -/
def IsHead (lines : List Bytes) (fields : List HeaderField) : Prop :=
  ∃ status, Str.startsWith status (bytes "HTTP/1.") = true ∧ lines = status :: fields.map (fun f => Str.trim f.text) ++ [[]]

theorem stored_fields (key : Bytes) (as : List RequestArgument) (fields : List HeaderField) :
    stored key ((fields.map fun f => Str.trim f.text).foldl collectLine as) =
      if Leads key (as.map (·.key)) then (lastValue key fields).getD (stored key as) else stored key as := by
  induction fields using List.reverseRecOn with
  | nil => exact (ite_self _).symm
  | append_singleton fields f ih =>
    rw [List.map_append, List.foldl_append, List.map_singleton, List.foldl_cons, List.foldl_nil, collectLine_field,
      stored_collect, collectLines_keys, ih, lastValue_concat, HeaderField.named]
    by_cases hleads : Leads key (as.map (·.key))
    · simp only [hleads, and_true, if_true]
      split <;> rfl
    · simp only [hleads, and_false, if_false]

/-- After a response a key that leads has its value in it, or the old one if it
has none; another key has the old one. -/
theorem stored_head {lines : List Bytes} {fields : List HeaderField} (h : IsHead lines fields) {key : Bytes} (hkey : key ≠ [])
    (as : List RequestArgument) : stored key (lines.foldl collectLine as) =
      if Leads key (as.map (·.key)) then (lastValue key fields).getD (stored key as) else stored key as := by
  obtain ⟨status, hstatus, rfl⟩ := h
  have hother : ¬ (Str.equalsIgnoreCase [] key = true) := by
    rw [Str.equalsIgnoreCase_iff]
    exact fun h => hkey (List.map_eq_nil_iff.mp h.symm)
  rw [List.cons_append, List.foldl_cons, collectLine_status hstatus, List.foldl_append, List.foldl_cons, List.foldl_nil,
    collectLine_empty, stored_collect, if_neg fun h => hother h.1, stored_fields]

/-- The empty line sets the value of an empty key, which no field has. -/
theorem stored_head_empty {lines : List Bytes} {fields : List HeaderField} (h : IsHead lines fields) (as : List RequestArgument)
    (hkey : [] ∈ as.map (·.key)) : stored [] (lines.foldl collectLine as) = [] := by
  obtain ⟨status, hstatus, rfl⟩ := h
  have hleads : Leads [] (as.map (·.key)) := by
    rw [Leads]
    cases hfind : (as.map (·.key)).find? (Str.equalsIgnoreCase · []) with
    | none => exact absurd rfl (List.find?_eq_none.mp hfind [] hkey)
    | some k =>
      have hk := List.find?_some hfind
      rw [Str.equalsIgnoreCase_iff] at hk
      rw [List.map_eq_nil_iff.mp hk]
  rw [List.cons_append, List.foldl_cons, collectLine_status hstatus, List.foldl_append, List.foldl_cons, List.foldl_nil,
    collectLine_empty, stored_collect, if_pos]
  exact ⟨rfl, by rwa [collectLines_keys]⟩

theorem lastValue_empty (fields : List HeaderField) : lastValue [] fields = none := by
  rw [lastValue, List.find?_eq_none.mpr]
  · rfl
  · intro f _ hnamed
    rw [HeaderField.named, Str.equalsIgnoreCase_iff] at hnamed
    exact f.nonempty (List.map_eq_nil_iff.mp hnamed)

/-! ## The lines that are read -/

section Trace

variable (net : Connection C)

/-- The line that a turn of `handleHeaderResponse` reads, trimmed, if the
connection is up and there is something to read. -/
def awaitLine : Prog (Live C (HTTPClient C)) (Option Bytes) := do
  if ¬ (← connected net) then
    return none
  if sizeT (← onClient net.available) > 0 then
    return some (Str.trim (← onClient fun r => net.readStringUntil r 10))
  return none

/-- The loop of `handleHeaderResponse` from its locals and a state on, with the
lines that it reads, its result and its last state. -/
inductive HeadTrace : HeadState → Live C (HTTPClient C) → List Bytes → Int → Live C (HTTPClient C) → Prop
  | exit {l s line t rc s'} (hline : (awaitLine net).Returns s line t) (h : (headTurn net l).Returns s (.exit rc) s') :
      HeadTrace l s line.toList rc s'
  | next {l s line t l' s₁ lines rc s'} (hline : (awaitLine net).Returns s line t)
      (h : (headTurn net l).Returns s (.next l') s₁) (rest : HeadTrace l' s₁ lines rc s') :
      HeadTrace l s (line.toList ++ lines) rc s'

variable {net}

theorem endOfHead_currentHeaders {te : Bytes} {s : Live C (HTTPClient C)} {rc s'} (h : (endOfHead te).Returns s rc s') :
    s'.self._currentHeaders = s.self._currentHeaders := by
  have hset (t : TransferEncoding) : (set fun c => { c with _transferEncoding := t } : Prog (Live C (HTTPClient C)) Unit).Guarantees
      (.same (·.self._currentHeaders)) := guarantees_set fun _ => rfl
  have hend : (endOfHead te : Prog (Live C (HTTPClient C)) Int).Guarantees (.same (·.self._currentHeaders)) := by
    refine .ite (.ite (.bind (hset _) fun _ => ?_) .pure) (.bind (hset _) fun _ => ?_)
    · exact .bind guarantees_obj fun _ => .pure
    · exact .bind guarantees_obj fun _ => .pure
  exact hend s rc s' h

/-- A turn reads a line or none, and collects what it reads. -/
theorem headTurn_line {l : HeadState} {s : Live C (HTTPClient C)} {x s'} (h : (headTurn net l).Returns s x s') :
    ∃ line t, (awaitLine net).Returns s line t ∧
      s'.self._currentHeaders = line.toList.foldl collectLine s.self._currentHeaders := by
  have out {α : Type} {y : Prog C α} : (outside y : Prog (Live C (HTTPClient C)) α).Guarantees (.same (·.self)) :=
    guarantees_out fun _ _ => rfl
  obtain ⟨b, t, hconn, h⟩ := Prog.returns_bind.mp h
  have ht := connected_self hconn
  rcases Prog.returns_ite.mp h with ⟨hb, h⟩ | ⟨hb, h⟩
  · obtain ⟨_, rfl⟩ := Prog.returns_pure.mp h
    refine ⟨none, s', Prog.returns_bind.mpr ⟨b, s', hconn, ?_⟩, by rw [ht]; rfl⟩
    exact Prog.returns_ite.mpr (.inl ⟨hb, Prog.returns_pure.mpr ⟨rfl, rfl⟩⟩)
  obtain ⟨a, u, havail, h⟩ := Prog.returns_bind.mp h
  have hu : u.self = s.self := (onClient_self havail).trans ht
  rcases Prog.returns_ite.mp h with ⟨ha, h⟩ | ⟨ha, h⟩
  · obtain ⟨line, v, hread, h⟩ := Prog.returns_bind.mp h
    have hv : v.self = s.self := (onClient_self hread).trans hu
    refine ⟨some (Str.trim line), v, Prog.returns_bind.mpr ⟨b, t, hconn, Prog.returns_ite.mpr (.inr ⟨hb, ?_⟩)⟩, ?_⟩
    · refine Prog.returns_bind.mpr ⟨a, u, havail, Prog.returns_ite.mpr (.inl ⟨ha, ?_⟩)⟩
      exact Prog.returns_bind.mpr ⟨line, v, hread, Prog.returns_pure.mpr ⟨rfl, rfl⟩⟩
    obtain ⟨now, ⟨c, e⟩, hmillis, h⟩ := Prog.returns_bind.mp h
    obtain rfl : c = s.self := (out _ _ _ hmillis).trans hv
    rw [returns_obj_bind, returns_set_bind] at h
    have hline : s'.self._currentHeaders = (headerLine (Str.trim line) l.transferEncoding s.self).1._currentHeaders := by
      rcases Prog.returns_ite.mp h with ⟨_, h⟩ | ⟨_, h⟩
      · obtain ⟨rc, w, hend, h⟩ := Prog.returns_bind.mp h
        obtain ⟨_, rfl⟩ := Prog.returns_pure.mp h
        exact endOfHead_currentHeaders hend
      · obtain ⟨_, rfl⟩ := Prog.returns_pure.mp h
        rfl
    rw [hline, headerLine_currentHeaders]
    rfl
  · refine ⟨none, u, Prog.returns_bind.mpr ⟨b, t, hconn, Prog.returns_ite.mpr (.inr ⟨hb, ?_⟩)⟩, ?_⟩
    · refine Prog.returns_bind.mpr ⟨a, u, havail, Prog.returns_ite.mpr (.inr ⟨ha, ?_⟩)⟩
      exact Prog.returns_pure.mpr ⟨rfl, rfl⟩
    have idle : s'.self = u.self :=
      (Guarantees.bind out fun _ => .bind guarantees_obj fun _ => .ite .pure (.bind out fun _ => .pure)) u x s' h
    rw [idle, hu]
    rfl

theorem HeadTrace.currentHeaders {l : HeadState} {s s' : Live C (HTTPClient C)} {lines : List Bytes} {rc : Int}
    (h : HeadTrace net l s lines rc s') : s'.self._currentHeaders = lines.foldl collectLine s.self._currentHeaders := by
  induction h with
  | exit hline h =>
    obtain ⟨_, _, hline', hs'⟩ := headTurn_line h
    rw [hs', (hline.det hline').1]
  | next hline h _ ih =>
    obtain ⟨_, _, hline', hs₁⟩ := headTurn_line h
    rw [ih, hs₁, List.foldl_append, (hline.det hline').1]

/-- Every run of the loop has its lines. -/
theorem HeadTrace.of_loop {l : HeadState} {s s' : Live C (HTTPClient C)} {rc : Int}
    (h : (Prog.loop (headTurn net) l).Returns s rc s') : ∃ lines, HeadTrace net l s lines rc s' := by
  refine h.loop_induct (fun l s => ∃ lines, HeadTrace net l s lines rc s') ?_ ?_
  · intro l s h
    obtain ⟨line, t, hline, -⟩ := headTurn_line h
    exact ⟨_, .exit hline h⟩
  · rintro l s l' s₁ h - ⟨lines, hrest⟩
    obtain ⟨line, t, hline, -⟩ := headTurn_line h
    exact ⟨_, .next hline h hrest⟩

/-! ## Requests -/

/-- The collected headers stay. -/
def uncollected : Guarantee (Live C (HTTPClient C)) := .same (·.self._currentHeaders)

theorem uncollected_governs : Governs (uncollected : Guarantee (Live C (HTTPClient C))) where
  outside _ _ := rfl
  client _ _ := rfl
  deprecated _ _ := rfl
  traits _ _ := rfl
  cleared _ := rfl
  answer _ _ _ _ _ := rfl
  target _ _ _ _ _ _ := rfl
  secured _ _ _ := rfl
  settings _ _ _ _ := rfl

theorem uncollected_addHeader {name value : Bytes} {first replace : Bool} :
    (addHeader name value first replace : Prog (Live C (HTTPClient C)) Unit).Guarantees uncollected := by
  intro s _ s' h
  rcases addHeader_returns h with ⟨_, rfl⟩ | ⟨_, rfl⟩
  · exact uncollected.refl s'
  · rfl

theorem uncollected_sendHeader {type : Bytes} : (sendHeader net type).Guarantees uncollected := by
  have A : Governs (uncollected : Guarantee (Live C (HTTPClient C))) := uncollected_governs
  have write {header : Bytes} : (writeHead net header).Guarantees uncollected :=
    .bind .gets fun _ => .bind (guarantees_set fun _ => rfl) fun _ => A.onClient
  refine .bind A.connected fun _ => .ite .pure (.bind guarantees_obj fun _ => .bind (guarantees_set fun _ => rfl) fun _ => ?_)
  exact .bind write fun _ => .pure

variable (net) in
/-- The program ends with a response head, or with an error before it; nothing
is collected but by the head. -/
def Answers (x : Prog (Live C (HTTPClient C)) Int) : Prop :=
  ∀ s rc s', x.Returns s rc s' → rc ≤ 0 ∧ uncollected.rel s s' ∨
    ∃ t u : Live C (HTTPClient C), uncollected.rel s t ∧ (handleHeaderResponse net).Returns t rc u ∧ uncollected.rel u s' ∧
      (rc > 0 → s' = u)

theorem Answers.bind {α : Type} {x : Prog (Live C (HTTPClient C)) α} {f : α → Prog (Live C (HTTPClient C)) Int}
    (hx : x.Guarantees uncollected) (hf : ∀ a, Answers net (f a)) : Answers net (x >>= f) := by
  intro s rc s' h
  obtain ⟨a, t, ha, h⟩ := Prog.returns_bind.mp h
  have ht := hx s a t ha
  obtain ⟨hrc, hs'⟩ | ⟨u, v, hu, hresponse⟩ := hf a t rc s' h
  · exact .inl ⟨hrc, uncollected.trans ht hs'⟩
  · exact .inr ⟨u, v, uncollected.trans ht hu, hresponse⟩

theorem Answers.ite {p : Prop} [Decidable p] {x y : Prog (Live C (HTTPClient C)) Int} (hx : p → Answers net x)
    (hy : ¬ p → Answers net y) : Answers net (if p then x else y) := by
  split
  · exact hx ‹_›
  · exact hy ‹_›

theorem Answers.error {error : Int} (h : error ≤ 0) : Answers net (returnError net error) := by
  intro s rc s' hret
  refine .inl ⟨?_, uncollected_governs.returnError s rc s' hret⟩
  rwa [(returnError_returns hret).1]

theorem Answers.response : Answers net (handleHeaderResponse net >>= returnError net) := by
  intro s rc s' h
  obtain ⟨error, t, hresponse, h⟩ := Prog.returns_bind.mp h
  obtain ⟨rfl, hsame⟩ := returnError_returns h
  exact .inr ⟨s, t, uncollected.refl s, hresponse, uncollected_governs.returnError t rc s' h, fun hpos => hsame (Int.le_of_lt hpos)⟩

theorem sendRequest_answers {type payload : Bytes} : Answers net (sendRequest net type payload) := by
  have A : Governs (uncollected : Guarantee (Live C (HTTPClient C))) := uncollected_governs
  refine .bind A.connect fun _ => .ite (fun _ => .error (by decide)) fun _ => ?_
  refine .ite (fun _ => .bind uncollected_addHeader fun _ => ?_) fun _ => ?_
  all_goals
    refine .bind uncollected_sendHeader fun _ => .ite (fun _ => .error (by decide)) fun _ => ?_
    exact .ite (fun _ => .bind A.onClient fun _ => .ite (fun _ => .error (by decide)) fun _ => .response) fun _ => .response

theorem sendRequestStream_answers {type : Bytes} {stream : Option (AppStream C)} {size : Nat} :
    Answers net (sendRequestStream net type stream size) := by
  have A : Governs (uncollected : Guarantee (Live C (HTTPClient C))) := uncollected_governs
  cases stream with
  | none => exact (Answers.error (by decide) : Answers net (returnError net errorNoStream))
  | some stream =>
    refine .bind A.connect fun _ => .ite (fun _ => .error (by decide)) fun _ => ?_
    refine .ite (fun _ => .bind uncollected_addHeader fun _ => ?_) fun _ => ?_
    all_goals
      refine .bind uncollected_sendHeader fun _ => .ite (fun _ => .error (by decide)) fun _ => ?_
      exact .bind A.sendStream fun error => .ite (fun h => .error (Int.le_of_lt h)) fun _ => .response

/-- What the lines of responses make of the collected headers. -/
def collecting : Guarantee (Live C (HTTPClient C)) where
  rel s s' := ∃ lines, s'.self._currentHeaders = lines.foldl collectLine s.self._currentHeaders
  refl _ := ⟨[], rfl⟩
  trans := by
    rintro s t u ⟨lines, h⟩ ⟨lines', h'⟩
    exact ⟨lines ++ lines', by rw [h', h, List.foldl_append]⟩

theorem collecting_governs : Governs (collecting : Guarantee (Live C (HTTPClient C))) where
  outside _ _ := ⟨[], rfl⟩
  client _ _ := ⟨[], rfl⟩
  deprecated _ _ := ⟨[], rfl⟩
  traits _ _ := ⟨[], rfl⟩
  cleared _ := ⟨[], rfl⟩
  answer _ _ _ _ _ := ⟨[], rfl⟩
  target _ _ _ _ _ _ := ⟨[], rfl⟩
  secured _ _ _ := ⟨[], rfl⟩
  settings _ _ _ _ := ⟨[], rfl⟩

/-! ## Runs -/

/-- An operation that sends a request. -/
def Op.requests : Op C → Bool
  | .sendRequest .. | .sendRequestStream .. => true
  | _ => false

/-- An operation that neither sends one nor collects headers anew. -/
def Op.bystands : Op C → Bool
  | .collectHeaders .. | .sendRequest .. | .sendRequestStream .. => false
  | _ => true

theorem Op.leaves_collected {op : Op C} (h : op.bystands) : (op.run net).Guarantees uncollected := by
  cases op with
  | addHeader => exact .bind uncollected_addHeader fun _ => .pure
  | collectHeaders | sendRequest | sendRequestStream => exact nomatch h
  | beginClient | beginClientHost | beginUrl | beginUrlCert | beginHost | beginHostCert | end_ | setReuse | useHTTP10
  | setAuthorization | setTimeout | writeToStream | getString => exact Op.guarantees uncollected_governs rfl nofun

theorem Op.answers {op : Op C} (h : op.requests) : Answers net (op.run net) := by
  cases op with
  | sendRequest => exact sendRequest_answers
  | sendRequestStream => exact sendRequestStream_answers
  | beginClient | beginClientHost | beginUrl | beginUrlCert | beginHost | beginHostCert | end_ | setReuse | useHTTP10
  | setAuthorization | setTimeout | writeToStream | getString | addHeader | collectHeaders => exact nomatch h

theorem Op.collecting {op : Op C} (h : op.requests) : (op.run net).Guarantees collecting := by
  have A : Governs (HTTPClient.collecting : Guarantee (Live C (HTTPClient C))) := collecting_governs
  intro s rc s' hret
  obtain ⟨_, hs'⟩ | ⟨t, u, ht, hresponse, hu, -⟩ := Op.answers h s rc s' hret
  · exact ⟨[], hs'⟩
  · obtain ⟨lines, hlines⟩ :=
      A.handleHeaderResponse (fun s l te => ⟨[l], headerLine_currentHeaders l te s.self⟩) t rc u hresponse
    have hbefore : t.self._currentHeaders = s.self._currentHeaders := ht
    have hafter : s'.self._currentHeaders = u.self._currentHeaders := hu
    exact ⟨lines, by rw [hafter, hlines, hbefore]⟩

/-- The keys of the last `collectHeaders`. -/
def collectedKeys : List (Op C × Int) → List Bytes
  | [] => []
  | (.collectHeaders headerKeys, _) :: _ => headerKeys
  | _ :: hist => collectedKeys hist

/-- These keys are collected, and those that are given no value have none. -/
structure Collects (keys : List Bytes) (c : HTTPClient C) : Prop where
  keys : c._currentHeaders.map (·.key) = keys
  shadowed : Shadowed c._currentHeaders

theorem Collects.lines {keys : List Bytes} {c c' : HTTPClient C} (h : Collects keys c) (lines : List Bytes)
    (hc' : c'._currentHeaders = lines.foldl collectLine c._currentHeaders) : Collects keys c' :=
  ⟨by rw [hc', collectLines_keys, h.keys], hc' ▸ h.shadowed.collectLines lines⟩

/-- What an operation leaves of them. -/
theorem Op.collects {hist : List (Op C × Int)} {op : Op C} {s s' : Live C (HTTPClient C)} {rc : Int}
    (hs : Collects (collectedKeys hist) s.self) (h : (op.run net).Returns s rc s') :
    Collects (collectedKeys ((op, rc) :: hist)) s'.self := by
  have same (hop : op.bystands) : Collects (collectedKeys hist) s'.self := hs.lines [] (Op.leaves_collected hop s rc s' h)
  have response (hop : op.requests) : Collects (collectedKeys hist) s'.self := by
    obtain ⟨lines, hlines⟩ := Op.collecting hop s rc s' h
    exact hs.lines lines hlines
  cases op with
  | collectHeaders headerKeys =>
    obtain ⟨_, t, hset, h⟩ := Prog.returns_bind.mp h
    obtain ⟨_, rfl⟩ := Prog.returns_pure.mp h
    rw [returns_set.mp hset]
    refine ⟨(List.map_map ..).trans (List.map_id headerKeys), ?_⟩
    rw [Shadowed, List.pairwise_map]
    exact List.pairwise_of_forall fun _ _ _ => rfl
  | sendRequest | sendRequestStream => exact response rfl
  | beginClient | beginClientHost | beginUrl | beginUrlCert | beginHost | beginHostCert | end_ | setReuse | useHTTP10
  | setAuthorization | setTimeout | writeToStream | getString | addHeader => exact same rfl

theorem Collects.of_run {ok : HTTPClient C → Op C → Prop} {hist : List (Op C × Int)} {s : Live C (HTTPClient C)}
    (h : Run net ok hist s) : Collects (collectedKeys hist) s.self := by
  induction h with
  | construct => exact ⟨rfl, List.Pairwise.nil⟩
  | step _ _ h ih => exact Op.collects ih h

/-! ## The last response -/

/-- What is told about the collected keys is what a response with these fields
says. -/
def Latest (keys : List Bytes) (fields : List HeaderField) (c : HTTPClient C) : Prop :=
  ∀ key ∈ keys, c.header key = (lastValue key fields).getD [] ∧ (lastValue key fields = none → c.hasHeader key = false)

/-- No key that the response lacks has a value yet, and none that it has stands
behind another one that is the same in another case. -/
def Fresh (keys : List Bytes) (fields : List HeaderField) (c : HTTPClient C) : Prop :=
  ∀ key ∈ keys, key ≠ [] →
    if Leads key keys then lastValue key fields = none → c.header key = [] else (lastValue key fields).getD [] = []

/-- After a response, whatever it has: by cases on whether the key is given
values at all, and whether the response has one for it. -/
theorem latest_iff {keys : List Bytes} {fields : List HeaderField} {lines : List Bytes} {c c' : HTTPClient C}
    (hc : Collects keys c) (hhead : IsHead lines fields) (hc' : c'._currentHeaders = lines.foldl collectLine c._currentHeaders) :
    Latest keys fields c' ↔ Fresh keys fields c := by
  have hafter := hc.lines lines hc'
  have hempty (key : Bytes) (h : c'.header key = []) : c'.hasHeader key = false := by
    rw [hafter.shadowed.hasHeader, h]
    rfl
  have hhas (key : Bytes) (hvalue : c'.header key = (lastValue key fields).getD []) :
      lastValue key fields = none → c'.hasHeader key = false := fun hnone => hempty key (by rw [hvalue, hnone]; rfl)
  refine forall₂_congr fun key hkey => ?_
  by_cases hne : key = []
  · subst hne
    have hnil : c'.header [] = [] := by rw [header, hc', stored_head_empty hhead _ (hc.keys ▸ hkey)]
    exact ⟨fun _ h => absurd rfl h, fun _ => ⟨by rw [hnil, lastValue_empty]; rfl, fun _ => hempty [] hnil⟩⟩
  have hvalue : c'.header key = if Leads key keys then (lastValue key fields).getD (c.header key) else c.header key := by
    rw [header, hc', stored_head hhead hne, hc.keys]
    rfl
  rw [and_iff_left_of_imp (hhas key), hvalue]
  by_cases hleads : Leads key keys
  · simp only [hleads, if_true]
    cases lastValue key fields with
    | some value => simp
    | none => simp [hne]
  · have hnone : c.header key = [] := hc.shadowed.stored_eq_nil (hc.keys ▸ hleads)
    simp only [hleads, if_false, hnone, eq_comm, hne, ne_eq, not_false_eq_true, forall_const]

variable (net) in
/-- In a request that went from `s` to `s'` and returned `rc`, these are the
lines of the response head. -/
def ReadsHead (s : Live C (HTTPClient C)) (lines : List Bytes) (rc : Int) (s' : Live C (HTTPClient C)) : Prop :=
  ∃ l t, uncollected.rel s t ∧ HeadTrace net l t lines rc s'

theorem Op.readsHead {op : Op C} (hreq : op.requests) {s s' : Live C (HTTPClient C)} {rc : Int}
    (h : (op.run net).Returns s rc s') (hpos : rc > 0) : ∃ lines, ReadsHead net s lines rc s' := by
  obtain ⟨hrc, _⟩ | ⟨t, u, ht, hresponse, -, hsame⟩ := Op.answers hreq s rc s' h
  · omega
  obtain rfl := hsame hpos
  obtain ⟨b, v, hconn, hresponse⟩ := Prog.returns_bind.mp hresponse
  have hv : uncollected.rel t v := uncollected_governs.connected t b v hconn
  rcases Prog.returns_ite.mp hresponse with ⟨_, hresponse⟩ | ⟨_, hresponse⟩
  · obtain ⟨rfl, rfl⟩ := Prog.returns_pure.mp hresponse
    exact absurd hpos (by decide)
  · rw [clear, returns_set_bind, returns_set_bind] at hresponse
    obtain ⟨now, w, hmillis, hloop⟩ := Prog.returns_bind.mp hresponse
    have hw := uncollected_governs.out _ _ _ hmillis
    obtain ⟨lines, htrace⟩ := HeadTrace.of_loop hloop
    exact ⟨lines, _, w, uncollected.trans (uncollected.trans ht hv) hw, htrace⟩

variable (net) in
/-- A step of the application's that neither sends a request nor collects headers
anew. -/
def Between (s s' : Live C (HTTPClient C)) : Prop := ∃ op : Op C, ∃ rc, op.bystands ∧ (op.run net).Returns s rc s'

theorem Between.leaves_collected {s s' : Live C (HTTPClient C)} (h : ReflTransGen (Between net) s s') : uncollected.rel s s' := by
  induction h with
  | refl => exact uncollected.refl s
  | tail _ h ih =>
    obtain ⟨op, rc, hop, hret⟩ := h
    exact uncollected.trans ih (Op.leaves_collected hop _ rc _ hret)

/-- **In every run, after a request with a positive code, and until the next
one**: what is told about the collected keys is what the last response says, if
and only if nothing was left over before it. -/
theorem headers_latest_iff {ok : HTTPClient C → Op C → Prop} {hist : List (Op C × Int)} {s s' s'' : Live C (HTTPClient C)}
    (hrun : Run net ok hist s) {op : Op C} (hreq : op.requests) {rc : Int} (h : (op.run net).Returns s rc s') (hpos : rc > 0)
    (hafter : ReflTransGen (Between net) s' s'') :
    (∃ lines, ReadsHead net s lines rc s') ∧
      ∀ lines fields, ReadsHead net s lines rc s' → IsHead lines fields →
        (Latest (collectedKeys hist) fields s''.self ↔ Fresh (collectedKeys hist) fields s.self) := by
  refine ⟨Op.readsHead hreq h hpos, ?_⟩
  rintro lines fields ⟨l, t, ht, htrace⟩ hhead
  have hbefore : t.self._currentHeaders = s.self._currentHeaders := ht
  have hlater : s''.self._currentHeaders = s'.self._currentHeaders := Between.leaves_collected hafter
  refine latest_iff (Collects.of_run hrun) hhead ?_
  rw [hlater, htrace.currentHeaders, hbefore]

end Trace

end HTTPClient

namespace CollectedDemo

open Prog (step)
open HTTPClient

/-- The outside of the example: what the peer answers to the next requests, and
what is there of its answers. -/
structure Peer where
  answers : List Bytes
  unread : Bytes := []
  deriving DecidableEq

def connection : Connection Peer where
  create _ := pure 0
  release _ := pure ()
  setCACert _ _ := pure ()
  setCertificate _ _ := pure ()
  setPrivateKey _ _ := pure ()
  connect _ _ _ _ := pure 0
  setTimeout _ _ := pure ()
  write _ bs := step fun e => (bs.length, { answers := e.answers.tail, unread := e.unread ++ e.answers.headD [] })
  getWriteError _ := pure 0
  clearWriteError _ := pure ()
  available _ := Prog.gets fun e => e.unread.length
  read _ := step fun e => ((e.unread.headD 0).toNat, { e with unread := e.unread.tail })
  readBytes _ n := step fun e => (e.unread.take n, { e with unread := e.unread.drop n })
  readStringUntil _ c := step fun e =>
    (e.unread.takeWhile (· != c), { e with unread := (e.unread.dropWhile (· != c)).tail })
  connected _ := pure true
  stop _ := pure ()
  malloc n := pure (some (List.replicate n 0))
  millis := pure 0
  delay _ := pure ()
  base64Encode bs := bs

/-- A header and its value, and another value. -/
def first : List HeaderField := [HeadDemo.field (bytes "ETag") (bytes " p")]

def second : List HeaderField := [HeadDemo.field (bytes "etag") (bytes " q")]

/-- The second response is to have these fields. -/
def peer (last : List HeaderField) (h : ∀ f ∈ last, f.named (bytes "Content-Length") = true → IsNumber (Str.trim f.value)) : Peer where
  answers := [(HeadDemo.head first).render, (HeadDemo.head last h).render]

def anew : Peer := peer second (by decide +kernel)

def without : Peer := peer [] (by decide)

def key : Bytes := bytes "ETag"

def begin : Op Peer := .beginClient (some 0) (bytes "http://a/")

def GET : Op Peer := .sendRequest (bytes "GET") []

/-- The client with a target, after `collectHeaders`, after a GET whose response
has the header, and after another one. -/
def begun (e : Peer) : Live Peer (HTTPClient Peer) := ((begin.run connection).run 1 ⟨{}, e⟩).2

def collecting (e : Peer) : Live Peer (HTTPClient Peer) := (((Op.collectHeaders [key]).run connection).run 1 (begun e)).2

def answered (e : Peer) : Live Peer (HTTPClient Peer) := ((GET.run connection).run 4 (collecting e)).2

def again (e : Peer) : Live Peer (HTTPClient Peer) := ((GET.run connection).run 4 (answered e)).2

/-- What the runs return. -/
def runs (e : Peer) : Bool :=
  ((begin.run connection).run 1 ⟨{}, e⟩).1 = .done 1 ∧ (((Op.collectHeaders [key]).run connection).run 1 (begun e)).1 = .done 0 ∧
    ((GET.run connection).run 4 (collecting e)).1 = .done 200 ∧ ((GET.run connection).run 4 (answered e)).1 = .done 200

theorem answered_run {e : Peer} (h : runs e = true) :
    Run connection (fun _ _ => True) [(GET, 200), (.collectHeaders [key], 0), (begin, 1)] (answered e) ∧
      (GET.run connection).Returns (answered e) 200 (again e) := by
  obtain ⟨hbegin, hcollect, hfirst, hlast⟩ := of_decide_eq_true h
  exact ⟨.step (.step (.step (.construct e) trivial (.of_run 1 hbegin)) trivial (.of_run 1 hcollect)) trivial (.of_run 4 hfirst),
    .of_run 4 hlast⟩

/-- Where the loop begins in the second response. -/
def heading (e : Peer) : Live Peer (HTTPClient Peer) :=
  ⟨{ (again e).self with _returnCode := 0, _currentHeaders := (answered e).self._currentHeaders },
    { (again e).env with unread := e.answers.getLastD [] }⟩

def status : Bytes := Str.trim (HeadDemo.head []).status

/-- After the status line, and after a field. -/
def headed (e : Peer) : Live Peer (HTTPClient Peer) := ((headTurn connection { lastDataTime := 0 }).run 1 (heading e)).2

def fielded (e : Peer) : Live Peer (HTTPClient Peer) := ((headTurn connection { lastDataTime := 0 }).run 1 (headed e)).2

theorem anew_reads : ReadsHead connection (answered anew) [status, bytes "etag: q", []] 200 (again anew) := by
  let l : HeadState := { lastDataTime := 0 }
  have hruns : (heading anew).self._currentHeaders = (answered anew).self._currentHeaders ∧
      ((awaitLine connection).run 1 (heading anew)).1 = .done (some status) ∧
      ((headTurn connection l).run 1 (heading anew)).1 = .done (.next l) ∧
      ((awaitLine connection).run 1 (headed anew)).1 = .done (some (bytes "etag: q")) ∧
      ((headTurn connection l).run 1 (headed anew)).1 = .done (.next l) ∧
      ((awaitLine connection).run 1 (fielded anew)).1 = .done (some []) ∧
      (headTurn connection l).run 1 (fielded anew) = (.done (.exit 200), again anew) := by decide +kernel
  obtain ⟨hheaders, hstatus, hnext, hfield, hnext', hempty, hexit⟩ := hruns
  exact ⟨l, heading anew, hheaders, .next (.of_run 1 hstatus) (.of_run 1 hnext)
    (.next (.of_run 1 hfield) (.of_run 1 hnext') (.exit (.of_run 1 hempty) ⟨1, hexit⟩))⟩

/-- After an earlier response with the header, the value of the last one is told. -/
theorem answered_latest : Latest [key] second (again anew).self ∧ (again anew).self.header key = bytes "q" := by
  obtain ⟨hrun, hget⟩ := answered_run (e := anew) (by decide +kernel)
  have hhead : IsHead [status, bytes "etag: q", []] second := ⟨status, by decide +kernel, by decide +kernel⟩
  have hfresh : Fresh [key] second (answered anew).self := by
    intro k hk _
    obtain rfl := List.mem_singleton.mp hk
    have hleads : Leads key [key] := by decide +kernel
    have hsome : lastValue key second ≠ none := by decide +kernel
    rw [if_pos hleads]
    exact fun hnone => absurd hnone hsome
  have hlatest := ((headers_latest_iff hrun rfl hget (by decide) .refl).2 _ second anew_reads hhead).mpr hfresh
  exact ⟨hlatest, (hlatest key List.mem_cons_self).1.trans (by decide +kernel)⟩

theorem without_reads : ReadsHead connection (answered without) [status, []] 200 (again without) := by
  let l : HeadState := { lastDataTime := 0 }
  have hruns : (heading without).self._currentHeaders = (answered without).self._currentHeaders ∧
      ((awaitLine connection).run 1 (heading without)).1 = .done (some status) ∧
      ((headTurn connection l).run 1 (heading without)).1 = .done (.next l) ∧
      ((awaitLine connection).run 1 (headed without)).1 = .done (some []) ∧
      (headTurn connection l).run 1 (headed without) = (.done (.exit 200), again without) := by decide +kernel
  obtain ⟨hheaders, hstatus, hnext, hempty, hexit⟩ := hruns
  exact ⟨l, heading without, hheaders, .next (.of_run 1 hstatus) (.of_run 1 hnext) (.exit (.of_run 1 hempty) ⟨1, hexit⟩)⟩

/-- What the first response said is told after the second one, too. -/
theorem again_latest : ¬ ∀ hist s s' (op : Op Peer) rc lines fields, Run connection (fun _ _ => True) hist s → op.requests →
    (op.run connection).Returns s rc s' → rc > 0 → ReadsHead connection s lines rc s' → IsHead lines fields →
    Latest (collectedKeys hist) fields s'.self := by
  intro h
  obtain ⟨hrun, hget⟩ := answered_run (e := without) (by decide +kernel)
  have hlatest := h _ _ (again without) GET 200 _ [] hrun rfl hget (by decide) without_reads ⟨status, by decide +kernel, rfl⟩
  have hleft : (again without).self.header key = bytes "p" := by decide +kernel
  have hnone := (hlatest key List.mem_cons_self).1
  rw [hleft] at hnone
  exact absurd hnone (by decide)

end CollectedDemo

end FEmbed
