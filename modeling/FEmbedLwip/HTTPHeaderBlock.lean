/-
`_headers` as an ordered map: a list of entries, and the text that is their
lines one after the other.

`addHeader` edits the text: it looks for `name: ` in all of it, and takes out
from there to the end of the line. That is the entry only where no earlier
line has the text somewhere else, in a longer name or in a value (`Found`).
-/
import FEmbedLwip.HTTPResponse

namespace FEmbed

open Live

/-! ## Searching lines -/

/-- A position in a text, behind `n` characters more. -/
def behindBy (n : Nat) (i : Int) : Int := if i = -1 then -1 else i + n

theorem Str.indexOfStr_cons {b : UInt8} {s t : Bytes} (h : ¬ t <+: b :: s) :
    Str.indexOfStr (b :: s) t = behindBy 1 (Str.indexOfStr s t) := by
  have hno : t.isPrefixOf (b :: s) = false := by
    rw [Bool.eq_false_iff]
    exact fun hp => h (List.isPrefixOf_iff_prefix.mp hp)
  rw [Str.indexOfStr, Str.indexOfStr, List.tails_cons, List.findIdx?_cons, hno]
  cases s.tails.findIdx? (t.isPrefixOf ·) with
  | none => rfl
  | some i =>
    simp only [Bool.false_eq_true, if_false, Option.map_some, behindBy]
    rw [if_neg (by omega)]
    rfl

theorem behindBy_add (m n : Nat) (i : Int) (h : 0 ≤ i ∨ i = -1) : behindBy m (behindBy n i) = behindBy (n + m) i := by
  simp only [behindBy]
  split
  · rfl
  · rw [if_neg (by omega)]
    push_cast
    omega

theorem Str.indexOfStr_range (s t : Bytes) : 0 ≤ Str.indexOfStr s t ∨ Str.indexOfStr s t = -1 := by
  rcases Str.indexOfStr_cases s t with h | ⟨i, h⟩
  · exact .inr h
  · exact .inl (by omega)

/-- A text that is not in a line is found behind it, if at all. -/
theorem Str.indexOfStr_line {l s t : Bytes} (hne : t ≠ []) (hlf : 10 ∉ t) (h : ¬ t <:+: l) :
    Str.indexOfStr (l ++ 10 :: s) t = behindBy (l.length + 1) (Str.indexOfStr s t) := by
  induction l with
  | nil =>
    refine Str.indexOfStr_cons ?_
    rintro ⟨u, hu⟩
    cases t with
    | nil => exact hne rfl
    | cons c t => exact hlf (by rw [(List.cons.inj hu).1]; exact List.mem_cons_self)
  | cons b l ih =>
    have hfirst : ¬ t <+: b :: (l ++ 10 :: s) := fun hp => h (prefix_line hlf hp).isInfix
    have hrest : ¬ t <:+: l := fun hp => h (hp.trans (List.suffix_cons b l).isInfix)
    rw [List.cons_append, Str.indexOfStr_cons hfirst, ih hrest, behindBy_add _ _ _ (Str.indexOfStr_range s t)]
    rfl

namespace HTTPClient

/-! ## Entries -/

/-- An entry: a token, and a value that is part of a line. -/
structure Entry where
  name : Bytes
  value : Bytes
  nonempty : name ≠ []
  token : ∀ b ∈ name, isToken b = true
  line : 13 ∉ value ∧ 10 ∉ value
  deriving DecidableEq

/-- Its line, without the line feed. -/
def Entry.text (e : Entry) : Bytes := e.name ++ bytes ": " ++ e.value ++ [13]

/-- The lines of a list of entries. -/
def block (L : List Entry) : Bytes := L.flatMap fun e => e.text ++ [10]

/-- A call of `addHeader`. -/
structure AddCall extends Entry where
  first : Bool
  replace : Bool

/-- The names that the client writes itself. -/
def isReserved (credentials : Bool) (name : Bytes) : Bool :=
  Str.equalsIgnoreCase name (bytes "Connection") || Str.equalsIgnoreCase name (bytes "User-Agent") ||
    Str.equalsIgnoreCase name (bytes "Host") || (credentials && Str.equalsIgnoreCase name (bytes "Authorization"))

/-- What a call does to the map: an entry with the name goes, the first one, if
it is to be replaced; the new one comes to the front or the back. -/
def AddCall.put (call : AddCall) (L : List Entry) : List Entry :=
  let L := if call.replace then L.eraseP (·.name = call.name) else L
  if call.first then call.toEntry :: L else L ++ [call.toEntry]

def AddCall.apply (credentials : Bool) (L : List Entry) (call : AddCall) : List Entry :=
  if isReserved credentials call.name then L else call.put L

/-- Calls of `addHeader`, one after the other. -/
def addHeaders {C : Type} : List AddCall → Prog (Live C (HTTPClient C)) Unit
  | [] => pure ()
  | call :: calls => do
    addHeader call.name call.value call.first call.replace
    addHeaders calls

/-- What a call that replaces looks for is in no line in front of its entry, and
the text is one that a string can hold. -/
def Found (L : List Entry) (call : AddCall) : Prop :=
  call.replace = true →
    (∀ e ∈ L.takeWhile (·.name ≠ call.name), ¬ (call.name ++ bytes ": ") <:+: e.text) ∧ (block L).length < 2 ^ 32

/-- Every call that is not refused finds its own entry, or none. -/
def AllFound (credentials : Bool) : List Entry → List AddCall → Prop
  | _, [] => True
  | L, call :: calls =>
    (isReserved credentials call.name = false → Found L call) ∧ AllFound credentials (call.apply credentials L) calls

instance (L : List Entry) (call : AddCall) : Decidable (Found L call) :=
  inferInstanceAs (Decidable (call.replace = true →
    (∀ e ∈ L.takeWhile (·.name ≠ call.name), ¬ (call.name ++ bytes ": ") <:+: e.text) ∧ (block L).length < 2 ^ 32))

instance decideAllFound (credentials : Bool) : ∀ L calls, Decidable (AllFound credentials L calls)
  | _, [] => isTrue trivial
  | L, call :: calls =>
    have := decideAllFound credentials (call.apply credentials L) calls
    inferInstanceAs (Decidable ((isReserved credentials call.name = false → Found L call) ∧
      AllFound credentials (call.apply credentials L) calls))

theorem Entry.text_noLf (e : Entry) : 10 ∉ e.text := by
  have hname : 10 ∉ e.name := fun h => (isToken_spec (e.token 10 h)).2.2.2 rfl
  simp only [Entry.text, List.mem_append, not_or]
  exact ⟨⟨⟨hname, by decide⟩, e.line.2⟩, by decide⟩

theorem block_cons (e : Entry) (L : List Entry) : block (e :: L) = e.text ++ 10 :: block L := by
  simp [block]

theorem block_append (L M : List Entry) : block (L ++ M) = block L ++ block M := List.flatMap_append

theorem isReserved_iff {C : Type} (name : Bytes) (c : HTTPClient C) :
    isReserved (decide (c._base64Authorization ≠ [])) name = true ↔ reserved name c := by
  rw [isReserved, reserved]
  simp only [Bool.or_eq_true, Bool.and_eq_true, decide_eq_true_eq, or_assoc]
  rw [and_comm (a := c._base64Authorization ≠ [])]

/-! ## Cutting -/

/-- Lines without the text are passed over. -/
theorem indexOfStr_block {L : List Entry} {s t : Bytes} (hne : t ≠ []) (hlf : 10 ∉ t) (h : ∀ e ∈ L, ¬ t <:+: e.text) :
    Str.indexOfStr (block L ++ s) t = behindBy (block L).length (Str.indexOfStr s t) := by
  induction L with
  | nil =>
    rcases Str.indexOfStr_range s t with hi | hi <;> simp [block, behindBy, hi]
  | cons e L ih =>
    rw [block_cons, List.append_assoc, List.cons_append, Str.indexOfStr_line hne hlf (h e List.mem_cons_self),
      ih fun e' he => h e' (List.mem_cons_of_mem e he), behindBy_add _ _ _ (Str.indexOfStr_range s t)]
    congr 1
    simp
    omega

theorem indexOfStr_nil {t : Bytes} (hne : t ≠ []) : Str.indexOfStr [] t = -1 := by
  cases t with
  | nil => exact absurd rfl hne
  | cons b t => rfl

theorem cut_text {name : Bytes} (hname : 10 ∉ name) : name ++ bytes ": " ≠ [] ∧ 10 ∉ name ++ bytes ": " := by
  refine ⟨by simp [bytes], ?_⟩
  simp only [List.mem_append, not_or]
  exact ⟨hname, by decide⟩

/-- Without an entry of the name, nothing is cut. -/
theorem cutHeader_none {L : List Entry} {name : Bytes} (hname : 10 ∉ name)
    (h : ∀ e ∈ L, ¬ (name ++ bytes ": ") <:+: e.text) : cutHeader (block L) (name ++ bytes ": ") = block L := by
  obtain ⟨hne, hlf⟩ := cut_text hname
  have hindex := indexOfStr_block (s := []) hne hlf h
  rw [List.append_nil, indexOfStr_nil hne] at hindex
  rw [cutHeader, hindex]
  rfl

/-- The entry is cut, with the line feed behind it. -/
theorem cutHeader_entry {A B : List Entry} {e : Entry} (h : ∀ a ∈ A, ¬ (e.name ++ bytes ": ") <:+: a.text)
    (hlen : (block (A ++ e :: B)).length < 2 ^ 32) :
    cutHeader (block (A ++ e :: B)) (e.name ++ bytes ": ") = block (A ++ B) := by
  have hname : 10 ∉ e.name := fun h => (isToken_spec (e.token 10 h)).2.2.2 rfl
  obtain ⟨hne, hlf⟩ := cut_text hname
  have htext : block (A ++ e :: B) = block A ++ (e.text ++ 10 :: block B) := by rw [block_append, block_cons]
  have hstart : Str.indexOfStr (block (A ++ e :: B)) (e.name ++ bytes ": ") = ((block A).length : Nat) := by
    have hhere : Str.indexOfStr (e.text ++ 10 :: block B) (e.name ++ bytes ": ") = 0 :=
      Str.indexOfStr_prefix ⟨e.value ++ [13] ++ 10 :: block B, by simp [Entry.text]⟩
    rw [htext, indexOfStr_block hne hlf h, hhere, behindBy, if_neg (by decide), Int.zero_add]
  have hend : Str.indexOfFrom (block (A ++ e :: B)) 10 (block A).length = ((block A).length + e.text.length : Nat) := by
    refine Str.indexOfFrom_line (b := block B) ?_ e.text_noLf
    rw [htext, List.drop_left]
  have hsize : sizeT ((((block A).length + e.text.length : Nat) : Int) + 1) = (block A).length + e.text.length + 1 := by
    refine sizeT_natCast (n := (block A).length + e.text.length + 1) ?_
    rw [htext] at hlen
    simp only [List.length_append, List.length_cons] at hlen
    omega
  have hafter : (block (A ++ e :: B)).drop ((block A).length + e.text.length + 1) = block B := by
    rw [htext, Nat.add_assoc, ← List.drop_drop, List.drop_left, ← List.drop_drop, List.drop_left]
    rfl
  have hle : (block A).length + e.text.length + 1 ≤ (block (A ++ e :: B)).length := by
    rw [htext]
    simp only [List.length_append, List.length_cons]
    omega
  rw [cutHeader, hstart, if_pos (by omega), Int.toNat_natCast, hend]
  dsimp only
  rw [hsize, Str.substringFrom, Str.substring, Str.substring, if_pos (Nat.zero_le _), if_pos hle, List.drop_zero, List.take_length,
    hafter, htext, List.take_left, block_append]

/-! ## Calls -/

/-- `addHeader` always returns. -/
theorem addHeader_ends {C : Type} (name value : Bytes) (first replace : Bool) (s : Live C (HTTPClient C)) :
    ∃ s', (addHeader name value first replace).Returns s () s' := by
  by_cases hres : reserved name s.self
  · refine ⟨s, ?_⟩
    rw [addHeader, returns_obj_bind]
    exact Prog.returns_ite.mpr (.inl ⟨hres, Prog.returns_pure.mpr ⟨rfl, rfl⟩⟩)
  · refine ⟨⟨{ s.self with _headers := putHeader name value first replace s.self._headers }, s.env⟩, ?_⟩
    rw [addHeader, returns_obj_bind]
    refine Prog.returns_ite.mpr (.inr ⟨hres, ?_⟩)
    by_cases hr : replace = true
    · refine Prog.returns_ite.mpr (.inl ⟨hr, ?_⟩)
      by_cases hfound : Str.indexOfStr s.self._headers (name ++ bytes ": ") ≠ -1
      · refine Prog.returns_ite.mpr (.inl ⟨hfound, ?_⟩)
        rw [returns_set_bind]
        exact returns_set.mpr (by rw [putHeader, if_pos hr, cutHeader, if_pos hfound])
      · refine Prog.returns_ite.mpr (.inr ⟨hfound, ?_⟩)
        exact returns_set.mpr (by rw [putHeader, if_pos hr, cutHeader, if_neg hfound])
    · exact Prog.returns_ite.mpr (.inr ⟨hr, returns_set.mpr (by rw [putHeader, if_neg hr])⟩)

/-- The text of a list from which the first entry of a name has gone. -/
theorem cutHeader_block {L : List Entry} {call : AddCall} (hr : call.replace = true) (h : Found L call) :
    cutHeader (block L) (call.name ++ bytes ": ") = block (L.eraseP (·.name = call.name)) := by
  obtain ⟨hclear, hlen⟩ := h hr
  have hname : 10 ∉ call.name := fun h => (isToken_spec (call.token 10 h)).2.2.2 rfl
  have hsplit : L.takeWhile (·.name ≠ call.name) ++ L.dropWhile (·.name ≠ call.name) = L := List.takeWhile_append_dropWhile
  have hbefore : ∀ a ∈ L.takeWhile (·.name ≠ call.name), ¬ decide (a.name = call.name) = true := by
    intro a ha
    simpa using List.mem_takeWhile_imp ha
  generalize L.takeWhile (·.name ≠ call.name) = A at hclear hsplit hbefore
  cases hrest : L.dropWhile (·.name ≠ call.name) with
  | nil =>
    rw [hrest, List.append_nil] at hsplit
    subst hsplit
    rw [cutHeader_none hname hclear, List.eraseP_of_forall_not hbefore]
  | cons e B =>
    have he : e.name = call.name := by
      have hhead := List.head?_dropWhile_not (fun a : Entry => decide (a.name ≠ call.name)) L
      rw [hrest] at hhead
      simpa using hhead
    rw [hrest] at hsplit
    subst hsplit
    rw [List.eraseP_append_right _ hbefore, List.eraseP_cons_of_pos (by simp [he]), ← he]
    exact cutHeader_entry (he ▸ hclear) hlen

/-- `_headers` after a call that is not refused is the text of the list then. -/
theorem putHeader_block {L : List Entry} {call : AddCall} (h : Found L call) :
    putHeader call.name call.value call.first call.replace (block L) = block (call.put L) := by
  have hkept : (if call.replace then cutHeader (block L) (call.name ++ bytes ": ") else block L) =
      block (if call.replace then L.eraseP (·.name = call.name) else L) := by
    by_cases hr : call.replace = true
    · rw [if_pos hr, if_pos hr, cutHeader_block hr h]
    · rw [if_neg hr, if_neg hr]
  have hline : call.name ++ bytes ": " ++ call.value ++ bytes "\r\n" = block [call.toEntry] := by
    simp [block, Entry.text, crlf_eq]
  rw [putHeader, AddCall.put, hkept, hline]
  cases call.first
  · simp [block_append]
  · simp [block, List.flatMap_cons]

/-- What one call does, on the map and on the text. -/
theorem addHeader_block {C : Type} {L : List Entry} {call : AddCall} {s : Live C (HTTPClient C)} (hs : s.self._headers = block L)
    (h : isReserved (decide (s.self._base64Authorization ≠ [])) call.name = false → Found L call) :
    (addHeader call.name call.value call.first call.replace).Returns s ()
      ⟨{ s.self with _headers := block (call.apply (decide (s.self._base64Authorization ≠ [])) L) }, s.env⟩ := by
  obtain ⟨s', hret⟩ := addHeader_ends call.name call.value call.first call.replace s
  rcases addHeader_returns hret with ⟨hres, rfl⟩ | ⟨hres, rfl⟩
  · rw [AddCall.apply, if_pos ((isReserved_iff _ _).mpr hres), ← hs]
    exact hret
  · have hfree : ¬ isReserved (decide (s.self._base64Authorization ≠ [])) call.name = true := fun h => hres ((isReserved_iff _ _).mp h)
    rw [hs, putHeader_block (h (Bool.eq_false_iff.mpr hfree))] at hret
    rwa [AddCall.apply, if_neg hfree]

/-- A call leaves the entries of all other names, and their order. -/
theorem AddCall.apply_other (credentials : Bool) (L : List Entry) (call : AddCall) :
    (call.apply credentials L).filter (·.name ≠ call.name) = L.filter (·.name ≠ call.name) := by
  have herase : (L.eraseP (·.name = call.name)).filter (·.name ≠ call.name) = L.filter (·.name ≠ call.name) := by
    induction L with
    | nil => rfl
    | cons e L ih =>
      by_cases he : e.name = call.name
      · simp [he]
      · simpa [he] using ih
  have hkept : (if call.replace then L.eraseP (·.name = call.name) else L).filter (·.name ≠ call.name) =
      L.filter (·.name ≠ call.name) := by
    split
    · exact herase
    · rfl
  rw [AddCall.apply]
  split
  · rfl
  · rw [AddCall.put]
    split
    · rw [List.filter_cons_of_neg (by simp), hkept]
    · rw [List.filter_append, hkept]
      simp

/-- In a run of calls that find their own entries, the header block is the text
of the map all along: by induction on the calls, each of which acts on the map
and leaves the entries of other names. -/
theorem addHeaders_map {C : Type} (L : List Entry) (calls : List AddCall) {s : Live C (HTTPClient C)}
    (hs : s.self._headers = block L) (hfound : AllFound (decide (s.self._base64Authorization ≠ [])) L calls) :
    (addHeaders calls).Returns s ()
        ⟨{ s.self with _headers := block (calls.foldl (AddCall.apply (decide (s.self._base64Authorization ≠ []))) L) }, s.env⟩ ∧
      ∀ (M : List Entry) (call : AddCall),
        (call.apply (decide (s.self._base64Authorization ≠ [])) M).filter (·.name ≠ call.name) = M.filter (·.name ≠ call.name) := by
  refine ⟨?_, AddCall.apply_other _⟩
  induction calls generalizing L s with
  | nil =>
    rw [List.foldl_nil, ← hs]
    exact Prog.returns_pure.mpr ⟨rfl, rfl⟩
  | cons call calls ih =>
    have hstep := addHeader_block hs hfound.1
    rw [addHeaders, Prog.returns_bind_of hstep, List.foldl_cons]
    exact ih _ rfl hfound.2

end HTTPClient

namespace BlockDemo

open HTTPClient

def entry (name value : Bytes) (hname : name ≠ [] ∧ ∀ b ∈ name, isToken b = true := by decide +kernel)
    (hvalue : 13 ∉ value ∧ 10 ∉ value := by decide +kernel) : Entry := ⟨name, value, hname.1, hname.2, hvalue⟩

/-- A header, one whose name ends with this name, and the first one anew. -/
def calls : List AddCall :=
  [⟨entry (bytes "X-Accept") (bytes "a"), false, true⟩, ⟨entry (bytes "Accept") (bytes "b"), false, true⟩]

/-- The first header is replaced while the other one stands behind it. -/
def again : List AddCall :=
  [⟨entry (bytes "Accept") (bytes "a"), false, true⟩, ⟨entry (bytes "X-Accept") (bytes "b"), false, true⟩,
    ⟨entry (bytes "Accept") (bytes "c"), false, true⟩, ⟨entry (bytes "Host") (bytes "d"), false, true⟩]

theorem again_map : ∃ s, (addHeaders again).Returns (⟨{}, ()⟩ : Live Unit (HTTPClient Unit)) () s ∧
    s.self._headers = block [entry (bytes "X-Accept") (bytes "b"), entry (bytes "Accept") (bytes "c")] :=
  ⟨_, (addHeaders_map (C := Unit) [] again (s := ⟨{}, ()⟩) rfl (by decide +kernel)).1, by decide +kernel⟩

/-- The first header is cut in the middle. -/
theorem calls_map : ¬ ∀ (calls : List AddCall) (s s' : Live Unit (HTTPClient Unit)), s.self._headers = block [] →
    (addHeaders calls).Returns s () s' →
      s'.self._headers = block (calls.foldl (AddCall.apply (decide (s.self._base64Authorization ≠ []))) []) := by
  intro hall
  obtain ⟨s', h, hheaders⟩ : ∃ s', (addHeaders calls).Returns (⟨{}, ()⟩ : Live Unit (HTTPClient Unit)) () s' ∧
      s'.self._headers = bytes "X-Accept: b\r\n" := ⟨_, .of_run 20 (by decide +kernel), by decide +kernel⟩
  have hblock := hall calls ⟨{}, ()⟩ s' rfl h
  rw [hheaders] at hblock
  exact absurd hblock (by decide +kernel)

end BlockDemo

end FEmbed
