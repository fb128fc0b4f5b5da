/-
What a request head says: its lines, the fields among them, and what the
requests of a run put there.

`_headers` is text that grows by `addHeader` and is emptied by `clear`. What a
request adds for its payload is still there for the next one if no response
was read in between (`Fits`).
-/
import FEmbedLwip.HTTPRuns
import Mathlib.Data.List.Infix

namespace FEmbed

open Live
open Prog (Guarantee Guarantees)

/-! ## Lines -/

/-- The complete lines of a text, without their line feeds. -/
def lines : Bytes → List Bytes
  | [] => []
  | b :: s =>
    if b = 10 then [] :: lines s
    else match lines s with
      | [] => []
      | l :: ls => (b :: l) :: ls

/-- Whether a text is empty or ends with a line feed. -/
def FullLines (s : Bytes) : Prop := s = [] ∨ ∃ t, s = t ++ [10]

theorem FullLines.nil : FullLines [] := .inl rfl

theorem fullLines_concat (s : Bytes) : FullLines (s ++ [10]) := .inr ⟨s, rfl⟩

theorem FullLines.append {s t : Bytes} (hs : FullLines s) (ht : FullLines t) : FullLines (s ++ t) := by
  rcases ht with rfl | ⟨u, rfl⟩
  · rwa [List.append_nil]
  · rw [← List.append_assoc]
    exact fullLines_concat _

theorem FullLines.append_right {s t : Bytes} (ht : FullLines t) (hne : t ≠ []) : FullLines (s ++ t) := by
  obtain rfl | ⟨u, rfl⟩ := ht
  · exact absurd rfl hne
  · rw [← List.append_assoc]
    exact fullLines_concat _

theorem FullLines.of_append_right {s t : Bytes} (h : FullLines (s ++ t)) : FullLines t := by
  rcases List.eq_nil_or_concat t with rfl | ⟨u, b, rfl⟩
  · exact .nil
  · obtain h | ⟨v, h⟩ := h
    · simp at h
    · rw [List.concat_eq_append, ← List.append_assoc] at h
      rw [List.concat_eq_append, (List.append_inj' h rfl).2]
      exact fullLines_concat u

/-- A complete text that is not empty has a first line. -/
theorem FullLines.first_line {s : Bytes} (h : FullLines s) (hne : s ≠ []) : ∃ l b, 10 ∉ l ∧ s = l ++ 10 :: b := by
  have hmem : 10 ∈ s := by
    obtain rfl | ⟨t, rfl⟩ := h
    · exact absurd rfl hne
    · simp
  obtain ⟨l, b, hs, hl⟩ := List.eq_append_cons_of_mem hmem
  exact ⟨l, b, hl, hs⟩

theorem lines_cons_ne {b : UInt8} {s : Bytes} (hb : b ≠ 10) {l : Bytes} {ls : List Bytes} (h : lines s = l :: ls) :
    lines (b :: s) = (b :: l) :: ls := by
  rw [lines, if_neg hb, h]

/-- Lines of a text that goes on after a line feed. -/
theorem lines_line (s t : Bytes) (hs : 10 ∉ s) : lines (s ++ 10 :: t) = s :: lines t := by
  induction s with
  | nil => rw [List.nil_append, lines, if_pos rfl]
  | cons b s ih =>
    obtain ⟨hb, hs⟩ : 10 ≠ b ∧ 10 ∉ s := by simpa using hs
    rw [List.cons_append, lines_cons_ne (Ne.symm hb) (ih hs)]

theorem lines_concat_ne_nil (s : Bytes) : lines (s ++ [10]) ≠ [] := by
  induction s with
  | nil => simp [lines]
  | cons b s ih =>
    rw [List.cons_append, lines]
    split
    · simp
    · split
      · exact absurd ‹_› ih
      · simp

theorem lines_append {s : Bytes} (hs : FullLines s) (t : Bytes) : lines (s ++ t) = lines s ++ lines t := by
  obtain rfl | ⟨u, rfl⟩ := hs
  · rfl
  induction u with
  | nil => rfl
  | cons b u ih =>
    simp only [List.cons_append] at ih ⊢
    by_cases hb : b = 10
    · rw [lines, lines, if_pos hb, if_pos hb, ih]; rfl
    · obtain ⟨l, ls, hl⟩ := List.exists_cons_of_ne_nil (lines_concat_ne_nil u)
      rw [hl] at ih
      rw [lines_cons_ne hb ih, lines_cons_ne hb hl]
      rfl

theorem first_of_lines {s l : Bytes} {ls : List Bytes} (h : lines s = l :: ls) : ∃ b, s = l ++ 10 :: b := by
  induction s generalizing l ls with
  | nil => exact nomatch h
  | cons c s ih =>
    rw [lines] at h
    split at h
    · rename_i hc
      obtain ⟨rfl, _⟩ := List.cons.inj h
      exact ⟨s, by rw [hc]; rfl⟩
    · split at h
      · exact nomatch h
      · rename_i l' ls' hls
        obtain ⟨rfl, _⟩ := List.cons.inj h
        obtain ⟨b, rfl⟩ := ih hls
        exact ⟨b, rfl⟩

theorem mem_lines {l s : Bytes} (h : l ∈ lines s) : ∃ a b, s = a ++ (l ++ 10 :: b) := by
  induction s generalizing l with
  | nil => exact nomatch h
  | cons c s ih =>
    rw [lines] at h
    split at h
    · rename_i hc
      rcases List.mem_cons.mp h with rfl | h
      · exact ⟨[], s, by rw [hc]; rfl⟩
      · obtain ⟨a, b, rfl⟩ := ih h
        exact ⟨c :: a, b, rfl⟩
    · split at h
      · exact nomatch h
      · rename_i l' ls hls
        rcases List.mem_cons.mp h with rfl | h
        · obtain ⟨b, hb⟩ := first_of_lines hls
          exact ⟨[], b, by rw [hb]; rfl⟩
        · obtain ⟨a, b, rfl⟩ := ih (hls ▸ List.mem_cons_of_mem _ h)
          exact ⟨c :: a, b, rfl⟩

/-- A text without a line feed, in front of a line, is in front of its text. -/
theorem prefix_line {t l b : Bytes} (ht : 10 ∉ t) (h : t <+: l ++ 10 :: b) : t <+: l := by
  obtain ⟨u, hu⟩ := h
  rcases List.append_eq_append_iff.mp hu with ⟨v, hv, _⟩ | ⟨v, hv, hv'⟩
  · exact ⟨v, hv.symm⟩
  · cases v with
    | nil => exact ⟨[], by rw [hv]; simp⟩
    | cons c v => exact absurd (by rw [hv, (List.cons.inj hv').1]; simp) ht

/-- The name of a header field: what is before the colon. -/
def isField (name line : Bytes) : Bool :=
  line.contains 58 && Str.equalsIgnoreCase (line.takeWhile (· != 58)) name

theorem isField_colon {n : Bytes} (hn : 58 ∉ n) (name rest : Bytes) :
    isField name (n ++ 58 :: rest) = Str.equalsIgnoreCase n name := by
  have hall : ∀ b ∈ n, (b != 58) = true := fun b hb => bne_iff_ne.mpr fun h => hn (h ▸ hb)
  rw [isField, List.takeWhile_append_of_pos hall]
  simp

/-- The lines of a block of header fields that have a name. -/
def fieldLines (name block : Bytes) : List Bytes := (lines block).filter (isField name)

theorem fieldLines_append {name s : Bytes} (hs : FullLines s) (t : Bytes) :
    fieldLines name (s ++ t) = fieldLines name s ++ fieldLines name t := by
  rw [fieldLines, lines_append hs, List.filter_append]
  rfl

/-- The fields of a request head with a name: the first line is the request line. -/
def headFields (name text : Bytes) : List Bytes := (lines text).tail.filter (isField name)

theorem headFields_append {name s : Bytes} (hs : FullLines s) (hne : s ≠ []) (t : Bytes) :
    headFields name (s ++ t) = headFields name s ++ fieldLines name t := by
  obtain ⟨l, ls, hl⟩ : ∃ l ls, lines s = l :: ls := by
    obtain rfl | ⟨u, rfl⟩ := hs
    · exact absurd rfl hne
    · exact List.exists_cons_of_ne_nil (lines_concat_ne_nil u)
  rw [headFields, headFields, lines_append hs, hl, fieldLines]
  simp

/-! ## Searching -/

theorem Str.indexOfStr_eq {s t : Bytes} {i : Nat} (h : Str.indexOfStr s t = i) : t <+: s.drop i := by
  rw [Str.indexOfStr] at h
  split at h
  · rename_i j hj
    obtain rfl : j = i := Int.ofNat_inj.mp h
    obtain ⟨hlt, hp, _⟩ := List.findIdx?_eq_some_iff_getElem.mp hj
    simpa [List.getElem_tails] using hp
  · exact absurd h (by omega)

theorem Str.indexOfStr_eq_neg {s t : Bytes} (h : Str.indexOfStr s t = -1) : ¬ t <:+: s := by
  rw [Str.indexOfStr] at h
  split at h
  · exact absurd h (by omega)
  · rename_i hnone
    rintro ⟨a, b, rfl⟩
    have hmem : t ++ b ∈ (a ++ t ++ b).tails := (List.mem_tails _ _).mpr ⟨a, (List.append_assoc ..).symm⟩
    exact absurd (List.findIdx?_eq_none_iff.mp hnone _ hmem) (by simp)

theorem Str.indexOfStr_cases (s t : Bytes) : Str.indexOfStr s t = -1 ∨ ∃ i : Nat, Str.indexOfStr s t = i := by
  rw [Str.indexOfStr]
  split
  · exact .inr ⟨_, rfl⟩
  · exact .inl rfl

theorem Str.ofNat_noLf (n : Nat) : 10 ∉ Str.ofNat n := by
  intro h
  obtain ⟨c, hc, hb⟩ := List.mem_map.mp h
  have hdigit : c.isDigit := by
    rw [Nat.toString_eq_repr, Nat.toList_repr] at hc
    exact Nat.isDigit_of_mem_toDigits (by decide) (by decide) hc
  have hrange : 48 ≤ c.toNat ∧ c.toNat ≤ 57 := by
    simpa [Char.isDigit, UInt32.le_iff_toNat_le] using hdigit
  have hmod : c.toNat % 256 = 10 := by
    simpa using congrArg UInt8.toNat hb
  omega

theorem Str.indexOfFrom_line {s l b : Bytes} {i : Nat} (h : s.drop i = l ++ 10 :: b) (hl : 10 ∉ l) :
    Str.indexOfFrom s 10 i = (i + l.length : Nat) := by
  have hnone : l.findIdx? (· == 10) = none := List.findIdx?_eq_none_iff.mpr fun x hx => beq_false_of_ne fun h => hl (h ▸ hx)
  rw [Str.indexOfFrom, h, List.findIdx?_append, hnone, List.findIdx?_cons]
  simp

namespace HTTPClient

variable {C : Type} {net : Connection C}

/-! ## The text of a head -/

/-- The head up to its Authorization line: the request line, and the fields
that every request has. -/
def headStart (c : HTTPClient C) (type : Bytes) : Bytes :=
  type ++ bytes " " ++ c._uri ++ bytes " HTTP/1." ++ bytes (if c._useHTTP10 then "0" else "1") ++
    bytes "\r\nHost: " ++ c._host ++
    (if c._port ≠ 80 ∧ c._port ≠ 443 then bytes ":" ++ Str.ofNat c._port else []) ++
    bytes "\r\nUser-Agent: " ++ c._userAgent ++
    bytes "\r\nConnection: " ++ bytes (if c._reuse then "keep-alive" else "close") ++ bytes "\r\n" ++
    (if c._useHTTP10 then [] else bytes "Accept-Encoding: identity;q=1,chunked;q=0.1,*;q=0\r\n")

def authorizationLine (c : HTTPClient C) : Bytes :=
  if c._base64Authorization ≠ [] then
    bytes "Authorization: Basic " ++ c._base64Authorization.filter (· != 10) ++ bytes "\r\n"
  else []

theorem headText_eq (c : HTTPClient C) (type : Bytes) :
    headText c type = headStart c type ++ (authorizationLine c ++ (c._headers ++ bytes "\r\n")) := by
  simp only [headText, headStart, authorizationLine, List.append_assoc]

theorem crlf_eq : bytes "\r\n" = [13] ++ [10] := by decide

theorem headStart_fullLines (c : HTTPClient C) (type : Bytes) : FullLines (headStart c type) ∧ headStart c type ≠ [] := by
  have hcrlf : FullLines (bytes "\r\n") := fullLines_concat [13]
  rw [headStart]
  split
  · rw [List.append_nil]
    exact ⟨hcrlf.append_right (by decide), List.append_ne_nil_of_right_ne_nil _ (by decide)⟩
  · refine ⟨FullLines.append_right ?_ (by decide), List.append_ne_nil_of_right_ne_nil _ (by decide)⟩
    exact .inr ⟨bytes "Accept-Encoding: identity;q=1,chunked;q=0.1,*;q=0\r", by decide⟩

theorem authorizationLine_fullLines (c : HTTPClient C) : FullLines (authorizationLine c) := by
  rw [authorizationLine]
  split
  · exact (fullLines_concat [13]).append_right (by decide)
  · exact .nil

/-- The fields of a head with a name, part by part. -/
theorem headFields_headText (c : HTTPClient C) (type : Bytes) (hh : FullLines c._headers) {name : Bytes} :
    headFields name (headText c type) =
      headFields name (headStart c type) ++ (fieldLines name (authorizationLine c) ++ fieldLines name c._headers) := by
  obtain ⟨hs, hne⟩ := headStart_fullLines c type
  have hend : fieldLines name (bytes "\r\n") = [] := by
    rw [fieldLines, crlf_eq]
    rfl
  rw [headText_eq, headFields_append hs hne, fieldLines_append (authorizationLine_fullLines c), fieldLines_append hh, hend,
    List.append_nil]

/-- The Authorization line is one line. -/
theorem fieldLines_authorizationLine (c : HTTPClient C) (name : Bytes) :
    fieldLines name (authorizationLine c) =
      if c._base64Authorization ≠ [] ∧ Str.equalsIgnoreCase (bytes "Authorization") name then
        [bytes "Authorization: Basic " ++ c._base64Authorization.filter (· != 10) ++ [13]]
      else [] := by
  rw [authorizationLine]
  by_cases hb : c._base64Authorization ≠ []
  · have hlf : 10 ∉ bytes "Authorization: Basic " ++ c._base64Authorization.filter (· != 10) ++ [13] := by
      simp only [List.mem_append, List.mem_filter, not_or]
      exact ⟨⟨by decide, by simp⟩, by decide⟩
    have hcut : bytes "Authorization: Basic " = bytes "Authorization" ++ 58 :: bytes " Basic " := by decide
    rw [if_pos hb, fieldLines, crlf_eq, ← List.append_assoc, lines_line _ [] hlf, lines, List.filter_singleton, hcut,
      List.append_assoc, List.append_assoc, List.cons_append, isField_colon (by decide)]
    simp [hb]
  · rw [if_neg hb, if_neg (fun h => hb h.1)]
    rfl

/-! ## `addHeader` -/

/-- `_headers` without the line that `replace` takes out. -/
def cutHeader (headers headerLine : Bytes) : Bytes :=
  let headerStart := Str.indexOfStr headers headerLine
  if headerStart ≠ -1 then
    let headerEnd := Str.indexOfFrom headers 10 headerStart.toNat
    Str.substring headers 0 headerStart.toNat ++ Str.substringFrom headers (sizeT (headerEnd + 1))
  else headers

/-- `_headers` after `addHeader` has put a line there. -/
def putHeader (name value : Bytes) (first replace : Bool) (headers : Bytes) : Bytes :=
  let headerLine := name ++ bytes ": "
  let headers := if replace then cutHeader headers headerLine else headers
  let headerLine := headerLine ++ value ++ bytes "\r\n"
  if first then headerLine ++ headers else headers ++ headerLine

/-- The names that `addHeader` leaves to the client. -/
def reserved (name : Bytes) (c : HTTPClient C) : Prop :=
  Str.equalsIgnoreCase name (bytes "Connection") ∨ Str.equalsIgnoreCase name (bytes "User-Agent") ∨
    Str.equalsIgnoreCase name (bytes "Host") ∨
    (Str.equalsIgnoreCase name (bytes "Authorization") ∧ c._base64Authorization ≠ [])

theorem addHeader_returns {name value : Bytes} {first replace : Bool} {s : Live C (HTTPClient C)} {u s'}
    (h : (addHeader name value first replace).Returns s u s') :
    (reserved name s.self ∧ s' = s) ∨
    (¬ reserved name s.self ∧ s' = ⟨{ s.self with _headers := putHeader name value first replace s.self._headers }, s.env⟩) := by
  rw [addHeader, returns_obj_bind] at h
  rcases Prog.returns_ite.mp h with ⟨hres, h⟩ | ⟨hres, h⟩
  · exact .inl ⟨hres, (Prog.returns_pure.mp h).2⟩
  · refine .inr ⟨hres, ?_⟩
    rw [putHeader]
    rcases Prog.returns_ite.mp h with ⟨hr, h⟩ | ⟨hr, h⟩
    · rw [if_pos hr, cutHeader]
      rcases Prog.returns_ite.mp h with ⟨hs, h⟩ | ⟨hs, h⟩
      · rw [returns_set_bind] at h
        rw [returns_set.mp h, if_pos hs]
      · rw [returns_set.mp h, if_neg hs]
    · rw [returns_set.mp h, if_neg hr]

/-- `replace` finds a header itself, not a part of another, and the text is
not as long as memory. -/
def FindsHeader (headers headerLine : Bytes) : Prop :=
  headers.length < 2 ^ 32 ∧ ∀ i : Nat, Str.indexOfStr headers headerLine = i → FullLines (headers.take i)

/-- What `replace` takes out is one line, if anything. -/
theorem cutHeader_cases {headers headerLine : Bytes} (hh : FullLines headers) (hne : headerLine ≠ [])
    (hf : FindsHeader headers headerLine) :
    (¬ headerLine <:+: headers ∧ cutHeader headers headerLine = headers) ∨
    ∃ a l b, FullLines a ∧ FullLines b ∧ 10 ∉ l ∧ headerLine <+: l ++ 10 :: b ∧ headers = a ++ (l ++ 10 :: b) ∧
      cutHeader headers headerLine = a ++ b := by
  rcases Str.indexOfStr_cases headers headerLine with hi | ⟨i, hi⟩
  · exact .inl ⟨Str.indexOfStr_eq_neg hi, by rw [cutHeader, hi, if_neg (by decide)]⟩
  · right
    have hp := Str.indexOfStr_eq hi
    have ha := hf.2 i hi
    have hcut : headers = headers.take i ++ headers.drop i := (List.take_append_drop i headers).symm
    have hrest : headers.drop i ≠ [] := fun hnil => hne (List.prefix_nil.mp (hnil ▸ hp))
    have hcomplete : FullLines (headers.drop i) := FullLines.of_append_right (hcut ▸ hh)
    obtain ⟨l, b, hl, hdrop⟩ := hcomplete.first_line hrest
    have hlen : headers.length = i + (l.length + (b.length + 1)) := by
      have := congrArg List.length hdrop
      simp only [List.length_drop, List.length_append, List.length_cons] at this
      omega
    have hend := Str.indexOfFrom_line hdrop hl
    have hafter : headers.drop (i + l.length + 1) = b := by
      rw [Nat.add_assoc, ← List.drop_drop, hdrop]
      simp
    refine ⟨headers.take i, l, b, ha, ?_, hl, hdrop ▸ hp, hdrop ▸ hcut, ?_⟩
    · rw [hdrop, List.append_cons] at hcomplete
      exact hcomplete.of_append_right
    · have hlt := hf.1
      have hsize : sizeT (((i + l.length : Nat) : Int) + 1) = i + l.length + 1 := sizeT_natCast (n := i + l.length + 1) (by omega)
      rw [cutHeader, hi, if_pos (by omega), Int.toNat_natCast, hend]
      dsimp only
      rw [hsize, Str.substringFrom, Str.substring, Str.substring, if_pos (by omega), if_pos (by omega), List.drop_zero, List.take_length, hafter]

/-- Whatever `replace` takes out, the fields that are left were there. -/
theorem fieldLines_cutHeader {headers headerLine : Bytes} (hh : FullLines headers) (hne : headerLine ≠ [])
    (hf : FindsHeader headers headerLine) (name : Bytes) :
    FullLines (cutHeader headers headerLine) ∧ (fieldLines name (cutHeader headers headerLine)).Sublist (fieldLines name headers) := by
  rcases cutHeader_cases hh hne hf with ⟨_, heq⟩ | ⟨a, l, b, ha, hb, hl, _, hheaders, heq⟩
  · rw [heq]
    exact ⟨hh, .refl _⟩
  · rw [heq, hheaders, fieldLines_append ha, fieldLines_append ha]
    refine ⟨ha.append hb, List.Sublist.append_left ?_ _⟩
    rw [fieldLines, fieldLines, lines_line l b hl]
    exact (List.sublist_cons_self l (lines b)).filter _

/-! ## Content-Length -/

def contentLength : Bytes := bytes "Content-Length"

/-- The field for a payload. -/
def lengthLine (n : Nat) : Bytes := bytes "Content-Length: " ++ Str.ofNat n ++ [13]

/-- `_headers` holds complete lines, and a Content-Length only as a request adds it. -/
structure Clean (headers : Bytes) : Prop where
  fullLines : FullLines headers
  length : fieldLines contentLength headers = [] ∨ ∃ n, fieldLines contentLength headers = [lengthLine n]

theorem fieldLines_lengthLine (n : Nat) (name : Bytes) :
    fieldLines name (contentLength ++ bytes ": " ++ Str.ofNat n ++ bytes "\r\n") =
      if Str.equalsIgnoreCase contentLength name then [lengthLine n] else [] := by
  have hcut : bytes "Content-Length: " = contentLength ++ 58 :: bytes " " := by decide
  have hcut' : contentLength ++ bytes ": " = bytes "Content-Length: " := by decide
  have hlf : 10 ∉ lengthLine n := by
    simp only [lengthLine, List.mem_append, not_or]
    exact ⟨⟨by decide, Str.ofNat_noLf n⟩, by decide⟩
  rw [hcut', crlf_eq, ← List.append_assoc, ← lengthLine, fieldLines, lines_line _ [] hlf, lines, List.filter_singleton, lengthLine,
    hcut, List.append_assoc, List.append_assoc, List.cons_append, isField_colon (by decide), cond_eq_ite]

/-- A request's own field replaces one that an earlier request has left. -/
theorem putHeader_length {headers : Bytes} (hc : Clean headers) (hf : FindsHeader headers (contentLength ++ bytes ": ")) (n : Nat) :
    FullLines (putHeader contentLength (Str.ofNat n) false true headers) ∧
      fieldLines contentLength (putHeader contentLength (Str.ofNat n) false true headers) = [lengthLine n] := by
  have hlength : bytes "Content-Length: " = contentLength ++ bytes ": " := by decide
  have hcolon : bytes "Content-Length: " = contentLength ++ 58 :: bytes " " := by decide
  have hcut : FullLines (cutHeader headers (contentLength ++ bytes ": ")) ∧
      fieldLines contentLength (cutHeader headers (contentLength ++ bytes ": ")) = [] := by
    refine ⟨(fieldLines_cutHeader hc.fullLines (by decide) hf contentLength).1, ?_⟩
    rcases cutHeader_cases hc.fullLines (by decide) hf with ⟨hno, heq⟩ | ⟨a, l, b, ha, hb, hl, hp, hheaders, heq⟩
    · rw [heq]
      rcases hc.length with h | ⟨m, h⟩
      · exact h
      · refine absurd ?_ hno
        have hmem : lengthLine m ∈ lines headers :=
          (List.mem_filter.mp (show lengthLine m ∈ fieldLines contentLength headers by rw [h]; exact .head _)).1
        obtain ⟨a, b, hab⟩ := mem_lines hmem
        exact ⟨a, Str.ofNat m ++ [13] ++ 10 :: b, by rw [hab, lengthLine, hlength]; simp⟩
    · have hfield : isField contentLength l = true := by
        obtain ⟨v, rfl⟩ := prefix_line (by decide) hp
        rw [← hlength, hcolon, List.append_assoc, List.cons_append, isField_colon (by decide)]
        rfl
      have hall : fieldLines contentLength headers = fieldLines contentLength a ++ l :: fieldLines contentLength b := by
        rw [hheaders, fieldLines_append ha, fieldLines, fieldLines, fieldLines, lines_line l b hl, List.filter_cons_of_pos hfield]
      have hone : (fieldLines contentLength a ++ l :: fieldLines contentLength b).length ≤ 1 := by
        rw [← hall]
        rcases hc.length with h | ⟨m, h⟩ <;> simp [h]
      simp only [List.length_append, List.length_cons] at hone
      rw [heq, fieldLines_append ha, List.length_eq_zero_iff.mp (show (fieldLines contentLength a).length = 0 by omega),
        List.length_eq_zero_iff.mp (show (fieldLines contentLength b).length = 0 by omega)]
      rfl
  rw [putHeader, if_pos rfl, if_neg (by decide)]
  refine ⟨hcut.1.append ?_, ?_⟩
  · rw [crlf_eq, ← List.append_assoc]
    exact fullLines_concat _
  · rw [fieldLines_append hcut.1, hcut.2, fieldLines_lengthLine, if_pos (by decide)]
    rfl

/-- A field of the application's. -/
theorem putHeader_other {headers name value : Bytes} (hc : Clean headers) {first replace : Bool}
    (hf : replace → FindsHeader headers (name ++ bytes ": "))
    (hother : fieldLines contentLength (name ++ bytes ": " ++ value ++ bytes "\r\n") = []) :
    Clean (putHeader name value first replace headers) := by
  have hline : FullLines (name ++ bytes ": " ++ value ++ bytes "\r\n") := by
    rw [crlf_eq, ← List.append_assoc]
    exact fullLines_concat _
  obtain ⟨kept, hkept, hsub, hput⟩ : ∃ kept, FullLines kept ∧
      (fieldLines contentLength kept).Sublist (fieldLines contentLength headers) ∧
      putHeader name value first replace headers =
        if first then name ++ bytes ": " ++ value ++ bytes "\r\n" ++ kept else kept ++ (name ++ bytes ": " ++ value ++ bytes "\r\n") := by
    by_cases hr : replace
    · obtain ⟨h₁, h₂⟩ := fieldLines_cutHeader hc.fullLines (by simp [bytes]) (hf hr) contentLength
      exact ⟨_, h₁, h₂, by rw [putHeader, if_pos hr]⟩
    · exact ⟨headers, hc.fullLines, .refl _, by rw [putHeader, if_neg hr]⟩
  have hfields : fieldLines contentLength (putHeader name value first replace headers) = fieldLines contentLength kept := by
    rw [hput]
    split
    · rw [fieldLines_append hline, hother, List.nil_append]
    · rw [fieldLines_append hkept, hother, List.append_nil]
  refine ⟨?_, ?_⟩
  · rw [hput]
    split
    · exact hline.append hkept
    · exact hkept.append hline
  · rw [hfields]
    rcases hc.length with h | ⟨n, h⟩
    · exact .inl (List.sublist_nil.mp (h ▸ hsub))
    · rcases List.sublist_singleton.mp (h ▸ hsub) with h | h
      · exact .inl h
      · exact .inr ⟨n, h⟩

/-! ## What a request writes -/

/-- What a head is made of stays, but that `_headers` may be emptied; the
credentials may lose the line feeds they have. -/
structure SameHead (c c' : HTTPClient C) : Prop where
  uri : c'._uri = c._uri
  host : c'._host = c._host
  port : c'._port = c._port
  reuse : c'._reuse = c._reuse
  useHTTP10 : c'._useHTTP10 = c._useHTTP10
  userAgent : c'._userAgent = c._userAgent
  authorization : c'._base64Authorization = c._base64Authorization ∨
    c'._base64Authorization = c._base64Authorization.filter (· != 10)
  headers : c'._headers = c._headers ∨ c'._headers = []

theorem SameHead.refl (c : HTTPClient C) : SameHead c c := ⟨rfl, rfl, rfl, rfl, rfl, rfl, .inl rfl, .inl rfl⟩

theorem SameHead.trans {c c' c'' : HTTPClient C} (h : SameHead c c') (h' : SameHead c' c'') : SameHead c c'' := by
  refine ⟨h'.uri.trans h.uri, h'.host.trans h.host, h'.port.trans h.port, h'.reuse.trans h.reuse,
    h'.useHTTP10.trans h.useHTTP10, h'.userAgent.trans h.userAgent, ?_, ?_⟩
  · rcases h.authorization with h₁ | h₁ <;> rcases h'.authorization with h₂ | h₂ <;> rw [h₂, h₁]
    · exact .inl rfl
    · exact .inr rfl
    · exact .inr rfl
    · exact .inr (by simp)
  · rcases h'.headers with h₂ | h₂
    · rw [h₂]; exact h.headers
    · exact .inr h₂

theorem SameHead.headStart {c c' : HTTPClient C} (h : SameHead c c') (type : Bytes) : headStart c' type = headStart c type := by
  rw [HTTPClient.headStart, HTTPClient.headStart, h.uri, h.host, h.port, h.reuse, h.useHTTP10, h.userAgent]

/-- No head is written, and what one is made of stays. -/
def unsent : Guarantee (Live C (HTTPClient C)) where
  rel s s' := SameHead s.self s'.self ∧ s'.self.heads = s.self.heads
  refl _ := ⟨.refl _, rfl⟩
  trans h h' := ⟨h.1.trans h'.1, h'.2.trans h.2⟩

theorem unsent_same {s : Live C (HTTPClient C)} {c : HTTPClient C} {e : C} (h : SameHead s.self c)
    (hh : c.heads = s.self.heads) : unsent.rel s ⟨c, e⟩ := ⟨h, hh⟩

theorem unsent_allows : Allows (unsent : Guarantee (Live C (HTTPClient C))) where
  outside _ _ := unsent_same (.refl _) rfl
  client _ _ := unsent_same ⟨rfl, rfl, rfl, rfl, rfl, rfl, .inl rfl, .inl rfl⟩ rfl
  deprecated _ _ := unsent_same ⟨rfl, rfl, rfl, rfl, rfl, rfl, .inl rfl, .inl rfl⟩ rfl
  traits _ _ := unsent_same ⟨rfl, rfl, rfl, rfl, rfl, rfl, .inl rfl, .inl rfl⟩ rfl
  cleared _ := unsent_same ⟨rfl, rfl, rfl, rfl, rfl, rfl, .inl rfl, .inr rfl⟩ rfl
  response _ _ _ _ _ _ := unsent_same ⟨rfl, rfl, rfl, rfl, rfl, rfl, .inl rfl, .inl rfl⟩ rfl

/-- The client with the field for a payload. -/
def withLength (n : Option Nat) (c : HTTPClient C) : HTTPClient C :=
  match n with
  | some n => { c with _headers := putHeader contentLength (Str.ofNat n) false true c._headers }
  | none => c

/-- A request with a payload of `n` bytes, or none, writes no head, or writes
it from what its `connect` has left. -/
inductive Requested (type : Bytes) (n : Option Nat) (s s' : Live C (HTTPClient C)) : Prop
  | noHead (h : unsent.rel s s') : Requested type n s s'
  | sent (c : HTTPClient C) (same : SameHead s.self c) (headers : c._headers = s.self._headers)
      (after : SameHead (withLength n c) s'.self) (hs : List (Head C)) (heads : s'.self.heads = s.self.heads ++ hs)
      (text : ∀ h ∈ hs, h.text = headText (withLength n c) type) : Requested type n s s'

theorem connected_self {s : Live C (HTTPClient C)} {b s'} (h : (connected net).Returns s b s') : s'.self = s.self :=
  guarantees_connected (G := .same (·.self)) (fun _ _ => rfl) s b s' h

theorem onClient_self {α : Type} {f : Ref → Prog C α} {s : Live C (HTTPClient C)} {a s'} (h : (onClient f).Returns s a s') :
    s'.self = s.self :=
  guarantees_onClient (G := .same (·.self)) (fun _ _ => rfl) s a s' h

theorem sendHeader_returns {type : Bytes} {s : Live C (HTTPClient C)} {ok s'} (h : (sendHeader net type).Returns s ok s') :
    SameHead s.self s'.self ∧ s'.self._headers = s.self._headers ∧
      ∃ hs, s'.self.heads = s.self.heads ++ hs ∧ ∀ h ∈ hs, h.text = headText s.self type := by
  obtain ⟨b, ⟨c, e⟩, hconn, h⟩ := Prog.returns_bind.mp h
  obtain rfl : c = s.self := connected_self hconn
  rcases Prog.returns_ite.mp h with ⟨_, h⟩ | ⟨_, h⟩
  · obtain ⟨_, rfl⟩ := Prog.returns_pure.mp h
    exact ⟨.refl _, rfl, [], by simp, by simp⟩
  · rw [returns_obj_bind, returns_set_bind] at h
    obtain ⟨n, u, hwrite, h⟩ := Prog.returns_bind.mp h
    obtain ⟨_, rfl⟩ := Prog.returns_pure.mp h
    rw [writeHead, Prog.returns_gets_bind, returns_set_bind] at hwrite
    rw [onClient_self hwrite]
    refine ⟨⟨rfl, rfl, rfl, rfl, rfl, rfl, .inr rfl, .inl rfl⟩, rfl, _, rfl, fun h hmem => ?_⟩
    obtain ⟨r, _, rfl⟩ := List.mem_map.mp hmem
    rfl

theorem addLength_returns {n : Nat} {s : Live C (HTTPClient C)} {u s'}
    (h : (addHeader (bytes "Content-Length") (Str.ofNat n) false true).Returns s u s') :
    s' = ⟨withLength (some n) s.self, s.env⟩ := by
  rcases addHeader_returns h with ⟨hres, _⟩ | ⟨_, hs'⟩
  · rcases hres with h | h | h | ⟨h, _⟩ <;> exact absurd h (by decide)
  · exact hs'

/-- From the head on, what is left of a request writes no other. -/
theorem Requested.of_sendHeader {type : Bytes} {n : Option Nat} {s t : Live C (HTTPClient C)} (ht : unsent.rel s t)
    (hh : t.self._headers = s.self._headers) {f : Bool → Prog (Live C (HTTPClient C)) Int} (hf : ∀ ok, (f ok).Guarantees unsent) {rc s'}
    (h : (sendHeader net type >>= f).Returns ⟨withLength n t.self, t.env⟩ rc s') : Requested type n s s' := by
  obtain ⟨ok, u, hsend, h⟩ := Prog.returns_bind.mp h
  have hs' : unsent.rel u s' := hf ok u rc s' h
  obtain ⟨hsame, _, hs, heads, htext⟩ := sendHeader_returns hsend
  refine .sent t.self ht.1 hh (hsame.trans hs'.1) hs ?_ htext
  rw [hs'.2, heads, ← ht.2]
  cases n <;> rfl

theorem connect_headers {s t : Live C (HTTPClient C)} {b : Bool} (h : (connect net).Returns s b t) :
    t.self._headers = s.self._headers :=
  (AllowsConnect.mk (G := .same (·.self._headers)) (fun _ _ => rfl) (fun _ _ => rfl) fun _ _ => rfl).connect s b t h

theorem sendRequest_returns {type payload : Bytes} {s : Live C (HTTPClient C)} {rc s'}
    (h : (sendRequest net type payload).Returns s rc s') :
    Requested type (if payload = [] then none else some payload.length) s s' := by
  have A : Allows (unsent : Guarantee (Live C (HTTPClient C))) := unsent_allows
  obtain ⟨b, t, hconn, h⟩ := Prog.returns_bind.mp h
  have ht := A.connect s b t hconn
  have hh := connect_headers hconn
  rcases Prog.returns_ite.mp h with ⟨_, h⟩ | ⟨_, h⟩
  · exact .noHead (unsent.trans ht (A.returnError t rc s' h))
  have response : (handleHeaderResponse net >>= returnError net).Guarantees unsent :=
    .bind A.handleHeaderResponse fun _ => A.returnError
  by_cases hp : payload = []
  · rw [if_neg (by simp [hp])] at h
    rw [if_pos hp]
    refine Requested.of_sendHeader (n := none) ht hh (fun ok => .ite A.returnError ?_) h
    rw [if_neg (by simp [hp])]
    exact response
  · rw [if_pos hp] at h
    rw [if_neg hp]
    obtain ⟨_, u, hadd, h⟩ := Prog.returns_bind.mp h
    obtain rfl := addLength_returns hadd
    refine Requested.of_sendHeader (n := some payload.length) ht hh (fun ok => .ite A.returnError ?_) h
    have failed : (returnError net errorSendPayloadFailed).Guarantees unsent := A.returnError
    rw [if_pos hp]
    exact .bind A.onClient fun _ => .ite failed response

theorem sendRequestStream_returns {type : Bytes} {stream : Option (AppStream C)} {size : Nat} {s : Live C (HTTPClient C)} {rc s'}
    (h : (sendRequestStream net type stream size).Returns s rc s') :
    Requested type (if size = 0 then none else some size) s s' := by
  have A : Allows (unsent : Guarantee (Live C (HTTPClient C))) := unsent_allows
  cases stream with
  | none => exact .noHead ((A.returnError : (returnError net errorNoStream).Guarantees unsent) s rc s' h)
  | some stream =>
    obtain ⟨b, t, hconn, h⟩ := Prog.returns_bind.mp h
    have ht := A.connect s b t hconn
    have hh := connect_headers hconn
    rcases Prog.returns_ite.mp h with ⟨_, h⟩ | ⟨_, h⟩
    · exact .noHead (unsent.trans ht (A.returnError t rc s' h))
    have after (ok : Bool) : (if ¬ ok then returnError net errorSendHeaderFailed else do
        let error ← sendStream net stream size
        if error < 0 then
          returnError net error
        else
          returnError net (← handleHeaderResponse net)).Guarantees unsent :=
      .ite A.returnError (.bind A.sendStream fun _ => .ite A.returnError (.bind A.handleHeaderResponse fun _ => A.returnError))
    by_cases hp : size = 0
    · rw [if_neg (by omega)] at h
      rw [if_pos hp]
      exact Requested.of_sendHeader (n := none) ht hh after h
    · rw [if_pos (by omega)] at h
      rw [if_neg hp]
      obtain ⟨_, u, hadd, h⟩ := Prog.returns_bind.mp h
      obtain rfl := addLength_returns hadd
      exact Requested.of_sendHeader (n := some size) ht hh after h

/-! ## What all other operations leave -/

/-- No head is written, and `_headers` stays or is emptied. -/
def kept : Guarantee (Live C (HTTPClient C)) where
  rel s s' := s'.self.heads = s.self.heads ∧ (s'.self._headers = s.self._headers ∨ s'.self._headers = [])
  refl _ := ⟨rfl, .inl rfl⟩
  trans := by
    rintro s t u ⟨hh, hc⟩ ⟨hh', hc'⟩
    exact ⟨hh'.trans hh, hc'.elim (fun h => hc.imp h.trans h.trans) .inr⟩

theorem kept_same {s : Live C (HTTPClient C)} {c : HTTPClient C} {e : C} (hh : c.heads = s.self.heads)
    (hc : c._headers = s.self._headers) : kept.rel s ⟨c, e⟩ := ⟨hh, .inl hc⟩

theorem kept_governs : Governs (kept : Guarantee (Live C (HTTPClient C))) where
  outside _ _ := kept_same rfl rfl
  client _ _ := kept_same rfl rfl
  deprecated _ _ := kept_same rfl rfl
  traits _ _ := kept_same rfl rfl
  cleared _ := ⟨rfl, .inr rfl⟩
  answer _ _ _ _ _ := kept_same rfl rfl
  target _ _ _ _ _ _ := kept_same rfl rfl
  secured _ _ _ := kept_same rfl rfl
  settings _ _ _ _ := kept_same rfl rfl

theorem Op.kept {op : Op C} (h : op.settles) : (op.run net).Guarantees kept :=
  Op.guarantees kept_governs h fun _ _ => guarantees_set fun _ => kept_same rfl rfl

/-! ## Content-Length describes the payload -/

/-- The bytes of payload that a request carries, where it says how many. -/
def Op.payload : Op C → Option Nat
  | .sendRequest _ payload => if payload = [] then none else some payload.length
  | .sendRequestStream _ _ size => if size = 0 then none else some size
  | _ => none

/-- The application adds no Content-Length itself, neither as a header nor in
the strings that a head begins with. -/
def Op.addsNoLength (c : HTTPClient C) : Op C → Prop
  | .addHeader name value _ _ => fieldLines contentLength (name ++ bytes ": " ++ value ++ bytes "\r\n") = []
  | .sendRequest type _ => headFields contentLength (headStart c type) = []
  | .sendRequestStream type _ _ => headFields contentLength (headStart c type) = []
  | _ => True

/-- Where a payload has a field of its own, `replace` finds whole headers; and
a request without one is not sent while a Content-Length is left over. -/
def Op.lengthFits (c : HTTPClient C) (op : Op C) : Prop :=
  match op with
  | .addHeader name _ _ replace => replace → FindsHeader c._headers (name ++ bytes ": ")
  | .sendRequest .. | .sendRequestStream .. =>
    if op.payload = none then fieldLines contentLength c._headers = []
    else FindsHeader c._headers (contentLength ++ bytes ": ")
  | _ => True

/-- The Content-Length of each head that an operation has written is that of
its payload. -/
def Described (op : Op C) (s s' : Live C (HTTPClient C)) : Prop :=
  ∀ h ∈ s'.self.heads.drop s.self.heads.length, headFields contentLength h.text = op.payload.toList.map lengthLine

theorem Clean.nil : Clean [] := ⟨.nil, .inl rfl⟩

theorem Clean.of_same {c c' : HTTPClient C} (h : Clean c._headers) (hs : c'._headers = c._headers ∨ c'._headers = []) :
    Clean c'._headers := by
  rcases hs with hs | hs
  · rw [hs]; exact h
  · rw [hs]; exact .nil

theorem FindsHeader.nil (headerLine : Bytes) : FindsHeader [] headerLine := ⟨by decide, fun i _ => by simpa using .nil⟩

/-- One request: its head, and what it leaves in `_headers`. -/
theorem Requested.clean {type : Bytes} {n : Option Nat} {s s' : Live C (HTTPClient C)} (h : Requested type n s s')
    (hc : Clean s.self._headers) (hstart : headFields contentLength (headStart s.self type) = [])
    (hf : if n = none then fieldLines contentLength s.self._headers = []
      else FindsHeader s.self._headers (contentLength ++ bytes ": ")) :
    Clean s'.self._headers ∧ ∀ h ∈ s'.self.heads.drop s.self.heads.length,
      headFields contentLength h.text = n.toList.map lengthLine := by
  obtain h | ⟨c, hsame, hheaders, hs', hs, heads, htext⟩ := h
  · refine ⟨hc.of_same h.1.headers, ?_⟩
    rw [h.2, List.drop_length]
    exact fun h hmem => nomatch hmem
  have hlength : FullLines (withLength n c)._headers ∧
      fieldLines contentLength (withLength n c)._headers = n.toList.map lengthLine := by
    cases n with
    | none => exact ⟨hheaders ▸ hc.fullLines, (congrArg _ hheaders).trans (by simpa using hf)⟩
    | some n => exact putHeader_length (hheaders ▸ hc) (hheaders ▸ by simpa using hf) n
  have hclean : Clean (withLength n c)._headers := by
    refine ⟨hlength.1, ?_⟩
    cases n with
    | none => exact .inl hlength.2
    | some n => exact .inr ⟨n, hlength.2⟩
  refine ⟨hclean.of_same hs'.headers, fun h hmem => ?_⟩
  rw [heads, List.drop_left] at hmem
  have hauth : fieldLines contentLength (authorizationLine (withLength n c)) = [] := by
    rw [fieldLines_authorizationLine, if_neg]
    exact fun h => absurd h.2 (by decide)
  have hstart' : headStart (withLength n c) type = headStart c type := by cases n <;> rfl
  rw [htext h hmem, headFields_headText _ type hlength.1, hstart', hsame.headStart, hstart, hauth, hlength.2]
  rfl

theorem Op.clean {op : Op C} {s s' : Live C (HTTPClient C)} {rc : Int} (hc : Clean s.self._headers)
    (hadds : op.addsNoLength s.self) (hf : op.lengthFits s.self) (h : (op.run net).Returns s rc s') :
    Clean s'.self._headers ∧ Described op s s' := by
  by_cases hset : op.settles
  · obtain ⟨hheads, hheaders⟩ := Op.kept hset s rc s' h
    refine ⟨hc.of_same hheaders, ?_⟩
    rw [Described, hheads, List.drop_length]
    exact fun h hmem => nomatch hmem
  cases op with
  | sendRequest type payload => exact (sendRequest_returns h).clean hc hadds hf
  | sendRequestStream type stream size => exact (sendRequestStream_returns h).clean hc hadds hf
  | addHeader name value first replace =>
    obtain ⟨_, t, hadd, h⟩ := Prog.returns_bind.mp h
    obtain ⟨_, rfl⟩ := Prog.returns_pure.mp h
    rw [Described]
    rcases addHeader_returns hadd with ⟨_, rfl⟩ | ⟨_, rfl⟩
    · exact ⟨hc, by simp⟩
    · exact ⟨putHeader_other hc hf hadds, by simp⟩
  | _ => exact absurd rfl hset

theorem Clean.of_run {hist : List (Op C × Int)} {s : Live C (HTTPClient C)}
    (h : Run net (fun c op => op.addsNoLength c ∧ op.lengthFits c) hist s) : Clean s.self._headers := by
  induction h with
  | construct => exact .nil
  | step _ hok h ih => exact (Op.clean ih hok.1 hok.2 h).1

/-- **Content-Length describes the payload** in every run in which none is
left over from a request that has failed. -/
theorem described_of_fits {hist : List (Op C × Int)} {s : Live C (HTTPClient C)}
    (h : Run net (fun c op => op.addsNoLength c ∧ op.lengthFits c) hist s) {op : Op C} (hadds : op.addsNoLength s.self)
    (hfits : op.lengthFits s.self) {rc : Int} {s'} (hr : (op.run net).Returns s rc s') : Described op s s' :=
  (Op.clean (.of_run h) hadds hfits hr).2

/-! ## A request that fails -/

namespace LengthDemo

/-- A connection on which the second of three writes fails, and which is gone
after the third. -/
def connection : Connection Nat where
  create _ := pure 0
  release _ := pure ()
  setCACert _ _ := pure ()
  setCertificate _ _ := pure ()
  setPrivateKey _ _ := pure ()
  connect _ _ _ _ := pure 0
  setTimeout _ _ := pure ()
  write _ bs := Prog.step fun n => (if n = 1 then 0 else bs.length, n + 1)
  getWriteError _ := pure 0
  clearWriteError _ := pure ()
  available _ := pure 0
  read _ := pure (-1)
  readBytes _ _ := pure []
  readStringUntil _ _ := pure []
  connected _ := Prog.gets fun n => decide (n < 3)
  stop _ := pure ()
  malloc _ := pure none
  millis := pure 0
  delay _ := pure ()
  base64Encode := id

/-- The client with a target, after a POST that failed in its payload, and
after a GET, or another POST. -/
def begun : Live Nat (HTTPClient Nat) := (((Op.beginHost [97] 80 [47]).run connection).run 1 ⟨{}, 0⟩).2

def posted : Live Nat (HTTPClient Nat) := (((Op.sendRequest [80] [1, 2]).run connection).run 1 begun).2

def got : Live Nat (HTTPClient Nat) := (((Op.sendRequest [71] []).run connection).run 1 posted).2

def reposted : Live Nat (HTTPClient Nat) := (((Op.sendRequest [80] [1, 2, 3]).run connection).run 1 posted).2

theorem begun_run {ok : HTTPClient Nat → Op Nat → Prop} (h : ok {} (.beginHost [97] 80 [47])) :
    Run connection ok [(.beginHost [97] 80 [47], 1)] begun :=
  .step (.construct 0) h (.of_run 1 rfl)

theorem posted_returns : ((Op.sendRequest [80] [1, 2]).run connection).Returns begun (-3) posted :=
  .of_run 1 (by decide +kernel)

theorem got_returns : ((Op.sendRequest [71] []).run connection).Returns posted (-4) got :=
  .of_run 1 (by decide +kernel)

theorem reposted_returns : ((Op.sendRequest [80] [1, 2, 3]).run connection).Returns posted (-4) reposted :=
  .of_run 1 (by decide +kernel)

theorem addsNoLength : (Op.sendRequest [80] [1, 2]).addsNoLength begun.self ∧ (Op.sendRequest [71] []).addsNoLength posted.self := by
  constructor
  · show headFields contentLength (headStart begun.self [80]) = []
    decide +kernel
  · show headFields contentLength (headStart posted.self [71]) = []
    decide +kernel

/-- The POST that failed has left its length, which the next one replaces. -/
theorem posted_fits : (Op.sendRequest [80] [1, 2, 3] : Op Nat).lengthFits posted.self := by
  refine ⟨by decide +kernel, fun i hi => ?_⟩
  have hfront : Str.indexOfStr posted.self._headers (contentLength ++ bytes ": ") = (0 : Nat) := by decide +kernel
  obtain rfl : i = 0 := Int.natCast_inj.mp (hi.symm.trans hfront)
  exact .nil

/-- A POST after one that failed carries its own length, and no other. -/
theorem posted_described : (∀ h ∈ reposted.self.heads.drop posted.self.heads.length,
      headFields contentLength h.text = [bytes "Content-Length: 3\r"]) ∧ reposted.self.heads.length = 2 := by
  have hadds : (Op.sendRequest [80] [1, 2, 3] : Op Nat).addsNoLength posted.self := by
    show headFields contentLength (headStart posted.self [80]) = []
    decide +kernel
  have hdescribed : Described (.sendRequest [80] [1, 2, 3]) posted reposted :=
    described_of_fits (.step (begun_run ⟨trivial, trivial⟩) ⟨addsNoLength.1, FindsHeader.nil _⟩ posted_returns) hadds posted_fits
      reposted_returns
  have hline : (Op.sendRequest [80] [1, 2, 3] : Op Nat).payload.toList.map lengthLine = [bytes "Content-Length: 3\r"] := by decide +kernel
  exact ⟨hline ▸ hdescribed, by decide +kernel⟩

end LengthDemo

open LengthDemo in
theorem length_left : ¬ ∀ hist s (op : Op Nat) rc s', Run connection (fun c op => op.addsNoLength c) hist s →
    op.addsNoLength s.self → (op.run connection).Returns s rc s' → Described op s s' := by
  intro h
  have hd := h _ posted (.sendRequest [71] []) (-4) got (.step (begun_run trivial) addsNoLength.1 posted_returns)
    addsNoLength.2 got_returns
  have hleft : ∃ head ∈ got.self.heads.drop posted.self.heads.length, headFields contentLength head.text ≠ [] := by
    decide +kernel
  obtain ⟨head, hmem, hne⟩ := hleft
  exact hne (hd head hmem)

end HTTPClient

end FEmbed
