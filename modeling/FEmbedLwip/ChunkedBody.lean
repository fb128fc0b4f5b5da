/-
Chunked bodies, and what `writeToStream` makes of them.

`ChunkedBody` is the grammar; `Chunk` and `SizeLine` are its rendering, with
every spelling of a size that it admits. Decoding undoes rendering
(`writeToStream_chunks`).
-/
import FEmbedLwip.HTTPBody
import Mathlib.Data.List.TakeWhile

namespace FEmbed

open Live

/-! ## Sizes -/

theorem takeWhile_append_of_neg {α : Type} {p : α → Bool} (xs : List α) {ys : List α} (h : ∀ y ∈ ys, p y = false) :
    (xs ++ ys).takeWhile p = xs.takeWhile p := by
  rw [List.takeWhile_append]
  split
  · rename_i hlen
    have hys : ys.takeWhile p = [] := List.takeWhile_eq_nil_iff.mpr fun hl => by simp [h _ (List.getElem_mem hl)]
    rw [hys, List.append_nil]
    exact ((List.takeWhile_prefix p).eq_of_length hlen).symm
  · rfl

/-- The digits of a line are those of the line without the space around it. -/
theorem digits_trim {l : Bytes} (h : digits 16 l ≠ []) :
    cString (Str.trim l) <+: l ∧ digits 16 (cString (Str.trim l)) = digits 16 l := by
  have hsplit : l.rdropWhile isSpace ++ l.rtakeWhile isSpace = l := List.rdropWhile_append_rtakeWhile
  have hsuf : ∀ y ∈ l.rtakeWhile isSpace, isDigit 16 y = false := fun y hy => by
    by_contra hd
    have hspace := List.mem_rtakeWhile_imp hy
    rw [isDigit_not_space (by simpa using hd)] at hspace
    exact absurd hspace (by decide)
  have hpre : digits 16 (l.rdropWhile isSpace) = digits 16 l := by
    conv_rhs => rw [← hsplit]
    exact (takeWhile_append_of_neg _ hsuf).symm
  -- The first digit is where the line begins.
  have htrim : Str.trim l = l.rdropWhile isSpace := by
    rw [← hpre] at h
    rw [Str.trim]
    generalize l.rdropWhile isSpace = t at h
    cases t with
    | nil => rfl
    | cons b t =>
      have hb : isDigit 16 b = true := by
        by_contra hb
        exact h (by simp [digits, hb])
      rw [List.dropWhile_cons, isDigit_not_space hb]
      rfl
  rw [htrim]
  refine ⟨(List.takeWhile_prefix _).trans (List.rdropWhile_prefix _ _), ?_⟩
  rw [← hpre, digits, cString, List.takeWhile_takeWhile]
  congr 1
  funext b
  rcases hb : isDigit 16 b with _ | _
  · simp
  · simp [isDigit_ne hb (show isDigit 16 0 = false by decide)]

theorem dropHexPrefix_eq {l : Bytes} (hx : ∀ b t, l = 48 :: b :: t → b ≠ 120 ∧ b ≠ 88) : dropHexPrefix l = l := by
  unfold dropHexPrefix
  split
  · exact absurd rfl (hx 120 _ rfl).1
  · exact absurd rfl (hx 88 _ rfl).2
  · rfl

/-- `strtol` reads the digits that a line starts with. -/
theorem strtol_digits {base : Nat} {l : Bytes} (h : digits base l ≠ [])
    (hx : base = 16 → ∀ b t, l = 48 :: b :: t → b ≠ 120 ∧ b ≠ 88) : strtol base l = clampLong (ofDigits base (digits base l)) := by
  cases l with
  | nil => exact absurd rfl h
  | cons b t =>
    have hb : isDigit base b = true := by
      by_contra hb
      exact h (by simp [digits, hb])
    rw [strtol, List.dropWhile_cons, isDigit_not_space hb]
    simp only [Bool.false_eq_true, if_false]
    split
    · rename_i heq
      exact absurd (List.cons.inj heq).1 (isDigit_ne hb rfl)
    · rename_i heq
      exact absurd (List.cons.inj heq).1 (isDigit_ne hb rfl)
    · by_cases hbase : base = 16
      · rw [if_pos hbase, dropHexPrefix_eq (hx hbase)]
      · rw [if_neg hbase]

/-- The size in a chunk's first line, where that starts with digits. -/
theorem chunkLen_digits {l : Bytes} (h : digits 16 l ≠ []) (hx : ∀ b t, l = 48 :: b :: t → b ≠ 120 ∧ b ≠ 88)
    (hsize : ofDigits 16 (digits 16 l) < 2 ^ 31) : HTTPClient.chunkLen l = ofDigits 16 (digits 16 l) := by
  obtain ⟨hpre, hdigits⟩ := digits_trim h
  have hx' : ∀ b t, cString (Str.trim l) = 48 :: b :: t → b ≠ 120 ∧ b ≠ 88 := by
    rintro b t heq
    obtain ⟨u, hu⟩ := hpre
    rw [heq] at hu
    exact hx b (t ++ u) hu.symm
  rw [HTTPClient.chunkLen, strtol_digits (by rw [hdigits]; exact h) (fun _ => hx'), hdigits,
    int32_sizeT (clampLong_range _).1 (clampLong_range _).2]
  exact clampLong_eq (by omega) (by omega)

/-! ## Rendering -/

/-- The first line of a chunk: its size in any spelling, and an extension. -/
structure SizeLine where
  digits : Bytes
  ext : Bytes
  nonempty : digits ≠ []
  hex : ∀ b ∈ digits, isDigit 16 b = true
  extension : ext = [] ∨ ∃ t, ext = 59 :: t
  line : 10 ∉ ext

namespace SizeLine

def size (l : SizeLine) : Nat := ofDigits 16 l.digits

/-- The line, without its line feed. -/
def text (l : SizeLine) : Bytes := l.digits ++ l.ext ++ [13]

def render (l : SizeLine) : Bytes := l.text ++ [10]

theorem tail_cases (l : SizeLine) : ∃ b t, l.ext ++ [13] = b :: t ∧ isDigit 16 b = false ∧ b ≠ 120 ∧ b ≠ 88 := by
  rcases l.extension with h | ⟨t, h⟩
  · exact ⟨13, [], by rw [h]; rfl, by decide, by decide, by decide⟩
  · exact ⟨59, t ++ [13], by rw [h]; rfl, by decide, by decide, by decide⟩

theorem digits_text (l : SizeLine) : FEmbed.digits 16 l.text = l.digits := by
  obtain ⟨b, t, htail, hb, _⟩ := l.tail_cases
  rw [text, List.append_assoc, htail, FEmbed.digits, List.takeWhile_append_of_pos l.hex, List.takeWhile_cons, hb]
  simp

theorem not_mem_text (l : SizeLine) : 10 ∉ l.text := by
  have hdigits : 10 ∉ l.digits := fun h => absurd (l.hex 10 h) (by decide)
  simp [text, hdigits, l.line]

theorem text_no_prefix (l : SizeLine) : ∀ b t, l.text = 48 :: b :: t → b ≠ 120 ∧ b ≠ 88 := by
  intro b t heq
  obtain ⟨b', t', htail, _, hb'⟩ := l.tail_cases
  rw [text, List.append_assoc, htail] at heq
  match hd : l.digits with
  | [] => exact absurd hd l.nonempty
  | [d] =>
    rw [hd] at heq
    obtain ⟨_, heq⟩ := List.cons.inj heq
    rw [← (List.cons.inj heq).1]
    exact hb'
  | d :: d' :: ds =>
    have hd' : isDigit 16 d' = true := l.hex d' (by simp [hd])
    rw [hd] at heq
    obtain ⟨_, heq⟩ := List.cons.inj heq
    rw [← (List.cons.inj heq).1]
    exact ⟨isDigit_ne hd' (by decide), isDigit_ne hd' (by decide)⟩

theorem chunkLen_text (l : SizeLine) (h : l.size < 2 ^ 31) : HTTPClient.chunkLen l.text = l.size := by
  have hdigits := l.digits_text
  rw [chunkLen_digits (by rw [hdigits]; exact l.nonempty) l.text_no_prefix (by rw [hdigits]; exact h), hdigits]
  rfl

theorem text_ne_nil (l : SizeLine) : l.text ≠ [] := by simp [text]

end SizeLine

/-- A chunk that is not the last. -/
structure Chunk where
  head : SizeLine
  data : Bytes
  nonempty : data ≠ []
  size_eq : head.size = data.length

def Chunk.render (k : Chunk) : Bytes := k.head.render ++ k.data ++ [13, 10]

/-- A chunked body: some chunks, and the line of the last, empty one. -/
structure ChunkList where
  chunks : List Chunk
  last : SizeLine
  last_size : last.size = 0

namespace ChunkList

def render (b : ChunkList) : Bytes := b.chunks.flatMap Chunk.render ++ b.last.render

def content (b : ChunkList) : Bytes := b.chunks.flatMap Chunk.data

end ChunkList

/-! ## Parsing -/

theorem firstLine_line {line rest : Bytes} (h : 10 ∉ line) : firstLine (line ++ [10] ++ rest) = line := by
  have hpos : ∀ b ∈ line, (b != 10) = true := fun b hb => by
    rw [bne_iff_ne]
    rintro rfl
    exact h hb
  rw [firstLine, List.append_assoc, List.takeWhile_append_of_pos hpos]
  simp

theorem afterLine_line {line rest : Bytes} (h : 10 ∉ line) : afterLine (line ++ [10] ++ rest) = rest := by
  have hpos : ∀ b ∈ line, (b != 10) = true := fun b hb => by
    rw [bne_iff_ne]
    rintro rfl
    exact h hb
  rw [afterLine, List.append_assoc, List.dropWhile_append_of_pos hpos]
  simp

/-- The first line of a chunk as it was read: whether a line feed ended it. -/
structure ChunkLine where
  text : Bytes
  ended : Bool
  deriving DecidableEq, Repr

/-- The first line of what is unread. -/
def chunkLine (s : Bytes) : ChunkLine := ⟨firstLine s, s.contains 10⟩

/-- What the chunk loop takes for a chunked body at the start of the first
list: the lines of its chunks, the data, and what is left. -/
inductive Taken : Bytes → List ChunkLine → Bytes → Bytes → Prop
  | last {s : Bytes} : firstLine s ≠ [] → HTTPClient.chunkLen (firstLine s) = 0 →
      Taken s [chunkLine s] [] (afterLine s)
  | chunk {s data rest : Bytes} {ls content rest'} : HTTPClient.chunkLen (firstLine s) = data.length → data ≠ [] →
      afterLine s = data ++ [13, 10] ++ rest → Taken rest ls content rest' →
      Taken s (chunkLine s :: ls) (data ++ content) rest'

theorem chunkLen_nil : HTTPClient.chunkLen [] = 0 := by decide

theorem chunkLen_range (l : Bytes) : -2 ^ 31 ≤ HTTPClient.chunkLen l ∧ HTTPClient.chunkLen l < 2 ^ 31 := by
  have h := strtol_range 16 (cString (Str.trim l))
  rw [HTTPClient.chunkLen, int32_sizeT h.1 h.2]
  exact h

/-- A rendered body is taken, whatever follows it. -/
theorem ChunkList.taken (b : ChunkList) (rest : Bytes) (hlen : b.content.length < 2 ^ 31) :
    ∃ ls, Taken (b.render ++ rest) ls b.content rest := by
  obtain ⟨chunks, last, hlast⟩ := b
  simp only [render, content] at hlen ⊢
  induction chunks with
  | nil =>
    have hsize : HTTPClient.chunkLen last.text = 0 := by
      rw [last.chunkLen_text (by rw [hlast]; decide), hlast]
      rfl
    have htaken := @Taken.last (last.text ++ [10] ++ rest)
    rw [firstLine_line last.not_mem_text, afterLine_line last.not_mem_text] at htaken
    exact ⟨_, htaken last.text_ne_nil hsize⟩
  | cons k chunks ih =>
    rw [List.flatMap_cons, List.length_append] at hlen
    obtain ⟨ls, htaken⟩ := ih (by omega)
    have hsize : HTTPClient.chunkLen k.head.text = k.data.length := by
      rw [k.head.chunkLen_text (by rw [k.size_eq]; omega), k.size_eq]
    have heq : (k :: chunks).flatMap Chunk.render ++ last.render ++ rest =
        k.head.text ++ [10] ++ (k.data ++ [13, 10] ++ (chunks.flatMap Chunk.render ++ last.render ++ rest)) := by
      simp [Chunk.render, SizeLine.render]
    rw [heq, List.flatMap_cons]
    refine ⟨_, .chunk ?_ k.nonempty (afterLine_line k.head.not_mem_text) htaken⟩
    rw [firstLine_line k.head.not_mem_text]
    exact hsize

/-! ## Decoding -/

theorem int32_int32_add (x y : Int) : int32 (int32 x + y) = int32 (x + y) := Int.bmod_add_bmod

namespace HTTPClient

variable {C : Type} {net : Connection C} {r : Ref} {stream : AppStream C} (D : Delivery net r stream)
  {c : HTTPClient C}

include D

/-- A turn of the chunk loop takes a chunk. -/
theorem chunkTurn_chunk {e : C} {data rest : Bytes} {l : ChunkState} (hc : c._client = some r) (hup : D.up e)
    (hsize : chunkLen (firstLine (D.unread e)) = data.length) (hdata : data ≠ [])
    (hafter : afterLine (D.unread e) = data ++ [13, 10] ++ rest) :
    ∃ e', (chunkTurn net stream l).Returns ⟨c, e⟩
        (.next { ret := int32 (l.ret + data.length), size := int32 (l.size + data.length) }) ⟨c, e'⟩ ∧
      D.up e' ∧ D.unread e' = rest ∧ D.accepted e' = D.accepted e ++ data := by
  have hlen : data.length < 2 ^ 31 := by
    have h := (chunkLen_range (firstLine (D.unread e))).2
    rw [hsize] at h
    omega
  obtain ⟨e₁, hcon, hq₁⟩ := connected_up D hc hup
  obtain ⟨e₂, hline, hup₂, hun₂, hacc₂⟩ := D.readLine e₁ hq₁.up
  rw [hq₁.unread] at hline hun₂
  replace hun₂ : D.unread e₂ = data ++ [13, 10] ++ rest := hun₂.trans hafter
  obtain ⟨e₃, hblock, hup₃, hun₃, hacc₃⟩ :=
    writeToStreamDataBlock_delivers D (e := e₂) hc hup₂ hlen (by rw [hun₂]; simp)
  obtain ⟨e₄, hcrlf, hup₄, hun₄, hacc₄⟩ := D.readBytes 2 e₃ hup₃
  obtain ⟨e₅, hdelay, hq₅⟩ := D.delay 0 e₄ hup₄
  rw [hun₂, List.append_assoc, List.take_left] at hacc₃
  rw [hun₂, List.append_assoc, List.drop_left] at hun₃
  rw [hun₃, show (([13, 10] : Bytes) ++ rest).take 2 = [13, 10] from rfl] at hcrlf
  rw [hun₃] at hun₄
  refine ⟨e₅, ?_, hq₅.up, hq₅.unread.trans hun₄, ?_⟩
  · have hpos : (data.length : Int) > 0 := by
      have := List.length_pos_of_ne_nil hdata
      omega
    have hret : ¬ (data.length : Int) < 0 := by omega
    have hne : firstLine (D.unread e) ≠ [] := fun h => by
      rw [h, chunkLen_nil] at hsize
      omega
    rw [chunkTurn, Prog.returns_bind_of hcon, if_neg (fun h => h rfl), returns_onClient_bind hc hline, if_neg hne]
    simp only [hsize]
    rw [if_pos hpos, chunkData, Prog.returns_bind_of hblock, if_neg hret, returns_onClient_bind hc hcrlf,
      if_neg (by decide), if_neg (by decide), returns_outside_bind hdelay]
    simp
  · rw [hq₅.accepted, hacc₄, hacc₃, hacc₂, hq₁.accepted]

/-- The turn that reads the line of the last chunk. -/
theorem chunkTurn_last {e : C} {l : ChunkState} (hc : c._client = some r) (hsize : c._size ≤ 0) (hup : D.up e)
    (hne : firstLine (D.unread e) ≠ []) (hlen : chunkLen (firstLine (D.unread e)) = 0) (hl : l.ret = int32 l.size) :
    ∃ e', (chunkTurn net stream l).Returns ⟨c, e⟩ (.exit (.ok l.ret)) ⟨{ c with _size := l.ret }, e'⟩ ∧
      D.up e' ∧ D.unread e' = afterLine (D.unread e) ∧ D.accepted e' = D.accepted e := by
  obtain ⟨e₁, hcon, hq₁⟩ := connected_up D hc hup
  obtain ⟨e₂, hline, hup₂, hun₂, hacc₂⟩ := D.readLine e₁ hq₁.up
  rw [hq₁.unread] at hline hun₂
  refine ⟨e₂, ?_, hup₂, hun₂, hacc₂.trans hq₁.accepted⟩
  rw [chunkTurn, Prog.returns_bind_of hcon, if_neg (fun h => h rfl), returns_onClient_bind hc hline, if_neg hne]
  simp only [hlen, Int.add_zero, ← hl]
  rw [if_neg (by decide), lastChunk, returns_obj_bind, if_pos hsize, returns_set_bind, returns_obj_bind,
    if_neg (fun h => h rfl)]
  simp

/-- The chunk loop, by induction on what it takes. -/
theorem chunks_decoded {s content rest : Bytes} {ls : List ChunkLine} (hc : c._client = some r) (hsize : c._size ≤ 0)
    (ht : Taken s ls content rest) {e : C} {n : Nat} (hup : D.up e) (hun : D.unread e = s) :
    ∃ e', (Prog.loop (chunkTurn net stream) { ret := int32 n, size := int32 n }).Returns ⟨c, e⟩
        (.ok (int32 (n + content.length : Nat))) ⟨{ c with _size := int32 (n + content.length : Nat) }, e'⟩ ∧
      D.up e' ∧ D.unread e' = rest ∧ D.accepted e' = D.accepted e ++ content := by
  induction ht generalizing e n with
  | last hne hlen =>
    subst hun
    have hn : int32 (n : Int) = int32 (int32 (n : Int)) := (Int.bmod_bmod ..).symm
    generalize hm : int32 (n : Int) = m at hn
    obtain ⟨e', hturn, hup', hun', hacc'⟩ := chunkTurn_last D (l := { ret := m, size := m }) hc hsize hup hne hlen hn
    exact ⟨e', Prog.returns_loop.mpr (.inl hturn), hup', hun', by simpa using hacc'⟩
  | @chunk s data rest ls content rest' hlen hdata hafter _ ih =>
    subst hun
    obtain ⟨e₁, hturn, hup₁, hun₁, hacc₁⟩ :=
      chunkTurn_chunk D (l := { ret := int32 n, size := int32 n }) hc hup hlen hdata hafter
    obtain ⟨e₂, hloop, hup₂, hun₂, hacc₂⟩ := ih (n := n + data.length) hup₁ hun₁
    refine ⟨e₂, Prog.returns_loop.mpr (.inr ⟨_, _, hturn, ?_⟩), hup₂, hun₂, ?_⟩
    · have hn : int32 (int32 n + data.length) = int32 (n + data.length : Nat) := int32_int32_add n data.length
      rw [hn, List.length_append, ← Nat.add_assoc]
      exact hloop
    · rw [hacc₂, hacc₁, List.append_assoc]

/-! ## The end of a body -/

theorem drain_returns {e : C} (hc : c._client = some r) (hup : D.up e) :
    ∃ e', (drain net).Returns ⟨c, e⟩ () ⟨c, e'⟩ ∧ D.up e' ∧ D.accepted e' = D.accepted e := by
  have loop : ∃ u s', (drain net).Returns ⟨c, e⟩ u s' ∧ s'.self = c ∧ D.up s'.env ∧ D.accepted s'.env = D.accepted e := by
    let I (_ : Unit) (s : Live C (HTTPClient C)) : Prop := s.self = c ∧ D.up s.env ∧ D.accepted s.env = D.accepted e
    refine Prog.loop_returns Nat.lt_wfRel.wf I I (fun _ s => (D.unread s.env).length) ?_ ⟨rfl, hup, rfl⟩
    rintro _ ⟨_, e₁⟩ ⟨rfl, hup₁, hacc₁⟩
    obtain ⟨a, e₂, ha, hq₂, _, _, hle, _⟩ := D.available e₁ hup₁
    by_cases hpos : a > 0
    · have hne : D.unread e₂ ≠ [] := by
        rw [hq₂.unread]
        exact fun hnil => by rw [hnil] at hle; simp at hle; omega
      obtain ⟨b, e₃, hread, hup₃, hun₃, hacc₃⟩ := D.read e₂ hq₂.up hne
      refine ⟨.next (), ⟨_, e₃⟩, ?_, ⟨rfl, hup₃, hacc₃.trans (hq₂.accepted.trans hacc₁)⟩, ?_⟩
      · rw [returns_onClient_bind hc ha, if_pos hpos, returns_onClient_bind hc hread]
        simp
      · have := List.length_pos_of_ne_nil hne
        show (D.unread e₃).length < (D.unread e₁).length
        rw [hun₃, ← hq₂.unread, List.length_tail]
        omega
    · refine ⟨.exit (), ⟨_, e₂⟩, ?_, rfl, hq₂.up, hq₂.accepted.trans hacc₁⟩
      rw [returns_onClient_bind hc ha, if_neg hpos]
      simp
  obtain ⟨_, ⟨_, e'⟩, hloop, rfl, hup', hacc'⟩ := loop
  exact ⟨e', hloop, hup', hacc'⟩

theorem cleanUp_returns {e : C} (hc : c._client = some r) (hup : D.up e) :
    ∃ e', (cleanUp net).Returns ⟨c, e⟩ () ⟨c, e'⟩ ∧ D.up e' ∧ D.accepted e' = D.accepted e := by
  obtain ⟨a, e₁, ha, hq, _⟩ := D.available e hup
  rw [cleanUp]
  simp only [returns_onClient_bind hc ha]
  by_cases hpos : a > 0
  · obtain ⟨e₂, hdrain, hup₂, hacc₂⟩ := drain_returns D hc hq.up
    exact ⟨e₂, by rw [if_pos hpos]; exact hdrain, hup₂, hacc₂.trans hq.accepted⟩
  · exact ⟨e₁, by rw [if_neg hpos]; simp, hq.up, hq.accepted⟩

theorem assignDeprecated_returns (client : Option Ref) (e : C) :
    ∃ s', (assignDeprecated net client).Returns ⟨c, e⟩ () s' ∧ D.accepted s'.env = D.accepted e := by
  rw [assignDeprecated]
  simp only [returns_obj_bind, returns_set_bind]
  split
  · exact ⟨_, Prog.returns_pure.mpr ⟨rfl, rfl⟩, rfl⟩
  · rename_i r' _
    obtain ⟨e', hrel, hacc⟩ := D.release r' e
    split
    · exact ⟨_, returns_outside.mpr ⟨e', hrel, rfl⟩, hacc⟩
    · exact ⟨_, Prog.returns_pure.mpr ⟨rfl, rfl⟩, rfl⟩

theorem close_returns {e : C} (hc : c._client = some r) (hup : D.up e) :
    ∃ s', (close net true).Returns ⟨c, e⟩ () s' ∧ D.accepted s'.env = D.accepted e := by
  obtain ⟨e₁, hstop, hacc₁⟩ := D.stop e hup
  rw [close]
  simp only [returns_onClient_bind hc hstop, not_true_eq_false, if_false, returns_obj_bind]
  split
  · obtain ⟨s', hs', hacc'⟩ := assignDeprecated_returns D (c := { c with _transportTraits := none }) none e₁
    exact ⟨s', returns_set_bind.mpr hs', hacc'.trans hacc₁⟩
  · exact ⟨_, Prog.returns_pure.mpr ⟨rfl, rfl⟩, hacc₁⟩

/-- The connection is kept or closed; the stream has what it has. -/
theorem disconnect_returns {e : C} (hc : c._client = some r) (hup : D.up e) :
    ∃ s', (disconnect net true).Returns ⟨c, e⟩ () s' ∧ D.accepted s'.env = D.accepted e := by
  obtain ⟨e₁, hcon, hq₁⟩ := connected_up D hc hup
  obtain ⟨e₂, hclean, hup₂, hacc₂⟩ := cleanUp_returns D hc hq₁.up
  rw [disconnect]
  simp only [Prog.returns_bind_of hcon, if_true, Prog.returns_bind_of hclean, returns_obj_bind]
  split
  · exact ⟨_, Prog.returns_pure.mpr ⟨rfl, rfl⟩, hacc₂.trans hq₁.accepted⟩
  · obtain ⟨s', hs', hacc'⟩ := close_returns D hc hup₂
    exact ⟨s', hs', hacc'.trans (hacc₂.trans hq₁.accepted)⟩

omit D in
theorem readBody_chunked {e : C} {v s'} (hte : c._transferEncoding = .chunked)
    (h : (Prog.loop (chunkTurn net stream) {}).Returns ⟨c, e⟩ v s') : (readBody net stream).Returns ⟨c, e⟩ v s' := by
  rw [readBody, returns_obj_bind]
  split
  · rename_i hidentity
    exact absurd (hte.symm.trans hidentity) (by decide)
  · exact h

/-- What the chunk loop takes is reported as a body, with its length as an `int`. -/
theorem writeToStream_taken {e : C} {s content rest : Bytes} {ls : List ChunkLine} (hc : c._client = some r)
    (hte : c._transferEncoding = .chunked) (hsize : c._size ≤ 0) (hup : D.up e) (hun : D.unread e = s)
    (ht : Taken s ls content rest) :
    ∃ t u s', (connected net).Returns ⟨c, e⟩ true t ∧ (readBody net stream).Returns t (.ok (int32 content.length)) u ∧
      D.unread u.env = rest ∧ (writeToStream net (some stream)).Returns ⟨c, e⟩ (int32 content.length) s' ∧
      D.accepted s'.env = D.accepted e ++ content := by
  obtain ⟨e₁, hcon, hq₁⟩ := connected_up D hc hup
  obtain ⟨e₂, hloop, hup₂, hun₂, hacc₂⟩ := chunks_decoded D (n := 0) hc hsize ht hq₁.up (hq₁.unread.trans hun)
  rw [Nat.zero_add] at hloop
  generalize int32 content.length = m at hloop ⊢
  have hbody := readBody_chunked hte hloop
  obtain ⟨s', hdis, hacc'⟩ := disconnect_returns D (c := { c with _size := m }) hc hup₂
  refine ⟨_, _, s', hcon, hbody, hun₂, ?_, hacc'.trans (hacc₂.trans (by rw [hq₁.accepted]))⟩
  rw [writeToStream]
  simp only [Prog.returns_bind_of hcon, not_true_eq_false, if_false, Prog.returns_bind_of hbody,
    Prog.returns_bind_of hdis]
  simp

/-- **Decoding undoes rendering.** A chunked body without a `Content-Length`
is written to the stream chunk by chunk, and its length is the result. -/
theorem writeToStream_chunks {e : C} (b : ChunkList) {rest : Bytes} (hc : c._client = some r)
    (hte : c._transferEncoding = .chunked) (hsize : c._size ≤ 0) (hup : D.up e) (hun : D.unread e = b.render ++ rest)
    (hlen : b.content.length < 2 ^ 31) :
    ∃ s', (writeToStream net (some stream)).Returns ⟨c, e⟩ b.content.length s' ∧
      D.accepted s'.env = D.accepted e ++ b.content := by
  obtain ⟨ls, ht⟩ := b.taken rest hlen
  obtain ⟨_, _, s', _, _, _, hrun, hacc⟩ := writeToStream_taken D hc hte hsize hup hun ht
  have hlen' : int32 b.content.length = b.content.length := int32_eq (by omega) (by omega)
  rw [hlen'] at hrun
  exact ⟨s', hrun, hacc⟩

end HTTPClient

/-! ## A connection -/

namespace BodyDemo

open Prog (step)

/-- The outside of the example: a peer's bytes, which become available three
at a time, `late` polls after the last were read, and what the stream has. -/
structure Host where
  unread : Bytes
  accepted : Bytes := []
  late : Nat := 0
  deriving DecidableEq, Repr

def poll (e : Host) : Int × Host :=
  if e.late = 0 then ((min 3 e.unread.length : Nat), e) else (0, { e with late := e.late - 1 })

def connection : Connection Host where
  create _ := pure 0
  release _ := pure ()
  setCACert _ _ := pure ()
  setCertificate _ _ := pure ()
  setPrivateKey _ _ := pure ()
  connect _ _ _ _ := pure 0
  setTimeout _ _ := pure ()
  write _ bs := pure bs.length
  getWriteError _ := pure 0
  clearWriteError _ := pure ()
  available _ := step poll
  read _ := step fun e => ((e.unread.headD 0).toNat, { e with unread := e.unread.tail, late := 1 })
  readBytes _ n := step fun e => (e.unread.take n, { e with unread := e.unread.drop n, late := 1 })
  readStringUntil _ c := step fun e =>
    (e.unread.takeWhile (· != c), { e with unread := (e.unread.dropWhile (· != c)).tail, late := 1 })
  connected _ := pure true
  stop _ := pure ()
  malloc n := pure (some (List.replicate n 0))
  millis := pure 0
  delay _ := pure ()
  base64Encode bs := bs

def stream : AppStream Host where
  write bs := step fun e => (bs.length, { e with accepted := e.accepted ++ bs })
  getWriteError := pure 0
  clearWriteError := pure ()
  available := pure 0
  readBytes _ := pure []

def delivery : Delivery connection 0 stream where
  up _ := True
  unread := Host.unread
  accepted := Host.accepted
  wait := Host.late
  available e _ := by
    refine ⟨(poll e).1, (poll e).2, Prog.returns_step.mpr rfl, ?_⟩
    by_cases h : e.late = 0
    · rw [show poll e = (((min 3 e.unread.length : Nat) : Int), e) from if_pos h]
      refine ⟨⟨trivial, rfl, rfl, Nat.le_refl _⟩, Int.natCast_nonneg _, ?_, ?_, fun hz hne => ?_⟩
      · show ((min 3 e.unread.length : Nat) : Int) < 2 ^ 31
        omega
      · show (((min 3 e.unread.length : Nat) : Int)).toNat ≤ e.unread.length
        omega
      · have := List.length_pos_of_ne_nil hne
        have hz : ((min 3 e.unread.length : Nat) : Int) = 0 := hz
        omega
    · rw [show poll e = (0, { e with late := e.late - 1 }) from if_neg h]
      refine ⟨⟨trivial, rfl, rfl, Nat.sub_le _ _⟩, Int.le_refl 0, (by decide : (0 : Int) < 2 ^ 31), Nat.zero_le _, fun _ _ => ?_⟩
      show e.late - 1 < e.late
      omega
  connected e _ := ⟨e, by simp [connection], trivial, rfl, rfl, Nat.le_refl _⟩
  read e _ _ := ⟨_, _, Prog.returns_step.mpr rfl, trivial, rfl, rfl⟩
  readBytes n e _ := ⟨_, Prog.returns_step.mpr rfl, trivial, rfl, rfl⟩
  readLine e _ := ⟨_, Prog.returns_step.mpr rfl, trivial, rfl, rfl⟩
  stop e _ := ⟨e, by simp [connection], rfl⟩
  release _ e := ⟨e, by simp [connection], rfl⟩
  malloc n e _ := ⟨_, e, Prog.returns_pure.mpr ⟨rfl, rfl⟩, List.length_replicate, trivial, rfl, rfl, Nat.le_refl _⟩
  delay _ e _ := ⟨e, by simp [connection], trivial, rfl, rfl, Nat.le_refl _⟩
  write bs e _ := ⟨_, Prog.returns_step.mpr rfl, trivial, rfl, rfl⟩
  getWriteError e _ := ⟨e, by simp [stream], trivial, rfl, rfl, Nat.le_refl _⟩

def client : HTTPClient Host := { _client := some 0, _transferEncoding := .chunked }

/-- "hello" and "wor", in two spellings of their sizes, and the end. -/
def hello : ChunkList where
  chunks := [
    { head := ⟨bytes "05", bytes ";a=1", by decide +kernel, by decide +kernel, .inr ⟨bytes "a=1", rfl⟩, by decide +kernel⟩
      data := bytes "hello", nonempty := by decide, size_eq := rfl },
    { head := ⟨bytes "3", [], by decide +kernel, by decide +kernel, .inl rfl, by decide +kernel⟩
      data := bytes "wor", nonempty := by decide, size_eq := rfl }]
  last := ⟨bytes "00", [], by decide +kernel, by decide +kernel, .inl rfl, by decide +kernel⟩
  last_size := rfl

theorem hello_decoded :
    ∃ s', (HTTPClient.writeToStream connection (some stream)).Returns ⟨client, { unread := hello.render ++ [13, 10] }⟩ 8 s' ∧
      s'.env.accepted = bytes "hellowor" :=
  HTTPClient.writeToStream_chunks delivery hello rfl rfl (by decide +kernel) trivial rfl (by decide +kernel)

end BodyDemo

end FEmbed
