/-
When a chunked body is rightly reported as complete.

`ChunkedBody` is the grammar. The chunk loop takes more (`Taken`): it reads
sizes with `strtol`, which skips space, admits a sign and `0x`, finds 0 where
there are no digits, and stops at 2^31 - 1. On a connection that delivers the
bytes in order, and each line before a read of it times out, the loop takes
exactly what `Taken` says, so it reports no malformed body exactly when the
input has none that is taken (`writeToStream_honest_iff`).
-/
import FEmbedLwip.ChunkedBody

namespace FEmbed

open Live

/-! ## The grammar -/

/-- A chunked body, and the sum of its sizes: each line starts with the digits
of its chunk's size. -/
inductive ChunkedBody : Bytes → Nat → Prop
  | last {line : Bytes} : 10 ∉ line → digits 16 line ≠ [] → ofDigits 16 (digits 16 line) = 0 →
      ChunkedBody (line ++ [10]) 0
  | chunk {line data rest : Bytes} {n : Nat} : 10 ∉ line → digits 16 line ≠ [] →
      ofDigits 16 (digits 16 line) = data.length → data ≠ [] → ChunkedBody rest n →
      ChunkedBody (line ++ [10] ++ data ++ [13, 10] ++ rest) (data.length + n)

/-- A line whose digits are the size that is read from it, and that was read
up to its line feed. -/
def ChunkLine.Proper (l : ChunkLine) : Prop :=
  l.ended = true ∧ digits 16 l.text ≠ [] ∧ HTTPClient.chunkLen l.text = ofDigits 16 (digits 16 l.text)

/-- Whatever the input starts with that the chunk loop takes has proper lines,
and a length that an `int` can hold. -/
def ProperInput (s : Bytes) : Prop :=
  ∀ ls content rest, Taken s ls content rest → 0 ≤ int32 content.length →
    (∀ l ∈ ls, l.Proper) ∧ content.length < 2 ^ 31

theorem firstLine_not_mem (s : Bytes) : 10 ∉ firstLine s := fun h => by
  have := List.mem_takeWhile_imp h
  simp at this

theorem line_split {s : Bytes} (h : (chunkLine s).ended = true) : s = firstLine s ++ [10] ++ afterLine s := by
  have hmem : 10 ∈ s := List.contains_iff_mem.mp h
  have hdrop : s.dropWhile (· != 10) = 10 :: afterLine s := by
    cases hd : s.dropWhile (· != 10) with
    | nil =>
      have := List.dropWhile_eq_nil_iff.mp hd 10 hmem
      simp at this
    | cons b t =>
      have hb : ¬ (b != 10) = true := by
        have := List.head_dropWhile_not (· != 10) (l := s) (by simp [hd])
        simpa [hd] using this
      rw [afterLine, hd]
      simpa using hb
  calc s = s.takeWhile (· != 10) ++ s.dropWhile (· != 10) := List.takeWhile_append_dropWhile.symm
    _ = firstLine s ++ [10] ++ afterLine s := by rw [hdrop]; simp [firstLine]

theorem line_parts (s : Bytes) : ∃ t, (t = [] ∨ t = [10]) ∧ s = firstLine s ++ t ++ afterLine s := by
  by_cases h : (chunkLine s).ended = true
  · exact ⟨[10], .inr rfl, line_split h⟩
  · have hno : 10 ∉ s := fun hmem => h (List.contains_iff_mem.mpr hmem)
    have hall : s.takeWhile (· != 10) = s := List.takeWhile_eq_self_iff.mpr fun b hb => by
      simpa using fun heq : b = 10 => hno (heq ▸ hb)
    have hnone : s.dropWhile (· != 10) = [] := List.dropWhile_eq_nil_iff.mpr fun b hb => by
      simpa using fun heq : b = 10 => hno (heq ▸ hb)
    refine ⟨[], .inl rfl, ?_⟩
    rw [firstLine, afterLine, hall, hnone]
    simp

/-- What is taken by proper lines is a chunked body. -/
theorem Taken.chunkedBody {s content rest : Bytes} {ls : List ChunkLine} (h : Taken s ls content rest)
    (hl : ∀ l ∈ ls, l.Proper) : ∃ body, s = body ++ rest ∧ ChunkedBody body content.length := by
  induction h with
  | @last s _ hlen =>
    obtain ⟨hended, hdigits, hsize⟩ := hl (chunkLine s) (by simp)
    refine ⟨firstLine s ++ [10], line_split hended, .last (firstLine_not_mem s) hdigits ?_⟩
    have hsize : HTTPClient.chunkLen (firstLine s) = ofDigits 16 (digits 16 (firstLine s)) := hsize
    omega
  | @chunk s data rest ls content rest' hlen hdata hafter _ ih =>
    obtain ⟨hended, hdigits, hsize⟩ := hl (chunkLine s) (by simp)
    obtain ⟨body, hbody, hchunked⟩ := ih fun l hmem => hl l (by simp [hmem])
    have hsize : HTTPClient.chunkLen (firstLine s) = ofDigits 16 (digits 16 (firstLine s)) := hsize
    refine ⟨firstLine s ++ [10] ++ data ++ [13, 10] ++ body, ?_, ?_⟩
    · calc s = firstLine s ++ [10] ++ afterLine s := line_split hended
        _ = _ := by rw [hafter, hbody]; simp
    · rw [List.length_append]
      exact .chunk (firstLine_not_mem s) hdigits (by omega) hdata hchunked

theorem afterLine_length (s : Bytes) : (afterLine s).length ≤ s.length := by
  have := (List.dropWhile_suffix (l := s) (· != 10)).length_le
  rw [afterLine, List.length_tail]
  omega

theorem Taken.length_le {s content rest : Bytes} {ls : List ChunkLine} (h : Taken s ls content rest) :
    rest.length ≤ s.length := by
  induction h with
  | last => exact afterLine_length _
  | @chunk s _ _ _ _ _ _ _ hafter _ ih =>
    have := afterLine_length s
    rw [hafter] at this
    simp only [List.length_append] at this
    omega

/-- A size that is not 0 is not read as one after `0x`. -/
theorem no_hexPrefix {line : Bytes} (h : 0 < ofDigits 16 (digits 16 line)) :
    ∀ b t, line = 48 :: b :: t → b ≠ 120 ∧ b ≠ 88 := by
  rintro b t rfl
  refine ⟨?_, ?_⟩ <;> rintro rfl <;> exact absurd h (by simp [digits, isDigit, digitVal, ofDigits])

/-- Where what is taken is a chunked body of the length that is reported, its
lines are proper. -/
theorem Taken.proper {s content rest body : Bytes} {ls : List ChunkLine} {n : Nat} (h : Taken s ls content rest)
    (hs : s = body ++ rest) (hbody : ChunkedBody body n) (hn : n < 2 ^ 31) :
    (∀ l ∈ ls, l.Proper) ∧ content.length = n := by
  induction h generalizing body n with
  | @last s _ hlen =>
    cases hbody with
    | @last line hline hdigits hsize =>
      have hfirst : firstLine s = line := by rw [hs]; exact firstLine_line hline
      have hended : (chunkLine s).ended = true := by rw [hs]; simp [chunkLine]
      refine ⟨fun l hl => ?_, rfl⟩
      rw [List.mem_singleton] at hl
      subst hl
      refine ⟨hended, ?_, ?_⟩
      · show digits 16 (firstLine s) ≠ []
        rw [hfirst]
        exact hdigits
      · show HTTPClient.chunkLen (firstLine s) = ofDigits 16 (digits 16 (firstLine s))
        rw [hlen, hfirst, hsize]
        rfl
    | @chunk line data rest _ hline =>
      -- A first line alone is no chunk with its data.
      have heq : s = line ++ [10] ++ (data ++ [13, 10] ++ rest ++ afterLine s) := by
        conv_lhs => rw [hs]
        simp
      have hafter := congrArg afterLine heq
      rw [afterLine_line hline] at hafter
      have := congrArg List.length hafter
      simp only [List.length_append, List.length_cons] at this
      omega
  | @chunk s data rest ls content rest' hlen hdata hafter htaken ih =>
    cases hbody with
    | @last line hline hdigits hsize =>
      rw [hs, afterLine_line hline] at hafter
      have := htaken.length_le
      have := congrArg List.length hafter
      simp only [List.length_append, List.length_cons] at this
      omega
    | @chunk line data' body' m hline hdigits hsize hdata' hbody' =>
      have heq : s = line ++ [10] ++ (data' ++ [13, 10] ++ (body' ++ rest')) := by
        rw [hs]
        simp
      have hfirst : firstLine s = line := by rw [heq]; exact firstLine_line hline
      have hpos := List.length_pos_of_ne_nil hdata'
      have hsize' : HTTPClient.chunkLen line = ofDigits 16 (digits 16 line) :=
        chunkLen_digits hdigits (no_hexPrefix (by omega)) (by omega)
      rw [heq, afterLine_line hline] at hafter
      rw [hfirst] at hlen
      obtain ⟨hdd, hrest⟩ := List.append_inj (by simpa using hafter : data' ++ (13 :: 10 :: (body' ++ rest')) = data ++ (13 :: 10 :: rest))
        (by omega)
      obtain ⟨hproper, hcontent⟩ := ih (by simpa using hrest.symm) hbody' (by omega)
      refine ⟨fun l hl => ?_, by rw [List.length_append, hcontent, hdd]⟩
      rcases List.mem_cons.mp hl with rfl | hl
      · refine ⟨by rw [heq]; simp [chunkLine], ?_, ?_⟩
        · show digits 16 (firstLine s) ≠ []
          rw [hfirst]
          exact hdigits
        · show HTTPClient.chunkLen (firstLine s) = ofDigits 16 (digits 16 (firstLine s))
          rw [hfirst]
          exact hsize'
      · exact hproper l hl

/-! ## A connection that may fail -/

open Prog (Guarantees Guarantee)

/-- The connection `r` gives the peer's bytes in order, as far as it gives any: a
line is read with its line feed or up to where a read times out, and what is
available is read at once. Nothing is said of when bytes are available, of
whether the connection stays up, of the memory, or of what the stream takes. -/
structure Wire {C : Type} (net : Connection C) (r : Ref) (stream : AppStream C) where
  unread : C → Bytes
  available : ∀ e a e', (net.available r).Returns e a e' → unread e' = unread e ∧ 0 ≤ a ∧ a < 2 ^ 31 ∧
    ∀ n bs e'', n ≤ a.toNat → (net.readBytes r n).Returns e' bs e'' → bs.length = n
  readBytes : ∀ n e bs e', (net.readBytes r n).Returns e bs e' → unread e = bs ++ unread e'
  readLine : ∀ e l e', (net.readStringUntil r 10).Returns e l e' → 10 ∉ l ∧
    ∃ t, (t = [] ∨ t = [10]) ∧ unread e = l ++ t ++ unread e'
  connected : (net.connected r).Guarantees (.same unread)
  malloc : ∀ n, (net.malloc n).Guarantees (.same unread)
  delay : ∀ n, (net.delay n).Guarantees (.same unread)
  write : ∀ bs, (stream.write bs).Guarantees (.same unread)
  getWriteError : stream.getWriteError.Guarantees (.same unread)
  clearWriteError : stream.clearWriteError.Guarantees (.same unread)

/-- Each line that the peer sends is there before a read of it times out: it is
read completely, or as far as the bytes go. -/
def Wire.Prompt {C : Type} {net : Connection C} {r : Ref} {stream : AppStream C} (W : Wire net r stream) : Prop :=
  ∀ e l e', (net.readStringUntil r 10).Returns e l e' → l = firstLine (W.unread e) ∧ W.unread e' = afterLine (W.unread e)

namespace HTTPClient

variable {C : Type} {net : Connection C} {r : Ref} {stream : AppStream C} (W : Wire net r stream) {c : HTTPClient C}

/-- Nothing is read, and the object is as it was. -/
def silent : Guarantee (Live C (HTTPClient C)) where
  rel s s' := s.self._client = some r → s'.self = s.self ∧ W.unread s'.env = W.unread s.env
  refl _ := fun _ => ⟨rfl, rfl⟩
  trans h h' := fun hc => by
    obtain ⟨hs, hun⟩ := h hc
    obtain ⟨hs', hun'⟩ := h' (by rw [hs]; exact hc)
    exact ⟨hs'.trans hs, hun'.trans hun⟩

theorem outside_silent {α : Type} {x : Prog C α} (h : x.Guarantees (.same W.unread)) : (outside x).Guarantees (silent W) :=
  .zoom h fun _ _ hun _ => ⟨rfl, hun⟩

theorem available_silent {s : Live C (HTTPClient C)} {a s'} (h : (onClient net.available).Returns s a s')
    (hc : s.self._client = some r) : s'.self = s.self ∧ W.unread s'.env = W.unread s.env ∧ 0 ≤ a ∧ a < 2 ^ 31 ∧
      ∀ n bs e, n ≤ a.toNat → (net.readBytes r n).Returns s'.env bs e → bs.length = n := by
  obtain ⟨e, he, rfl⟩ := (returns_onClient hc).mp h
  exact ⟨rfl, W.available _ _ _ he⟩

theorem connected_silent : (connected net).Guarantees (silent W) := by
  intro s b s' h hc
  rw [connected, returns_obj_bind] at h
  simp only [hc] at h
  obtain ⟨a, t, ht, h⟩ := Prog.returns_bind.mp h
  obtain ⟨e, he, rfl⟩ := returns_outside.mp ht
  have hun := (W.available _ _ _ he).1
  rw [Prog.returns_ite] at h
  rcases h with ⟨_, h⟩ | ⟨_, h⟩
  · obtain ⟨-, rfl⟩ := Prog.returns_pure.mp h
    exact ⟨rfl, hun⟩
  · obtain ⟨e', he', rfl⟩ := returns_outside.mp h
    exact ⟨rfl, (W.connected _ _ _ he').trans hun⟩

theorem writeLeft_silent {buff : Bytes} {w left : Int} {s : Live C (HTTPClient C)} {m s'}
    (h : (writeLeft net stream.write stream.getWriteError buff w left).Returns s m s') :
    (silent W).rel s s' ∧ (m = none ∨ m = some (w + left)) := by
  obtain ⟨_, t, ht, h⟩ := Prog.returns_bind.mp h
  have hst := outside_silent W (W.delay 1) _ _ _ ht
  split at h
  · exact absurd h Prog.returns_undefined
  · rename_i rest _
    obtain ⟨w', u, hu, h⟩ := Prog.returns_bind.mp h
    have hsu := (silent W).trans hst (outside_silent W (W.write rest) _ _ _ hu)
    rw [Prog.returns_ite] at h
    rcases h with ⟨_, h⟩ | ⟨hall, h⟩
    · obtain ⟨rfl, rfl⟩ := Prog.returns_pure.mp h
      exact ⟨hsu, .inl rfl⟩
    · obtain ⟨err, v, hv, h⟩ := Prog.returns_bind.mp h
      have hsv := (silent W).trans hsu (outside_silent W W.getWriteError _ _ _ hv)
      rw [Prog.returns_ite] at h
      rcases h with ⟨_, h⟩ | ⟨_, h⟩ <;> obtain ⟨rfl, rfl⟩ := Prog.returns_pure.mp h
      · exact ⟨hsv, .inl rfl⟩
      · exact ⟨hsv, .inr (by rw [Decidable.not_not.mp hall])⟩

/-- A block is written in full, at the first or at the second try. -/
theorem passOn_silent {buff got : Bytes} {n : Int} {s : Live C (HTTPClient C)} {m s'}
    (h : (passOn net stream.write stream.getWriteError stream.clearWriteError buff got n).Returns s m s')
    (hgot : got.length = n) : (silent W).rel s s' ∧ (m = none ∨ m = some n) := by
  obtain ⟨w, t, ht, h⟩ := Prog.returns_bind.mp h
  have hst := outside_silent W (W.write got) _ _ _ ht
  rw [Prog.returns_ite] at h
  rcases h with ⟨_, h⟩ | ⟨hfull, h⟩
  · obtain ⟨err, u, hu, h⟩ := Prog.returns_bind.mp h
    have hsu := (silent W).trans hst (outside_silent W W.getWriteError _ _ _ hu)
    have left {v : Live C (HTTPClient C)} (hsv : (silent W).rel s v)
        (h : (writeLeft net stream.write stream.getWriteError buff (int32 w) (n - int32 w)).Returns v m s') :
        (silent W).rel s s' ∧ (m = none ∨ m = some n) := by
      obtain ⟨hvs, hm⟩ := writeLeft_silent W h
      rw [show int32 w + (n - int32 w) = n by omega] at hm
      exact ⟨(silent W).trans hsv hvs, hm⟩
    rw [Prog.returns_ite] at h
    rcases h with ⟨_, h⟩ | ⟨_, h⟩
    · obtain ⟨_, v, hv, h⟩ := Prog.returns_bind.mp h
      exact left ((silent W).trans hsu (outside_silent W W.clearWriteError _ _ _ hv)) h
    · exact left hsu h
  · obtain ⟨err, u, hu, h⟩ := Prog.returns_bind.mp h
    have hsu := (silent W).trans hst (outside_silent W W.getWriteError _ _ _ hu)
    rw [Prog.returns_ite] at h
    rcases h with ⟨_, h⟩ | ⟨_, h⟩ <;> obtain ⟨rfl, rfl⟩ := Prog.returns_pure.mp h
    · exact ⟨hsu, .inl rfl⟩
    · exact ⟨hsu, .inr (by rw [Decidable.not_not.mp hfull, hgot])⟩

/-- How far the copy of `size` bytes is. -/
structure Taking (c : HTTPClient C) (e₀ : C) (size : Nat) (l : CopyState) (s : Live C (HTTPClient C)) : Prop where
  self : s.self = c
  bound : l.bytesWritten ≤ size
  len : l.len = size - l.bytesWritten
  taken : ∃ data, W.unread e₀ = data ++ W.unread s.env ∧ l.bytesWritten = (data.length : Nat)

theorem Taking.quiet {e₀ : C} {size : Nat} {l : CopyState} {s s' : Live C (HTTPClient C)} (h : Taking W c e₀ size l s)
    (hc : c._client = some r) (hss : (silent W).rel s s') : Taking W c e₀ size l s' := by
  obtain ⟨hself, hun⟩ := hss (by rw [h.self]; exact hc)
  obtain ⟨data, hdata, hlen⟩ := h.taken
  exact ⟨hself.trans h.self, h.bound, h.len, data, by rw [hun]; exact hdata, hlen⟩

/-- A turn that reads `n` of the bytes left. -/
theorem copyTurn_takes {e₀ : C} {size n : Nat} {l : CopyState} {s : Live C (HTTPClient C)} {x s'}
    (h : Taking W c e₀ size l s) (hc : c._client = some r) (hsize : size < 2 ^ 31) (hn : 0 < n) (hle : (n : Int) ≤ l.len)
    (hfull : ∀ bs e, (net.readBytes r n).Returns s.env bs e → bs.length = n)
    (hx : (copyTurn net stream l n).Returns s x s') :
    (∃ l', x = .next l' ∧ Taking W c e₀ size l' s') ∨ x = .exit errorStreamWrite := by
  obtain ⟨got, t, ht, hx⟩ := Prog.returns_bind.mp hx
  have hsc : s.self._client = some r := by rw [h.self]; exact hc
  have hlen := h.len
  obtain ⟨data, hdata, hdatalen⟩ := h.taken
  rw [sizeT_natCast (by omega)] at ht
  obtain ⟨e, he, rfl⟩ := (returns_onClient hsc).mp ht
  have hgot := hfull _ _ he
  have hun := W.readBytes _ _ _ _ he
  split at hx
  · exact absurd hx Prog.returns_undefined
  · rename_i buff _
    obtain ⟨m, u, hu, hx⟩ := Prog.returns_bind.mp hx
    obtain ⟨hsu, hm⟩ := passOn_silent W hu (by rw [hgot])
    rcases hm with rfl | rfl
    · obtain ⟨rfl, rfl⟩ := Prog.returns_pure.mp hx
      exact .inr rfl
    · obtain ⟨_, v, hv, hx⟩ := Prog.returns_bind.mp hx
      obtain ⟨rfl, rfl⟩ := Prog.returns_pure.mp hx
      obtain ⟨hself, huns⟩ := (silent W).trans hsu (outside_silent W (W.delay 0) _ _ _ hv) hsc
      have hlpos : l.len > 0 := by omega
      have hcount : int32 (l.bytesWritten + n) = l.bytesWritten + n := int32_eq (by omega) (by omega)
      refine .inl ⟨_, rfl, hself.trans h.self, ?_, ?_, data ++ got, ?_, ?_⟩
      · simp only [hcount]
        omega
      · simp only [hcount, if_pos hlpos]
        omega
      · rw [huns, hdata, hun, List.append_assoc]
      · rw [List.length_append, hgot]
        exact hcount.trans (by omega)

/-- What the copy loop leaves with: an error, or all bytes. -/
theorem blockTurn_takes {e₀ : C} {size : Nat} {l : CopyState} {s : Live C (HTTPClient C)} {x s'}
    (h : Taking W c e₀ size l s) (hc : c._client = some r) (hpos : 0 < size) (hsize : size < 2 ^ 31)
    (hx : (blockTurn net stream size (blockSize size) l).Returns s x s') :
    match x with
    | .next l' => Taking W c e₀ size l' s'
    | .exit v => v < 0 ∨ v = size ∧ s'.self = c ∧ ∃ data, data.length = size ∧ W.unread e₀ = data ++ W.unread s'.env := by
  have done {t : Live C (HTTPClient C)} (h : Taking W c e₀ size l t) : blockResult size l.bytesWritten < 0 ∨
      blockResult size l.bytesWritten = size ∧ t.self = c ∧ ∃ data, data.length = size ∧ W.unread e₀ = data ++ W.unread t.env := by
    obtain ⟨data, hdata, hdatalen⟩ := h.taken
    rw [blockResult]
    by_cases hall : (size : Int) = l.bytesWritten
    · rw [if_neg (fun hne => hne.2 hall)]
      exact .inr ⟨hall.symm, h.self, data, by omega, hdata⟩
    · rw [if_pos ⟨by omega, hall⟩]
      exact .inl (by decide)
  obtain ⟨up, t, ht, hx⟩ := Prog.returns_bind.mp hx
  replace h := h.quiet W hc (connected_silent W _ _ _ ht)
  rw [Prog.returns_ite] at hx
  rcases hx with ⟨_, hx⟩ | ⟨hgo, hx⟩
  · obtain ⟨rfl, rfl⟩ := Prog.returns_pure.mp hx
    exact done h
  obtain ⟨a, u, hu, hx⟩ := Prog.returns_bind.mp hx
  have htc : t.self._client = some r := by rw [h.self]; exact hc
  obtain ⟨hself, hun, ha₀, ha₁, hfull⟩ := available_silent W hu htc
  replace h := h.quiet W hc fun _ => ⟨hself, hun⟩
  have ha : int32 (sizeT a) = a := int32_sizeT (by omega) ha₁
  rw [Prog.returns_ite] at hx
  rcases hx with ⟨_, hx⟩ | ⟨hsome, hx⟩
  · obtain ⟨_, v, hv, hx⟩ := Prog.returns_bind.mp hx
    obtain ⟨rfl, rfl⟩ := Prog.returns_pure.mp hx
    exact h.quiet W hc (outside_silent W (W.delay 1) _ _ _ hv)
  rw [Prog.returns_ite] at hx
  rcases hx with ⟨_, hx⟩ | ⟨_, hx⟩
  · obtain ⟨rfl, rfl⟩ := Prog.returns_pure.mp hx
    exact done h
  · have hlen := h.len
    have hbound := h.bound
    have hlpos : 0 < l.len := by
      by_contra hnot
      exact hgo (.inr fun hl => by omega)
    have hapos : 0 < a := by
      rcases Int.lt_or_eq_of_le ha₀ with hlt | heq
      · exact hlt
      · exact absurd (by rw [← heq]; rfl) hsome
    rw [ha] at hx
    have hrc := readCount_pos hapos hlpos (blockSize_range size).1
    obtain ⟨n, hn⟩ := Int.eq_ofNat_of_zero_le (Int.le_of_lt hrc.1)
    rw [hn] at hx hrc
    rcases copyTurn_takes W h hc hsize (by omega) hrc.2.2.1 (fun bs e => hfull n bs e (by omega)) hx with
      ⟨l', rfl, h'⟩ | rfl
    · exact h'
    · exact .inl (by decide)

/-- A block is copied in full, or it is an error. -/
theorem writeToStreamDataBlock_takes {size : Nat} {s : Live C (HTTPClient C)} {v s'} (hc : s.self._client = some r)
    (hpos : 0 < size) (hsize : size < 2 ^ 31) (h : (writeToStreamDataBlock net stream size).Returns s v s') :
    v < 0 ∨ v = size ∧ s'.self = s.self ∧ ∃ data, data.length = size ∧ W.unread s.env = data ++ W.unread s'.env := by
  obtain ⟨block, t, ht, h⟩ := Prog.returns_bind.mp h
  obtain ⟨hself, hun⟩ := outside_silent W (W.malloc _) _ _ _ ht hc
  cases block with
  | none =>
    obtain ⟨rfl, rfl⟩ := Prog.returns_pure.mp h
    exact .inl (by decide)
  | some buff =>
    rw [← hun, ← hself]
    rw [← hself] at hc
    have h : (Prog.loop (blockTurn net stream size (blockSize size)) { len := size, buff := buff }).Returns t v s' := h
    have start : Taking W t.self t.env size { len := size, buff := buff } t :=
      ⟨rfl, Int.natCast_nonneg size, (Int.sub_zero _).symm, [], rfl, rfl⟩
    refine Prog.Returns.loop_inv (Taking W t.self t.env size)
      (fun (v : Int) s' => v < 0 ∨ v = size ∧ s'.self = t.self ∧ ∃ data, data.length = size ∧ W.unread t.env = data ++ W.unread s'.env)
      ?_ h start
    intro l u x u' hl hx
    have := blockTurn_takes W hl hc hpos hsize hx
    cases x <;> exact this

/-- A size line was read where `before` was unread, and `after` is left. -/
def LineRead (before line after : Bytes) : Prop :=
  ∃ e e', (net.readStringUntil r 10).Returns e line e' ∧ W.unread e = before ∧ W.unread e' = after

theorem LineRead.prompt {before line after : Bytes} (h : LineRead W before line after) (hP : W.Prompt) :
    line = firstLine before ∧ after = afterLine before := by
  obtain ⟨e, e', hread, rfl, rfl⟩ := h
  exact hP e line e' hread

theorem LineRead.length_le {before line after : Bytes} (h : LineRead W before line after) :
    after.length ≤ before.length := by
  obtain ⟨e, e', hread, rfl, rfl⟩ := h
  obtain ⟨_, t, _, hun⟩ := W.readLine e line e' hread
  rw [hun, List.length_append, List.length_append]
  omega

/-- Where a turn of the chunk loop goes: an error, the end, or the next chunk. -/
theorem chunkTurn_takes {l : ChunkState} {s : Live C (HTTPClient C)} {x s'} (hc : s.self._client = some r)
    (hsize : s.self._size ≤ 0) (h : (chunkTurn net stream l).Returns s x s') :
    (∃ e, x = .exit (.error e) ∧ e < 0) ∨
    (∃ line, LineRead W (W.unread s.env) line (W.unread s'.env) ∧ x = .exit (.ok l.ret) ∧
      l.ret = int32 (l.size + chunkLen line) ∧ line ≠ [] ∧ chunkLen line ≤ 0) ∨
    (∃ line data, LineRead W (W.unread s.env) line (data ++ [13, 10] ++ W.unread s'.env) ∧
      x = .next { ret := int32 (l.ret + data.length), size := int32 (l.size + data.length) } ∧
      s'.self = s.self ∧ data ≠ [] ∧ chunkLen line = data.length) := by
  obtain ⟨up, t, ht, h⟩ := Prog.returns_bind.mp h
  obtain ⟨hself, hun⟩ := connected_silent W _ _ _ ht hc
  rw [← hself] at hc hsize ⊢
  rw [← hun]
  rw [Prog.returns_ite] at h
  rcases h with ⟨_, h⟩ | ⟨_, h⟩
  · obtain ⟨rfl, rfl⟩ := Prog.returns_pure.mp h
    exact .inl ⟨_, rfl, by decide⟩
  obtain ⟨line, u, hu, h⟩ := Prog.returns_bind.mp h
  obtain ⟨e, he, rfl⟩ := (returns_onClient hc).mp hu
  rw [Prog.returns_ite] at h
  rcases h with ⟨_, h⟩ | ⟨hne, h⟩
  · obtain ⟨rfl, rfl⟩ := Prog.returns_pure.mp h
    exact .inl ⟨_, rfl, by decide⟩
  have hrange := chunkLen_range line
  generalize hlen : chunkLen line = len at h hrange
  rw [Prog.returns_ite] at h
  rcases h with ⟨hpos, h⟩ | ⟨hpos, h⟩
  · -- A chunk with data.
    obtain ⟨n, rfl⟩ := Int.eq_ofNat_of_zero_le (Int.le_of_lt hpos)
    have hn : 0 < n := by omega
    have hn' : n < 2 ^ 31 := by omega
    obtain ⟨v, w, hw, h⟩ := Prog.returns_bind.mp h
    have hv := writeToStreamDataBlock_takes (s := ⟨t.self, e⟩) W hc hn hn' hw
    rw [Prog.returns_ite] at h
    rcases h with ⟨hneg, h⟩ | ⟨hneg, h⟩
    · obtain ⟨rfl, rfl⟩ := Prog.returns_pure.mp h
      exact .inl ⟨_, rfl, hneg⟩
    obtain ⟨rfl, hws, data, hdata, hwun⟩ := hv.resolve_left hneg
    obtain ⟨crlf, z, hz, h⟩ := Prog.returns_bind.mp h
    rw [← hws] at hc
    obtain ⟨e', he', rfl⟩ := (returns_onClient hc).mp hz
    have hzun := W.readBytes _ _ _ _ he'
    rw [Prog.returns_ite] at h
    rcases h with ⟨_, h⟩ | ⟨_, h⟩
    · exact absurd h Prog.returns_undefined
    rw [Prog.returns_ite] at h
    rcases h with ⟨_, h⟩ | ⟨hcrlf, h⟩
    · obtain ⟨rfl, rfl⟩ := Prog.returns_pure.mp h
      exact .inl ⟨_, rfl, by decide⟩
    obtain ⟨_, y, hy, h⟩ := Prog.returns_bind.mp h
    obtain ⟨rfl, rfl⟩ := Prog.returns_pure.mp h
    obtain ⟨hys, hyun⟩ := outside_silent W (W.delay 0) _ _ _ hy hc
    refine .inr (.inr ⟨line, data, ⟨t.env, e, he, rfl, ?_⟩, ?_, hys.trans hws, ?_, ?_⟩)
    · rw [hyun, hwun, hzun, Decidable.not_not.mp hcrlf, List.append_assoc]
    · rw [hdata]
    · rintro rfl
      simp at hdata
      omega
    · rw [hlen, hdata]
  · -- The last chunk, whose size makes up the count that is compared.
    rw [lastChunk, returns_obj_bind, if_pos hsize, returns_set_bind, returns_obj_bind, Prog.returns_ite] at h
    rcases h with ⟨_, h⟩ | ⟨hret, h⟩
    · obtain ⟨rfl, rfl⟩ := Prog.returns_pure.mp h
      exact .inl ⟨_, rfl, by decide⟩
    · obtain ⟨rfl, rfl⟩ := Prog.returns_pure.mp h
      refine .inr (.inl ⟨line, ⟨t.env, e, he, rfl, rfl⟩, rfl, ?_, hne, by omega⟩)
      rw [hlen]
      exact Decidable.not_not.mp hret

theorem int32_add_self {n : Nat} {k : Int} (h₀ : -2 ^ 31 ≤ k) (h₁ : k < 2 ^ 31)
    (h : int32 n = int32 (int32 n + k)) : k = 0 := by
  have hk : int32 (n + k - n) = 0 :=
    Int.bmod_eq_bmod_iff_bmod_sub_eq_zero.mp (((int32_int32_add n k).symm.trans h.symm : int32 (n + k) = int32 n))
  rw [show (n : Int) + k - n = k by omega, int32_eq h₀ h₁] at hk
  exact hk

/-- What the chunk loop may report when `n` bytes were written before. -/
def Sound (before after : Bytes) (n : Nat) : Except Int Int → Prop
  | .error e => e < 0
  | .ok m => ∃ ls content, Taken before ls content after ∧ m = int32 (n + content.length : Nat)

theorem sound_of_taken {before after content : Bytes} {ls : List ChunkLine} {n m : Nat} (h : Taken before ls content after)
    (hm : m = n + content.length) : Sound before after n (.ok (int32 m)) :=
  ⟨ls, content, h, by rw [hm]⟩

/-- What the chunk loop reports as complete it has taken. -/
theorem chunks_sound (hP : W.Prompt) {l : ChunkState} {s : Live C (HTTPClient C)} {v s'}
    (h : (Prog.loop (chunkTurn net stream) l).Returns s v s') :
    ∀ n : Nat, l = { ret := int32 n, size := int32 n } → s.self._client = some r → s.self._size ≤ 0 →
      Sound (W.unread s.env) (W.unread s'.env) n v := by
  refine Prog.Returns.loop_induct (fun l s => ∀ n : Nat, l = { ret := int32 n, size := int32 n } →
    s.self._client = some r → s.self._size ≤ 0 → Sound (W.unread s.env) (W.unread s'.env) n v) ?_ ?_ h
  · rintro l s hturn n rfl hc hsize
    rcases chunkTurn_takes W hc hsize hturn with ⟨e, hv, he⟩ | ⟨line, hread, hv, hret, hne, hlen⟩ | ⟨_, _, _, hv, _⟩
    · obtain rfl := Turn.exit.inj hv
      exact he
    · obtain rfl := Turn.exit.inj hv
      obtain ⟨rfl, hun⟩ := hread.prompt W hP
      simp only at hret
      have hlast := int32_add_self (chunkLen_range _).1 (chunkLen_range _).2 hret
      have htaken : Taken (W.unread s.env) [chunkLine (W.unread s.env)] [] (W.unread s'.env) := by
        rw [hun]
        exact .last hne hlast
      dsimp only
      exact sound_of_taken htaken (by simp)
    · exact nomatch hv
  · rintro l s l' t hturn _ ih n rfl hc hsize
    rcases chunkTurn_takes W hc hsize hturn with ⟨_, hv, _⟩ | ⟨_, _, hv, _⟩ | ⟨line, data, hread, hv, hself, hdata, hlen⟩
    · exact nomatch hv
    · exact nomatch hv
    · obtain rfl := Turn.next.inj hv
      obtain ⟨rfl, hafter⟩ := hread.prompt W hP
      have hnext : int32 (int32 n + data.length) = int32 (n + data.length : Nat) := int32_int32_add n data.length
      have hrest := ih (n + data.length) (by rw [hnext]) (by rw [hself]; exact hc) (by rw [hself]; exact hsize)
      cases v with
      | error e => exact hrest
      | ok m =>
        obtain ⟨ls, content, htaken, hm⟩ := hrest
        rw [hm]
        exact sound_of_taken (.chunk hlen hdata hafter.symm htaken) (by rw [List.length_append, Nat.add_assoc])

/-- What is reported as a complete body is one: the bytes that were read for
it are a chunked body, and the result is the sum of the sizes. -/
def Honest (s : Live C (HTTPClient C)) : Prop :=
  ∀ v s', (writeToStream net (some stream)).Returns s v s' → 0 ≤ v →
    ∃ t u body, (connected net).Returns s true t ∧ (readBody net stream).Returns t (.ok v) u ∧
      W.unread s.env = body ++ W.unread u.env ∧ ChunkedBody body v.toNat

theorem writeToStream_honest (hP : W.Prompt) {s : Live C (HTTPClient C)} (hc : s.self._client = some r)
    (hte : s.self._transferEncoding = .chunked) (hsize : s.self._size ≤ 0) (hinput : ProperInput (W.unread s.env)) :
    Honest W s := by
  intro v s' h hv
  obtain ⟨up, t, ht, h⟩ := Prog.returns_bind.mp h
  obtain ⟨hself, hun⟩ := connected_silent W _ _ _ ht hc
  rw [Prog.returns_ite] at h
  rcases h with ⟨_, h⟩ | ⟨hup, h⟩
  · rw [(returnError_returns h).1] at hv
    exact absurd hv (by decide)
  rw [Decidable.not_not.mp hup] at ht
  obtain ⟨body, u, hu, h⟩ := Prog.returns_bind.mp h
  have hloop : (Prog.loop (chunkTurn net stream) {}).Returns t body u := by
    have hu' := hu
    rw [readBody, returns_obj_bind] at hu'
    split at hu'
    · rename_i hidentity
      rw [hself, hte] at hidentity
      exact absurd hidentity (by decide)
    · exact hu'
  have hsound := chunks_sound W hP hloop 0 rfl (by rw [hself]; exact hc) (by rw [hself]; exact hsize)
  cases body with
  | error e =>
    have he : e < 0 := hsound
    rw [(returnError_returns h).1] at hv
    omega
  | ok m =>
    obtain ⟨ls, content, htaken, hm⟩ := hsound
    obtain ⟨_, w, _, h⟩ := Prog.returns_bind.mp h
    obtain ⟨rfl, rfl⟩ := Prog.returns_pure.mp h
    rw [Nat.zero_add] at hm
    rw [hm] at hv
    rw [hun] at htaken
    obtain ⟨hlines, hlen⟩ := hinput _ _ _ htaken hv
    obtain ⟨bs, hbs, hchunked⟩ := htaken.chunkedBody hlines
    rw [int32_eq (by omega) (by omega)] at hm
    refine ⟨t, u, bs, ht, hu, hbs, ?_⟩
    rw [hm]
    exact hchunked

/-! ## A connection that ends -/

/-- Time passes: nothing is read, and what is waited for is not further away. -/
def passing (wait : C → Nat) : Guarantee C where
  rel e e' := W.unread e' = W.unread e ∧ wait e' ≤ wait e
  refl _ := ⟨rfl, Nat.le_refl _⟩
  trans h h' := ⟨h'.1.trans h.1, Nat.le_trans h'.2 h.2⟩

/-- `x` returns, and time passes. -/
def Passes {α : Type} (wait : C → Nat) (x : Prog C α) (P : α → C → Prop) : Prop :=
  ∀ e, ∃ a e', x.Returns e a e' ∧ (passing W wait).rel e e' ∧ P a e'

/-- The calls return, and the connection does not stall: it has something to
read after a while, or it goes down, when `wait` is 0. -/
structure Ends (wait : C → Nat) : Prop where
  available : ∀ e, ∃ a e', (net.available r).Returns e a e' ∧ (passing W wait).rel e e' ∧ (a > 0 → 0 < wait e') ∧
    (a = 0 → wait e' < wait e ∨ wait e' = 0)
  connected : Passes W wait (net.connected r) fun up e => up = true → 0 < wait e
  malloc : ∀ n, Passes W wait (net.malloc n) fun block _ => ∀ bs, block = some bs → bs.length = n
  delay : ∀ n, Passes W wait (net.delay n) fun _ _ => True
  write : ∀ bs, Passes W wait (stream.write bs) fun w _ => w ≤ bs.length
  getWriteError : Passes W wait stream.getWriteError fun _ _ => True
  clearWriteError : Passes W wait stream.clearWriteError fun _ _ => True
  read : ∀ e, W.unread e ≠ [] → ∃ b e', (net.read r).Returns e b e' ∧ W.unread e' = (W.unread e).tail
  readBytes : ∀ n e, ∃ bs e', (net.readBytes r n).Returns e bs e' ∧ bs.length ≤ n
  readLine : ∀ e, ∃ l e', (net.readStringUntil r 10).Returns e l e'
  stop : ∀ e, ∃ e', (net.stop r).Returns e () e'
  release : ∀ r' e, ∃ e', (net.release r').Returns e () e'

variable {W} {wait : C → Nat} (E : Ends W wait)

theorem Passes.outside_bind {α β : Type} {x : Prog C α} {P : α → C → Prop} (hx : Passes W wait x P)
    {k : α → Prog (Live C (HTTPClient C)) β} {e : C} {Q : β → C → Prop}
    (hk : ∀ a e', P a e' → ∃ b e'', (k a).Returns ⟨c, e'⟩ b ⟨c, e''⟩ ∧ (passing W wait).rel e' e'' ∧ Q b e'') :
    ∃ b e'', (outside x >>= k).Returns ⟨c, e⟩ b ⟨c, e''⟩ ∧ (passing W wait).rel e e'' ∧ Q b e'' := by
  obtain ⟨a, e', ha, hp, hP⟩ := hx e
  obtain ⟨b, e'', hb, hp', hQ⟩ := hk a e' hP
  exact ⟨b, e'', (returns_outside_bind ha).mpr hb, (passing W wait).trans hp hp', hQ⟩

theorem passes_pure {β : Type} {b : β} {e : C} {Q : β → C → Prop} (h : Q b e) :
    ∃ b' e', (pure b : Prog (Live C (HTTPClient C)) β).Returns ⟨c, e⟩ b' ⟨c, e'⟩ ∧ (passing W wait).rel e e' ∧ Q b' e' :=
  ⟨b, e, Prog.returns_pure.mpr ⟨rfl, rfl⟩, (passing W wait).refl e, h⟩

include E

theorem connected_ends (hc : c._client = some r) (e : C) :
    ∃ up e', (connected net).Returns ⟨c, e⟩ up ⟨c, e'⟩ ∧ (passing W wait).rel e e' ∧ (up = true → 0 < wait e') := by
  obtain ⟨a, e₁, ha, hp, hpos, _⟩ := E.available e
  rw [connected]
  simp only [returns_obj_bind, hc, returns_outside_bind ha]
  by_cases h : a > 0
  · exact ⟨true, e₁, by rw [if_pos h]; simp, hp, fun _ => hpos h⟩
  · obtain ⟨up, e₂, hup, hp', hwait⟩ := E.connected e₁
    refine ⟨up, e₂, ?_, (passing W wait).trans hp hp', hwait⟩
    rw [if_neg h, returns_outside]
    exact ⟨e₂, hup, rfl⟩

theorem writeLeft_ends {buff : Bytes} {w left : Int} (hw : 0 ≤ w) (hleft : 0 ≤ left) (hbuff : w + left ≤ buff.length) (e : C) :
    ∃ m e', (writeLeft net stream.write stream.getWriteError buff w left).Returns ⟨c, e⟩ m ⟨c, e'⟩ ∧
      (passing W wait).rel e e' ∧ True := by
  obtain ⟨rest, hrest⟩ := slice_some hw hleft hbuff
  rw [writeLeft, hrest]
  refine (E.delay 1).outside_bind fun _ e₁ _ => ?_
  refine (E.write rest).outside_bind fun w' e₂ _ => ?_
  generalize int32 w' = written
  dsimp only
  split
  · exact passes_pure trivial
  · refine E.getWriteError.outside_bind fun err e₃ _ => ?_
    split <;> exact passes_pure trivial

theorem passOn_ends {buff got : Bytes} (hbuff : got.length ≤ buff.length) (hlen : got.length < 2 ^ 31) (e : C) :
    ∃ m e', (passOn net stream.write stream.getWriteError stream.clearWriteError buff got got.length).Returns
        ⟨c, e⟩ m ⟨c, e'⟩ ∧ (passing W wait).rel e e' ∧ True := by
  rw [passOn]
  refine (E.write got).outside_bind fun w e₁ hw => ?_
  rw [show int32 (w : Int) = w from int32_eq (by omega) (by omega)]
  dsimp only
  split
  · refine E.getWriteError.outside_bind fun err e₂ _ => ?_
    split
    · refine E.clearWriteError.outside_bind fun _ e₃ _ => ?_
      exact writeLeft_ends E (by omega) (by omega) (by omega) e₃
    · exact writeLeft_ends E (by omega) (by omega) (by omega) e₂
  · refine E.getWriteError.outside_bind fun err e₂ _ => ?_
    split <;> exact passes_pure trivial

/-- A turn that reads leaves less to be read. -/
theorem copyTurn_ends {l : CopyState} {n : Nat} {e : C} (hc : c._client = some r) (hn : 0 < n) (hsize : n < 2 ^ 31)
    (hbuff : n ≤ l.buff.length) (hfull : ∀ bs e', (net.readBytes r n).Returns e bs e' → bs.length = n) :
    ∃ x e', (copyTurn net stream l n).Returns ⟨c, e⟩ x ⟨c, e'⟩ ∧
      ∀ l', x = .next l' → l'.buff.length = l.buff.length ∧ (W.unread e').length < (W.unread e).length := by
  obtain ⟨got, e₁, hread, _⟩ := E.readBytes n e
  have hgot := hfull got e₁ hread
  have hun := congrArg List.length (W.readBytes _ _ _ _ hread)
  rw [List.length_append] at hun
  obtain ⟨buff, hpoke, hlen⟩ := poke_zero (show got.length ≤ l.buff.length by omega)
  obtain ⟨m, e₂, hpass, hp₂, _⟩ := passOn_ends (c := c) E (show got.length ≤ buff.length by omega) (by omega) e₁
  obtain ⟨_, e₃, hdelay, hp₃, _⟩ := E.delay 0 e₂
  rw [hgot] at hpass
  cases m with
  | none =>
    refine ⟨.exit errorStreamWrite, e₂, ?_, fun l' h => nomatch h⟩
    rw [copyTurn, sizeT_natCast (by omega), returns_onClient_bind hc hread]
    simp only [hpoke]
    rw [Prog.returns_bind_of hpass]
    exact Prog.returns_pure.mpr ⟨rfl, rfl⟩
  | some k =>
    refine ⟨.next ⟨if l.len > 0 then l.len - n else l.len, int32 (l.bytesWritten + k), buff⟩, e₃, ?_, fun l' h => ?_⟩
    · rw [copyTurn, sizeT_natCast (by omega), returns_onClient_bind hc hread]
      simp only [hpoke]
      rw [Prog.returns_bind_of hpass]
      simp only [returns_outside_bind hdelay, Prog.returns_pure, and_true]
    obtain rfl := Turn.next.inj h
    refine ⟨hlen, ?_⟩
    rw [hp₃.1, hp₂.1]
    omega

theorem blockTurn_ends {e₀ : C} {size : Nat} {l : CopyState} {s : Live C (HTTPClient C)} (h : Taking W c e₀ size l s)
    (hc : c._client = some r) (hpos : 0 < size) (hsize : size < 2 ^ 31) (hbuff : l.buff.length = (blockSize size).toNat) :
    ∃ x t, (blockTurn net stream size (blockSize size) l).Returns s x t ∧
      match x with
      | .next l' => (Taking W c e₀ size l' t ∧ l'.buff.length = (blockSize size).toNat) ∧
        Prod.Lex (· < ·) (· < ·) ((W.unread t.env).length, wait t.env) ((W.unread s.env).length, wait s.env)
      | .exit _ => t.self = c := by
  obtain ⟨c', e⟩ := s
  obtain rfl : c = c' := h.self.symm
  obtain ⟨up, e₁, hcon, hp₁, hup⟩ := connected_ends E hc e
  have hlen := h.len
  have hbound := h.bound
  have hb := blockSize_range size
  obtain ⟨data, _, hdata⟩ := h.taken
  by_cases hgo : ¬ up = true ∨ ¬ (l.len > 0 ∨ l.len = -1)
  · refine ⟨.exit (blockResult size l.bytesWritten), ⟨c, e₁⟩, ?_, rfl⟩
    rw [blockTurn, Prog.returns_bind_of hcon, if_pos hgo]
    exact Prog.returns_pure.mpr ⟨rfl, rfl⟩
  have hlpos : 0 < l.len := by
    by_contra hnot
    exact hgo (.inr fun hl => by omega)
  have hwait₁ : 0 < wait e₁ := hup (Decidable.not_not.mp fun hdown => hgo (.inl hdown))
  obtain ⟨a, e₂, ha, hp₂, _, hidle⟩ := E.available e₁
  obtain ⟨_, ha₀, ha₁, hfull⟩ := W.available _ _ _ ha
  have hint : int32 (sizeT a) = a := int32_sizeT (by omega) ha₁
  rcases Int.lt_or_eq_of_le ha₀ with hsome | hzero
  · -- Something is there.
    have hrc := readCount_pos hsome hlpos hb.1
    obtain ⟨n, hn⟩ := Int.eq_ofNat_of_zero_le (Int.le_of_lt hrc.1)
    obtain ⟨x, e₃, hcopy, hx⟩ := copyTurn_ends (c := c) (l := l) (n := n) E hc (by omega) (by omega) (by omega)
      fun bs e' => hfull n bs e' (by omega)
    have hrun : (blockTurn net stream size (blockSize size) l).Returns ⟨c, e⟩ x ⟨c, e₃⟩ := by
      have ha' : sizeT a ≠ 0 := by
        rw [sizeT_eq ha₀ (by omega)]
        omega
      have hcount : (n : Int) ≠ 0 := by omega
      rw [blockTurn, Prog.returns_bind_of hcon, if_neg hgo, returns_onClient_bind hc ha]
      simp only [hint, hn]
      rw [if_neg ha', if_neg hcount]
      exact hcopy
    have htakes := blockTurn_takes W h hc hpos hsize hrun
    refine ⟨x, ⟨c, e₃⟩, hrun, ?_⟩
    cases x with
    | exit v => rfl
    | next l' =>
      obtain ⟨hbuff', hless⟩ := hx l' rfl
      refine ⟨⟨htakes, hbuff'.trans hbuff⟩, Prod.Lex.left _ _ ?_⟩
      show (W.unread e₃).length < (W.unread e).length
      rw [hp₂.1, hp₁.1] at hless
      exact hless
  · -- Nothing yet.
    obtain ⟨_, e₃, hdelay, hp₃, _⟩ := E.delay 1 e₂
    have hp := (passing W wait).trans hp₁ ((passing W wait).trans hp₂ hp₃)
    refine ⟨.next l, ⟨c, e₃⟩, ?_, ⟨h.quiet W hc fun _ => ⟨rfl, hp.1⟩, hbuff⟩, ?_⟩
    · rw [blockTurn, Prog.returns_bind_of hcon, if_neg hgo, returns_onClient_bind hc ha, ← hzero]
      simp only [show sizeT 0 = 0 from rfl, if_true, returns_outside_bind hdelay, Prog.returns_pure, and_self]
    · show Prod.Lex _ _ ((W.unread e₃).length, wait e₃) ((W.unread e).length, wait e)
      rw [hp.1]
      refine Prod.Lex.right _ ?_
      have := hidle hzero.symm
      have := hp₁.2
      have := hp₃.2
      omega

theorem writeToStreamDataBlock_ends {size : Nat} (hc : c._client = some r) (hpos : 0 < size) (hsize : size < 2 ^ 31)
    (e : C) : ∃ v e', (writeToStreamDataBlock net stream size).Returns ⟨c, e⟩ v ⟨c, e'⟩ := by
  obtain ⟨block, e₁, hmalloc, _, hblock⟩ := E.malloc (blockSize size).toNat e
  rw [writeToStreamDataBlock]
  simp only [returns_outside_bind hmalloc]
  cases block with
  | none => exact ⟨_, e₁, Prog.returns_pure.mpr ⟨rfl, rfl⟩⟩
  | some buff =>
    have loop : ∃ v s', (Prog.loop (blockTurn net stream size (blockSize size)) { len := size, buff := buff }).Returns
        ⟨c, e₁⟩ v s' ∧ s'.self = c := by
      refine Prog.loop_returns Prog.lex_wf
        (fun l s => Taking W c e₁ size l s ∧ l.buff.length = (blockSize size).toNat) (fun (_ : Int) s => s.self = c)
        (fun _ s => ((W.unread s.env).length, wait s.env)) ?_
        ⟨⟨rfl, Int.natCast_nonneg size, (Int.sub_zero _).symm, [], rfl, rfl⟩, hblock buff rfl⟩
      rintro l s ⟨hl, hbuff⟩
      obtain ⟨x, t, hx, ht⟩ := blockTurn_ends E hl hc hpos hsize hbuff
      exact ⟨x, t, hx, by cases x <;> exact ht⟩
    obtain ⟨v, ⟨_, e'⟩, hloop, rfl⟩ := loop
    exact ⟨v, e', hloop⟩

theorem chunkData_ends {l : ChunkState} {len : Int} (hc : c._client = some r) (hpos : len > 0) (hlen : len < 2 ^ 31) (e : C) :
    ∃ x e', (chunkData net stream l len).Returns ⟨c, e⟩ x ⟨c, e'⟩ := by
  obtain ⟨n, rfl⟩ := Int.eq_ofNat_of_zero_le (Int.le_of_lt hpos)
  obtain ⟨v, e₁, hblock⟩ := writeToStreamDataBlock_ends E hc (show 0 < n by omega) (by omega) e
  rw [chunkData]
  simp only [Prog.returns_bind_of hblock]
  by_cases hneg : v < 0
  · exact ⟨.exit (.error v), e₁, by rw [if_pos hneg]; exact Prog.returns_pure.mpr ⟨rfl, rfl⟩⟩
  obtain ⟨crlf, e₂, hread, hshort⟩ := E.readBytes 2 e₁
  by_cases hcrlf : crlf = [13, 10]
  · obtain ⟨_, e₃, hdelay, _⟩ := E.delay 0 e₂
    refine ⟨.next { l with ret := int32 (l.ret + v) }, e₃, ?_⟩
    rw [if_neg hneg, returns_onClient_bind hc hread, if_neg (by omega), if_neg (fun h => h hcrlf), returns_outside_bind hdelay]
    exact Prog.returns_pure.mpr ⟨rfl, rfl⟩
  · refine ⟨.exit (.error errorReadTimeout), e₂, ?_⟩
    rw [if_neg hneg, returns_onClient_bind hc hread, if_neg (by omega), if_pos hcrlf]
    exact Prog.returns_pure.mpr ⟨rfl, rfl⟩

omit E in
theorem lastChunk_ends {l : ChunkState} {s : Live C (HTTPClient C)} :
    ∃ x t, (lastChunk l).Returns s x t ∧ t.self._client = s.self._client := by
  rw [lastChunk]
  simp only [returns_obj_bind]
  split
  · simp only [returns_set_bind, returns_obj_bind]
    split <;> exact ⟨_, _, Prog.returns_pure.mpr ⟨rfl, rfl⟩, rfl⟩
  · simp only [returns_obj_bind]
    split <;> exact ⟨_, _, Prog.returns_pure.mpr ⟨rfl, rfl⟩, rfl⟩

/-- A turn of the chunk loop ends, and a chunk leaves less to be read. -/
theorem chunkTurn_ends {l : ChunkState} {s : Live C (HTTPClient C)} (hc : s.self._client = some r) (hsize : s.self._size ≤ 0) :
    ∃ x t, (chunkTurn net stream l).Returns s x t ∧
      match x with
      | .next _ => (t.self._client = some r ∧ t.self._size ≤ 0) ∧ (W.unread t.env).length < (W.unread s.env).length
      | .exit _ => t.self._client = some r := by
  -- What a turn that goes on has taken is known; that it goes on, or ends, is the run.
  suffices run : ∃ x t, (chunkTurn net stream l).Returns s x t ∧ t.self._client = some r by
    obtain ⟨x, t, hx, hclient⟩ := run
    refine ⟨x, t, hx, ?_⟩
    rcases chunkTurn_takes W hc hsize hx with ⟨_, rfl, _⟩ | ⟨_, _, rfl, _⟩ | ⟨line, data, hread, rfl, hself, _, hlen⟩
    · exact hclient
    · exact hclient
    · refine ⟨⟨hclient, by rw [hself]; exact hsize⟩, ?_⟩
      have hle := hread.length_le W
      simp only [List.length_append, List.length_cons] at hle
      omega
  obtain ⟨c, e⟩ := s
  obtain ⟨up, e₁, hcon, _, _⟩ := connected_ends E hc e
  obtain ⟨line, e₂, hline⟩ := E.readLine e₁
  cases up with
  | false =>
    refine ⟨.exit (.error errorConnectionLost), ⟨c, e₁⟩, ?_, hc⟩
    rw [chunkTurn, Prog.returns_bind_of hcon, if_pos (by decide)]
    exact Prog.returns_pure.mpr ⟨rfl, rfl⟩
  | true =>
  have hturn (x t) (h : (if line = [] then pure (.exit (.error errorReadTimeout)) else
      if chunkLen line > 0 then chunkData net stream { l with size := int32 (l.size + chunkLen line) } (chunkLen line)
      else lastChunk { l with size := int32 (l.size + chunkLen line) } :
        Prog (Live C (HTTPClient C)) (Turn ChunkState (Except Int Int))).Returns ⟨c, e₂⟩ x t) :
      (chunkTurn net stream l).Returns ⟨c, e⟩ x t := by
    rw [chunkTurn, Prog.returns_bind_of hcon, if_neg (by decide), returns_onClient_bind hc hline]
    exact h
  by_cases hnil : line = []
  · refine ⟨.exit (.error errorReadTimeout), ⟨c, e₂⟩, hturn _ _ ?_, hc⟩
    rw [if_pos hnil]
    exact Prog.returns_pure.mpr ⟨rfl, rfl⟩
  by_cases hlen : chunkLen line > 0
  · obtain ⟨x, e', hx⟩ := chunkData_ends E hc hlen (chunkLen_range line).2 e₂
    refine ⟨x, ⟨c, e'⟩, hturn _ _ ?_, hc⟩
    rw [if_neg hnil, if_pos hlen]
    exact hx
  · obtain ⟨x, t, hx, ht⟩ := lastChunk_ends (l := { l with size := int32 (l.size + chunkLen line) }) (s := ⟨c, e₂⟩)
    refine ⟨x, t, hturn _ _ ?_, ht.trans hc⟩
    rw [if_neg hnil, if_neg hlen]
    exact hx

/-! ## After the body -/

/-- What is available is unread. -/
theorem unread_of_available {e e' : C} {a : Int} (h : (net.available r).Returns e a e') (hpos : a > 0) :
    W.unread e' ≠ [] := by
  obtain ⟨_, _, _, hfull⟩ := W.available _ _ _ h
  obtain ⟨bs, e'', hread, _⟩ := E.readBytes 1 e'
  have hone := hfull 1 bs e'' (by omega) hread
  rw [W.readBytes _ _ _ _ hread]
  intro hnil
  rw [(List.append_eq_nil_iff.mp hnil).1] at hone
  exact absurd hone (by decide)

theorem drain_ends (hc : c._client = some r) (e : C) : ∃ e', (drain net).Returns ⟨c, e⟩ () ⟨c, e'⟩ := by
  have loop : ∃ u s', (drain net).Returns ⟨c, e⟩ u s' ∧ s'.self = c := by
    let I (_ : Unit) (s : Live C (HTTPClient C)) : Prop := s.self = c
    refine Prog.loop_returns Nat.lt_wfRel.wf I I (fun _ s => (W.unread s.env).length) ?_ rfl
    rintro _ ⟨c', e₁⟩ hself
    obtain rfl : c = c' := hself.symm
    obtain ⟨a, e₂, ha, hp, _⟩ := E.available e₁
    by_cases hpos : a > 0
    · have hne := unread_of_available E ha hpos
      obtain ⟨b, e₃, hread, hun⟩ := E.read e₂ hne
      refine ⟨.next (), ⟨_, e₃⟩, ?_, rfl, ?_⟩
      · rw [returns_onClient_bind hc ha, if_pos hpos, returns_onClient_bind hc hread]
        simp
      · have := List.length_pos_of_ne_nil hne
        show (W.unread e₃).length < (W.unread e₁).length
        rw [hun, ← hp.1, List.length_tail]
        omega
    · refine ⟨.exit (), ⟨_, e₂⟩, ?_, rfl⟩
      rw [returns_onClient_bind hc ha, if_neg hpos]
      simp
  obtain ⟨_, ⟨_, e'⟩, hloop, rfl⟩ := loop
  exact ⟨e', hloop⟩

theorem cleanUp_ends (hc : c._client = some r) (e : C) : ∃ e', (cleanUp net).Returns ⟨c, e⟩ () ⟨c, e'⟩ := by
  obtain ⟨a, e₁, ha, _⟩ := E.available e
  rw [cleanUp]
  simp only [returns_onClient_bind hc ha]
  split
  · exact drain_ends E hc e₁
  · exact ⟨e₁, Prog.returns_pure.mpr ⟨rfl, rfl⟩⟩

theorem close_ends (hc : c._client = some r) (e : C) : ∃ s', (close net true).Returns ⟨c, e⟩ () s' := by
  obtain ⟨e₁, hstop⟩ := E.stop e
  rw [close]
  simp only [returns_onClient_bind hc hstop, not_true_eq_false, if_false, returns_obj_bind]
  split
  · simp only [returns_set_bind, assignDeprecated, returns_obj_bind]
    split
    · exact ⟨_, Prog.returns_pure.mpr ⟨rfl, rfl⟩⟩
    · rename_i r' _
      obtain ⟨e₂, hrel⟩ := E.release r' e₁
      split
      · exact ⟨_, returns_outside.mpr ⟨e₂, hrel, rfl⟩⟩
      · exact ⟨_, Prog.returns_pure.mpr ⟨rfl, rfl⟩⟩
  · exact ⟨_, Prog.returns_pure.mpr ⟨rfl, rfl⟩⟩

theorem disconnect_ends (hc : c._client = some r) (e : C) : ∃ s', (disconnect net true).Returns ⟨c, e⟩ () s' := by
  obtain ⟨up, e₁, hcon, _⟩ := connected_ends E hc e
  rw [disconnect]
  simp only [Prog.returns_bind_of hcon]
  split
  · obtain ⟨e₂, hclean⟩ := cleanUp_ends E hc e₁
    simp only [Prog.returns_bind_of hclean, returns_obj_bind]
    split
    · exact ⟨_, Prog.returns_pure.mpr ⟨rfl, rfl⟩⟩
    · exact close_ends E hc e₂
  · exact ⟨_, Prog.returns_pure.mpr ⟨rfl, rfl⟩⟩

theorem returnError_ends {error : Int} (hc : c._client = some r) (e : C) :
    ∃ v s', (returnError net error).Returns ⟨c, e⟩ v s' := by
  obtain ⟨up, e₁, hcon, _⟩ := connected_ends E hc e
  obtain ⟨e₂, hstop⟩ := E.stop e₁
  rw [returnError]
  simp only [Prog.returns_ite, Prog.returns_bind_of hcon]
  by_cases hneg : error < 0
  · cases up with
    | true => exact ⟨error, ⟨c, e₂⟩, .inl ⟨hneg, .inl ⟨rfl, (returns_onClient_bind hc hstop).mpr (Prog.returns_pure.mpr ⟨rfl, rfl⟩)⟩⟩⟩
    | false => exact ⟨error, ⟨c, e₁⟩, .inl ⟨hneg, .inr ⟨by decide, Prog.returns_pure.mpr ⟨rfl, rfl⟩⟩⟩⟩
  · exact ⟨error, ⟨c, e⟩, .inr ⟨hneg, Prog.returns_pure.mpr ⟨rfl, rfl⟩⟩⟩

/-- On a connection that ends, the body is read or found to be no body. -/
theorem writeToStream_ends {s : Live C (HTTPClient C)} (hc : s.self._client = some r)
    (hte : s.self._transferEncoding = .chunked) (hsize : s.self._size ≤ 0) :
    ∃ v s', (writeToStream net (some stream)).Returns s v s' := by
  obtain ⟨c, e⟩ := s
  obtain ⟨up, e₁, hcon, _⟩ := connected_ends E hc e
  rw [writeToStream]
  simp only [Prog.returns_bind_of hcon]
  split
  · exact returnError_ends E hc e₁
  have loop : ∃ body t, (Prog.loop (chunkTurn net stream) {}).Returns ⟨c, e₁⟩ body t ∧ t.self._client = some r := by
    let I (_ : ChunkState) (s : Live C (HTTPClient C)) : Prop := s.self._client = some r ∧ s.self._size ≤ 0
    refine Prog.loop_returns Nat.lt_wfRel.wf I (fun _ s => s.self._client = some r)
      (fun _ s => (W.unread s.env).length) ?_ ⟨hc, hsize⟩
    rintro l s ⟨hs, hs'⟩
    obtain ⟨x, t, hx, ht⟩ := chunkTurn_ends E (l := l) hs hs'
    exact ⟨x, t, hx, by cases x <;> exact ht⟩
  obtain ⟨body, ⟨c', e'⟩, hloop, hc'⟩ := loop
  have hbody := readBody_chunked hte hloop
  simp only [Prog.returns_bind_of hbody]
  cases body with
  | error err => exact returnError_ends E hc' e'
  | ok n =>
    obtain ⟨s', hdis⟩ := disconnect_ends E hc' e'
    exact ⟨n, s', (Prog.returns_bind_of hdis).mpr (Prog.returns_pure.mpr ⟨rfl, rfl⟩)⟩

end HTTPClient

/-! ## The inputs that are judged rightly -/

namespace BodyDemo

theorem poll_counts {e e' : Host} {a : Int} (h : (connection.available 0).Returns e a e') : e'.unread = e.unread ∧ 0 ≤ a ∧
    a < 2 ^ 31 ∧ ∀ n bs e'', n ≤ a.toNat → (connection.readBytes 0 n).Returns e' bs e'' → bs.length = n := by
  have hpoll : poll e = (a, e') := Prog.returns_step.mp h
  rw [poll] at hpoll
  split at hpoll <;> obtain ⟨rfl, rfl⟩ := Prod.mk.inj hpoll
  · refine ⟨rfl, Int.natCast_nonneg _, by omega, fun n bs e'' hn hread => ?_⟩
    obtain ⟨rfl, _⟩ := Prod.mk.inj (Prog.returns_step.mp hread).symm
    rw [List.length_take]
    omega
  · refine ⟨rfl, Int.le_refl 0, by decide, fun n bs e'' hn hread => ?_⟩
    obtain ⟨rfl, _⟩ := Prod.mk.inj (Prog.returns_step.mp hread).symm
    rw [Nat.le_zero.mp hn]
    rfl

/-- The connection of the example gives its bytes in order. -/
def wire : Wire connection 0 stream where
  unread := Host.unread
  available _ _ _ := poll_counts
  readBytes n e bs e' h := by
    obtain ⟨rfl, rfl⟩ := Prod.mk.inj (Prog.returns_step.mp h).symm
    exact (List.take_append_drop n e.unread).symm
  readLine e l e' h := by
    obtain ⟨rfl, rfl⟩ := Prod.mk.inj (Prog.returns_step.mp h).symm
    exact ⟨firstLine_not_mem e.unread, line_parts e.unread⟩
  connected := .pure
  malloc _ := .pure
  delay _ := .pure
  write _ := .step fun _ => rfl
  getWriteError := .pure
  clearWriteError := .pure

theorem wire_prompt : wire.Prompt := by
  intro e l e' h
  obtain ⟨rfl, rfl⟩ := Prod.mk.inj (Prog.returns_step.mp h).symm
  exact ⟨rfl, rfl⟩

/-- What the example's connection makes of an input that is taken. -/
theorem properInput_of_honest {s content rest : Bytes} {ls : List ChunkLine}
    (h : HTTPClient.Honest wire ⟨client, { unread := s }⟩) (ht : Taken s ls content rest)
    (hlen : 0 ≤ int32 content.length) : (∀ l ∈ ls, l.Proper) ∧ content.length < 2 ^ 31 := by
  obtain ⟨t, u, s', hcon, hbody, hun, hrun, _⟩ :=
    HTTPClient.writeToStream_taken delivery (c := client) (e := { unread := s }) rfl rfl (by decide) trivial rfl ht
  have hrange : int32 content.length < 2 ^ 31 := int32_lt _
  generalize int32 content.length = m at hlen hbody hrun hrange
  obtain ⟨t', u', body, hcon', hbody', hsplit, hchunked⟩ := h m s' hrun hlen
  obtain ⟨_, rfl⟩ := hcon.det hcon'
  obtain ⟨_, rfl⟩ := hbody.det hbody'
  have hrest : wire.unread u.env = rest := hun
  have hs : s = body ++ rest := by
    rw [← hrest]
    exact hsplit
  obtain ⟨hproper, hcontent⟩ := ht.proper hs hchunked (by omega)
  exact ⟨hproper, by omega⟩

end BodyDemo

namespace HTTPClient

/-- **No malformed body is reported as complete, exactly on the inputs without
a lax size.** On every connection that delivers the input in order and each of
its lines in time, whatever its pace otherwise and wherever it breaks off, what
is reported as complete is a chunked body; and where the connection ends there
is a report. -/
theorem writeToStream_honest_iff (input : Bytes) :
    (∀ (C : Type) (net : Connection C) (r : Ref) (stream : AppStream C) (W : Wire net r stream) (s : Live C (HTTPClient C)),
      s.self._client = some r → s.self._transferEncoding = .chunked → s.self._size ≤ 0 → W.unread s.env = input →
      (W.Prompt → Honest W s) ∧ ∀ wait, Ends W wait → ∃ v s', (writeToStream net (some stream)).Returns s v s') ↔
    ProperInput input := by
  constructor
  · intro h ls content rest ht hlen
    exact BodyDemo.properInput_of_honest
      ((h _ BodyDemo.connection 0 BodyDemo.stream BodyDemo.wire ⟨BodyDemo.client, { unread := input }⟩
        rfl rfl (by decide : (-1 : Int) ≤ 0) rfl).1 BodyDemo.wire_prompt) ht hlen
  · rintro h C net r stream W s hc hte hsize rfl
    exact ⟨fun hP => writeToStream_honest W hP hc hte hsize h, fun _ E => writeToStream_ends E hc hte hsize⟩

/-- A line without a size is read as the end of the body. -/
theorem xyz_complete : ¬ Honest BodyDemo.wire ⟨BodyDemo.client, { unread := bytes "xyz\n" }⟩ := by
  intro h
  have ht : Taken (bytes "xyz\n") [⟨bytes "xyz", true⟩] [] [] := @Taken.last (bytes "xyz\n") (by decide) (by decide)
  obtain ⟨hproper, _⟩ := BodyDemo.properInput_of_honest h ht (by decide)
  exact absurd (hproper _ (List.mem_singleton.mpr rfl)).2.1 (by decide)

end HTTPClient

end FEmbed
