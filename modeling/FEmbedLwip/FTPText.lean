/-
Text over a data connection: `writeLine` puts a CR before each LF that has none,
and `readLine` on the other side takes it away.

The conversion looks back at one byte, and a call of `writeLine` starts without
one: text that is cut between a CR and its LF gets a CR too many.
-/
import FEmbedLwip.FTPLines

namespace FEmbed.FTPClientBase

open Live

variable {σ : Type} {p : Platform σ} {fd : Int} {sent : σ → List Bytes}

/-! ## The text on the connection -/

/-- A text behind `lc`, with a CR before each LF that has none. -/
def lfToCrlf : UInt8 → Bytes → Bytes
  | _, [] => []
  | lc, b :: text => (if b = 10 ∧ lc ≠ 13 then [13, b] else [b]) ++ lfToCrlf b text

theorem lfToCrlf_append (lc : UInt8) (a b : Bytes) : lfToCrlf lc (a ++ b) = lfToCrlf lc a ++ lfToCrlf (a.getLastD lc) b := by
  induction a generalizing lc with
  | nil => rfl
  | cons x a ih =>
    rw [List.cons_append, lfToCrlf, lfToCrlf, ih, List.append_assoc, List.getLastD_cons]

theorem getLastD_append {α : Type} (a b : List α) (d : α) : (a ++ b).getLastD d = b.getLastD (a.getLastD d) := by
  induction a generalizing d with
  | nil => rfl
  | cons x a ih => rw [List.cons_append, List.getLastD_cons, List.getLastD_cons, ih]

theorem lfToCrlf_congr {lc lc' : UInt8} {text : Bytes} (h : text.head? = some 10 → (lc = 13 ↔ lc' = 13)) :
    lfToCrlf lc text = lfToCrlf lc' text := by
  cases text with
  | nil => rfl
  | cons b text =>
    have hcr : (b = 10 ∧ lc ≠ 13) ↔ (b = 10 ∧ lc' ≠ 13) := and_congr_right fun hb => not_congr (h (by rw [hb]; rfl))
    rw [lfToCrlf, lfToCrlf, if_congr hcr rfl rfl]

theorem lfToCrlf_of_not_mem {lc : UInt8} {t : Bytes} (ht : 10 ∉ t) : lfToCrlf lc t = t := by
  induction t generalizing lc with
  | nil => rfl
  | cons b t ih =>
    rw [List.mem_cons, not_or] at ht
    rw [lfToCrlf, if_neg (fun h => ht.1 h.1.symm), ih ht.2]
    rfl

/-- A line that ends in LF alone gets its CR. -/
theorem lfToCrlf_lf {t rest : Bytes} (ht : 10 ∉ t) (hcr : 13 ∉ t) : lfToCrlf 0 (t ++ 10 :: rest) = t ++ 13 :: 10 :: lfToCrlf 0 rest := by
  have hlast : t.getLastD 0 ≠ 13 := by
    intro hlast
    have hmem : t.getLastD 0 ∈ 0 :: t := List.getLastD_mem_cons
    rw [hlast, List.mem_cons] at hmem
    exact hmem.elim (by decide) hcr
  rw [lfToCrlf_append, lfToCrlf_of_not_mem ht, lfToCrlf, if_pos ⟨rfl, hlast⟩, lfToCrlf_congr fun _ => show (10 : UInt8) = 13 ↔ 0 = 13 by decide]
  rfl

/-- The reader's conversion is the inverse. -/
theorem crlfToLf_lfToCrlf {text : Bytes} (hcr : 13 ∉ text) : crlfToLf (lfToCrlf 0 text) = text := by
  suffices h : ∀ lc : UInt8, lc ≠ 13 → crlfToLf (lfToCrlf lc text) = text from h 0 (by decide)
  induction text with
  | nil => exact fun _ _ => rfl
  | cons b text ih =>
    rintro lc hlc
    rw [List.mem_cons, not_or] at hcr
    have hb : b ≠ 13 := fun h => hcr.1 h.symm
    rw [lfToCrlf]
    split
    · rename_i hlf
      obtain ⟨rfl, _⟩ := hlf
      rw [List.cons_append, List.singleton_append, crlfToLf, ih hcr.2 10 hb]
    · rw [List.singleton_append, crlfToLf_cons (.inl hb), ih hcr.2 b hb]

/-- The lines of the text fit when they have room for a CR and two bytes more. -/
theorem lineFits_lfToCrlf {max : Nat} {text : Bytes} (hcr : 13 ∉ text) (hfit : ∀ line ∈ textLines text, line.length ≤ max - 3) :
    ∀ line ∈ textLines (lfToCrlf 0 text), LineFits max line := by
  induction hlines : textLines text generalizing text with
  | nil =>
    have hempty : text = [] := by rw [← textLines_flatten text, hlines]; rfl
    rw [hempty]
    exact nofun
  | cons line lines ih =>
    rcases stream_cases text with rfl | ⟨hne, hno⟩ | ⟨t, rest, ht, rfl⟩
    · exact nofun
    · have hlen := hfit text (by rw [textLines_last hno hne]; exact List.mem_cons_self)
      have := List.length_pos_iff.mpr hne
      rw [lfToCrlf_of_not_mem hno, textLines_last hno hne]
      simp only [List.mem_singleton, forall_eq]
      exact (lineFits_last hno).mpr (by omega)
    · rw [textLines_lf ht] at hfit hlines
      rw [List.mem_append, List.mem_cons, not_or, not_or] at hcr
      have hlen := hfit _ List.mem_cons_self
      rw [List.length_append, List.length_singleton] at hlen
      have hcrlf : 10 ∉ t ++ [13] := by simpa using ht
      rw [lfToCrlf_lf ht hcr.1, List.append_cons, textLines_lf hcrlf]
      refine List.forall_mem_cons.mpr ⟨lineFits_lf.mpr ⟨by simp, ?_⟩,
        ih hcr.2.2 (fun line hline => hfit line (List.mem_cons_of_mem _ hline)) (List.cons.inj hlines).2⟩
      rw [List.length_append, List.length_singleton]
      omega

/-- `lwip_write` takes the blocks whole. -/
structure Accepts (net : Lwip σ) (fd : Int) (sent : σ → List Bytes) : Prop where
  fd_nonneg : 0 ≤ fd
  setsockopt : ∀ o e, sent (net.setsockopt fd o e).2 = sent e
  write : ∀ bs e, bs.length ≤ ftplibBufsiz → (net.write fd bs e).1 = bs.length ∧ sent (net.write fd bs e).2 = sent e ++ [bs]

/-- A `WRITE` object: blocks with the start of a text are sent, and `block` is in its buffer. -/
structure Writing (fd : Int) (sent : σ → List Bytes) (before : List Bytes) (text block : Bytes) (s : Live σ FTPClientBase) : Prop where
  socketFd : s.self.socketFd = fd
  dir : s.self.dir = .write
  size : s.self.buf.length = ftplibBufsiz
  buffered : s.self.buf.take block.length = block
  bound : block.length ≤ ftplibBufsiz
  blocks : ∃ blocks, sent s.env = before ++ blocks ∧ (∀ b ∈ blocks, b.length ≤ ftplibBufsiz) ∧ blocks.flatten ++ block = text

theorem sendBlock_returns (hp : Accepts p.lwip fd sent) {before : List Bytes} {text block : Bytes} {s : Live σ FTPClientBase}
    (h : Writing fd sent before text block s) : ∃ t, (sendBlock p block.length).Returns s true t ∧ Writing fd sent before text [] t := by
  obtain ⟨hfd, hdir, hsize, hblock, hbound, blocks, hsent, hshort, htext⟩ := h
  obtain ⟨hrc, hmore⟩ := hp.write block (p.lwip.setsockopt fd (.sndTimeo s.self.soTimeout.1 s.self.soTimeout.2) s.env).2 hbound
  have hlen : int32 (sizeT (block.length : Int)) = block.length := by
    have : block.length ≤ 512 := hbound
    exact int32_sizeT (by omega) (by omega)
  have hwrite : (tcp (TCPClient.write p.lwip block)).Returns s (sizeT block.length)
      ⟨s.self, (p.lwip.write fd block (p.lwip.setsockopt fd (.sndTimeo s.self.soTimeout.1 s.self.soTimeout.2) s.env).2).2⟩ := by
    subst hfd
    have := hp.fd_nonneg
    have hopen : ¬ s.self.socketFd < 0 := by omega
    refine Prog.returns_zoom.mpr ⟨⟨s.self.toTCPClient, _⟩, TCPClient.write_returns.mpr (.inr ⟨hopen, ?_, rfl⟩), rfl⟩
    rw [TCPClient.atWrite, hrc, if_neg (by omega)]
  refine ⟨⟨s.self, (p.lwip.write fd block (p.lwip.setsockopt fd (.sndTimeo s.self.soTimeout.1 s.self.soTimeout.2) s.env).2).2⟩,
    ?_, hfd, hdir, hsize, rfl, Nat.zero_le _, blocks ++ [block], ?_, ?_, ?_⟩
  · rw [sendBlock, returns_obj_bind, hblock, Prog.returns_bind_of hwrite, hlen]
    exact Prog.returns_pure.mpr ⟨by simp, rfl⟩
  · show sent (p.lwip.write fd block _).2 = _
    rw [hmore, hp.setsockopt, hsent, List.append_assoc]
  · simpa [or_imp, forall_and] using ⟨hshort, hbound⟩
  · simpa using htext

theorem flushFull_returns (hp : Accepts p.lwip fd sent) {before : List Bytes} {text block : Bytes} {s : Live σ FTPClientBase}
    (h : Writing fd sent before text block s) : ∃ block' t, (flushFull p block.length).Returns s (some block'.length) t ∧
      Writing fd sent before text block' t ∧ block'.length < ftplibBufsiz := by
  by_cases hfull : block.length = ftplibBufsiz
  · obtain ⟨t, hsend, ht⟩ := sendBlock_returns hp h
    refine ⟨[], t, ?_, ht, by decide⟩
    rw [flushFull, if_pos hfull, Prog.returns_bind_of hsend]
    exact Prog.returns_pure.mpr ⟨rfl, rfl⟩
  · refine ⟨block, s, ?_, h, Nat.lt_of_le_of_ne h.bound hfull⟩
    rw [flushFull, if_neg hfull]
    exact Prog.returns_pure.mpr ⟨rfl, rfl⟩

theorem putByte_returns {before : List Bytes} {text block : Bytes} {b : UInt8} {s : Live σ FTPClientBase}
    (h : Writing fd sent before text block s) (hroom : block.length < ftplibBufsiz) :
    ∃ t, (putByte block.length b).Returns s (block ++ [b]).length t ∧ Writing fd sent before (text ++ [b]) (block ++ [b]) t := by
  obtain ⟨hfd, hdir, hsize, hblock, hbound, blocks, hsent, hshort, htext⟩ := h
  obtain ⟨buf, hpoke⟩ : ∃ buf, poke s.self.buf block.length [b] = some buf := ⟨_, poke_eq_some (by
    rw [hsize, List.length_singleton]
    omega)⟩
  have htake := poke_take hpoke
  rw [hblock, ← List.length_append] at htake
  refine ⟨⟨{ s.self with buf := buf }, s.env⟩, ?_, hfd, hdir, (poke_length hpoke).trans hsize, htake, ?_, blocks, hsent, hshort, ?_⟩
  · rw [putByte, returns_obj_bind, hpoke, List.length_append]
    dsimp only
    rw [returns_set_bind]
    exact Prog.returns_pure.mpr ⟨rfl, rfl⟩
  · rw [List.length_append]
    exact hroom
  · rw [← List.append_assoc, htext]

theorem putCr_returns (hp : Accepts p.lwip fd sent) (lc b : UInt8) {before : List Bytes} {text block : Bytes} {s : Live σ FTPClientBase}
    (h : Writing fd sent before text block s) : ∃ block' t, (putCr p block.length lc b).Returns s (some block'.length) t ∧
      Writing fd sent before (text ++ if b = 10 ∧ lc ≠ 13 then [13] else []) block' t := by
  by_cases hcr : b = 10 ∧ lc ≠ 13
  · obtain ⟨block', t, hflush, ht, hroom⟩ := flushFull_returns hp h
    obtain ⟨u, hput, hu⟩ := putByte_returns (b := 13) ht hroom
    refine ⟨block' ++ [13], u, ?_, by rwa [if_pos hcr]⟩
    rw [putCr, if_pos hcr, Prog.returns_bind_of hflush]
    dsimp only
    rw [Prog.returns_bind_of hput]
    exact Prog.returns_pure.mpr ⟨rfl, rfl⟩
  · refine ⟨block, s, ?_, by rwa [if_neg hcr, List.append_nil]⟩
    rw [putCr, if_neg hcr]
    exact Prog.returns_pure.mpr ⟨rfl, rfl⟩

/-- The loop: the text is sent or in the buffer. -/
theorem writeText_returns (hp : Accepts p.lwip fd sent) (ubp : Bytes) (lc : UInt8) {before : List Bytes} {text block : Bytes}
    {s : Live σ FTPClientBase} (h : Writing fd sent before text block s) :
    ∃ block' t, (writeText p ubp block.length lc).Returns s (some block'.length) t ∧
      Writing fd sent before (text ++ lfToCrlf lc ubp) block' t := by
  induction ubp generalizing text block lc s with
  | nil => exact ⟨block, s, Prog.returns_pure.mpr ⟨rfl, rfl⟩, by rwa [lfToCrlf, List.append_nil]⟩
  | cons b ubp ih =>
    obtain ⟨block₁, s₁, hcr, h₁⟩ := putCr_returns hp lc b h
    obtain ⟨block₂, s₂, hflush, h₂, hroom⟩ := flushFull_returns hp h₁
    obtain ⟨s₃, hput, h₃⟩ := putByte_returns (b := b) h₂ hroom
    obtain ⟨block', t, hmore, ht⟩ := ih b h₃
    refine ⟨block', t, ?_, ?_⟩
    · rw [writeText, Prog.returns_bind_of hcr]
      dsimp only
      rw [Prog.returns_bind_of hflush]
      dsimp only
      rw [Prog.returns_bind_of hput]
      exact hmore
    · have hconv : text ++ lfToCrlf lc (b :: ubp) = text ++ (if b = 10 ∧ lc ≠ 13 then [13] else []) ++ [b] ++ lfToCrlf b ubp := by
        rw [lfToCrlf]
        split <;> simp
      rwa [hconv]

/-- A `WRITE` object, and the blocks that were sent. -/
structure Writer (fd : Int) (s : Live σ FTPClientBase) : Prop where
  socketFd : s.self.socketFd = fd
  dir : s.self.dir = .write
  size : s.self.buf.length = ftplibBufsiz

/-- **`writeLine` sends the text** with its CRs, in blocks of the size of the buffer at most. -/
theorem writeLine_returns (hp : Accepts p.lwip fd sent) (text : Bytes) {s : Live σ FTPClientBase} (hs : Writer fd s) :
    ∃ t blocks, (writeLine p text).Returns s text.length t ∧ Writer fd t ∧ sent t.env = sent s.env ++ blocks ∧
      (∀ b ∈ blocks, b.length ≤ ftplibBufsiz) ∧ blocks.flatten = lfToCrlf 0 text := by
  have hstart : Writing fd sent (sent s.env) [] [] s :=
    ⟨hs.socketFd, hs.dir, hs.size, rfl, Nat.zero_le _, [], (List.append_nil _).symm, nofun, rfl⟩
  obtain ⟨block, t, htext, ht⟩ := writeText_returns hp text 0 hstart
  have htext : (writeText p text 0 0).Returns s (some block.length) t := htext
  have hloop {r : Int} {u} : (writeLine p text).Returns s r u ↔ (if block.length = 0 then return text.length else do
      return if ← sendBlock p block.length then text.length else -1 : Prog (Live σ FTPClientBase) Int).Returns t r u := by
    rw [writeLine, returns_obj_bind, if_neg (not_not.mpr hs.dir), Prog.returns_bind_of htext]
  by_cases hempty : block.length = 0
  · obtain ⟨blocks, hsent, hshort, hall⟩ := ht.blocks
    rw [List.length_eq_zero_iff.mp hempty, List.append_nil] at hall
    refine ⟨t, blocks, hloop.mpr ?_, ⟨ht.socketFd, ht.dir, ht.size⟩, hsent, hshort, hall⟩
    rw [if_pos hempty]
    exact Prog.returns_pure.mpr ⟨rfl, rfl⟩
  · obtain ⟨u, hsend, hu⟩ := sendBlock_returns hp ht
    obtain ⟨blocks, hsent, hshort, hall⟩ := hu.blocks
    rw [List.append_nil] at hall
    refine ⟨u, blocks, hloop.mpr ?_, ⟨hu.socketFd, hu.dir, hu.size⟩, hsent, hshort, hall⟩
    rw [if_neg hempty, Prog.returns_bind_of hsend]
    exact Prog.returns_pure.mpr ⟨rfl, rfl⟩

/-- **A text is read as it was written**, when its lines leave room for three
bytes in the reader's buffer. -/
theorem writeLine_readLines {τ : Type} {q : Platform τ} {fd' : Int} {unread : τ → Bytes} (hp : Accepts p.lwip fd sent)
    (hq : Feeds q.lwip fd' unread) (text : Bytes) {s : Live σ FTPClientBase} (hs : Writer fd s) :
    ∃ t blocks, (writeLine p text).Returns s text.length t ∧ sent t.env = sent s.env ++ blocks ∧
      (∀ b ∈ blocks, b.length ≤ ftplibBufsiz) ∧ blocks.flatten = lfToCrlf 0 text ∧
      (13 ∉ text → ∀ max out u, 2 ≤ max → out.length = max → (∀ line ∈ textLines text, line.length ≤ max - 3) →
        Reader fd' unread blocks.flatten u → ∃ n rs r v, (readLines q max (n + 1) out).Returns u (rs ++ [r]) v ∧ r.1 = -1 ∧
          (∀ x ∈ rs, 0 ≤ x.1) ∧ (rs.map fun x => x.2.take x.1.toNat).flatten = text) := by
  obtain ⟨t, blocks, hcall, _, hsent, hshort, hblocks⟩ := writeLine_returns hp text hs
  refine ⟨t, blocks, hcall, hsent, hshort, hblocks, fun hcr max out u hmax hout hfit hu => ?_⟩
  rw [hblocks] at hu
  obtain ⟨rs, r, v, hcalls, hlast, hgives⟩ := readLines_until hq hu hmax hout (lineFits_lfToCrlf hcr hfit)
  refine ⟨_, rs, r, v, hcalls, hlast, gives_nonneg hgives, ?_⟩
  have htaken : (rs.map fun x => x.2.take x.1.toNat) = (textLines (lfToCrlf 0 text)).map shown :=
    map_of_gives hgives fun x line _ hx => by
      have hroom := congrArg (List.take (shown line).length) hx.2
      rw [List.take_take, Nat.min_eq_left (Nat.le_succ _), List.take_left] at hroom
      rw [hx.1, Int.toNat_natCast, hroom]
  rw [htaken, crlfToLf_textLines, crlfToLf_lfToCrlf hcr]

/-! ## A text in pieces -/

/-- Calls of `writeLine` with the pieces of a text: what they return. -/
def writeLines (p : Platform σ) : List Bytes → Prog (Live σ FTPClientBase) (List Int)
  | [] => return []
  | piece :: pieces => do
    let r ← writeLine p piece
    return r :: (← writeLines p pieces)

/-- A CR ends one piece and its LF begins another. -/
def CutsCrlf (pieces : List Bytes) : Prop :=
  ∃ ps qs, pieces = ps ++ qs ∧ ps.flatten.getLast? = some 13 ∧ qs.flatten.head? = some 10

theorem writeLines_returns (hp : Accepts p.lwip fd sent) (pieces : List Bytes) {s : Live σ FTPClientBase} (hs : Writer fd s) :
    ∃ t blocks, (writeLines p pieces).Returns s (pieces.map fun piece => (piece.length : Int)) t ∧ sent t.env = sent s.env ++ blocks ∧
      blocks.flatten = (pieces.map (lfToCrlf 0)).flatten := by
  induction pieces generalizing s with
  | nil => exact ⟨s, [], Prog.returns_pure.mpr ⟨rfl, rfl⟩, (List.append_nil _).symm, rfl⟩
  | cons piece pieces ih =>
    obtain ⟨t, blocks, hcall, ht, hsent, _, hblocks⟩ := writeLine_returns hp piece hs
    obtain ⟨u, blocks', hcalls, hsent', hblocks'⟩ := ih ht
    refine ⟨u, blocks ++ blocks', ?_, by rw [hsent', hsent, List.append_assoc], ?_⟩
    · rw [writeLines, Prog.returns_bind_of hcall, Prog.returns_bind_of hcalls]
      exact Prog.returns_pure.mpr ⟨rfl, rfl⟩
    · rw [List.flatten_append, hblocks, hblocks', List.map_cons, List.flatten_cons]

/-- A piece that begins with LF gets a CR, also where the text before it ends in one. -/
theorem lfToCrlf_piece (lc : UInt8) (piece : Bytes) : lfToCrlf 0 piece = lfToCrlf lc piece ∧ ¬ (lc = 13 ∧ piece.head? = some 10) ∨
    (lc = 13 ∧ piece.head? = some 10) ∧ (lfToCrlf 0 piece).length = (lfToCrlf lc piece).length + 1 := by
  by_cases hcut : lc = 13 ∧ piece.head? = some 10
  · obtain ⟨rfl, hhead⟩ := hcut
    refine .inr ⟨⟨rfl, hhead⟩, ?_⟩
    obtain ⟨text, rfl⟩ := List.head?_eq_some_iff.mp hhead
    rw [lfToCrlf, lfToCrlf, if_pos (by decide), if_neg (by decide), List.length_append, List.length_append]
    simp only [List.length_cons, List.length_nil]
    omega
  · refine .inl ⟨lfToCrlf_congr fun hhead => ?_, hcut⟩
    exact ⟨fun h => absurd h (by decide), fun hlc => absurd ⟨hlc, hhead⟩ hcut⟩

theorem length_pieces (lc : UInt8) (pieces : List Bytes) :
    (lfToCrlf lc pieces.flatten).length ≤ ((pieces.map (lfToCrlf 0)).flatten).length := by
  induction pieces generalizing lc with
  | nil => exact Nat.le_refl _
  | cons piece pieces ih =>
    have hrest := ih (piece.getLastD lc)
    rw [List.flatten_cons, lfToCrlf_append, List.map_cons, List.flatten_cons, List.length_append, List.length_append]
    rcases lfToCrlf_piece lc piece with ⟨h, _⟩ | ⟨_, h⟩
    · rw [h]
      omega
    · omega

/-- The pieces are converted as their text is unless a piece that begins with LF
comes after a CR, which the text before them can end in. -/
theorem pieces_iff (lc : UInt8) (pieces : List Bytes) : (pieces.map (lfToCrlf 0)).flatten = lfToCrlf lc pieces.flatten ↔
    ∀ ps qs, pieces = ps ++ qs → ¬ (ps.flatten.getLastD lc = 13 ∧ qs.flatten.head? = some 10) := by
  induction pieces generalizing lc with
  | nil =>
    refine ⟨fun _ ps qs h => ?_, fun _ => rfl⟩
    obtain ⟨rfl, rfl⟩ := List.append_eq_nil_iff.mp h.symm
    exact fun h => nomatch h.2
  | cons piece pieces ih =>
    have hlen := length_pieces (piece.getLastD lc) pieces
    rw [List.flatten_cons, lfToCrlf_append, List.map_cons, List.flatten_cons]
    constructor
    · rintro heq
      have htotal := congrArg List.length heq
      rw [List.length_append, List.length_append] at htotal
      rcases lfToCrlf_piece lc piece with ⟨hpiece, hcut⟩ | ⟨_, h⟩
      · rw [hpiece] at heq
        have hrest := (ih _).mp (List.append_cancel_left heq)
        rintro ps qs hsplit
        cases ps with
        | nil =>
          obtain rfl := (List.nil_append qs).symm.trans hsplit.symm
          rintro ⟨hlc, hhead⟩
          cases piece with
          | nil => exact hrest [] pieces rfl ⟨hlc, hhead⟩
          | cons b piece => exact hcut ⟨hlc, hhead⟩
        | cons _ ps =>
          obtain ⟨rfl, hps⟩ := List.cons.inj hsplit
          rw [List.flatten_cons, getLastD_append]
          exact hrest ps qs hps
      · omega
    · rintro hnone
      have hrest := (ih (piece.getLastD lc)).mpr fun ps qs hsplit => by
        have := hnone (piece :: ps) qs (congrArg (List.cons piece) hsplit)
        rwa [List.flatten_cons, getLastD_append] at this
      rcases lfToCrlf_piece lc piece with ⟨hpiece, _⟩ | ⟨⟨hlc, hhead⟩, _⟩
      · rw [hpiece, hrest]
      · refine absurd ⟨hlc, ?_⟩ (hnone [] (piece :: pieces) rfl)
        rw [List.flatten_cons, List.head?_append, hhead]
        rfl

theorem cutsCrlf_iff {pieces : List Bytes} : (pieces.map (lfToCrlf 0)).flatten = lfToCrlf 0 pieces.flatten ↔ ¬ CutsCrlf pieces := by
  have hlast (t : Bytes) : t.getLastD 0 = 13 ↔ t.getLast? = some 13 := by
    rw [List.getLastD_eq_getLast?]
    cases t.getLast? with
    | none => decide
    | some b => simp
  simp only [pieces_iff, hlast, CutsCrlf, not_exists, not_and]

/-- **Pieces are sent as their text is** unless one ends between a CR and its LF. -/
theorem writeLines_iff (hp : Accepts p.lwip fd sent) (pieces : List Bytes) {s : Live σ FTPClientBase} (hs : Writer fd s) :
    (∃ rs r t u blocks blocks', (writeLines p pieces).Returns s rs t ∧ (writeLine p pieces.flatten).Returns s r u ∧
      sent t.env = sent s.env ++ blocks ∧ sent u.env = sent s.env ++ blocks' ∧ blocks.flatten = blocks'.flatten) ↔ ¬ CutsCrlf pieces := by
  obtain ⟨t, blocks, hcalls, hsent, hblocks⟩ := writeLines_returns hp pieces hs
  obtain ⟨u, blocks', hcall, _, hsent', _, hblocks'⟩ := writeLine_returns hp pieces.flatten hs
  rw [← cutsCrlf_iff, ← hblocks, ← hblocks']
  constructor
  · rintro ⟨rs, r, t', u', bs, bs', hcalls', hcall', hsent₁, hsent₂, heq⟩
    obtain ⟨_, rfl⟩ := hcalls.det hcalls'
    obtain ⟨_, rfl⟩ := hcall.det hcall'
    rw [hsent] at hsent₁
    rw [hsent'] at hsent₂
    rw [List.append_cancel_left hsent₁, List.append_cancel_left hsent₂, heq]
  · exact fun heq => ⟨_, _, t, u, blocks, blocks', hcalls, hcall, hsent, hsent', heq⟩

/-! ## On the wire -/

namespace Wire

theorem peer_accepts (k : Nat) : Accepts (peer k).lwip 3 Peer.sent where
  fd_nonneg := by decide
  setsockopt _ _ := rfl
  write _ _ _ := ⟨rfl, rfl⟩

/-- A `WRITE` object on socket 3. -/
def writer : Live Peer FTPClientBase := ⟨fresh { socketFd := 3 } .write, { unread := [] }⟩

theorem writer_writer : Writer 3 writer := ⟨rfl, rfl, List.length_replicate⟩

/-- Two lines, and a reader that gets three bytes at a time. -/
theorem writeLine_readLines_two : ∃ t blocks, (writeLine (peer 2) (bytes "a\nbc\n")).Returns writer 5 t ∧ t.env.sent = blocks ∧
    blocks.flatten = bytes "a\r\nbc\r\n" ∧
    ∃ n rs r v, (readLines (peer 2) 6 (n + 1) (List.replicate 6 1)).Returns (control (bytes "a\r\nbc\r\n")) (rs ++ [r]) v ∧ r.1 = -1 ∧
      (∀ x ∈ rs, 0 ≤ x.1) ∧ (rs.map fun x => x.2.take x.1.toNat).flatten = bytes "a\nbc\n" := by
  obtain ⟨t, blocks, hcall, hsent, _, hblocks, hread⟩ :=
    writeLine_readLines (peer_accepts 2) (peer_feeds (k := 2) (by decide)) (bytes "a\nbc\n") writer_writer
  have hflat : blocks.flatten = bytes "a\r\nbc\r\n" := by rw [hblocks]; decide
  refine ⟨t, blocks, hcall, hsent, hflat, hread (by decide) 6 (List.replicate 6 1) _ (by decide) rfl (by decide) ?_⟩
  rw [hflat]
  exact control_reader _

/-- A cut behind a CR and its LF. -/
theorem writeLines_whole : ∃ rs r t u blocks blocks', (writeLines (peer 2) [bytes "a\r\n", bytes "\nb"]).Returns writer rs t ∧
    (writeLine (peer 2) (bytes "a\r\n\nb")).Returns writer r u ∧ t.env.sent = blocks ∧ u.env.sent = blocks' ∧
    blocks.flatten = blocks'.flatten := by
  refine (writeLines_iff (peer_accepts 2) [bytes "a\r\n", bytes "\nb"] writer_writer).mpr ?_
  exact cutsCrlf_iff.mp (by decide)

/-- A cut between them: a second CR is sent. -/
theorem writeLines_cut : ∃ t u, (writeLines (peer 2) [bytes "a\r", bytes "\n"]).Returns writer [2, 1] t ∧
    (writeLine (peer 2) (bytes "a\r\n")).Returns writer 3 u ∧ t.env.sent.flatten = bytes "a\r\r\n" ∧
    u.env.sent.flatten = bytes "a\r\n" := by
  obtain ⟨t, blocks, hcalls, hsent, hblocks⟩ := writeLines_returns (peer_accepts 2) [bytes "a\r", bytes "\n"] writer_writer
  obtain ⟨u, blocks', hcall, _, hsent', _, hblocks'⟩ := writeLine_returns (peer_accepts 2) (bytes "a\r\n") writer_writer
  refine ⟨t, u, hcalls, hcall, ?_, ?_⟩
  · rw [hsent, List.flatten_append, hblocks]
    decide
  · rw [hsent', List.flatten_append, hblocks']
    decide

end Wire

end FEmbed.FTPClientBase
