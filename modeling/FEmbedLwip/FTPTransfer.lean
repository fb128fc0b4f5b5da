/-
What a transfer leaves on record, and its result.

A transfer adds to `hist` what the network and the callbacks answered.
`Transferred` is the shape of what it adds, with the result that goes with it:
0 if and only if a failure stopped the copy (`Transferred.result`). A copy that
ends with 1 took all there was unless something else went wrong in it
(`Transferred.copied_iff`).
-/
import FEmbedLwip.FTPLockstep

namespace FEmbed

open Live

/-! ## The events of a transfer -/

namespace FTPEvent

/-- The bytes that came over the data connection. -/
def delivered : FTPEvent → Bytes
  | dataRead _ got => got
  | _ => []

/-- The bytes that the callback's `write` took. -/
def accepted : FTPEvent → Bytes
  | fileWrite bs n => bs.take n
  | _ => []

/-- The bytes that the callback's `read` gave. -/
def produced : FTPEvent → Bytes
  | fileRead got => got.getD []
  | _ => []

/-- The bytes that the data connection took. -/
def sent : FTPEvent → Bytes
  | dataWrite bs c => bs.take c.toNat
  | _ => []

end FTPEvent

/-- The copy took all there was: a download up to an orderly end. -/
structure Copied (typ : FTPType) (es : List FTPEvent) : Prop where
  download : typ ≠ .fileWrite → es.flatMap FTPEvent.accepted = es.flatMap FTPEvent.delivered ∧ .dataRead 0 [] ∈ es
  upload : typ = .fileWrite → es.flatMap FTPEvent.sent = es.flatMap FTPEvent.produced

/-- A failure that ends the copy with 0: the data connection took less than it
was given, or the callback's `write` took nothing. -/
def Noticed (es : List FTPEvent) : Prop :=
  (∃ bs c, .dataWrite bs c ∈ es ∧ c < bs.length) ∨ ∃ bs, .fileWrite bs 0 ∈ es

/-- None of the failures of the copy that `xfer` does not look at: no read of the
data connection failed, and each `write` of the callback took all it was given. -/
structure Smooth (es : List FTPEvent) : Prop where
  read : ∀ l got, .dataRead l got ∈ es → 0 ≤ l
  write : ∀ bs n, .fileWrite bs n ∈ es → bs.length ≤ n

/-- What a download records, and its `rv`. -/
inductive Downloaded : List FTPEvent → Int → Prop
  | ended {l : Int} : l ≤ 0 → Downloaded [.dataRead l []] 1
  | refused {bs : Bytes} : bs ≠ [] → Downloaded [.dataRead bs.length bs, .fileWrite bs 0] 0
  | next {bs : Bytes} {n : Nat} {es rv} : bs ≠ [] → n ≠ 0 → Downloaded es rv →
      Downloaded (.dataRead bs.length bs :: .fileWrite bs n :: es) rv

/-- What an upload records, and its `rv`. -/
inductive Uploaded : List FTPEvent → Int → Prop
  | ended {got : Option Bytes} : got.getD [] = [] → Uploaded [.fileRead got] 1
  | short {got : Option Bytes} {c : Int} : c < (got.getD []).length →
      Uploaded [.fileRead got, .dataWrite (got.getD []) c] 0
  | next {got : Option Bytes} {c : Int} {es rv} : (got.getD []).length ≤ c → Uploaded es rv →
      Uploaded (.fileRead got :: .dataWrite (got.getD []) c :: es) rv

/-- What the constructor records, and the socket it leaves. -/
inductive Started : List FTPEvent → Int → Prop
  | failed {dataFd : Int} : dataFd < 0 → Started [] dataFd
  | refused {rc dataFd : Int} : Started [.dataConn rc, .answered 0 dataFd] (-1)
  | accepted {rc dataFd : Int} : (0 ≤ rc → dataFd = rc) → Started [.dataConn rc, .answered 1 dataFd] dataFd

/-- What the end of `xfer` records. -/
inductive Closed : List FTPEvent → Int → Prop
  | none {dataFd : Int} : dataFd < 0 → Closed [] dataFd
  | final {dataFd ok : Int} : 0 ≤ dataFd → Closed [.final ok] dataFd

/-- What a transfer records, and its result. -/
inductive Transferred (typ : FTPType) : List FTPEvent → Int → Prop
  | intro {start copy close : List FTPEvent} {dataFd rv : Int} : Started start dataFd →
      (typ = .fileWrite ∧ Uploaded copy rv) ∨ (typ ≠ .fileWrite ∧ Downloaded copy rv) → Closed close dataFd →
      Transferred typ (start ++ copy ++ close) rv

/-! ## Events and results -/

/-- An event of the copy, not of the commands around it. -/
def FTPEvent.copying : FTPEvent → Bool
  | fileRead _ | dataWrite _ _ | dataRead _ _ | fileWrite _ _ => true
  | dataConn _ | answered _ _ | final _ => false

theorem Started.copying {es : List FTPEvent} {dataFd : Int} (h : Started es dataFd) : ∀ e ∈ es, e.copying = false := by
  cases h <;> simp [FTPEvent.copying]

theorem Closed.copying {es : List FTPEvent} {dataFd : Int} (h : Closed es dataFd) : ∀ e ∈ es, e.copying = false := by
  cases h <;> simp [FTPEvent.copying]

theorem Downloaded.copying {es : List FTPEvent} {rv : Int} (h : Downloaded es rv) : ∀ e ∈ es, e.copying = true := by
  induction h with
  | ended => simp [FTPEvent.copying]
  | refused => simp [FTPEvent.copying]
  | next _ _ _ ih => simp only [List.mem_cons, forall_eq_or_imp, FTPEvent.copying, true_and]; exact ih

theorem Uploaded.copying {es : List FTPEvent} {rv : Int} (h : Uploaded es rv) : ∀ e ∈ es, e.copying = true := by
  induction h with
  | ended => simp [FTPEvent.copying]
  | short => simp [FTPEvent.copying]
  | next _ _ ih => simp only [List.mem_cons, forall_eq_or_imp, FTPEvent.copying, true_and]; exact ih

/-- An event of a download's loop, and one of an upload's. -/
def FTPEvent.ofDownload : FTPEvent → Bool
  | dataRead _ _ | fileWrite _ _ => true
  | _ => false

theorem Uploaded.no_download {es : List FTPEvent} {rv : Int} (h : Uploaded es rv) :
    ∀ e : FTPEvent, e.ofDownload = true → e ∉ es := by
  intro e he
  induction h with
  | ended => cases e <;> simp [FTPEvent.ofDownload] at he ⊢
  | short => cases e <;> simp [FTPEvent.ofDownload] at he ⊢
  | next _ _ ih => cases e <;> simp [FTPEvent.ofDownload] at he ⊢ <;> exact ih

theorem Downloaded.no_upload {es : List FTPEvent} {rv : Int} (h : Downloaded es rv) :
    ∀ e : FTPEvent, e.ofDownload = false → e ∉ es := by
  intro e he
  induction h with
  | ended => cases e <;> simp [FTPEvent.ofDownload] at he ⊢
  | refused => cases e <;> simp [FTPEvent.ofDownload] at he ⊢
  | next _ _ _ ih => cases e <;> simp [FTPEvent.ofDownload] at he ⊢ <;> exact ih

/-- An event of the copy that a transfer records is one of its copy loop. -/
theorem mem_copy {start copy close : List FTPEvent} {dataFd : Int} {e : FTPEvent} (hs : Started start dataFd)
    (hc : Closed close dataFd) (he : e.copying = true) : e ∈ start ++ copy ++ close ↔ e ∈ copy := by
  have hstart : e ∉ start := fun h => by simp [hs.copying e h] at he
  have hclose : e ∉ close := fun h => by simp [hc.copying e h] at he
  simp [hstart, hclose]

/-- And any other one is recorded before or after it. -/
theorem mem_around {start copy close : List FTPEvent} {e : FTPEvent} (hc : ∀ e ∈ copy, e.copying = true)
    (he : e.copying = false) : e ∈ start ++ copy ++ close ↔ e ∈ start ∨ e ∈ close := by
  have hcopy : e ∉ copy := fun h => by simp [hc e h] at he
  simp [hcopy]

theorem flatMap_around {f : FTPEvent → Bytes} {es : List FTPEvent} (hes : ∀ e ∈ es, e.copying = false)
    (hf : ∀ e : FTPEvent, e.copying = false → f e = []) : es.flatMap f = [] := by
  simpa using fun e he => hf e (hes e he)

theorem flatMap_copy {start copy close : List FTPEvent} {dataFd : Int} {f : FTPEvent → Bytes} (hs : Started start dataFd)
    (hc : Closed close dataFd) (hf : ∀ e : FTPEvent, e.copying = false → f e = []) :
    (start ++ copy ++ close).flatMap f = copy.flatMap f := by
  rw [List.flatMap_append, List.flatMap_append, flatMap_around hs.copying hf, flatMap_around hc.copying hf]
  simp

theorem Downloaded.result {es : List FTPEvent} {rv : Int} (h : Downloaded es rv) :
    (rv = 0 ∧ ∃ bs, .fileWrite bs 0 ∈ es) ∨ (rv = 1 ∧ ∀ bs, .fileWrite bs 0 ∉ es) := by
  induction h with
  | ended => exact .inr ⟨rfl, by simp⟩
  | @refused bs _ => exact .inl ⟨rfl, bs, by simp⟩
  | next _ hn _ ih =>
    rcases ih with ⟨hrv, bs, hbs⟩ | ⟨hrv, hno⟩
    · exact .inl ⟨hrv, bs, by simp [hbs]⟩
    · exact .inr ⟨hrv, fun bs => by simp [hno bs, Ne.symm hn]⟩

theorem Uploaded.result {es : List FTPEvent} {rv : Int} (h : Uploaded es rv) :
    (rv = 0 ∧ ∃ bs c, .dataWrite bs c ∈ es ∧ c < bs.length) ∨
      (rv = 1 ∧ ∀ bs c, .dataWrite bs c ∈ es → bs.length ≤ c) := by
  induction h with
  | ended => exact .inr ⟨rfl, by simp⟩
  | @short got c hc => exact .inl ⟨rfl, got.getD [], c, by simp, hc⟩
  | @next got c es rv hc _ ih =>
    rcases ih with ⟨hrv, bs, c', hbs, hlt⟩ | ⟨hrv, hall⟩
    · exact .inl ⟨hrv, bs, c', by simp [hbs], hlt⟩
    · refine .inr ⟨hrv, fun bs c' hmem => ?_⟩
      simp only [List.mem_cons, reduceCtorEq, FTPEvent.dataWrite.injEq, false_or] at hmem
      rcases hmem with ⟨rfl, rfl⟩ | hmem
      · exact hc
      · exact hall bs c' hmem

/-- The copy took what it was given if and only if each `write` did. -/
theorem Downloaded.accepted_iff {es : List FTPEvent} {rv : Int} (h : Downloaded es rv) :
    (es.flatMap FTPEvent.accepted).length ≤ (es.flatMap FTPEvent.delivered).length ∧
      (es.flatMap FTPEvent.accepted = es.flatMap FTPEvent.delivered ↔
        ∀ bs n, .fileWrite bs n ∈ es → bs.length ≤ n) := by
  induction h with
  | ended => simp [FTPEvent.accepted, FTPEvent.delivered]
  | @refused bs hbs =>
    have hbs' : bs.length ≠ 0 := fun h => hbs (List.eq_nil_of_length_eq_zero h)
    simp [FTPEvent.accepted, FTPEvent.delivered, hbs, eq_comm]
  | @next bs n es rv _ _ _ ih =>
    obtain ⟨hle, hiff⟩ := ih
    have hmem (bs' : Bytes) (n' : Nat) : .fileWrite bs' n' ∈ (.dataRead bs.length bs :: .fileWrite bs n :: es) ↔
        (bs' = bs ∧ n' = n) ∨ .fileWrite bs' n' ∈ es := by simp
    simp only [List.flatMap_cons, FTPEvent.accepted, FTPEvent.delivered, List.nil_append, hmem]
    refine ⟨by simp only [List.length_append, List.length_take]; omega, ?_⟩
    constructor
    · intro heq bs' n' hor
      have hlen := congrArg List.length heq
      simp only [List.length_append, List.length_take] at hlen
      have hn : bs.length ≤ n := by omega
      rw [List.take_of_length_le hn, List.append_cancel_left_eq] at heq
      rcases hor with ⟨rfl, rfl⟩ | hmem
      · exact hn
      · exact hiff.mp heq bs' n' hmem
    · intro hall
      rw [List.take_of_length_le (hall bs n (.inl ⟨rfl, rfl⟩)),
        hiff.mpr fun bs' n' hmem => hall bs' n' (.inr hmem)]

/-- The end of the stream was orderly if and only if no read failed. -/
theorem Downloaded.orderly_iff {es : List FTPEvent} {rv : Int} (h : Downloaded es rv) (hrv : rv = 1) :
    .dataRead 0 [] ∈ es ↔ ∀ l got, .dataRead l got ∈ es → 0 ≤ l := by
  induction h with
  | @ended l hl =>
    have : (0 = l) ↔ 0 ≤ l := ⟨fun h => h ▸ Int.le_refl _, fun h => Int.le_antisymm h hl⟩
    simpa using this
  | refused => exact absurd hrv (by decide)
  | @next bs n es rv hbs _ _ ih =>
    rw [List.mem_cons, List.mem_cons, ih hrv]
    constructor
    · rintro (h | h | h) l got hmem
      · simp only [FTPEvent.dataRead.injEq] at h
        exact absurd h.2.symm hbs
      · exact absurd h (by simp)
      · simp only [List.mem_cons, FTPEvent.dataRead.injEq, reduceCtorEq, false_or] at hmem
        rcases hmem with ⟨rfl, -⟩ | hmem
        · omega
        · exact h l got hmem
    · exact fun hall => .inr (.inr fun l got hmem => hall l got (by simp [hmem]))

/-- An upload that ends with 1 sent what the callback gave. -/
theorem Uploaded.sent_eq {es : List FTPEvent} {rv : Int} (h : Uploaded es rv) (hrv : rv = 1) :
    es.flatMap FTPEvent.sent = es.flatMap FTPEvent.produced := by
  induction h with
  | ended hgot => simp [FTPEvent.sent, FTPEvent.produced, hgot]
  | short => exact absurd hrv (by decide)
  | next hc _ ih =>
    simp only [List.flatMap_cons, FTPEvent.sent, FTPEvent.produced, List.nil_append, ih hrv]
    rw [List.take_of_length_le (by omega)]

/-- A data connection that was made, and the answer taken for it, decide the socket. -/
theorem Started.socketFd {start : List FTPEvent} {dataFd : Int} (h : Started start dataFd) {ok rc dataFd' : Int}
    (hstart : start = [.dataConn rc, .answered ok dataFd']) (hok : ok ≠ 0) (hrc : 0 ≤ rc) : 0 ≤ dataFd := by
  cases h with
  | failed => simp at hstart
  | refused =>
    simp only [List.cons.injEq, FTPEvent.answered.injEq] at hstart
    exact absurd hstart.2.1.1.symm hok
  | accepted hsame =>
    simp only [List.cons.injEq, FTPEvent.dataConn.injEq] at hstart
    rw [hstart.1] at hsame
    rw [hsame hrc]
    exact hrc

/-- A data connection is made before the copy. -/
theorem mem_dataConn {start copy close : List FTPEvent} {dataFd : Int} (hcopy : ∀ e ∈ copy, e.copying = true)
    (hc : Closed close dataFd) (rc : Int) : .dataConn rc ∈ start ++ copy ++ close ↔ .dataConn rc ∈ start := by
  rw [mem_around hcopy rfl, or_iff_left]
  cases hc <;> simp

/-- A copy that ends with 1 took all there was if and only if nothing went wrong. -/
theorem Transferred.copied_iff {typ : FTPType} {es : List FTPEvent} (h : Transferred typ es 1) :
    Copied typ es ↔ Smooth es := by
  obtain @⟨start, copy, close, dataFd, _, hs, hcopied, hc⟩ := h
  have hread (l : Int) (got : Bytes) : .dataRead l got ∈ start ++ copy ++ close ↔ .dataRead l got ∈ copy := mem_copy hs hc rfl
  have hwrite (bs : Bytes) (n : Nat) : .fileWrite bs n ∈ start ++ copy ++ close ↔ .fileWrite bs n ∈ copy := mem_copy hs hc rfl
  have hnone : ∀ e : FTPEvent, e.copying = false →
      e.accepted = [] ∧ e.delivered = [] ∧ e.sent = [] ∧ e.produced = [] := by
    intro e he
    cases e <;> first | exact ⟨rfl, rfl, rfl, rfl⟩ | simp [FTPEvent.copying] at he
  rcases hcopied with ⟨htyp, h⟩ | ⟨htyp, h⟩
  · refine ⟨fun _ => ⟨fun l got hmem => ?_, fun bs n hmem => ?_⟩, fun _ => ⟨fun hne => absurd htyp hne, fun _ => ?_⟩⟩
    · exact absurd ((hread l got).mp hmem) (h.no_download _ rfl)
    · exact absurd ((hwrite bs n).mp hmem) (h.no_download _ rfl)
    · rw [flatMap_copy hs hc fun e he => (hnone e he).2.2.1, flatMap_copy hs hc fun e he => (hnone e he).2.2.2]
      exact h.sent_eq rfl
  · have heq : (start ++ copy ++ close).flatMap FTPEvent.accepted = (start ++ copy ++ close).flatMap FTPEvent.delivered ↔
        copy.flatMap FTPEvent.accepted = copy.flatMap FTPEvent.delivered := by
      rw [flatMap_copy hs hc fun e he => (hnone e he).1, flatMap_copy hs hc fun e he => (hnone e he).2.1]
    constructor
    · intro ⟨hdown, _⟩
      obtain ⟨hall, hend⟩ := hdown htyp
      refine ⟨fun l got hmem => ?_, fun bs n hmem => ?_⟩
      · exact (h.orderly_iff rfl).mp ((hread _ _).mp hend) l got ((hread l got).mp hmem)
      · exact h.accepted_iff.2.mp (heq.mp hall) bs n ((hwrite bs n).mp hmem)
    · intro ⟨hr, hw⟩
      refine ⟨fun _ => ⟨heq.mpr (h.accepted_iff.2.mpr fun bs n hmem => hw bs n ((hwrite bs n).mpr hmem)),
        (hread _ _).mpr ((h.orderly_iff rfl).mpr fun l got hmem => hr l got ((hread l got).mpr hmem))⟩, fun heq => ?_⟩
      exact absurd heq htyp

/-- The result is 0 if and only if a failure of the copy was noticed. -/
theorem Transferred.result {typ : FTPType} {es : List FTPEvent} {rv : Int} (h : Transferred typ es rv) :
    (rv = 0 ∧ Noticed es) ∨ (rv = 1 ∧ ¬ Noticed es) := by
  obtain @⟨start, copy, close, dataFd, _, hs, hcopied, hc⟩ := h
  have hdata (bs : Bytes) (c : Int) : .dataWrite bs c ∈ start ++ copy ++ close ↔ .dataWrite bs c ∈ copy := mem_copy hs hc rfl
  have hwrite (bs : Bytes) (n : Nat) : .fileWrite bs n ∈ start ++ copy ++ close ↔ .fileWrite bs n ∈ copy := mem_copy hs hc rfl
  simp only [Noticed, hdata, hwrite]
  rcases hcopied with ⟨_, h⟩ | ⟨_, h⟩
  · rcases h.result with ⟨hrv, hshort⟩ | ⟨hrv, hall⟩
    · exact .inl ⟨hrv, .inl hshort⟩
    · refine .inr ⟨hrv, ?_⟩
      rintro (⟨bs, c, hmem, hlt⟩ | ⟨bs, hmem⟩)
      · exact Int.not_lt.mpr (hall bs c hmem) hlt
      · exact h.no_download _ rfl hmem
  · rcases h.result with ⟨hrv, hbs⟩ | ⟨hrv, hno⟩
    · exact .inl ⟨hrv, .inr hbs⟩
    · refine .inr ⟨hrv, ?_⟩
      rintro (⟨bs, c, hmem, _⟩ | ⟨bs, hmem⟩)
      · exact h.no_upload _ rfl hmem
      · exact hno bs hmem

/-! ## The code -/

variable {σ : Type} {p : Platform σ} {fs : FTPClientDataCallback σ}

namespace FTPClient

/-- What the commands leave: the data connection and the record. -/
theorem exchange_keeps {line : Bytes} {c : UInt8} {s : Live σ FTPClient} {v s'}
    (h : (exchange p line c).Returns s v s') : s'.self.nData = s.self.nData ∧ s'.self.hist = s.self.hist := by
  obtain ⟨_, t, ht, h⟩ := Prog.returns_bind.mp h
  obtain ⟨_, _, rfl⟩ := Prog.returns_zoom.mp ht
  obtain ⟨_, _, rfl⟩ := Prog.returns_zoom.mp h
  exact ⟨rfl, rfl⟩

/-- A read of the data connection. -/
theorem data_readBuf {n : Nat} {s : Live σ FTPClient} {l : Int} {got : Bytes} {s'}
    (h : (data (TCPClient.readBuf p.lwip n)).Returns s (l, got) s') :
    s'.self.hist = s.self.hist ∧ s'.self.nData.socketFd = s.self.nData.socketFd ∧
      ((l ≤ 0 ∧ got = []) ∨ (0 < l ∧ got ≠ [] ∧ l = got.length)) := by
  obtain ⟨t, ht, rfl⟩ := Prog.returns_zoom.mp h
  refine ⟨rfl, ?_⟩
  rcases TCPClient.readBuf_returns.mp ht with ⟨_, hr, rfl⟩ | ⟨_, _, hr, rfl⟩ | ⟨_, _, hr, rfl⟩ <;>
    obtain ⟨rfl, rfl⟩ := Prod.ext_iff.mp hr
  · exact ⟨rfl, .inl ⟨by decide, rfl⟩⟩
  · refine ⟨rfl, ?_⟩
    generalize (TCPClient.recvAt p.lwip n _).1 = r
    cases r with
    | data b bs => exact .inr ⟨by simp only [Recv.rc]; omega, List.cons_ne_nil b bs, by simp [Recv.rc, Recv.got]⟩
    | eof => exact .inl ⟨Int.le_refl 0, rfl⟩
    | err => exact .inl ⟨by decide, rfl⟩
  · exact ⟨rfl, .inl ⟨by decide, rfl⟩⟩

theorem data_write {bs : Bytes} {s : Live σ FTPClient} {r s'} (h : (data (TCPClient.write p.lwip bs)).Returns s r s') :
    s'.self.hist = s.self.hist ∧ s'.self.nData.socketFd = s.self.nData.socketFd := by
  obtain ⟨t, ht, rfl⟩ := Prog.returns_zoom.mp h
  rcases TCPClient.write_returns.mp ht with ⟨_, _, rfl⟩ | ⟨_, _, rfl⟩ <;> exact ⟨rfl, rfl⟩

/-- The record of a download, by induction on its turns. -/
theorem download_records {s : Live σ FTPClient} {rv s'} (h : (download p fs).Returns s rv s') :
    s'.self.nData.socketFd = s.self.nData.socketFd ∧ ∃ es, s'.self.hist = s.self.hist ++ es ∧ Downloaded es rv := by
  refine Prog.Returns.loop_induct (fun _ s => s'.self.nData.socketFd = s.self.nData.socketFd ∧
    ∃ es, s'.self.hist = s.self.hist ++ es ∧ Downloaded es rv) ?_ ?_ h
  · intro _ s h
    obtain ⟨⟨l, dbuf⟩, t, ht, h⟩ := Prog.returns_bind.mp h
    obtain ⟨hhist, hfd, hr⟩ := data_readBuf ht
    simp only [record, returns_set_bind, Prog.returns_ite, returns_call_bind, Prog.returns_pure, Turn.exit.injEq,
      reduceCtorEq, false_and, and_false, or_false] at h
    rcases h with ⟨hl, hn, rfl, rfl⟩ | ⟨hl, rfl, rfl⟩
    · obtain ⟨_, hne, hlen⟩ := hr.resolve_left fun h => Int.not_le.mpr hl h.1
      refine ⟨hfd, [.dataRead l dbuf, .fileWrite dbuf 0], by simp [hhist, hn], ?_⟩
      rw [hlen]
      exact .refused hne
    · obtain ⟨hl, hgot⟩ := hr.resolve_right fun h => hl h.1
      refine ⟨hfd, [.dataRead l dbuf], by simp [hhist], ?_⟩
      rw [hgot]
      exact .ended hl
  · intro _ s _ t h _ ⟨hfd', es, hes, hd⟩
    obtain ⟨⟨l, dbuf⟩, u, hu, h⟩ := Prog.returns_bind.mp h
    obtain ⟨hhist, hfd, hr⟩ := data_readBuf hu
    simp only [record, returns_set_bind, Prog.returns_ite, returns_call_bind, Prog.returns_pure, reduceCtorEq, false_and,
      and_false, false_or, or_false] at h
    obtain ⟨hl, hn, _, rfl⟩ := h
    obtain ⟨_, hne, hlen⟩ := hr.resolve_left fun h => Int.not_le.mpr hl h.1
    refine ⟨hfd'.trans hfd, .dataRead l dbuf :: .fileWrite dbuf (fs.write dbuf u.env).1 :: es, by simp [hes, hhist], ?_⟩
    rw [hlen]
    exact .next hne hn hd

/-- The record of an upload, by induction on its turns. -/
theorem upload_records {s : Live σ FTPClient} {rv s'} (h : (upload p fs).Returns s rv s') :
    s'.self.nData.socketFd = s.self.nData.socketFd ∧ ∃ es, s'.self.hist = s.self.hist ++ es ∧ Uploaded es rv := by
  refine Prog.Returns.loop_induct (fun _ s => s'.self.nData.socketFd = s.self.nData.socketFd ∧
    ∃ es, s'.self.hist = s.self.hist ++ es ∧ Uploaded es rv) ?_ ?_ h
  · intro _ s h
    simp only [record, returns_call_bind, returns_set_bind] at h
    rw [Prog.returns_ite, Prog.returns_ite] at h
    rcases h with ⟨hnil, h⟩ | ⟨_, ⟨_, h⟩ | ⟨_, h⟩⟩
    · simp only [Prog.returns_pure, Turn.exit.injEq] at h
      obtain ⟨rfl, rfl⟩ := h
      exact ⟨rfl, [.fileRead (fs.read ftplibBufsiz s.env).1], rfl, .ended hnil⟩
    · exact absurd h Prog.returns_undefined
    · obtain ⟨c, t, ht, h⟩ := Prog.returns_bind.mp h
      obtain ⟨hhist, hfd⟩ := data_write ht
      simp only [returns_set_bind, Prog.returns_ite, Prog.returns_pure, Turn.exit.injEq, reduceCtorEq, false_and,
        and_false, or_false] at h
      obtain ⟨hc, rfl, rfl⟩ := h
      exact ⟨hfd, [.fileRead (fs.read ftplibBufsiz s.env).1, .dataWrite _ (int32 c)], by simp [hhist], .short hc⟩
  · intro _ s _ t h _ ⟨hfd', es, hes, hu⟩
    simp only [record, returns_call_bind, returns_set_bind] at h
    rw [Prog.returns_ite, Prog.returns_ite] at h
    rcases h with ⟨_, h⟩ | ⟨_, ⟨_, h⟩ | ⟨_, h⟩⟩
    · simp at h
    · exact absurd h Prog.returns_undefined
    · obtain ⟨c, u, hw, h⟩ := Prog.returns_bind.mp h
      obtain ⟨hhist, hfd⟩ := data_write hw
      simp only [returns_set_bind, Prog.returns_ite, Prog.returns_pure, reduceCtorEq, false_and, and_false,
        false_or] at h
      obtain ⟨hc, _, rfl⟩ := h
      exact ⟨hfd'.trans hfd, .fileRead (fs.read ftplibBufsiz s.env).1 :: .dataWrite _ (int32 c) :: es,
        by simp [hes, hhist], .next (Int.not_lt.mp hc) hu⟩

/-- A data connection that is made has the socket that is returned. -/
theorem connectV4_socketFd {ip port : Nat} {timeout : Int} {s : Live σ TCPClient} {rc s'}
    (h : (TCPClient.connectV4 p.lwip ip port timeout).Returns s rc s') (hrc : 0 ≤ rc) : s'.self.socketFd = rc := by
  obtain ⟨t, h⟩ : ∃ t, (TCPClient.openV4 p.lwip ip port timeout).Returns t rc s' := by
    rw [TCPClient.connectV4, returns_obj_bind, Prog.returns_ite] at h
    rcases h with ⟨_, h⟩ | ⟨_, h⟩
    · obtain ⟨_, t, _, h⟩ := Prog.returns_bind.mp h
      exact ⟨t, h⟩
    · exact ⟨s, h⟩
  simp only [TCPClient.openV4, returns_call_bind, returns_set_bind, returns_obj_bind, returns_tell_bind,
    Prog.returns_ite, Prog.returns_pure] at h
  rcases h with ⟨_, rfl, _⟩ | ⟨_, ⟨_, rfl, _⟩ | ⟨_, ⟨_, rfl, _⟩ | ⟨_, ⟨_, rfl, rfl⟩ | ⟨_, rfl, rfl⟩⟩⟩⟩
  · exact absurd hrc (by decide)
  · exact absurd hrc (by decide)
  · exact absurd hrc (by decide)
  · rfl
  · rfl

theorem openDataConn_records {dir : FTPDir} {s : Live σ FTPClient} {v s'} (h : (openDataConn p dir).Returns s v s') :
    (v = -1 ∧ s'.self.nData = s.self.nData ∧ s'.self.hist = s.self.hist) ∨
      (v = 1 ∧ ∃ rc, s'.self.hist = s.self.hist ++ [.dataConn rc] ∧ (0 ≤ rc → s'.self.nData.socketFd = rc)) := by
  cases openDataConn_opening h with
  | busy => exact .inl ⟨rfl, rfl, rfl⟩
  | refused hpasv => exact .inl ⟨rfl, exchange_keeps hpasv⟩
  | @dialed _ _ _ _ rc _ hpasv hdial =>
    obtain ⟨w, hw, rfl⟩ := Prog.returns_zoom.mp hdial
    exact .inr ⟨rfl, rc, by simp [(exchange_keeps hpasv).2], connectV4_socketFd hw⟩

theorem readResp_bit {c : UInt8} {s : Live σ FTPClientBase} {v s'} (h : (FTPClientBase.readResp p c).Returns s v s') :
    v = 0 ∨ v = 1 := by
  obtain ⟨_, t, _, h⟩ := Prog.returns_bind.mp h
  simp only [Prog.returns_ite, returns_obj_bind, Prog.returns_pure] at h
  rcases h with ⟨_, hv, _⟩ | ⟨_, ⟨_, h⟩ | ⟨_, hv, _⟩⟩
  · exact .inl hv
  · obtain ⟨b, u, _, h⟩ := Prog.returns_bind.mp h
    simp only [Prog.returns_ite, returns_obj_bind, Prog.returns_pure] at h
    rcases h with ⟨_, hv, _⟩ | ⟨_, hv, _⟩
    · exact .inl hv
    · split at hv
      · exact .inr hv
      · exact .inl hv
  · split at hv
    · exact .inr hv
    · exact .inl hv

theorem exchange_bit {line : Bytes} {c : UInt8} {s : Live σ FTPClient} {v s'} (h : (exchange p line c).Returns s v s') :
    v = 0 ∨ v = 1 := by
  obtain ⟨_, t, _, h⟩ := Prog.returns_bind.mp h
  obtain ⟨_, h, _⟩ := Prog.returns_zoom.mp h
  exact readResp_bit h

theorem openTransfer_records {path : Option Bytes} {typ : FTPType} {mode : FTPTransferMode} {s : Live σ FTPClient} {u s'}
    (h : (openTransfer p path typ mode).Returns s u s') :
    ∃ es, s'.self.hist = s.self.hist ++ es ∧ Started es s'.self.nData.socketFd := by
  have none {t : Live σ FTPClient} (hhist : t.self.hist = s.self.hist) (hdata : t.self.nData = {}) :
      ∃ es, t.self.hist = s.self.hist ++ es ∧ Started es t.self.nData.socketFd :=
    ⟨[], by simp [hhist], .failed (by rw [hdata]; decide)⟩
  cases openTransfer_opening h with
  | unnamed h =>
    rw [setResponse, returns_obj_bind] at h
    split at h
    · exact absurd h Prog.returns_undefined
    · obtain rfl := returns_set.mp h
      exact none rfl rfl
  | untyped htype =>
    obtain ⟨hdata, hhist⟩ := exchange_keeps htype
    exact none hhist hdata
  | unconnected htype hopen =>
    obtain ⟨hdata, hhist⟩ := exchange_keeps htype
    rcases openDataConn_records hopen with ⟨_, hdata', hhist'⟩ | ⟨hone, _⟩
    · exact none (hhist'.trans hhist) (hdata'.trans hdata)
    · exact absurd hone (by decide)
  | @answered _ t v' w x ok y htype hopen hne hverb hpath hend =>
    obtain ⟨_, rc, hhist, hfd⟩ := (openDataConn_records hopen).resolve_left fun h => hne h.1
    obtain ⟨hdata', hhist'⟩ := exchange_keeps hpath
    obtain ⟨_, _, rfl⟩ := Prog.returns_zoom.mp hverb
    have hrecord : s'.self.hist = s.self.hist ++ [.dataConn rc, .answered ok y.self.nData.socketFd] := by
      rw [hend.recorded, hhist', hhist, (exchange_keeps htype).2, List.append_assoc]
      rfl
    refine ⟨_, hrecord, ?_⟩
    rcases exchange_bit hpath with rfl | rfl
    · obtain ⟨_, hclosed⟩ := hend.socket.resolve_right fun h => h.1 rfl
      rw [hclosed]
      exact .refused
    · obtain ⟨_, hkept⟩ := hend.socket.resolve_left fun h => absurd h.1 (by decide)
      rw [hkept]
      exact .accepted fun hrc => by rw [hdata']; exact hfd hrc

theorem closeTransfer_records {s : Live σ FTPClient} {u s'} (h : (closeTransfer p fs).Returns s u s') :
    ∃ es, s'.self.hist = s.self.hist ++ es ∧ Closed es s.self.nData.socketFd := by
  rw [closeTransfer, returns_tell_bind, returns_obj_bind, Prog.returns_ite] at h
  rcases h with ⟨hpos, h⟩ | ⟨hneg, h⟩
  · obtain ⟨_, t, ht, h⟩ := Prog.returns_bind.mp h
    obtain ⟨_, _, rfl⟩ := Prog.returns_zoom.mp ht
    obtain ⟨ok, w, hw, h⟩ := Prog.returns_bind.mp h
    obtain ⟨_, _, rfl⟩ := Prog.returns_zoom.mp hw
    rw [record, returns_set_bind] at h
    obtain ⟨_, _, rfl⟩ := Prog.returns_zoom.mp h
    exact ⟨[.final ok], rfl, .final hpos⟩
  · obtain ⟨_, _, rfl⟩ := Prog.returns_zoom.mp h
    exact ⟨[], by simp, .none (Int.not_le.mp hneg)⟩

/-- The record of a copy, of either kind. -/
theorem loop_records {typ : FTPType} {rv : Int} {s s' : Live σ FTPClient}
    (h : (if typ = .fileWrite then upload p fs else download p fs).Returns s rv s') :
    s'.self.nData.socketFd = s.self.nData.socketFd ∧ ∃ es, s'.self.hist = s.self.hist ++ es ∧
      ((typ = .fileWrite ∧ Uploaded es rv) ∨ (typ ≠ .fileWrite ∧ Downloaded es rv)) := by
  rw [Prog.returns_ite] at h
  rcases h with ⟨htyp, h⟩ | ⟨htyp, h⟩
  · obtain ⟨hfd, copy, hes, hcopy⟩ := upload_records h
    exact ⟨hfd, copy, hes, .inl ⟨htyp, hcopy⟩⟩
  · obtain ⟨hfd, copy, hes, hcopy⟩ := download_records h
    exact ⟨hfd, copy, hes, .inr ⟨htyp, hcopy⟩⟩

theorem transfer_records {path : Option Bytes} {typ : FTPType} {mode : FTPTransferMode} {s : Live σ FTPClient}
    {rv : Int} {s'} (h : (transfer p fs path typ mode).Returns s rv s') :
    ∃ es, s'.self.hist = s.self.hist ++ es ∧ Transferred typ es rv := by
  obtain ⟨t, v, ht, hv, hw⟩ := transfer_parts h
  obtain ⟨start, hhist, hstart⟩ := openTransfer_records ht
  obtain ⟨hfd, copy, hcopied, hcopy⟩ := loop_records hv
  obtain ⟨close, hclosed, hclose⟩ := closeTransfer_records hw
  rw [hfd] at hclose
  exact ⟨start ++ copy ++ close, by simp [hclosed, hcopied, hhist], .intro hstart hcopy hclose⟩

/-- With a file callback, `xfer` is its body, behind a file that was opened or not. -/
theorem xfer_transfer {localfile path : Option Bytes} {typ : FTPType} {mode : FTPTransferMode} {s : Live σ FTPClient}
    {rv : Int} {s'} (hcb : s.self.m_fs_cb = true) (h : (xfer p fs localfile path typ mode).Returns s rv s') :
    ∃ e, (e = s.env ∨ ∃ f m, e = fs.openFile f m s.env) ∧ (transfer p fs path typ mode).Returns ⟨s.self, e⟩ rv s' := by
  cases localfile with
  | none => exact ⟨s.env, .inl rfl, h⟩
  | some file =>
    rw [xfer, returns_obj_bind, Prog.returns_ite] at h
    obtain ⟨_, h⟩ := h.resolve_left fun h => h.1 hcb
    rw [returns_tell_bind] at h
    exact ⟨_, .inr ⟨file, openMode typ mode, rfl⟩, h⟩

theorem xfer_records {localfile path : Option Bytes} {typ : FTPType} {mode : FTPTransferMode} {s : Live σ FTPClient}
    {rv : Int} {s'} (hcb : s.self.m_fs_cb = true) (h : (xfer p fs localfile path typ mode).Returns s rv s') :
    ∃ es, s'.self.hist = s.self.hist ++ es ∧ Transferred typ es rv := by
  obtain ⟨e, _, h⟩ := xfer_transfer hcb h
  obtain ⟨es, hes, ht⟩ := transfer_records h
  exact ⟨es, hes, ht⟩

end FTPClient

end FEmbed
