/-
`loadCACert`, `loadCertificate` and `loadPrivateKey` of `TCPClientSecure`: the
memory of the credentials that are loaded from streams.

`_streamLoad` keeps the block in a static variable, one for all clients, and
frees it when it is called again. A client keeps a pointer to it. So whatever
is loaded, by whichever client, takes the credentials that were loaded before
it away (`loaded_intact_iff`).
-/
import FEmbedLwip.Arduino
import FEmbedLwip.Blocks

namespace FEmbed

/-- The pointers `_CA_cert`, `_cert` and `_private_key`. -/
inductive Credential where
  | caCert
  | certificate
  | privateKey
  deriving DecidableEq, Repr

/-- The heap, the static `dest`, and the pointers of the clients. -/
structure CredentialMemory where
  blocks : Blocks Nat Bytes := .empty
  dest : Option Nat := none
  pointers : Nat → Credential → Option Nat := fun _ _ => none

namespace CredentialMemory

/-- The pointer of one client. -/
def setPointer (m : CredentialMemory) (client : Nat) (credential : Credential) (ptr : Option Nat) : CredentialMemory :=
  { m with pointers := Function.update m.pointers client (Function.update (m.pointers client) credential ptr) }

/-- The blocks once `dest`, if it is not null, is freed. -/
def freeDest (m : CredentialMemory) : Blocks Nat Bytes :=
  match m.dest with
  | none => m.blocks
  | some dest => m.blocks.free dest

/-- `_streamLoad`, with what `malloc` gives, which is nothing that is allocated,
and what `readBytes` reads. -/
def streamLoad (size : Nat) (malloc : Option Nat) (got : Bytes) (m : CredentialMemory) : Option (Option Nat × CredentialMemory) :=
  match malloc with
  | none => some (none, { m with blocks := m.freeDest, dest := none })
  | some dest =>
    if (m.freeDest.heap dest).isSome then none
    else
      let blocks := m.freeDest.alloc dest got
      if size ≠ got.length then some (none, { m with blocks := blocks.free dest, dest := none })
      else some (some dest, { m with blocks := blocks, dest := some dest })

/-- What the three loads share. -/
def load (credential : Credential) (client size : Nat) (malloc : Option Nat) (got : Bytes) (m : CredentialMemory) :
    Option (Bool × CredentialMemory) := do
  match ← streamLoad size malloc got m with
  | (none, m) => return (false, m)
  | (some dest, m) => return (true, m.setPointer client credential (some dest))

def loadCACert (client size : Nat) (malloc : Option Nat) (got : Bytes) (m : CredentialMemory) : Option (Bool × CredentialMemory) :=
  load .caCert client size malloc got m

def loadCertificate (client size : Nat) (malloc : Option Nat) (got : Bytes) (m : CredentialMemory) : Option (Bool × CredentialMemory) :=
  load .certificate client size malloc got m

def loadPrivateKey (client size : Nat) (malloc : Option Nat) (got : Bytes) (m : CredentialMemory) : Option (Bool × CredentialMemory) :=
  load .privateKey client size malloc got m

/-! ## Runs -/

inductive Action where
  | loadCACert (client size : Nat) (malloc : Option Nat) (got : Bytes)
  | loadCertificate (client size : Nat) (malloc : Option Nat) (got : Bytes)
  | loadPrivateKey (client size : Nat) (malloc : Option Nat) (got : Bytes)
  /-- `setCACert`, `setCertificate` or `setPrivateKey`. -/
  | set (client : Nat) (credential : Credential) (ptr : Option Nat)
  /-- The application allocates a block, or frees one of its own. -/
  | alloc (a : Nat) (content : Bytes)
  | free (a : Nat)
  deriving DecidableEq, Repr

def step (m : CredentialMemory) : Action → Option CredentialMemory
  | .loadCACert client size malloc got => (loadCACert client size malloc got m).map (·.2)
  | .loadCertificate client size malloc got => (loadCertificate client size malloc got m).map (·.2)
  | .loadPrivateKey client size malloc got => (loadPrivateKey client size malloc got m).map (·.2)
  | .set client credential ptr => some (m.setPointer client credential ptr)
  | .alloc a content => if (m.blocks.heap a).isSome then none else some { m with blocks := m.blocks.alloc a content }
  | .free a => if m.dest = some a then none else some { m with blocks := m.blocks.free a }

def exec : List Action → CredentialMemory → Option CredentialMemory
  | [], m => some m
  | act :: acts, m => (step m act).bind (exec acts)

/-- The client and the credential that are loaded, and how. -/
def Action.load? : Action → Option (Credential × Nat × Nat × Option Nat × Bytes)
  | .loadCACert client size malloc got => some (.caCert, client, size, malloc, got)
  | .loadCertificate client size malloc got => some (.certificate, client, size, malloc, got)
  | .loadPrivateKey client size malloc got => some (.privateKey, client, size, malloc, got)
  | .set .. | .alloc .. | .free .. => none

def Action.isLoad (act : Action) : Bool := act.load?.isSome

/-- The application sets the pointer itself. -/
def Action.assigns (client : Nat) (credential : Credential) : Action → Bool
  | .set c f _ => c = client ∧ f = credential
  | _ => false

/-! ## What is left of a load -/

variable {m m' : CredentialMemory} {act : Action} {credential : Credential} {client size a k : Nat} {malloc : Option Nat} {got : Bytes}

theorem freeDest_clock (m : CredentialMemory) : m.freeDest.clock = m.blocks.clock := by
  rw [freeDest]
  cases m.dest <;> rfl

theorem streamLoad_cases {ptr : Option Nat} (h : streamLoad size malloc got m = some (ptr, m')) :
    ptr = none ∧ (m'.blocks = m.freeDest ∨ ∃ dest, m'.blocks = (m.freeDest.alloc dest got).free dest) ∨
      ∃ dest, ptr = some dest ∧ m'.blocks = m.freeDest.alloc dest got := by
  cases malloc with
  | none =>
    simp only [streamLoad, Option.some.injEq, Prod.mk.injEq] at h
    obtain ⟨rfl, rfl⟩ := h
    exact .inl ⟨rfl, .inl rfl⟩
  | some dest =>
    simp only [streamLoad] at h
    split at h
    · cases h
    · split at h
      · simp only [Option.some.injEq, Prod.mk.injEq] at h
        obtain ⟨rfl, rfl⟩ := h
        exact .inl ⟨rfl, .inr ⟨dest, rfl⟩⟩
      · simp only [Option.some.injEq, Prod.mk.injEq] at h
        obtain ⟨rfl, rfl⟩ := h
        exact .inr ⟨dest, rfl, rfl⟩

/-- A step that loads is `load`. -/
theorem step_load (h : act.load? = some (credential, client, size, malloc, got)) :
    step m act = (load credential client size malloc got m).map (·.2) := by
  cases act <;> simp only [Action.load?, Option.some.injEq, Prod.mk.injEq, reduceCtorEq] at h
  all_goals
    obtain ⟨rfl, rfl, rfl, rfl, rfl⟩ := h
    rfl

theorem load_blocks (h : (load credential client size malloc got m).map (·.2) = some m') :
    m'.blocks = m.freeDest ∨ ∃ dest, m'.blocks = (m.freeDest.alloc dest got).free dest ∨ m'.blocks = m.freeDest.alloc dest got := by
  obtain ⟨⟨ok, m₁⟩, hload, rfl⟩ := Option.map_eq_some_iff.mp h
  obtain ⟨⟨ptr, m₂⟩, hstream, hload⟩ := Option.bind_eq_some_iff.mp hload
  obtain ⟨rfl, hblocks⟩ | ⟨dest, rfl, hblocks⟩ := streamLoad_cases hstream
  · obtain ⟨-, rfl⟩ := Prod.mk.inj (Option.some.inj hload)
    exact hblocks.imp_right fun ⟨dest, h⟩ => ⟨dest, .inl h⟩
  · obtain ⟨-, rfl⟩ := Prod.mk.inj (Option.some.inj hload)
    exact .inr ⟨dest, .inr hblocks⟩

theorem gone_freeDest (h : m.blocks.Gone k) : m.freeDest.Gone k := by
  rw [freeDest]
  cases m.dest with
  | none => exact h
  | some dest => exact h.free

theorem gone_load (hgone : m.freeDest.Gone k) (hload : act.load? = some (credential, client, size, malloc, got))
    (h : step m act = some m') : m'.blocks.Gone k := by
  rw [step_load hload] at h
  rcases load_blocks h with hblocks | ⟨dest, hblocks | hblocks⟩
  · rwa [hblocks]
  · rw [hblocks]
    exact hgone.alloc.free
  · rw [hblocks]
    exact hgone.alloc

theorem gone_step (hgone : m.blocks.Gone k) (h : step m act = some m') : m'.blocks.Gone k := by
  cases hload : act.load? with
  | some x => exact gone_load (gone_freeDest hgone) hload h
  | none =>
    cases act with
    | loadCACert | loadCertificate | loadPrivateKey => cases hload
    | set c f ptr =>
      obtain rfl := Option.some.inj h
      exact hgone
    | alloc x content =>
      rw [step] at h
      split at h
      · cases h
      · obtain rfl := Option.some.inj h
        exact hgone.alloc
    | free x =>
      rw [step] at h
      split at h
      · cases h
      · obtain rfl := Option.some.inj h
        exact hgone.free

/-- `dest` points to the block `k`. -/
def Held (m : CredentialMemory) (a k : Nat) (got : Bytes) : Prop := m.dest = some a ∧ m.blocks.heap a = some ⟨k, got⟩

theorem Held.step (hheld : m.Held a k got) (hload : act.isLoad = false) (h : step m act = some m') : m'.Held a k got := by
  cases act with
  | loadCACert | loadCertificate | loadPrivateKey => cases hload
  | set c f ptr =>
    obtain rfl := Option.some.inj h
    exact hheld
  | alloc x content =>
    rw [CredentialMemory.step] at h
    split at h
    · cases h
    · rename_i hfree
      obtain rfl := Option.some.inj h
      have hne : a ≠ x := by
        rintro rfl
        simp [hheld.2] at hfree
      exact ⟨hheld.1, (Blocks.heap_alloc_ne hne).trans hheld.2⟩
  | free x =>
    rw [CredentialMemory.step] at h
    split at h
    · cases h
    · rename_i hother
      obtain rfl := Option.some.inj h
      have hne : a ≠ x := by
        rintro rfl
        exact hother hheld.1
      exact ⟨hheld.1, (Blocks.heap_free_ne hne).trans hheld.2⟩

theorem Held.load (hheld : m.Held a k got) (hload : act.isLoad = true) (h : CredentialMemory.step m act = some m') : m'.blocks.Gone k := by
  obtain ⟨x, hx⟩ := Option.isSome_iff_exists.mp hload
  refine gone_load ?_ hx h
  rw [freeDest, hheld.1]
  exact Blocks.gone_free hheld.2

theorem gone_exec {acts : List Action} (hgone : m.blocks.Gone k) (h : exec acts m = some m') : m'.blocks.Gone k := by
  induction acts generalizing m with
  | nil =>
    obtain rfl := Option.some.inj h
    exact hgone
  | cons act acts ih =>
    obtain ⟨m₁, hstep, h⟩ := Option.bind_eq_some_iff.mp h
    exact ih (gone_step hgone hstep) h

theorem Held.exec {acts : List Action} (hheld : m.Held a k got) (h : exec acts m = some m') :
    if acts.any Action.isLoad then m'.blocks.Gone k else m'.Held a k got := by
  induction acts generalizing m with
  | nil =>
    obtain rfl := Option.some.inj h
    exact hheld
  | cons act acts ih =>
    obtain ⟨m₁, hstep, h⟩ := Option.bind_eq_some_iff.mp h
    cases hload : act.isLoad with
    | false =>
      rw [List.any_cons, hload, Bool.false_or]
      exact ih (hheld.step hload hstep) h
    | true =>
      rw [List.any_cons, hload, Bool.true_or]
      exact gone_exec (hheld.load hload hstep) h

/-! ## The pointers -/

theorem setPointer_self {ptr : Option Nat} : (m.setPointer client credential ptr).pointers client credential = ptr := by
  simp [setPointer]

theorem setPointer_other {c : Nat} {f : Credential} {ptr : Option Nat} (h : ¬ (c = client ∧ f = credential)) :
    (m.setPointer c f ptr).pointers client credential = m.pointers client credential := by
  by_cases hc : client = c
  · subst hc
    have hf : credential ≠ f := fun hf => h ⟨rfl, hf.symm⟩
    simp [setPointer, Function.update_of_ne hf]
  · simp [setPointer, Function.update_of_ne hc]

theorem pointer_step (hother : act.assigns client credential = false) (hload : act.isLoad = false) (h : step m act = some m') :
    m'.pointers client credential = m.pointers client credential := by
  cases act with
  | loadCACert | loadCertificate | loadPrivateKey => cases hload
  | set c f ptr =>
    obtain rfl := Option.some.inj h
    exact setPointer_other (by simpa [Action.assigns] using hother)
  | alloc x content =>
    rw [step] at h
    split at h
    · cases h
    · obtain rfl := Option.some.inj h
      rfl
  | free x =>
    rw [step] at h
    split at h
    · cases h
    · obtain rfl := Option.some.inj h
      rfl

theorem pointer_exec {acts : List Action} (hkept : ∀ act ∈ acts, act.assigns client credential = false)
    (hnone : ∀ act ∈ acts, act.isLoad = false) (h : exec acts m = some m') :
    m'.pointers client credential = m.pointers client credential := by
  induction acts generalizing m with
  | nil =>
    obtain rfl := Option.some.inj h
    rfl
  | cons act acts ih =>
    obtain ⟨m₁, hstep, h⟩ := Option.bind_eq_some_iff.mp h
    have hfirst := pointer_step (hkept act List.mem_cons_self) (hnone act List.mem_cons_self) hstep
    exact (ih (fun x hx => hkept x (List.mem_cons_of_mem act hx)) (fun x hx => hnone x (List.mem_cons_of_mem act hx)) h).trans hfirst

theorem load_held (hload : act.load? = some (credential, client, got.length, some a, got)) (h : step m act = some m') :
    m'.Held a m.blocks.clock got ∧ m'.pointers client credential = some a := by
  rw [step_load hload] at h
  obtain ⟨⟨ok, m₁⟩, hl, rfl⟩ := Option.map_eq_some_iff.mp h
  obtain ⟨⟨ptr, m₂⟩, hstream, hl⟩ := Option.bind_eq_some_iff.mp hl
  rw [streamLoad] at hstream
  dsimp only at hstream
  split at hstream
  · cases hstream
  · rw [if_neg (fun hne => hne rfl)] at hstream
    obtain ⟨rfl, rfl⟩ := Prod.mk.inj (Option.some.inj hstream)
    obtain ⟨-, rfl⟩ := Prod.mk.inj (Option.some.inj hl)
    refine ⟨⟨rfl, ?_⟩, setPointer_self⟩
    rw [← freeDest_clock]
    exact Blocks.heap_alloc_self

/-- **A credential that was loaded lasts until the next load**, of whatever
credential by whichever client, whether that succeeds or not: only until then
does the pointer of the client lead to the block that was loaded. -/
theorem loaded_intact_iff {m₁ m₂ : CredentialMemory} (hload : act.load? = some (credential, client, got.length, some a, got))
    (hstep : step m act = some m₁) {acts : List Action} (hrun : exec acts m₁ = some m₂)
    (hkept : ∀ x ∈ acts, x.assigns client credential = false) :
    (m₂.pointers client credential).bind m₂.blocks.heap = some ⟨m.blocks.clock, got⟩ ↔ ∀ x ∈ acts, x.isLoad = false := by
  obtain ⟨hheld, hpointer⟩ := load_held hload hstep
  have hlast := hheld.exec hrun
  cases hany : acts.any Action.isLoad with
  | false =>
    rw [hany] at hlast
    have hnone : ∀ x ∈ acts, x.isLoad = false := by simpa using hany
    refine ⟨fun _ => hnone, fun _ => ?_⟩
    rw [pointer_exec hkept hnone hrun, hpointer]
    exact hlast.2
  | true =>
    rw [hany] at hlast
    obtain ⟨x, hx, htrue⟩ := List.any_eq_true.mp hany
    refine ⟨fun hblock => ?_, fun hnone => ?_⟩
    · obtain ⟨b, -, hheap⟩ := Option.bind_eq_some_iff.mp hblock
      exact absurd rfl (hlast.2 b _ hheap)
    · rw [hnone x hx] at htrue
      cases htrue

/-- A CA and a certificate are loaded, and `malloc` gives the same address again. -/
def both : List Action := [.loadCACert 0 1 (some 8) [65], .loadCertificate 0 1 (some 8) [66]]

/-- The pointer to the CA leads to the certificate then. -/
theorem loaded_intact_both : ∃ m, exec both {} = some m ∧ (m.pointers 0 .caCert).bind m.blocks.heap = some ⟨1, [66]⟩ ∧
    (m.pointers 0 .caCert).bind m.blocks.heap ≠ some ⟨0, [65]⟩ := by
  have hend : (exec both {}).map (fun m => (m.pointers 0 .caCert).bind m.blocks.heap) = some (some ⟨1, [66]⟩) := by decide +kernel
  obtain ⟨m, hrun, hblock⟩ := Option.map_eq_some_iff.mp hend
  obtain ⟨m₁, hstep, hrest⟩ := Option.bind_eq_some_iff.mp hrun
  have hload : (Action.loadCACert 0 1 (some 8) [65]).load? = some (.caCert, 0, [65].length, some 8, [65]) := rfl
  refine ⟨m, hrun, hblock, fun hintact => ?_⟩
  have hnone := (loaded_intact_iff hload hstep hrest (by decide)).mp hintact
  exact absurd (hnone _ List.mem_cons_self) (by decide)

end CredentialMemory

end FEmbed
