/-
The credentials of a url: when a request head has an Authorization line, and
what it says.

`beginInternal` stores the userinfo of the url it is given, and leaves what
is stored where the url has none. So credentials stay for all later targets,
and a run keeps them apart only if no url without a userinfo follows one that
has it (`Op.credentialsFit`).
-/
import FEmbedLwip.HTTPHeads

namespace FEmbed

open Live
open Prog (Guarantee Guarantees)

/-! ## Urls -/

theorem take_takeWhile_length {p : UInt8 → Bool} (s : Bytes) : s.take (s.takeWhile p).length = s.takeWhile p :=
  (List.prefix_iff_eq_take.mp (List.takeWhile_prefix p)).symm

theorem drop_takeWhile_length {p : UInt8 → Bool} (s : Bytes) : s.drop (s.takeWhile p).length = s.dropWhile p := by
  have h := congrArg (List.drop (s.takeWhile p).length) (List.takeWhile_append_dropWhile (p := p) (l := s))
  rw [List.drop_left] at h
  exact h.symm

theorem takeWhile_of_not_mem {s : Bytes} {c : UInt8} (h : c ∉ s) : s.takeWhile (· != c) = s :=
  List.takeWhile_eq_self_iff.mpr fun _ hb => bne_iff_ne.mpr fun hbc => h (hbc ▸ hb)

namespace HTTPClient

variable {C : Type} {net : Connection C}

/-- The parts of a url, by its delimiters. -/
def urlProtocol (url : Bytes) : Bytes := url.takeWhile (· != 58)

def urlAfterProtocol (url : Bytes) : Bytes := (url.dropWhile (· != 58)).drop 3

def urlAuthority (url : Bytes) : Bytes := (urlAfterProtocol url).takeWhile (· != 47)

/-- The userinfo of a url, in front of the `@` of its authority. -/
def userinfo (url : Bytes) : Option Bytes :=
  if 64 ∈ urlAuthority url then some ((urlAuthority url).takeWhile (· != 64)) else none

theorem cutAt_eq (s : Bytes) (c : UInt8) :
    (cutAt s c).map (·.1) = if c ∈ s then some (s.takeWhile (· != c)) else none := by
  rw [cutAt, Str.indexOf_eq]
  by_cases h : c ∈ s
  · rw [if_pos h, if_pos h, if_pos (by omega), Int.toNat_natCast, Str.substring, if_pos (Nat.zero_le _)]
    simp [take_takeWhile_length]
  · rw [if_neg h, if_neg h, if_neg (by omega)]
    rfl

/-- `parseUrl` cuts the userinfo where it is. -/
theorem parseUrl_auth {url : Bytes} (hlen : url.length < 2 ^ 32) : (parseUrl (urlAfterProtocol url)).auth = userinfo url := by
  have hafter : (urlAfterProtocol url).length < 2 ^ 32 := by
    have := (List.dropWhile_suffix (p := (· != 58)) (l := url)).length_le
    rw [urlAfterProtocol, List.length_drop]
    omega
  have hhost : Str.substring (urlAfterProtocol url) 0 (sizeT (Str.indexOf (urlAfterProtocol url) 47)) = urlAuthority url := by
    rw [Str.substring, if_pos (Nat.zero_le _), List.drop_zero, Str.indexOf_eq, urlAuthority]
    split
    · have hle := (List.takeWhile_prefix (p := (· != 47)) (l := urlAfterProtocol url)).length_le
      rw [sizeT_natCast (by omega), take_takeWhile_length]
    · rename_i hno
      rw [takeWhile_of_not_mem hno, List.take_of_length_le]
      have : sizeT (-1) = 2 ^ 32 - 1 := by decide
      omega
  rw [parseUrl, hhost, userinfo, ← cutAt_eq]
  dsimp only
  cases cutAt (urlAuthority url) 64 with
  | none => dsimp only; split <;> rfl
  | some r => dsimp only; split <;> rfl

/-! ## `begin` with a url -/

/-- The protocols the client knows. -/
def knownProtocol (url : Bytes) : Prop := urlProtocol url = bytes "http" ∨ urlProtocol url = bytes "https"

/-- The port that a protocol stands for. -/
def defaultPort (url : Bytes) : Nat := if urlProtocol url = bytes "https" then 443 else 80

/-- The client told of a url: its target, with no header fields; the credentials
are those of the url if it has any. -/
structure Begun (net : Connection C) (url : Bytes) (c c' : HTTPClient C) : Prop where
  uri : c'._uri = (parseUrl (urlAfterProtocol url)).uri
  host : c'._host = (parseUrl (urlAfterProtocol url)).host
  port : c'._port = (parseUrl (urlAfterProtocol url)).port.getD (defaultPort url)
  reuse : c'._reuse = c._reuse
  useHTTP10 : c'._useHTTP10 = c._useHTTP10
  userAgent : c'._userAgent = c._userAgent
  headers : c'._headers = []
  authorization : match (parseUrl (urlAfterProtocol url)).auth with
    | some auth => c'._base64Authorization = net.base64Encode auth
    | none => c'._base64Authorization = c._base64Authorization ∨
        c'._base64Authorization = c._base64Authorization.filter (· != 10)

theorem beginInternal_returns {url expected : Bytes} (hcolon : 58 ∈ url) {s : Live C (HTTPClient C)} {b s'}
    (h : (beginInternal net url expected).Returns s b s') :
    (urlProtocol url = expected ∧ b = true ∧ s'.self = setTarget net (parseUrl (urlAfterProtocol url)) { s.self with
      _returnCode := 0, _size := -1, _headers := [], _protocol := expected }) ∨
    (urlProtocol url ≠ expected ∧ b = false ∧ unsent.rel s s') := by
  have hindex : Str.indexOf url 58 = ((url.takeWhile (· != 58)).length : Int) := by rw [Str.indexOf_eq, if_pos hcolon]
  have hprotocol : Str.substring url 0 (url.takeWhile (· != 58)).length = urlProtocol url := by
    rw [Str.substring, if_pos (Nat.zero_le _), List.drop_zero, take_takeWhile_length, urlProtocol]
  have hrest : Str.remove url 0 ((url.takeWhile (· != 58)).length + 3) = urlAfterProtocol url := by
    rw [Str.remove, List.take_zero, List.nil_append, Nat.zero_add, ← List.drop_drop, drop_takeWhile_length, urlAfterProtocol]
  rw [beginInternal, clear, returns_set_bind, hindex] at h
  dsimp only at h
  rw [if_neg (by omega), Int.toNat_natCast, hprotocol, hrest, returns_set_bind] at h
  rcases Prog.returns_ite.mp h with ⟨hne, h⟩ | ⟨heq, h⟩
  · obtain ⟨rfl, rfl⟩ := Prog.returns_pure.mp h
    exact .inr ⟨hne, rfl, ⟨rfl, rfl, rfl, rfl, rfl, rfl, .inl rfl, .inr rfl⟩, rfl⟩
  · have heq : urlProtocol url = expected := by simpa using heq
    rw [returns_set_bind] at h
    obtain ⟨rfl, rfl⟩ := Prog.returns_pure.mp h
    exact .inl ⟨heq, rfl, by rw [heq]⟩

/-- What is assigned in front of it is the port, and behind it nothing of the head. -/
theorem begun_target (net : Connection C) (url : Bytes) (c : HTTPClient C) (traits : Option TransportTraits) (secure : Bool)
    (protocol : Bytes) : Begun net url c { setTarget net (parseUrl (urlAfterProtocol url)) { c with
      _port := defaultPort url, _returnCode := 0, _size := -1, _headers := [], _protocol := protocol } with
      _transportTraits := traits, _secure := secure } := by
  refine ⟨rfl, rfl, rfl, rfl, rfl, rfl, rfl, ?_⟩
  dsimp only [setTarget]
  cases (parseUrl (urlAfterProtocol url)).auth with
  | some auth => rfl
  | none => exact .inl rfl

/-- What is in front of a `begin` may have set the port. -/
theorem Begun.behind {url : Bytes} {c t c' : HTTPClient C} (h : Begun net url t c') {port : Nat}
    (ht : SameHead { c with _port := port } t) : Begun net url c c' := by
  refine ⟨h.uri, h.host, h.port, h.reuse.trans ht.reuse, h.useHTTP10.trans ht.useHTTP10, h.userAgent.trans ht.userAgent,
    h.headers, ?_⟩
  have hauth := h.authorization
  have hkept := ht.authorization
  cases hurl : (parseUrl (urlAfterProtocol url)).auth with
  | some auth => rwa [hurl] at hauth
  | none =>
    rw [hurl] at hauth
    rcases hauth with ha | ha <;> rcases hkept with hk | hk <;> rw [ha, hk]
    · exact .inl rfl
    · exact .inr rfl
    · exact .inr rfl
    · exact .inr (by simp)

theorem beginUrlCert_returns {url : Bytes} (hcolon : 58 ∈ url) (hsecure : urlProtocol url = bytes "https")
    {CAcert : Option Bytes} {s : Live C (HTTPClient C)} {b s'} (h : (beginUrlCert net url CAcert).Returns s b s') :
    Begun net url s.self s'.self := by
  obtain ⟨_, t, hleave, h⟩ := Prog.returns_bind.mp h
  have ht : unsent.rel s t := unsent_allows.leaveClient s _ t hleave
  rw [returns_set_bind] at h
  obtain ⟨b', u, hint, h⟩ := Prog.returns_bind.mp h
  rcases beginInternal_returns hcolon hint with ⟨_, rfl, hu⟩ | ⟨hne, _, _⟩
  · rw [if_neg (by simp), returns_set_bind] at h
    obtain ⟨_, rfl⟩ := Prog.returns_pure.mp h
    refine Begun.behind ?_ (show SameHead { s.self with _port := s.self._port } t.self from ht.1)
    have htarget := begun_target net url t.self (some (.tls CAcert none none)) true (bytes "https")
    rw [defaultPort, if_pos hsecure] at htarget
    rw [hu]
    exact htarget
  · exact absurd hsecure hne

theorem beginUrl_returns {url : Bytes} (hcolon : 58 ∈ url) (hknown : knownProtocol url) {s : Live C (HTTPClient C)} {b s'}
    (h : (beginUrl net url).Returns s b s') : Begun net url s.self s'.self := by
  obtain ⟨_, t, hleave, h⟩ := Prog.returns_bind.mp h
  have ht : unsent.rel s t := unsent_allows.leaveClient s _ t hleave
  rw [returns_set_bind] at h
  obtain ⟨b', u, hint, h⟩ := Prog.returns_bind.mp h
  rcases beginInternal_returns hcolon hint with ⟨hplain, rfl, hu⟩ | ⟨hne, rfl, hu⟩
  · rw [if_neg (by simp), returns_set_bind] at h
    obtain ⟨_, rfl⟩ := Prog.returns_pure.mp h
    refine Begun.behind ?_ (show SameHead { s.self with _port := s.self._port } t.self from ht.1)
    have htarget := begun_target net url t.self (some .plain) t.self._secure (bytes "http")
    rw [defaultPort, hplain, if_neg (by decide)] at htarget
    rw [hu]
    exact htarget
  · -- the overload for https begins anew
    rw [if_pos (by simp)] at h
    have hbegun := beginUrlCert_returns hcolon (hknown.resolve_left hne) h
    exact (hbegun.behind hu.1).behind (show SameHead { s.self with _port := s.self._port } t.self from ht.1)

theorem beginClient_returns {client : Option Ref} {url : Bytes} (hcolon : 58 ∈ url) (hknown : knownProtocol url)
    {s : Live C (HTTPClient C)} {b s'} (h : (beginClient net client url).Returns s b s') : Begun net url s.self s'.self := by
  have hindex : Str.indexOf url 58 = ((url.takeWhile (· != 58)).length : Int) := by rw [Str.indexOf_eq, if_pos hcolon]
  have hprotocol : Str.substring url 0 (url.takeWhile (· != 58)).length = urlProtocol url := by
    rw [Str.substring, if_pos (Nat.zero_le _), List.drop_zero, take_takeWhile_length, urlProtocol]
  obtain ⟨_, t, hleave, h⟩ := Prog.returns_bind.mp h
  obtain ⟨_, u, hassign, h⟩ := Prog.returns_bind.mp h
  have hu : unsent.rel s u := unsent.trans (unsent_allows.leaveDeprecated s _ t hleave) (unsent_allows.assignClient t _ u hassign)
  rw [hindex] at h
  dsimp only at h
  have hok : ¬ (urlProtocol url ≠ bytes "http" ∧ urlProtocol url ≠ bytes "https") := fun hne => hknown.elim hne.1 hne.2
  rw [if_neg (by omega), Int.toNat_natCast, hprotocol, if_neg hok, returns_set_bind] at h
  rcases beginInternal_returns hcolon h with ⟨_, rfl, hs'⟩ | ⟨hne, _, _⟩
  · refine Begun.behind ?_ (show SameHead { s.self with _port := s.self._port } u.self from hu.1)
    rw [hs']
    exact begun_target net url u.self u.self._transportTraits u.self._secure (urlProtocol url)
  · exact absurd rfl hne

/-! ## What a history has told the client -/

/-- The url of an operation, if it has one. -/
def Op.url : Op C → Option Bytes
  | .beginClient _ url => some url
  | .beginUrl url => some url
  | .beginUrlCert url _ => some url
  | _ => none

/-- The most recent url. -/
def lastUrl : List (Op C × Int) → Option Bytes
  | [] => none
  | (op, _) :: hist => op.url <|> lastUrl hist

/-- `_reuse` and `_useHTTP10`. -/
def Op.switch : Op C → Bool × Bool → Bool × Bool
  | .setReuse reuse, flags => (reuse, flags.2)
  | .useHTTP10 use, _ => (!use, use)
  | _, flags => flags

def switches (hist : List (Op C × Int)) : Bool × Bool := hist.foldr (fun call => call.1.switch) (true, false)

/-- The credentials of a url, encoded. -/
def credentials (net : Connection C) (url : Option Bytes) : Bytes := ((url.bind userinfo).map net.base64Encode).getD []

/-- The host, the port and the path of a url. -/
def target : Option Bytes → Bytes × Nat × Bytes
  | none => ([], 0, [])
  | some url =>
    let parts := parseUrl (urlAfterProtocol url)
    (parts.host, parts.port.getD (defaultPort url), parts.uri)

/-- What a head is made of, after a history. -/
structure Told (net : Connection C) (url : Option Bytes) (flags : Bool × Bool) (c : HTTPClient C) : Prop where
  named : url.bind userinfo ≠ some []
  target : (c._host, c._port, c._uri) = target url
  switched : (c._reuse, c._useHTTP10) = flags
  userAgent : c._userAgent = bytes "CustomHTTPClient"
  stored : c._base64Authorization = credentials net url ∨
    c._base64Authorization = (credentials net url).filter (· != 10)
  headers : c._headers = [] ∨ ∃ n, c._headers = contentLength ++ bytes ": " ++ Str.ofNat n ++ bytes "\r\n"

variable {url : Option Bytes} {flags : Bool × Bool}

theorem Told.of_same {c c' : HTTPClient C} (h : Told net url flags c) (hs : SameHead c c') : Told net url flags c' := by
  refine ⟨h.named, by rw [hs.host, hs.port, hs.uri, h.target], by rw [hs.reuse, hs.useHTTP10, h.switched], hs.userAgent.trans h.userAgent, ?_, ?_⟩
  · rcases h.stored with ha | ha <;> rcases hs.authorization with hk | hk <;> rw [hk, ha]
    · exact .inl rfl
    · exact .inr rfl
    · exact .inr rfl
    · exact .inr (by simp)
  · rcases hs.headers with hk | hk <;> rw [hk]
    · exact h.headers
    · exact .inl rfl

/-- A url with its own credentials, or one for a client that has none. -/
theorem Told.of_begun {c c' : HTTPClient C} (h : Told net url flags c) {next : Bytes} (hb : Begun net next c c')
    (hlen : next.length < 2 ^ 32) (hnamed : userinfo next ≠ some []) (hnone : userinfo next = none → c._base64Authorization = []) :
    Told net (some next) flags c' := by
  refine ⟨hnamed, by rw [hb.host, hb.port, hb.uri]; rfl, by rw [hb.reuse, hb.useHTTP10, h.switched], hb.userAgent.trans h.userAgent, ?_, .inl hb.headers⟩
  have hauth := hb.authorization
  rw [parseUrl_auth hlen] at hauth
  cases hu : userinfo next with
  | some auth =>
    rw [hu] at hauth
    exact .inl (by rw [hauth, credentials, Option.bind_some, hu]; rfl)
  | none =>
    rw [hu, hnone hu] at hauth
    refine .inl ?_
    rw [credentials, Option.bind_some, hu]
    rcases hauth with ha | ha <;> exact ha

theorem Str.indexOfStr_prefix {s t : Bytes} (h : t <+: s) : Str.indexOfStr s t = 0 := by
  have key : s.tails.findIdx? (t.isPrefixOf ·) = some 0 := by
    cases s <;> simp [List.tails, List.findIdx?_cons, List.isPrefixOf_iff_prefix.mpr h]
  rw [Str.indexOfStr, key]
  rfl

/-- The only line of `_headers` is taken out whole. -/
theorem cutHeader_line {headerLine value : Bytes} (hlf : 10 ∉ headerLine ++ value)
    (hlen : (headerLine ++ value ++ [10]).length < 2 ^ 32) : cutHeader (headerLine ++ value ++ [10]) headerLine = [] := by
  have hstart : Str.indexOfStr (headerLine ++ value ++ [10]) headerLine = 0 :=
    Str.indexOfStr_prefix ⟨value ++ [10], by rw [List.append_assoc]⟩
  have hend : Str.indexOfFrom (headerLine ++ value ++ [10]) 10 0 = (0 + (headerLine ++ value).length : Nat) :=
    Str.indexOfFrom_line rfl hlf
  have hsize : sizeT (((0 + (headerLine ++ value).length : Nat) : Int) + 1) = (headerLine ++ value ++ [10]).length := by
    rw [show ((0 + (headerLine ++ value).length : Nat) : Int) + 1 = ((headerLine ++ value ++ [10]).length : Nat) by simp; omega,
      sizeT_natCast hlen]
  rw [cutHeader, hstart]
  dsimp only
  rw [if_pos (by decide), Int.toNat_zero, hend, hsize, Str.substring, Str.substringFrom, Str.substring, if_pos (Nat.zero_le _),
    if_pos (Nat.le_refl _), List.take_zero, List.take_length, List.drop_length]
  rfl

theorem Told.withLength {c : HTTPClient C} (h : Told net url flags c) (hlen : c._headers.length < 2 ^ 32) (n : Option Nat) :
    Told net url flags (withLength n c) := by
  cases n with
  | none => exact h
  | some n =>
    refine ⟨h.named, h.target, h.switched, h.userAgent, h.stored, .inr ⟨n, ?_⟩⟩
    have hcut : cutHeader c._headers (contentLength ++ bytes ": ") = [] := by
      rcases h.headers with hnil | ⟨m, hm⟩
      · rw [hnil]
        decide
      · have hline : c._headers = contentLength ++ bytes ": " ++ (Str.ofNat m ++ [13]) ++ [10] := by
          rw [hm, crlf_eq]
          simp only [List.append_assoc]
        rw [hline] at hlen ⊢
        refine cutHeader_line ?_ hlen
        simp only [List.mem_append, not_or]
        exact ⟨⟨by decide, by decide⟩, Str.ofNat_noLf m, by decide⟩
    rw [HTTPClient.withLength, putHeader, if_pos rfl, if_neg (by decide), hcut]
    rfl

/-! ## Operations -/

def authorization : Bytes := bytes "Authorization"

/-- What an application calls that names its targets by urls and leaves the
credentials to them. -/
def Op.byUrl (c : HTTPClient C) : Op C → Prop
  | .beginClient _ url => url.length < 2 ^ 32
  | .beginUrl url => url.length < 2 ^ 32
  | .beginUrlCert url _ => url.length < 2 ^ 32
  | .sendRequest type _ => headFields authorization (headStart c type) = [] ∧ c._headers.length < 2 ^ 32
  | .sendRequestStream type _ _ => headFields authorization (headStart c type) = [] ∧ c._headers.length < 2 ^ 32
  | .end_ | .setReuse _ | .useHTTP10 _ | .setTimeout _ | .collectHeaders _ | .writeToStream _ | .getString _ => True
  | .beginClientHost .. | .beginHost .. | .beginHostCert .. | .setAuthorization .. | .addHeader .. => False

/-- Whether a `begin` takes its url. -/
def Op.accepted : Op C → Prop
  | .beginClient _ url => 58 ∈ url ∧ knownProtocol url
  | .beginUrl url => 58 ∈ url ∧ knownProtocol url
  | .beginUrlCert url _ => 58 ∈ url ∧ urlProtocol url = bytes "https"
  | _ => True

/-- A `begin` takes its url, which has credentials of its own if there are some
already. -/
def Op.credentialsFit (c : HTTPClient C) (op : Op C) : Prop :=
  op.accepted ∧ ∀ url ∈ op.url, userinfo url ≠ some [] ∧ (userinfo url = none → c._base64Authorization = [])

theorem Op.told {hist : List (Op C × Int)} {op : Op C} {s s' : Live C (HTTPClient C)} {rc : Int}
    (ht : Told net (lastUrl hist) (switches hist) s.self) (hurl : op.byUrl s.self) (hfit : op.credentialsFit s.self)
    (h : (op.run net).Returns s rc s') : Told net (lastUrl ((op, rc) :: hist)) (switches ((op, rc) :: hist)) s'.self := by
  have A : Allows (unsent : Guarantee (Live C (HTTPClient C))) := unsent_allows
  have begun {url : Bytes} (hop : op.url = some url) (hlen : url.length < 2 ^ 32) {flags : Bool × Bool}
      (ht : Told net (lastUrl hist) flags s.self) (hb : Begun net url s.self s'.self) : Told net (some url) flags s'.self :=
    have hown := hfit.2 url hop
    ht.of_begun hb hlen hown.1 hown.2
  have requested {type : Bytes} {n : Option Nat} (hlen : s.self._headers.length < 2 ^ 32) (hr : Requested type n s s') :
      Told net (lastUrl hist) (switches hist) s'.self := by
    obtain h | ⟨c, hsame, hheaders, hs', _⟩ := hr
    · exact ht.of_same h.1
    · exact ((ht.of_same hsame).withLength (hheaders ▸ hlen) n).of_same hs'
  have kept {x : Prog (Live C (HTTPClient C)) Int} (hx : x.Guarantees unsent) (h : x.Returns s rc s') :
      Told net (lastUrl hist) (switches hist) s'.self := ht.of_same (hx s rc s' h).1
  cases op with
  | beginClient client url =>
    obtain ⟨b, t, hb, h⟩ := Prog.returns_bind.mp h
    obtain ⟨_, rfl⟩ := Prog.returns_pure.mp h
    exact begun rfl hurl ht (beginClient_returns hfit.1.1 hfit.1.2 hb)
  | beginUrl url =>
    obtain ⟨b, t, hb, h⟩ := Prog.returns_bind.mp h
    obtain ⟨_, rfl⟩ := Prog.returns_pure.mp h
    exact begun rfl hurl ht (beginUrl_returns hfit.1.1 hfit.1.2 hb)
  | beginUrlCert url CAcert =>
    obtain ⟨b, t, hb, h⟩ := Prog.returns_bind.mp h
    obtain ⟨_, rfl⟩ := Prog.returns_pure.mp h
    exact begun rfl hurl ht (beginUrlCert_returns hfit.1.1 hfit.1.2 hb)
  | sendRequest type payload => exact requested hurl.2 (sendRequest_returns h)
  | sendRequestStream type stream size => exact requested hurl.2 (sendRequestStream_returns h)
  | setReuse reuse =>
    obtain ⟨_, t, hb, h⟩ := Prog.returns_bind.mp h
    obtain ⟨_, rfl⟩ := Prog.returns_pure.mp h
    have hflag : s.self._useHTTP10 = (switches hist).2 := congrArg Prod.snd ht.switched
    rw [returns_set.mp hb]
    exact ⟨ht.named, ht.target, Prod.ext rfl hflag, ht.userAgent, ht.stored, ht.headers⟩
  | useHTTP10 use =>
    obtain ⟨_, t, hb, h⟩ := Prog.returns_bind.mp h
    obtain ⟨_, rfl⟩ := Prog.returns_pure.mp h
    rw [returns_set.mp hb]
    exact ⟨ht.named, ht.target, rfl, ht.userAgent, ht.stored, ht.headers⟩
  | end_ => exact kept (.bind A.settles.end_ fun _ => .pure) h
  | setTimeout t =>
    have same (s : Live C (HTTPClient C)) (t : Nat) : unsent.rel s ⟨{ s.self with _tcpTimeout := t }, s.env⟩ :=
      unsent_same ⟨rfl, rfl, rfl, rfl, rfl, rfl, .inl rfl, .inl rfl⟩ rfl
    exact kept (.bind (A.settles.setTimeout same) fun _ => .pure) h
  | collectHeaders headerKeys =>
    refine kept (.bind (guarantees_set fun s => ?_) fun _ => .pure) h
    exact unsent_same ⟨rfl, rfl, rfl, rfl, rfl, rfl, .inl rfl, .inl rfl⟩ rfl
  | writeToStream stream => exact kept A.settles.writeToStream h
  | getString string => exact kept (.bind A.settles.getString fun _ => .pure) h
  | beginClientHost | beginHost | beginHostCert | setAuthorization | addHeader => exact hurl.elim

theorem Told.of_run {hist : List (Op C × Int)} {s : Live C (HTTPClient C)}
    (h : Run net (fun c op => op.byUrl c ∧ op.credentialsFit c) hist s) : Told net (lastUrl hist) (switches hist) s.self := by
  induction h with
  | construct => exact ⟨nofun, rfl, rfl, rfl, .inl rfl, .inl rfl⟩
  | step _ hok h ih => exact Op.told ih hok.1 hok.2 h

/-! ## Heads -/

/-- The Authorization line of each head that an operation has written is that
of the most recent url, if the url has credentials. -/
def OwnCredentials (net : Connection C) (hist : List (Op C × Int)) (s s' : Live C (HTTPClient C)) : Prop :=
  ∀ h ∈ s'.self.heads.drop s.self.heads.length, headFields authorization h.text =
    (((lastUrl hist).bind userinfo).map fun auth =>
      bytes "Authorization: Basic " ++ (net.base64Encode auth).filter (· != 10) ++ [13]).toList

/-- Two operations write the same heads, as far as both write any. -/
def SameHeads (s s' t t' : Live C (HTTPClient C)) : Prop :=
  ∀ h ∈ s'.self.heads.drop s.self.heads.length, ∀ h' ∈ t'.self.heads.drop t.self.heads.length, h.text = h'.text

theorem Told.filter_authorization {c : HTTPClient C} (h : Told net url flags c) :
    c._base64Authorization.filter (· != 10) = (credentials net url).filter (· != 10) := by
  rcases h.stored with ha | ha <;> rw [ha]
  simp

/-- The text of a head, from what a history has told. -/
theorem Told.headText_eq {c c' : HTTPClient C} (h : Told net url flags c) (h' : Told net url flags c')
    (hheaders : c'._headers = c._headers) (hb : c._base64Authorization = [] ↔ c'._base64Authorization = []) (type : Bytes) :
    headText c type = headText c' type := by
  obtain ⟨hhost, hport, huri⟩ : c._host = c'._host ∧ c._port = c'._port ∧ c._uri = c'._uri := by
    simpa using h.target.trans h'.target.symm
  obtain ⟨hreuse, h10⟩ : c._reuse = c'._reuse ∧ c._useHTTP10 = c'._useHTTP10 := by
    simpa using h.switched.trans h'.switched.symm
  rw [headText, headText, hhost, hport, huri, hreuse, h10, h.userAgent, h'.userAgent, hheaders, h.filter_authorization,
    h'.filter_authorization]
  simp only [ne_eq, hb]

/-- The heads of a request are made of what a history has told. -/
theorem Requested.told {type : Bytes} {n : Option Nat} {s s' : Live C (HTTPClient C)} (hr : Requested type n s s')
    (ht : Told net url flags s.self) (hlen : s.self._headers.length < 2 ^ 32) :
    ∀ h ∈ s'.self.heads.drop s.self.heads.length, ∃ c, Told net url flags c ∧ headStart c type = headStart s.self type ∧
      c._headers = (withLength n s.self)._headers ∧ h.text = headText c type := by
  obtain h | ⟨c, hsame, hheaders, hs', hs, heads, htext⟩ := hr
  · rw [h.2, List.drop_length]
    exact nofun
  · rw [heads, List.drop_left]
    refine fun h hmem => ⟨withLength n c, (ht.of_same hsame).withLength (hheaders ▸ hlen) n, ?_, ?_, htext h hmem⟩
    · rw [← hsame.headStart]
      cases n <;> rfl
    · cases n with
      | none => exact hheaders
      | some n => rw [withLength, withLength, hheaders]

section Base64

variable (hbase64 : ∀ auth, auth ≠ [] → (net.base64Encode auth).filter (· != 10) ≠ [])

include hbase64

/-- There are stored credentials where the url has some. -/
theorem Told.authorization_nil {c : HTTPClient C} (h : Told net url flags c) :
    c._base64Authorization = [] ↔ url.bind userinfo = none := by
  have hfilter := h.filter_authorization
  cases hu : url.bind userinfo with
  | none =>
    have hnil : credentials net url = [] := by rw [credentials, hu]; rfl
    rcases h.stored with ha | ha <;> rw [ha, hnil] <;> simp
  | some auth =>
    have hne : auth ≠ [] := fun hnil => h.named (hnil ▸ hu)
    have hc : credentials net url = net.base64Encode auth := by rw [credentials, hu]; rfl
    refine ⟨fun hnil => absurd ?_ (hbase64 auth hne), nofun⟩
    rw [← hc, ← hfilter, hnil]
    rfl

theorem Told.fields_headText {c : HTTPClient C} (h : Told net url flags c) {type : Bytes}
    (hstart : headFields authorization (headStart c type) = []) :
    headFields authorization (headText c type) = ((url.bind userinfo).map fun auth =>
      bytes "Authorization: Basic " ++ (net.base64Encode auth).filter (· != 10) ++ [13]).toList := by
  have hheaders : FullLines c._headers ∧ fieldLines authorization c._headers = [] := by
    rcases h.headers with hnil | ⟨n, hn⟩
    · rw [hnil]
      exact ⟨.nil, rfl⟩
    · rw [hn, fieldLines_lengthLine, if_neg (by decide), crlf_eq, ← List.append_assoc]
      exact ⟨fullLines_concat _, rfl⟩
  rw [headFields_headText c type hheaders.1, hstart, hheaders.2, fieldLines_authorizationLine, List.nil_append, List.append_nil,
    h.filter_authorization]
  cases hu : url.bind userinfo with
  | none => rw [if_neg fun hne => hne.1 ((h.authorization_nil hbase64).mpr hu)]; rfl
  | some auth =>
    have hne : c._base64Authorization ≠ [] := fun hnil => nomatch hu ▸ (h.authorization_nil hbase64).mp hnil
    rw [if_pos ⟨hne, by decide⟩, credentials, hu]
    rfl

theorem Requested.own {type : Bytes} {n : Option Nat} {hist : List (Op C × Int)} {s s' : Live C (HTTPClient C)}
    (hr : Requested type n s s') (ht : Told net (lastUrl hist) flags s.self) (hlen : s.self._headers.length < 2 ^ 32)
    (hstart : headFields authorization (headStart s.self type) = []) : OwnCredentials net hist s s' := by
  intro h hmem
  obtain ⟨c, hc, hstart', _, htext⟩ := hr.told ht hlen h hmem
  rw [htext, hc.fields_headText hbase64 (by rw [hstart', hstart])]

theorem Requested.same {type : Bytes} {n : Option Nat} {s s' t t' : Live C (HTTPClient C)} (hs : Requested type n s s')
    (ht : Requested type n t t') (hts : Told net url flags s.self) (htt : Told net url flags t.self)
    (hlen : s.self._headers.length < 2 ^ 32) (hheaders : t.self._headers = s.self._headers) : SameHeads s s' t t' := by
  intro h hmem h' hmem'
  obtain ⟨c, hc, _, hch, htext⟩ := hs.told hts hlen h hmem
  obtain ⟨c', hc', _, hch', htext'⟩ := ht.told htt (hheaders ▸ hlen) h' hmem'
  have hlength : c'._headers = c._headers := by
    rw [hch, hch']
    cases n with
    | none => exact hheaders
    | some n => rw [withLength, withLength, hheaders]
  rw [htext, htext', hc.headText_eq hc' hlength ((hc.authorization_nil hbase64).trans (hc'.authorization_nil hbase64).symm)]

/-- **Credentials stay with their url** in every run in which each url has its
own, once there are some. -/
theorem isolated_of_fits {hist : List (Op C × Int)} {s : Live C (HTTPClient C)}
    (h : Run net (fun c op => op.byUrl c ∧ op.credentialsFit c) hist s) {op : Op C} (hurl : op.byUrl s.self)
    {rc : Int} {s'} (hr : (op.run net).Returns s rc s') :
    OwnCredentials net hist s s' ∧
    ∀ hist' t rc' t', Run net (fun c op => op.byUrl c ∧ op.credentialsFit c) hist' t → lastUrl hist' = lastUrl hist →
      switches hist' = switches hist → t.self._headers = s.self._headers → (op.run net).Returns t rc' t' → SameHeads s s' t t' := by
  have hs := Told.of_run h
  by_cases hset : op.settles
  · have hheads := (Op.kept hset s rc s' hr).1
    rw [OwnCredentials, hheads, List.drop_length]
    refine ⟨nofun, fun hist' t rc' t' _ _ _ _ _ => ?_⟩
    rw [SameHeads, hheads, List.drop_length]
    exact nofun
  cases op with
  | sendRequest type payload =>
    have hreq := sendRequest_returns hr
    refine ⟨hreq.own hbase64 hs hurl.2 hurl.1, fun hist' t rc' t' hrun hlast hflags hheaders hr' => ?_⟩
    exact hreq.same hbase64 (sendRequest_returns hr') hs (hlast ▸ hflags ▸ Told.of_run hrun) hurl.2 hheaders
  | sendRequestStream type stream size =>
    have hreq := sendRequestStream_returns hr
    refine ⟨hreq.own hbase64 hs hurl.2 hurl.1, fun hist' t rc' t' hrun hlast hflags hheaders hr' => ?_⟩
    exact hreq.same hbase64 (sendRequestStream_returns hr') hs (hlast ▸ hflags ▸ Told.of_run hrun) hurl.2 hheaders
  | addHeader => exact hurl.elim
  | _ => exact absurd rfl hset

end Base64

/-! ## Credentials that go to another host -/

namespace CredentialsDemo

/-- A connection that is gone after the first write. Of the texts that are
encoded here, each is one letter. -/
def connection : Connection Nat :=
  { LengthDemo.connection with
    write := fun _ bs => Prog.step fun n => (bs.length, n + 1)
    connected := fun _ => Prog.gets fun n => n == 0
    base64Encode := fun auth =>
      if auth = [] then [] else if auth = bytes "v" then bytes "dg==" else if auth = bytes "w" then bytes "dw==" else bytes "dQ==" }

/-- Urls with credentials, and one without. -/
def urlU : Bytes := bytes "http://u@a/"

def urlV : Bytes := bytes "http://v@a/"

def urlW : Bytes := bytes "http://w@b/"

def urlB : Bytes := bytes "http://b/"

/-- The client with a target, with a second one after it, and after a GET from there. -/
def begun (first : Bytes) : Live Nat (HTTPClient Nat) := (((Op.beginUrl first).run connection).run 1 ⟨{}, 0⟩).2

def begunAnew (first second : Bytes) : Live Nat (HTTPClient Nat) := (((Op.beginUrl second).run connection).run 1 (begun first)).2

def got (first second : Bytes) : Live Nat (HTTPClient Nat) :=
  (((Op.sendRequest (bytes "GET") []).run connection).run 1 (begunAnew first second)).2

def history (first second : Bytes) : List (Op Nat × Int) := [(.beginUrl second, 1), (.beginUrl first, 1)]

/-- Both urls are taken, and something is sent. -/
def runs (first second : Bytes) : Bool :=
  (((Op.beginUrl first).run connection).run 1 ⟨{}, 0⟩).1 = .done 1 ∧
    (((Op.beginUrl second).run connection).run 1 (begun first)).1 = .done 1 ∧
    (((Op.sendRequest (bytes "GET") []).run connection).run 1 (begunAnew first second)).1 = .done (-4)

theorem runs_UW : runs urlU urlW = true := by decide +kernel

theorem runs_VW : runs urlV urlW = true := by decide +kernel

theorem runs_UB : runs urlU urlB = true := by decide +kernel

theorem run_history (ok : HTTPClient Nat → Op Nat → Prop) {first second : Bytes} (h : runs first second = true)
    (hfirst : ok {} (.beginUrl first)) (hsecond : ok (begun first).self (.beginUrl second)) :
    Run connection ok (history first second) (begunAnew first second) ∧
      ((Op.sendRequest (bytes "GET") []).run connection).Returns (begunAnew first second) (-4) (got first second) := by
  obtain ⟨hbegun, hanew, hgot⟩ := of_decide_eq_true h
  exact ⟨.step (.step (.construct 0) hfirst (.of_run 1 hbegun)) hsecond (.of_run 1 hanew), .of_run 1 hgot⟩

theorem byUrl_get {c : HTTPClient Nat} (h : headFields authorization (headStart c (bytes "GET")) = [])
    (hheaders : c._headers = []) : (Op.sendRequest (bytes "GET") []).byUrl c := ⟨h, by rw [hheaders]; decide⟩

theorem encodes (auth : Bytes) (hne : auth ≠ []) : (connection.base64Encode auth).filter (· != 10) ≠ [] := by
  simp only [connection, if_neg hne]
  split
  · decide
  · split <;> decide

theorem fits {c : HTTPClient Nat} {url : Bytes} (hlen : url.length < 2 ^ 32) (haccepted : 58 ∈ url ∧ knownProtocol url)
    (hown : userinfo url ≠ some [] ∧ userinfo url ≠ none) :
    (Op.beginUrl url : Op Nat).byUrl c ∧ (Op.beginUrl url : Op Nat).credentialsFit c := by
  refine ⟨hlen, haccepted, fun url' hurl => ?_⟩
  obtain rfl : url = url' := Option.some.inj hurl
  exact ⟨hown.1, fun hnone => absurd hnone hown.2⟩

/-- The second target gets its own credentials, and the same bytes whoever was
the user of the first. -/
theorem begun_own : OwnCredentials connection (history urlU urlW) (begunAnew urlU urlW) (got urlU urlW) ∧
    SameHeads (begunAnew urlU urlW) (got urlU urlW) (begunAnew urlV urlW) (got urlV urlW) := by
  have hsecond {c : HTTPClient Nat} : (Op.beginUrl urlW : Op Nat).byUrl c ∧ (Op.beginUrl urlW : Op Nat).credentialsFit c :=
    fits (by decide) ⟨by decide, .inl (by decide)⟩ (by decide)
  obtain ⟨hrun, hget⟩ := run_history (fun c op => op.byUrl c ∧ op.credentialsFit c) runs_UW
    (fits (by decide) ⟨by decide, .inl (by decide)⟩ (by decide)) hsecond
  obtain ⟨hrun', hget'⟩ := run_history (fun c op => op.byUrl c ∧ op.credentialsFit c) runs_VW
    (fits (by decide) ⟨by decide, .inl (by decide)⟩ (by decide)) hsecond
  obtain ⟨hown, hsame⟩ := isolated_of_fits encodes hrun (byUrl_get (by decide +kernel) (by decide +kernel)) hget
  exact ⟨hown, hsame _ _ _ _ hrun' (by decide +kernel) (by decide +kernel) (by decide +kernel) hget'⟩

end CredentialsDemo

open CredentialsDemo in
/-- The first target has credentials, and the second none. -/
theorem credentials_left : ¬ ∀ hist s (op : Op Nat) rc s', Run connection (fun c op => op.byUrl c) hist s →
    op.byUrl s.self → (op.run connection).Returns s rc s' → OwnCredentials connection hist s s' := by
  intro h
  obtain ⟨hrun, hget⟩ := run_history (fun c op => op.byUrl c) runs_UB
    (show urlU.length < 2 ^ 32 by decide) (show urlB.length < 2 ^ 32 by decide)
  have hown := h _ _ _ _ _ hrun (byUrl_get (by decide +kernel) (by decide +kernel)) hget
  have hleft : ∃ head ∈ (got urlU urlB).self.heads.drop (begunAnew urlU urlB).self.heads.length,
      headFields authorization head.text ≠ [] := by
    decide +kernel
  obtain ⟨head, hmem, hne⟩ := hleft
  have hnone : userinfo urlB = none := by decide
  refine hne ((hown head hmem).trans ?_)
  show ((userinfo urlB).map _).toList = []
  rw [hnone]
  rfl

end HTTPClient

end FEmbed
