/-
A record beside the state of a platform, of whichever of its calls are put on it.

`Platform.beside` carries a platform over to a state with a record, with no
call on it; a platform that records is that one with some calls replaced.
-/
import FEmbedLwip.Lives
import FEmbedLwip.SslClient

namespace FEmbed

variable {σ C : Type}

def Lwip.beside (net : Lwip σ) : Lwip (σ × List C) where
  inetAddr := net.inetAddr
  getaddrinfo h := unrecorded (net.getaddrinfo h)
  socket := unrecorded net.socket
  setsockopt fd o := unrecorded (net.setsockopt fd o)
  connect fd sa := unrecorded (net.connect fd sa)
  shutdown fd := unnoted (net.shutdown fd)
  close fd := unnoted (net.close fd)
  ioctl fd := unrecorded (net.ioctl fd)
  select fd := unrecorded (net.select fd)
  recv fd n := unrecorded (net.recv fd n)
  write fd bs := unrecorded (net.write fd bs)
  fcntlNonblock fd := unnoted (net.fcntlNonblock fd)

def MbedTls.beside (tls : MbedTls σ) : MbedTls (σ × List C) where
  init c := unnoted (tls.init c)
  free c := unnoted (tls.free c)
  ctrDrbgSeed := unrecorded tls.ctrDrbgSeed
  sslConfigDefaults := unrecorded tls.sslConfigDefaults
  sslConfAuthmode m := unnoted (tls.sslConfAuthmode m)
  x509CrtParse c bs := unrecorded (tls.x509CrtParse c bs)
  sslConfCaChain := unnoted tls.sslConfCaChain
  sslConfPsk k i := unrecorded (tls.sslConfPsk k i)
  pkParseKey k := unrecorded (tls.pkParseKey k)
  sslConfOwnCert := unnoted tls.sslConfOwnCert
  sslSetHostname h := unrecorded (tls.sslSetHostname h)
  sslConfRng := unnoted tls.sslConfRng
  sslSetup := unrecorded tls.sslSetup
  sslSetBio fd := unnoted (tls.sslSetBio fd)
  sslHandshake := unrecorded tls.sslHandshake
  sslGetRecordExpansion := unrecorded tls.sslGetRecordExpansion
  sslGetVerifyResult := unrecorded tls.sslGetVerifyResult
  sslRead n := unrecorded (tls.sslRead n)
  sslGetBytesAvail := unrecorded tls.sslGetBytesAvail
  sslWrite bs := unrecorded (tls.sslWrite bs)

def Platform.beside (p : Platform σ) : Platform (σ × List C) where
  lwip := p.lwip.beside
  tls := p.tls.beside
  malloc n := unrecorded (p.malloc n)
  millis := unrecorded p.millis
  delay n := unnoted (p.delay n)

/-! ## What becomes of a record -/

namespace Live

variable {O α : Type}

/-- The record grows. -/
def grows : Prog.Guarantee (Live (σ × List C) O) where
  rel s s' := s.env.2 <+: s'.env.2
  refl _ := List.prefix_rfl
  trans := List.IsPrefix.trans

theorem set_grows {f : O → O} : (set f).Guarantees (grows (σ := σ) (C := C)) := guarantees_set fun _ => List.prefix_rfl

theorem tell_grows {f : σ → σ} {c : C} : (tell (noted f c)).Guarantees (grows (O := O)) :=
  guarantees_tell fun _ => List.prefix_append _ _

theorem call_grows {f : σ → α × σ} {c : α → C} : (call (recorded f c)).Guarantees (grows (O := O)) :=
  guarantees_call fun _ => List.prefix_append _ _

end Live

end FEmbed
