/-
A record of the calls that are made on mbedTLS's contexts, beside the state of
any platform.
-/
import FEmbedLwip.Records

namespace FEmbed

variable {σ : Type}

/-- A call on a context: an `init`, a `free`, or a use of the session, with its answer. -/
inductive TlsCall where
  | init (c : TlsContext)
  | free (c : TlsContext)
  | read (n : Nat) (rc : Int)
  | bytesAvail
  | write (rc : Int)
  deriving DecidableEq, Repr

def MbedTls.watched (tls : MbedTls σ) : MbedTls (σ × List TlsCall) :=
  { tls.beside with
    init := fun c => noted (tls.init c) (.init c)
    free := fun c => noted (tls.free c) (.free c)
    sslRead := fun n => recorded (tls.sslRead n) fun r => .read n r.rc
    sslGetBytesAvail := recorded tls.sslGetBytesAvail fun _ => .bytesAvail
    sslWrite := fun bs => recorded (tls.sslWrite bs) .write }

/-- The platform `p`, with the calls on the contexts on record. -/
def Platform.watched (p : Platform σ) : Platform (σ × List TlsCall) := { p.beside with tls := p.tls.watched }

end FEmbed
