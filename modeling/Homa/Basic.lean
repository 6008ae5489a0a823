/-!
# Constants and identifiers

The numbers the modelled functions compare against and return. The socket table's own constants,
`HOMA_SOCKTAB_BUCKETS`, `homa_socktab_bucket` and `HOMA_MIN_DEFAULT_PORT`, live in headers that are
not part of the source, so they are parameters here, gathered in `Config` together with the facts
about them that the C code relies on to index its arrays and to store into a `u16`. Errno values
and address families are the Linux ones.
-/

namespace Homa

/-- A socket object, `struct homa_sock *`. -/
abbrev SockId := Nat

/-- A network namespace, `struct homa_net *`. -/
abbrev NetId := Nat

/-- A receive-buffer pool, `struct homa_pool *`. -/
abbrev PoolId := Nat

/-- The socket-table constants the source uses but does not define. -/
structure Config where
  /-- `HOMA_SOCKTAB_BUCKETS`. -/
  buckets : Nat
  /-- `homa_socktab_bucket(hnet, port)`. -/
  bucket : NetId → Nat → Nat
  bucket_lt : ∀ hnet port, bucket hnet port < buckets
  /-- `HOMA_MIN_DEFAULT_PORT`. -/
  minDefaultPort : Nat
  minDefaultPort_pos : 0 < minDefaultPort
  minDefaultPort_lt : minDefaultPort < 65536

/-- A configuration to run the model on: `1024` buckets chosen by namespace and port, and default
ports from `32768`. -/
def Config.sample : Config where
  buckets := 1024
  bucket hnet port := (hnet + port) % 1024
  bucket_lt _ _ := Nat.mod_lt _ (by decide)
  minDefaultPort := 32768
  minDefaultPort_pos := by decide
  minDefaultPort_lt := by decide

/-- A configuration with three default ports, `65533` to `65535`, and four buckets: small enough for
a run to take every default port. -/
def Config.small : Config where
  buckets := 4
  bucket hnet port := (hnet + port) % 4
  bucket_lt _ _ := Nat.mod_lt _ (by decide)
  minDefaultPort := 65533
  minDefaultPort_pos := by decide
  minDefaultPort_lt := by decide

/-! ### Errno values -/

def eintr : Int := 4
def ewouldblock : Int := 11
def enomem : Int := 12
def efault : Int := 14
def einval : Int := 22
def enoprotoopt : Int := 92
def eprotonosupport : Int := 93
def eafnosupport : Int := 97
def eaddrinuse : Int := 98
def eaddrnotavail : Int := 99
def eisconn : Int := 106
def enotconn : Int := 107
def eshutdown : Int := 108
def ehostunreach : Int := 113

/-! ### Address families -/

def afInet : Nat := 2
def afInet6 : Nat := 10

/-- `sizeof(struct sockaddr_in)`. -/
def sizeofSockaddrIn : Nat := 16

/-- `sizeof(struct sockaddr_in6)`. -/
def sizeofSockaddrIn6 : Nat := 28

/-- `htons`: the two bytes of a 16-bit value swapped. -/
def htons (x : Nat) : Nat := x % 256 * 256 + x / 256 % 256

end Homa
