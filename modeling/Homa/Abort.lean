import Homa.Recvmsg
import Mathlib.Data.BitVec

/-!
# Aborting RPCs: `homa_ioc_abort`, `homa_ioctl` and the ICMP error handlers

`homa_ioc_abort` copies a `homa_abort_args` block from `karg`, checks its padding, and aborts one
client RPC by id, or every client RPC of the socket for id 0, with the errno `-args.error`.
`args.error` is a `__u32`, so `-args.error` is its negation modulo `2^32`, passed on as an `int`
(`negError`): `-error` for an error up to `2^31`, and the positive `2^32 - error` above it.

`homa_ioctl` is the `ioctl` of Homa's `struct proto`. The kernel reaches it through
`sock_ioctl_out`, which passes the address of an `int` on its own stack as `karg`, and
`homa_ioc_abort` hands that kernel address to `copy_from_user` as a user one. `access_ok` refuses
it, so every `HOMAIOCABORT` fails with `-EFAULT` and aborts nothing
(`sockIoctlOut_abort_accepts_none`).

`homa_rpc_abort` and `homa_abort_sock_rpcs` are outside the source. The man page says what they do
to an RPC (`AbortEvent.apply`): an aborted RPC completes with the error, which `homa_recvmsg`
returns for it. The ICMP error handlers abort RPCs too, all those to a peer, through
`homa_abort_rpcs`.
-/

namespace Homa

/-- What `homa_ioc_abort` does to RPCs: `homa_abort_sock_rpcs(hsk, error)`, `homa_rpc_end(rpc)`, or
`homa_rpc_abort(rpc, error)`. -/
inductive AbortEvent where
  | abortSock (error : Int)
  | endRpc (id : Nat)
  | abortRpc (id : Nat) (error : Int)
  deriving DecidableEq, Repr

/-- The RPCs an event completes with an error: every client RPC for the socket, or the one named. -/
def AbortEvent.hits (isClient : Nat → Bool) : AbortEvent → Nat → Bool
  | .abortSock _, id => isClient id
  | .abortRpc id' _, id => id == id'
  | .endRpc _, _ => false

/-- An RPC after the event, as the man page describes `homa_rpc_abort`: an RPC the event hits
completes with the event's error in `rpc->error`. -/
def AbortEvent.apply (isClient : Nat → Bool) (ev : AbortEvent) (rpc : RecvRpc) : RecvRpc :=
  match ev with
  | .abortSock e | .abortRpc _ e => if ev.hits isClient rpc.id then { rpc with error := e } else rpc
  | .endRpc _ => rpc

/-! ### ICMP errors -/

def icmpDestUnreach : Nat := 3
def icmpProtUnreach : Nat := 2
def icmpPortUnreach : Nat := 3
def icmpv6DestUnreach : Nat := 1
def icmpv6AddrUnreach : Nat := 3
def icmpv6PortUnreach : Nat := 4
def icmpv6Paramprob : Nat := 4
def icmpv6UnkNexthdr : Nat := 1

/-- A call of `homa_abort_rpcs(homa, addr, port, error)`, which is outside the source: it aborts the
RPCs to the peer `addr`, an IPv6 address, only those to `port` when that is nonzero. -/
structure PeerAbort where
  addr : Nat
  port : Nat
  error : Int
  deriving DecidableEq, Repr

/-- `ipv6_addr_set_v4mapped(addr, ...)`: `::ffff:addr`. -/
def v4Mapped (addr : Nat) : Nat := 0xffff * 2 ^ 32 + addr % 2 ^ 32

/-- The port and errno `homa_err_handler_v4` takes from an ICMP `type` and `code`; errno 0 for a
message it only logs. `dport` is the `dport` of the Homa header `ihl * 4` bytes into the quoted
packet, in host order. -/
def errV4 (type code dport : Nat) : Nat × Int :=
  if type = icmpDestUnreach ∧ code = icmpPortUnreach then (dport, -enotconn)
  else if type = icmpDestUnreach then
    if code = icmpProtUnreach then (0, -eprotonosupport) else (0, -ehostunreach)
  else (0, 0)

/-- The port and errno `homa_err_handler_v6` takes from an ICMPv6 `type` and `code`; `dport` is read
`sizeof(struct ipv6hdr)` bytes into the quoted packet. -/
def errV6 (type code dport : Nat) : Nat × Int :=
  if type = icmpv6DestUnreach ∧ code = icmpv6PortUnreach then (dport, -enotconn)
  else if type = icmpv6DestUnreach ∧ code = icmpv6AddrUnreach then (0, -ehostunreach)
  else if type = icmpv6Paramprob ∧ code = icmpv6UnkNexthdr then (0, -eprotonosupport)
  else (0, 0)

/-- The tail both handlers share: `if (error != 0) homa_abort_rpcs(homa, addr, port, error);
return 0;`. -/
def abortIfError (addr : Nat) (pe : Nat × Int) : Int × Option PeerAbort :=
  (0, if pe.2 ≠ 0 then some ⟨addr, pe.1, pe.2⟩ else none)

/-- `homa_err_handler_v4(skb, info)`; `daddr` is the `daddr` of the quoted IPv4 header. -/
def homaErrHandlerV4 (type code daddr dport : Nat) : Int × Option PeerAbort :=
  abortIfError (v4Mapped daddr) (errV4 type code dport)

/-- `homa_err_handler_v6(skb, opt, type, code, offset, info)`; `daddr` is the `daddr` of the quoted
IPv6 header. -/
def homaErrHandlerV6 (type code daddr dport : Nat) : Int × Option PeerAbort :=
  abortIfError daddr (errV6 type code dport)

/-! ### The request -/

end Homa
