import Homa.Sockopt

/-!
# Sending: the four variants of `homa_sendmsg`

`homa_sendmsg` picks one of four hand-copied functions. By `msg_control_is_user` it takes a user
variant, which reads the `homa_sendmsg_args` block with `copy_from_user` and writes it back with
`copy_to_user`, or an in-kernel one, which uses `memcpy`. By `hsk->connected` it takes a connected
variant, which sends to `hsk->target_addr` and wants `msg_name == NULL` and `msg_namelen == 0`, or an
unconnected one, which sends to `msg_name`.

Three of the variants read `args` and then check it: each is `sendChecks` followed by the request or
response path `sendBody`, on the block it read. `homa_sendmsg_in_kernel_connected` checks
`args.flags` and `args.reserved` before its `memcpy` fills `args`, so the flags it tests are the
bytes the stack held (`stack`), while it sends with the block.

The functions outside the source are given by what they return (`SendEnv`). What a send does to
RPCs, and the id it writes back, are its `SendEvent`s.
-/

namespace Homa

/-- `struct homa_sendmsg_args`, from `homa.h` outside the source. -/
structure SendmsgArgs where
  id : Nat
  completionCookie : Nat
  flags : UInt32
  reserved : Nat
  deriving DecidableEq, Repr

def sendmsgPrivate : UInt32 := 1

/-- `HOMA_SENDMSG_VALID_FLAGS`: the one flag bit the man page knows. -/
def sendmsgValidFlags : UInt32 := sendmsgPrivate

/-- `enum homa_rpc_state`, from `homa_rpc.h` outside the source. -/
inductive RpcState where
  | outgoing
  | incoming
  | inService
  | dead
  deriving DecidableEq, Repr

structure ServerRpc where
  id : Nat
  error : Int
  state : RpcState
  deriving DecidableEq, Repr

/-- What the functions outside the source return to a send: `homa_sock_wmem_avl`,
`homa_sock_wait_wmem`, `homa_rpc_alloc_client` (the new RPC's id or an errno),
`homa_message_out_fill`, whether the RPC is `RPC_DEAD` once the fill returns,
`homa_rpc_find_server`, `homa_rpc_find_client` after a failed `copy_to_user`, and whether the copies
from and to user memory succeed. -/
structure SendEnv where
  wmemAvl : Bool
  waitWmem : Int
  allocClient : SockAddr → Except Int Nat
  outFill : Int
  deadAfterFill : Bool
  findServer : SockAddr → Nat → Option ServerRpc
  findClient : Nat → Bool
  fromUserOk : Bool
  toUserOk : Bool

/-- What a send does to RPCs and to the control block: `homa_rpc_alloc_client`,
`atomic_or(RPC_PRIVATE, &rpc->flags)`, `rpc->completion_cookie = cookie`,
`rpc->state = RPC_OUTGOING`, `homa_message_out_fill`, `homa_rpc_end`, and `args.id` written back. -/
inductive SendEvent where
  | alloc (id : Nat)
  | markPrivate (id : Nat)
  | setCookie (id cookie : Nat)
  | setOutgoing (id : Nat)
  | fill (id : Nat)
  | endRpc (id : Nat)
  | writeBack (id : Nat)
  deriving DecidableEq, Repr

/-- How a variant reaches the control block: `memcpy`, or `copy_from_user` and `copy_to_user`. -/
inductive CopyKind where
  | memcpy
  | userCopy
  deriving DecidableEq, Repr

abbrev SendOutcome := Int × List SendEvent

/-- Where the response path stands once it holds the RPC's lock: it stops with an outcome, or it
moves the RPC to `RPC_OUTGOING` and calls `homa_message_out_fill`. -/
inductive ReplyStep where
  | done (out : SendOutcome)
  | fill (id : Nat)
  deriving DecidableEq, Repr

/-- The response path up to the fill: the cookie test, `homa_rpc_find_server` (`found`), and the
tests of `rpc->error` and `rpc->state` under the RPC's lock. -/
def replyLocked (cookie : Nat) (found : Option ServerRpc) : ReplyStep :=
  if cookie ≠ 0 then .done (-einval, [])
  else match found with
    | none => .done (0, [])
    | some rpc =>
      if rpc.error ≠ 0 then .done (rpc.error, [.endRpc rpc.id])
      else if rpc.state ≠ .inService then .done (-einval, [])
      else .fill rpc.id

/-- The response path after `homa_message_out_fill` returned `result`, with the RPC dead or not. -/
def replyFilled (id : Nat) (result : Int) (dead : Bool) : SendOutcome :=
  if result ≠ 0 ∧ !dead then (result, [.setOutgoing id, .fill id, .endRpc id])
  else (0, [.setOutgoing id, .fill id])

/-- The response path, which the four variants share, for the RPC `args.id` of the peer `addr`. -/
def sendReply (env : SendEnv) (args : SendmsgArgs) (addr : SockAddr) : SendOutcome :=
  match replyLocked args.completionCookie (env.findServer addr args.id) with
  | .done out => out
  | .fill id => replyFilled id env.outFill env.deadAfterFill

/-- The request path and the response path, which the four variants share, on `args` and the
destination `addr`, writing `args` back with `copy`. -/
def sendBody (env : SendEnv) (args : SendmsgArgs) (addr : SockAddr) (copy : CopyKind) :
    SendOutcome :=
  if args.id = 0 then
    match env.allocClient addr with
    | .error e => (e, [])
    | .ok id =>
      let ev := .alloc id :: ((if args.flags &&& sendmsgPrivate ≠ 0 then [.markPrivate id] else []) ++
        [.setCookie id args.completionCookie, .fill id])
      if env.outFill ≠ 0 then (env.outFill, ev ++ [.endRpc id])
      else match copy with
        | .memcpy => (0, ev ++ [.writeBack id])
        | .userCopy =>
          if env.toUserOk then (0, ev ++ [.writeBack id])
          else (-efault, ev ++ if env.findClient id then [.endRpc id] else [])
  else sendReply env args addr

/-- The tests between reading `args` and the request or response: the flags and reserved word of
`checked`, the wait for send memory, the address family and the name length (`namelenBad`); `k` is
what follows them. -/
def sendChecks (env : SendEnv) (family : Nat) (checked : SendmsgArgs) (addr : SockAddr)
    (namelenBad : Bool) (k : SendOutcome) : SendOutcome :=
  if checked.flags &&& ~~~sendmsgValidFlags ≠ 0 ∨ checked.reserved ≠ 0 then (-einval, [])
  else if !env.wmemAvl ∧ env.waitWmem ≠ 0 then (env.waitWmem, [])
  else if addr.family ≠ family then (-eafnosupport, [])
  else if namelenBad then (-einval, [])
  else k

def namelenTooShort (addr : SockAddr) (namelen : Nat) : Bool :=
  namelen < sizeofSockaddrIn || (namelen < sizeofSockaddrIn6 && addr.family == afInet6)

/-- The fields of the `msghdr` a send reads: `msg_name` (`none` for NULL), `msg_namelen`,
`msg_control_is_user`, and the `homa_sendmsg_args` block at `msg_control`. -/
structure SendMsg where
  name : Option SockAddr
  namelen : Nat
  controlIsUser : Bool
  control : SendmsgArgs
  deriving DecidableEq, Repr

def homaSendmsgUserConnected (env : SendEnv) (k : Sock) (msg : SendMsg) : SendOutcome :=
  if msg.name.isSome then (-einval, [])
  else if !msg.controlIsUser then (-einval, [])
  else if !env.fromUserOk then (-efault, [])
  else sendChecks env k.family msg.control k.targetAddr (msg.namelen ≠ 0)
    (sendBody env msg.control k.targetAddr .userCopy)

def homaSendmsgUserUnconnected (env : SendEnv) (k : Sock) (msg : SendMsg) : SendOutcome :=
  match msg.name with
  | none => (-einval, [])
  | some addr =>
    if !msg.controlIsUser then (-einval, [])
    else if !env.fromUserOk then (-efault, [])
    else sendChecks env k.family msg.control addr (namelenTooShort addr msg.namelen)
      (sendBody env msg.control addr .userCopy)

/-- `homa_sendmsg_in_kernel_connected`. Its flags test runs before the `memcpy` that fills `args`,
on what the stack held there (`stack`). -/
def homaSendmsgInKernelConnected (env : SendEnv) (k : Sock) (msg : SendMsg)
    (stack : SendmsgArgs) : SendOutcome :=
  if msg.name.isSome then (-einval, [])
  else sendChecks env k.family stack k.targetAddr (msg.namelen ≠ 0)
    (sendBody env msg.control k.targetAddr .memcpy)

def homaSendmsgInKernelUnconnected (env : SendEnv) (k : Sock) (msg : SendMsg) : SendOutcome :=
  match msg.name with
  | none => (-einval, [])
  | some addr =>
    sendChecks env k.family msg.control addr (namelenTooShort addr msg.namelen)
      (sendBody env msg.control addr .memcpy)

/-- `homa_sendmsg`: the variant for the control block's kind and the socket's `connected`. -/
def homaSendmsg (env : SendEnv) (k : Sock) (msg : SendMsg) (stack : SendmsgArgs) : SendOutcome :=
  if msg.controlIsUser then
    if k.connected then homaSendmsgUserConnected env k msg
    else homaSendmsgUserUnconnected env k msg
  else if k.connected then homaSendmsgInKernelConnected env k msg stack
  else homaSendmsgInKernelUnconnected env k msg

/-! ### A send to the other family -/

section variants

variable {env : SendEnv} {k : Sock} {msg : SendMsg}

/-- Past its flags test and the wait for send memory, a send to an address outside the socket's
family stops at `-EAFNOSUPPORT`. -/
theorem sendChecks_family {family : Nat} {checked : SendmsgArgs} {addr : SockAddr}
    {namelenBad : Bool} (out : SendOutcome)
    (hok : checked.flags &&& ~~~sendmsgValidFlags = 0 ∧ checked.reserved = 0)
    (hw : env.wmemAvl = true ∨ env.waitWmem = 0) (hf : addr.family ≠ family) :
    sendChecks env family checked addr namelenBad out = (-eafnosupport, []) := by
  rcases hw with hw | hw <;> simp [sendChecks, hok, hw, hf]

/-- A send to an address outside the socket's family never gets past `sendChecks`: it fails, with
no event. -/
theorem sendChecks_fails_of_family {family : Nat} {checked : SendmsgArgs} {addr : SockAddr}
    {namelenBad : Bool} (out : SendOutcome) (hf : addr.family ≠ family) :
    (sendChecks env family checked addr namelenBad out).1 ≠ 0 ∧
      (sendChecks env family checked addr namelenBad out).2 = [] := by
  unfold sendChecks
  split_ifs with h1 h2 <;> simp_all [einval, eafnosupport]

/-- On a connected socket whose target address is outside its family, every send fails, with no
event. -/
theorem homaSendmsg_fails_of_family (hk : k.connected = true) (hf : k.targetAddr.family ≠ k.family)
    (stack : SendmsgArgs) :
    (homaSendmsg env k msg stack).1 ≠ 0 ∧ (homaSendmsg env k msg stack).2 = [] := by
  simp only [homaSendmsg, hk, if_true, homaSendmsgUserConnected, homaSendmsgInKernelConnected]
  split_ifs <;> first
    | exact sendChecks_fails_of_family _ hf
    | simp [einval, efault]

end variants

/-! ### Connecting to the other family -/

/-- `__homa_connect` tests the address family against AF_INET and AF_INET6, not against the
socket's own. A live, unconnected socket accepts an address of the other family with an `addrlen`
long enough for it. From then on every send on the socket fails with no effect: the connected
variants stop at their family test with `-EAFNOSUPPORT` once the tests before it pass. And every
later connect returns `-EISCONN`. -/
theorem homaConnect_other_family {w : World} {hsk : SockId} {addr : SockAddr} {addrlen : Nat}
    (hc : (w.socks hsk).connected = false) (hs : (w.socks hsk).shutdown = false)
    (hfam : addr.family = afInet ∨ addr.family = afInet6) (hne : addr.family ≠ (w.socks hsk).family)
    (hlen : sizeofSockaddrIn6 ≤ addrlen) :
    (homaConnect w hsk addr addrlen).1 = 0 ∧
    (∀ env msg stack,
      (homaSendmsg env ((homaConnect w hsk addr addrlen).2.socks hsk) msg stack).1 ≠ 0 ∧
      (homaSendmsg env ((homaConnect w hsk addr addrlen).2.socks hsk) msg stack).2 = []) ∧
    (∀ env msg, msg.name = none → msg.controlIsUser = true → env.fromUserOk = true →
      msg.control.flags &&& ~~~sendmsgValidFlags = 0 ∧ msg.control.reserved = 0 →
      (env.wmemAvl = true ∨ env.waitWmem = 0) →
      homaSendmsgUserConnected env ((homaConnect w hsk addr addrlen).2.socks hsk) msg =
        (-eafnosupport, [])) ∧
    (∀ env msg stack, msg.name = none →
      stack.flags &&& ~~~sendmsgValidFlags = 0 ∧ stack.reserved = 0 →
      (env.wmemAvl = true ∨ env.waitWmem = 0) →
      homaSendmsgInKernelConnected env ((homaConnect w hsk addr addrlen).2.socks hsk) msg stack =
        (-eafnosupport, [])) ∧
    ∀ addr' addrlen', (homaConnect (homaConnect w hsk addr addrlen).2 hsk addr' addrlen').1 = -eisconn := by
  have hconn : homaConnect w hsk addr addrlen =
      (0, w.setSock hsk fun k => { k with targetAddr := addr, connected := true }) := by
    have h16 : sizeofSockaddrIn ≤ addrlen := le_trans (by decide) hlen
    rcases hfam with h | h <;> simp [homaConnect, hc, hs, h, afInet, afInet6, Nat.not_lt.2 hlen,
      Nat.not_lt.2 h16]
  rw [hconn]
  refine ⟨rfl,
    fun env msg stack => homaSendmsg_fails_of_family (by simp) (by simpa using hne) stack,
    fun env msg hn hu hf hok hw => ?_, fun env msg stack hn hok hw => ?_,
    fun _ _ => by simp [homaConnect]⟩
  · simp only [homaSendmsgUserConnected, hn, hu, hf, Option.isSome_none, Bool.not_true]
    exact sendChecks_family _ hok hw (by simpa using hne)
  · simp only [homaSendmsgInKernelConnected, hn, Option.isSome_none]
    exact sendChecks_family _ hok hw (by simpa using hne)

/-- An AF_INET socket connected to an AF_INET6 address with a 28-byte `addrlen`: the connect
returns 0, and no send on the socket does anything. -/
theorem homaConnect_other_family_inet6 :
    (homaConnect ((World.start fun _ => 32768).alloc 0 afInet) 0 ⟨afInet6, 80, 1⟩ 28).1 = 0 ∧
      ∀ env msg stack, (homaSendmsg env ((homaConnect ((World.start fun _ => 32768).alloc 0 afInet)
        0 ⟨afInet6, 80, 1⟩ 28).2.socks 0) msg stack).2 = [] := by
  obtain ⟨h0, hsend, -⟩ := @homaConnect_other_family ((World.start fun _ => 32768).alloc 0 afInet) 0
    ⟨afInet6, 80, 1⟩ 28 (by decide) (by decide) (.inr rfl) (by decide) (by decide)
  exact ⟨h0, fun env msg stack => (hsend env msg stack).2⟩

/-- A request on a connected socket whose block has flag bit `2` set, outside
`HOMA_SENDMSG_VALID_FLAGS`, in an environment where everything else succeeds and the new RPC gets
id `7`. From user memory it is refused with `-EINVAL`; from kernel memory, with zeros left on the
stack where `args` lives, it passes the flags test, creates RPC `7`, fills it and writes its id
back. -/
theorem homaSendmsgInKernelConnected_checks_stack :
    let env : SendEnv :=
      ⟨true, 0, fun _ => .ok 7, 0, false, fun _ _ => none, fun _ => true, true, true⟩
    let k : Sock := { Sock.fresh 0 afInet with connected := true, targetAddr := ⟨afInet, 80, 1⟩ }
    let block : SendmsgArgs := ⟨0, 0, 2, 0⟩
    homaSendmsg env k ⟨none, 0, true, block⟩ ⟨0, 0, 0, 0⟩ = (-einval, []) ∧
      homaSendmsg env k ⟨none, 0, false, block⟩ ⟨0, 0, 0, 0⟩ =
        (0, [.alloc 7, .setCookie 7 0, .fill 7, .writeBack 7]) := by
  decide

end Homa
