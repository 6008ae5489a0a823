import Homa.Run
import Homa.Sendmsg

/-!
# Receiving: `homa_recvmsg`

`homa_recvmsg` reads its `homa_recvmsg_args` block at `msg_control`, returns the buffers the block
hands back, waits for an RPC (one client RPC by id, or any ready RPC of the socket), and writes the
block back with the RPC's id and cookie. Its result is the RPC's error when there is one, and the
message length otherwise (`recvResult`).

It reads and writes the block with `memcpy` when `hsk->in_kernel` is set, and with
`copy_from_user` and `copy_to_user` otherwise. `homa_sock_init` sets
`in_kernel` on every socket, whoever opens it, and nothing clears it (`RunInv.in_kernel`), while
`homa_sendmsg` and `homa_setsockopt` ask the caller instead (`homaRecvmsg_copies_by_socket`).
-/

namespace Homa

/-- The fields of `struct homa_recvmsg_args` the model follows: the RPC id, its completion cookie,
and the number of buffer pages handed back and then out. -/
structure RecvmsgArgs where
  id : Nat
  completionCookie : Nat
  numBpages : Nat
  deriving DecidableEq, Repr

def sizeofRecvmsgArgs : Nat := 88

/-- What `homa_recvmsg` reads of the RPC it returns: `rpc->error`, `rpc->msgin.length`, the
completion cookie and `rpc->msgin.num_bpages`. -/
structure RecvRpc where
  id : Nat
  error : Int
  length : Int
  completionCookie : Nat
  numBpages : Nat
  deriving DecidableEq, Repr

/-- What the constants and functions outside the source give a receive: `HOMA_MAX_BPAGES`,
`homa_is_client`, whether the copies from and to user memory succeed,
`homa_pool_release_buffers`, `homa_rpc_find_client`, `homa_wait_private`, and `homa_wait_shared`
(an RPC or an errno). -/
structure RecvEnv where
  maxBpages : Nat
  isClient : Nat → Bool
  fromUserOk : Bool
  toUserOk : Bool
  releaseBuffers : Int
  findClient : Nat → Option RecvRpc
  waitPrivate : Int
  waitShared : Except Int RecvRpc

/-- The fields of the `msghdr` a receive reads: the block at `msg_control` (`none` for NULL) and
`msg_controllen`. -/
structure RecvMsg where
  control : Option RecvmsgArgs
  controllen : Nat
  deriving DecidableEq, Repr

/-- What a receive does to the RPC it returns: `homa_rpc_end`, or `rpc->state = RPC_IN_SERVICE`. -/
inductive RecvEvent where
  | endRpc (id : Nat)
  | inService (id : Nat)
  deriving DecidableEq, Repr

structure RecvOutcome where
  result : Int
  access : List CopyKind
  written : Option RecvmsgArgs
  events : List RecvEvent
  deriving DecidableEq, Repr

/-- `result = rpc->error ? rpc->error : rpc->msgin.length`. -/
def recvResult (error length : Int) : Int := if error ≠ 0 then error else length

/-- The RPC a receive waits for: by `control.id` with `homa_rpc_find_client` and
`homa_wait_private`, or any with `homa_wait_shared`; on failure, the errno and the block as it
goes back. -/
def recvWait (env : RecvEnv) (control : RecvmsgArgs) : Except (Int × RecvmsgArgs) RecvRpc :=
  if control.id ≠ 0 then
    match env.findClient control.id with
    | none => .error (-einval, control)
    | some rpc =>
      if env.waitPrivate ≠ 0 then .error (env.waitPrivate, { control with id := 0 }) else .ok rpc
  else match env.waitShared with
    | .error e => .error (e, control)
    | .ok rpc => .ok rpc

/-- `homa_recvmsg` from the test of `num_bpages` to the label `done`: the result, the block as it
goes back, and what happens to the RPC. -/
def recvBody (env : RecvEnv) (k : Sock) (control : RecvmsgArgs) :
    Int × RecvmsgArgs × List RecvEvent :=
  if control.numBpages > env.maxBpages then (-einval, control, [])
  else if k.bufferPool.isNone then (-einval, control, [])
  else
    let control := { control with numBpages := 0 }
    if env.releaseBuffers ≠ 0 then (env.releaseBuffers, control, [])
    else match recvWait env control with
      | .error (e, control) => (e, control, [])
      | .ok rpc =>
        let result := recvResult rpc.error rpc.length
        ( result,
          { id := rpc.id, completionCookie := rpc.completionCookie,
            numBpages := if 0 ≤ rpc.length then rpc.numBpages else 0 },
          if env.isClient rpc.id || decide (result < 0) then [.endRpc rpc.id]
          else [.inService rpc.id] )

/-- `homa_recvmsg(sk, msg, len, flags, addr_len)` on the socket `k`. -/
def homaRecvmsg (env : RecvEnv) (k : Sock) (msg : RecvMsg) : RecvOutcome :=
  let copy : CopyKind := if k.inKernel then .memcpy else .userCopy
  match msg.control with
  | none => ⟨-einval, [], none, []⟩
  | some block =>
    if msg.controllen ≠ sizeofRecvmsgArgs then ⟨-einval, [], none, []⟩
    else if copy = .userCopy ∧ !env.fromUserOk then ⟨-efault, [copy], none, []⟩
    else
      let body := recvBody env k { block with completionCookie := 0 }
      ⟨if copy = .userCopy ∧ !env.toUserOk then -efault else body.1, [copy, copy], some body.2.1,
        body.2.2⟩

/-! ### The control block -/

section access

variable {env : RecvEnv} {k : Sock} {msg : RecvMsg}

/-- A block of the right size on an `in_kernel` socket is read and written back with `memcpy`. -/
theorem homaRecvmsg_access_inKernel (hk : k.inKernel = true) {block : RecvmsgArgs}
    (hc : msg.control = some block) (hl : msg.controllen = sizeofRecvmsgArgs) :
    (homaRecvmsg env k msg).access = [.memcpy, .memcpy] := by
  simp [homaRecvmsg, hk, hc, hl]

end access

/-! ### The result -/

/-- The receive gets past its tests, waits for `rpc`, and copies the block back. -/
def RecvGets (env : RecvEnv) (k : Sock) (msg : RecvMsg) (rpc : RecvRpc) : Prop :=
  ∃ block, msg.control = some block ∧ msg.controllen = sizeofRecvmsgArgs ∧
    (k.inKernel = true ∨ env.fromUserOk = true ∧ env.toUserOk = true) ∧
    block.numBpages ≤ env.maxBpages ∧ k.bufferPool.isSome ∧ env.releaseBuffers = 0 ∧
    recvWait env { block with completionCookie := 0, numBpages := 0 } = .ok rpc

theorem recvResult_of_error {error : Int} (he : error ≠ 0) (length : Int) :
    recvResult error length = error := if_pos he

/-- A receive that gets `rpc` returns its error if it has one, and its length otherwise. -/
theorem homaRecvmsg_result {env : RecvEnv} {k : Sock} {msg : RecvMsg} {rpc : RecvRpc}
    (h : RecvGets env k msg rpc) :
    (homaRecvmsg env k msg).result = recvResult rpc.error rpc.length := by
  obtain ⟨block, hc, hl, hcopy, hb, hp, hr, hw⟩ := h
  have hbody : (recvBody env k { block with completionCookie := 0 }).1 =
      recvResult rpc.error rpc.length := by
    simp [recvBody, Nat.not_lt.2 hb, Option.isNone_iff_eq_none, Option.isSome_iff_ne_none.1 hp,
      hr, hw]
  rcases hcopy with hk | ⟨hf, ht⟩ <;> simp_all [homaRecvmsg]

/-! ### The block after an error -/

theorem homaRecvmsg_written {env : RecvEnv} {k : Sock} {msg : RecvMsg} {block : RecvmsgArgs}
    (hc : msg.control = some block) (hl : msg.controllen = sizeofRecvmsgArgs)
    (hread : k.inKernel = true ∨ env.fromUserOk = true) :
    (homaRecvmsg env k msg).written = some (recvBody env k { block with completionCookie := 0 }).2.1 ∧
      (homaRecvmsg env k msg).events = (recvBody env k { block with completionCookie := 0 }).2.2 := by
  rcases hread with h | h <;> simp [homaRecvmsg, hc, hl, h]

/-- A receive that has read its block and stops before it has an RPC, at any exit but a failed
`homa_wait_private` (more buffer pages than `HOMA_MAX_BPAGES`, no buffer pool, a failed buffer
release, or no client RPC with its nonzero id), writes the block back with the caller's id; only
the cookie is cleared, and no RPC is touched. -/
theorem homaRecvmsg_error_keeps_id {env : RecvEnv} {k : Sock} {msg : RecvMsg}
    {block : RecvmsgArgs} (hc : msg.control = some block) (hl : msg.controllen = sizeofRecvmsgArgs)
    (hread : k.inKernel = true ∨ env.fromUserOk = true)
    (hexit : env.maxBpages < block.numBpages ∨ k.bufferPool = none ∨ env.releaseBuffers ≠ 0 ∨
      block.id ≠ 0 ∧ env.findClient block.id = none) :
    ∃ control, (homaRecvmsg env k msg).written = some control ∧ control.id = block.id ∧
      control.completionCookie = 0 ∧ (homaRecvmsg env k msg).events = [] := by
  obtain ⟨hw, he⟩ := homaRecvmsg_written hc hl hread
  refine ⟨_, hw, ?_⟩
  rw [he]
  unfold recvBody
  by_cases h1 : env.maxBpages < block.numBpages
  · simp [h1]
  by_cases h2 : k.bufferPool = none
  · simp [h1, h2]
  by_cases h3 : env.releaseBuffers ≠ 0
  · simp [h1, h2, h3]
  obtain ⟨hid, hf⟩ : block.id ≠ 0 ∧ env.findClient block.id = none := by tauto
  simp [h1, h2, h3, recvWait, hid, hf]

/-- A receive by RPC id 5 on a socket with a buffer pool, where no client RPC has id 5: it returns
`-EINVAL` and writes the block back with id 5, which names no RPC that failed. -/
theorem homaRecvmsg_error_keeps_id_unknown :
    (homaRecvmsg ⟨1, fun _ => true, true, true, 0, fun _ => none, 0, .error (-eintr)⟩
        { Sock.fresh 0 afInet with inKernel := true, bufferPool := some 7 } ⟨some ⟨5, 0, 0⟩, 88⟩).result =
      -einval ∧
    ∃ control, (homaRecvmsg ⟨1, fun _ => true, true, true, 0, fun _ => none, 0, .error (-eintr)⟩
        { Sock.fresh 0 afInet with inKernel := true, bufferPool := some 7 }
        ⟨some ⟨5, 0, 0⟩, 88⟩).written = some control ∧ control.id = 5 := by
  obtain ⟨control, hw, hid, -⟩ := @homaRecvmsg_error_keeps_id
    ⟨1, fun _ => true, true, true, 0, fun _ => none, 0, .error (-eintr)⟩
    { Sock.fresh 0 afInet with inKernel := true, bufferPool := some 7 } ⟨some ⟨5, 0, 0⟩, 88⟩
    ⟨5, 0, 0⟩ rfl rfl (.inl rfl) (.inr (.inr (.inr ⟨by decide, rfl⟩)))
  exact ⟨rfl, control, hw, hid⟩

/-- On a socket `homa_sock_init` initialised, in any reachable state, `homa_recvmsg` reads and
writes a control block of the right size with `memcpy`, whoever calls it. For a user process, whose
control blocks are user pointers, `homa_sendmsg` picks one of its user variants, and
`homa_setsockopt` hands `homa_pool_set_region` the buffer region as a user pointer. -/
theorem homaRecvmsg_copies_by_socket {cfg : Config} {w : World} {R : SockId → Option Int}
    (hr : Reachable cfg w R) {s : SockId} (hs : R s = some 0) (env : RecvEnv) {msg : RecvMsg}
    {block : RecvmsgArgs} (hc : msg.control = some block) (hl : msg.controllen = sizeofRecvmsgArgs) :
    (homaRecvmsg env (w.socks s) msg).access = [.memcpy, .memcpy] ∧
    (∀ senv smsg stack, smsg.controlIsUser = Caller.user.controlIsUser →
      homaSendmsg senv (w.socks s) smsg stack =
        if (w.socks s).connected then homaSendmsgUserConnected senv (w.socks s) smsg
        else homaSendmsgUserUnconnected senv (w.socks s) smsg) ∧
    ∀ start length setRegion,
      (homaSetsockopt w s Caller.user true .rcvbuf sizeofRcvbufArgs (some (start, length)) none true
        setRegion).1 = setRegion start length false := by
  have hi := RunInv.of_reachable hr
  refine ⟨homaRecvmsg_access_inKernel (hi.in_kernel s ((hi.homa_iff s).2 hs)) hc hl,
    fun senv smsg stack hu => ?_, fun _ _ _ => ?_⟩
  · simp [homaSendmsg, hu, Caller.user]
  · simp [homaSetsockopt, Caller.user]

/-- A socket allocated and initialised from the start state: a receive with a block of the right
size reads and writes it with `memcpy`. -/
theorem homaRecvmsg_copies_by_socket_first :
    ∃ w R, Reachable Config.sample w R ∧ R 0 = some 0 ∧
      (homaRecvmsg ⟨1, fun _ => true, true, true, 0, fun _ => none, 0, .error (-eintr)⟩ (w.socks 0)
        ⟨some ⟨0, 0, 0⟩, 88⟩).access = [.memcpy, .memcpy] := by
  obtain ⟨w, hr, -⟩ := reachable_first
  exact ⟨w, _, hr, rfl, (homaRecvmsg_copies_by_socket hr (s := 0) rfl _ rfl rfl).1⟩

end Homa
