import Homa.Socktab
import Mathlib.Algebra.Group.Int

/-!
# Socket options and connecting

`homa_setsockopt` and `homa_connect` change fields of one socket and nothing of the table, and
`homa_getsockopt` reads them back; its length checks compare an `int` with a `sizeof`, so the
comparison is unsigned (`intLtSizeof`). Two facts about the caller decide branches here and in
the message paths: whether it runs in a kernel thread (`current->mm == NULL`), which
`homa_setsockopt` tests, and whether the control block of its `msghdr` is a user pointer
(`msg_control_is_user`), which `homa_sendmsg` tests. `Caller` carries both.
-/

namespace Homa

/-- The context a system call runs in: `current->mm == NULL` for a kernel thread, and the
`msg_control_is_user` flag of its `msghdr`. -/
structure Caller where
  mmNull : Bool
  controlIsUser : Bool
  deriving DecidableEq, Repr

/-- A user process: it has an `mm`, and its control blocks are in user memory. -/
def Caller.user : Caller := ⟨false, true⟩

/-- A kernel thread, such as an in-kernel user of the socket: no `mm`, kernel control blocks. -/
def Caller.kernel : Caller := ⟨true, false⟩

/-- The `optname`s `homa_setsockopt` tells apart. -/
inductive SockOpt where
  /-- `SO_HOMA_RCVBUF`. -/
  | rcvbuf
  /-- `SO_HOMA_SERVER`. -/
  | server
  | other
  deriving DecidableEq, Repr

/-- `sizeof(struct homa_rcvbuf_args)`. -/
def sizeofRcvbufArgs : Nat := 16

/-- `homa_setsockopt(sk, level, optname, optval, optlen)` called by `caller`; `levelHoma` is
`level == IPPROTO_HOMA`. `rcvbufArgs` and `serverArg` are what `copy_from_sockptr` reads at `optval`
(`none` when it faults), `userWritable` whether `copy_to_user` can write the first page of the
region, and `setRegion` what `homa_pool_set_region` returns for a start, a length and whether the
start is a kernel pointer. -/
def homaSetsockopt (w : World) (hsk : SockId) (caller : Caller) (levelHoma : Bool)
    (optname : SockOpt) (optlen : Nat) (rcvbufArgs : Option (Nat × Nat)) (serverArg : Option Int)
    (userWritable : Bool) (setRegion : Nat → Nat → Bool → Int) : Int × World :=
  let inKernel := caller.mmNull
  if !levelHoma then (-enoprotoopt, w)
  else match optname with
    | .rcvbuf =>
      if optlen ≠ sizeofRcvbufArgs then (-einval, w)
      else match rcvbufArgs with
        | none => (-efault, w)
        | some (start, length) =>
          if inKernel then (setRegion start length true, w)
          else if !userWritable then (-efault, w)
          else (setRegion start length false, w)
    | .server =>
      if optlen ≠ 4 then (-einval, w)
      else match serverArg with
        | none => (-efault, w)
        | some arg => (0, w.setSock hsk fun k => { k with isServer := arg ≠ 0 })
    | .other => (-enoprotoopt, w)

/-- `__homa_connect(sk, addr, addrlen)`, which `homa_connect` calls under the socket lock: record
the target address of an unconnected, live socket. -/
def homaConnect (w : World) (hsk : SockId) (addr : SockAddr) (addrlen : Nat) : Int × World :=
  if (w.socks hsk).connected then (-eisconn, w)
  else if (w.socks hsk).shutdown then (-eshutdown, w)
  else if addr.family ≠ afInet ∧ addr.family ≠ afInet6 then (-eafnosupport, w)
  else if addr.family = afInet then
    if addrlen < sizeofSockaddrIn then (-einval, w)
    else (0, w.setSock hsk fun k => { k with targetAddr := addr, connected := true })
  else if addr.family = afInet6 then
    if addrlen < sizeofSockaddrIn6 then (-einval, w)
    else (0, w.setSock hsk fun k => { k with targetAddr := addr, connected := true })
  else (-einval, w)

/-- What `homa_getsockopt` writes to user memory: the new length at `optlen`, or the option's value
at `optval`. -/
inductive OptWrite where
  | optlen (len : Nat)
  /-- `struct homa_rcvbuf_args` as `homa_pool_get_rcvbuf` fills it in. -/
  | rcvbuf (start length : Nat)
  /-- `is_server`, an `int`. -/
  | server (isServer : Int)
  deriving DecidableEq, Repr

/-- `len < size` with `len` an `int` and `size` a `sizeof`, a `size_t`: the usual arithmetic
conversions turn `len` into a 64-bit unsigned value first. -/
def intLtSizeof (len : Int) (size : Nat) : Bool := (len % 2 ^ 64).toNat < size

/-- The option part of `homa_getsockopt`: the length check against the option's `sizeof`, then the
length and the value to write, or an errno. `rcvbuf` is what `homa_pool_get_rcvbuf` fills in. -/
def getsockoptValue (k : Sock) (optname : SockOpt) (len : Int) (rcvbuf : Nat × Nat) :
    Except Int (Nat × OptWrite) :=
  match optname with
  | .rcvbuf =>
    if intLtSizeof len sizeofRcvbufArgs then .error (-einval)
    else .ok (sizeofRcvbufArgs, .rcvbuf rcvbuf.1 rcvbuf.2)
  | .server =>
    if intLtSizeof len 4 then .error (-einval)
    else .ok (4, .server (if k.isServer then 1 else 0))
  | .other => .error (-enoprotoopt)

/-- `homa_getsockopt(sk, level, optname, optval, optlen)`; `levelHoma` is `level == IPPROTO_HOMA`.
`len` is the `int` `copy_from_sockptr` reads at `optlen` (`none` when it faults), and `lenWritable`
and `valWritable` say whether the two `copy_to_sockptr` succeed. The result and what was written, in
order. -/
def homaGetsockopt (w : World) (hsk : SockId) (levelHoma : Bool) (optname : SockOpt)
    (len : Option Int) (rcvbuf : Nat × Nat) (lenWritable valWritable : Bool) :
    Int × List OptWrite :=
  match len with
  | none => (-efault, [])
  | some len =>
    if !levelHoma then (-enoprotoopt, [])
    else match getsockoptValue (w.socks hsk) optname len rcvbuf with
      | .error e => (e, [])
      | .ok (n, v) =>
        if !lenWritable then (-efault, [])
        else if !valWritable then (-efault, [.optlen n])
        else (0, [.optlen n, v])

/-- An update of one socket's fields other than those the table reads. -/
def FieldsOnly (w w' : World) (hsk : SockId) : Prop :=
  w'.tab = w.tab ∧ w'.count = w.count ∧ w'.prevDefaultPort = w.prevDefaultPort ∧
    w'.freed = w.freed ∧ (∀ s ≠ hsk, w'.socks s = w.socks s) ∧
    (w'.socks hsk).hnet = (w.socks hsk).hnet ∧ (w'.socks hsk).port = (w.socks hsk).port ∧
    (w'.socks hsk).shutdown = (w.socks hsk).shutdown ∧ (w'.socks hsk).homa = (w.socks hsk).homa ∧
    (w'.socks hsk).inKernel = (w.socks hsk).inKernel

section

variable {w : World} {hsk : SockId}

theorem FieldsOnly.refl : FieldsOnly w w hsk :=
  ⟨rfl, rfl, rfl, rfl, fun _ _ => rfl, rfl, rfl, rfl, rfl, rfl⟩

theorem FieldsOnly.setSock {f : Sock → Sock} (hf : ∀ k, (f k).hnet = k.hnet ∧ (f k).port = k.port ∧
    (f k).shutdown = k.shutdown ∧ (f k).homa = k.homa ∧ (f k).inKernel = k.inKernel) :
    FieldsOnly w (w.setSock hsk f) hsk :=
  ⟨rfl, rfl, rfl, rfl, fun _ hs => World.setSock_socks_of_ne _ _ hs, by simp [hf]⟩

theorem fieldsOnly_homaSetsockopt (w : World) (hsk : SockId) (caller : Caller) (levelHoma : Bool) (optname : SockOpt)
    (optlen : Nat) (rcvbufArgs : Option (Nat × Nat)) (serverArg : Option Int) (userWritable : Bool)
    (setRegion : Nat → Nat → Bool → Int) :
    FieldsOnly w (homaSetsockopt w hsk caller levelHoma optname optlen rcvbufArgs serverArg
      userWritable setRegion).2 hsk := by
  unfold homaSetsockopt
  dsimp only
  repeat' split
  all_goals first | exact .refl | exact .setSock fun _ => ⟨rfl, rfl, rfl, rfl, rfl⟩

theorem fieldsOnly_homaConnect (w : World) (hsk : SockId) (addr : SockAddr) (addrlen : Nat) :
    FieldsOnly w (homaConnect w hsk addr addrlen).2 hsk := by
  unfold homaConnect
  split_ifs <;> first | exact .refl | exact .setSock fun _ => ⟨rfl, rfl, rfl, rfl, rfl⟩

/-- A change of fields the table does not read keeps the socket-table invariant. -/
theorem SocktabInv.fieldsOnly {cfg : Config} {R : SockId → Option Int} {w' : World}
    (hinv : SocktabInv cfg w R) (h : FieldsOnly w w' hsk) : SocktabInv cfg w' R := by
  obtain ⟨ht, hc, -, -, hs, hn, hp, hsd, -, -⟩ := h
  have hk : ∀ s, (w'.socks s).hnet = (w.socks s).hnet ∧ (w'.socks s).port = (w.socks s).port ∧
      (w'.socks s).shutdown = (w.socks s).shutdown := fun s => by
    by_cases e : s = hsk
    · subst e; exact ⟨hn, hp, hsd⟩
    · rw [hs s e]; exact ⟨rfl, rfl, rfl⟩
  exact hinv.congr ht hc (fun s _ => ⟨(hk s).1, (hk s).2.1⟩) fun s => by rw [(hk s).2.2]

end

end Homa
