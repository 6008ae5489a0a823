import Homa.Recvmsg
import Mathlib.Logic.Relation

/-!
# Concurrent responses to one RPC

Several `homa_sendmsg` calls may answer the same server RPC at once, while `homa_recvmsg` delivers
it. Each response call first runs the tests of its variant (`sendChecks` and the variant's own),
then `homa_rpc_find_server` locks the RPC, and `replyLocked` decides under the lock: it returns, or
it sets `RPC_OUTGOING` and calls `homa_message_out_fill`, which may drop and retake the lock. When
the fill returns, `replyFilled` ends the call. `homa_recvmsg` moves the RPC into `RPC_IN_SERVICE`
after a delivery without error, and ends it after one with an error.

`ReplySys.Step` interleaves any number of such calls with deliveries and with the paths that end the
RPC or record an error on it. Each lock section is one step. `ReplyInv` holds along every run: a
call sets `RPC_OUTGOING` only from `RPC_IN_SERVICE`, and it leaves that state, so between two moves
into `RPC_IN_SERVICE` at most one call replies (`concurrent_replies_at_most_once`).
-/

namespace Homa

/-- The server RPC the calls name: its id, `rpc->error` and `rpc->state`. Once ended it is
`RPC_DEAD`, and `homa_rpc_find_server` no longer finds it. -/
structure ReplyRpc where
  id : Nat
  error : Int
  state : RpcState
  deriving DecidableEq, Repr

/-- What `homa_rpc_find_server` returns for the RPC. -/
def ReplyRpc.found (rpc : ReplyRpc) : Option ServerRpc :=
  if rpc.state = .dead then none else some ⟨rpc.id, rpc.error, rpc.state⟩

/-- Where a response call is: before its tests, in `homa_message_out_fill`, or returned. -/
inductive CallPc where
  | start (cookie : Nat)
  | filling
  | done (out : SendOutcome)
  deriving DecidableEq, Repr

/-- A move of the RPC into `RPC_IN_SERVICE`, by `homa_recvmsg`, or into `RPC_OUTGOING`, by call
`c` before its fill. -/
inductive ReplyEvent where
  | inService
  | outgoing (c : Nat)
  deriving DecidableEq, Repr

/-- The RPC, the calls, and the RPC's moves, latest first. -/
structure ReplySys where
  rpc : ReplyRpc
  calls : Nat → CallPc
  log : List ReplyEvent

/-- The RPC after a call's events: ended if the call ran `homa_rpc_end` on it. -/
def ReplyRpc.after (rpc : ReplyRpc) (ev : List SendEvent) : ReplyRpc :=
  if .endRpc rpc.id ∈ ev then { rpc with state := .dead } else rpc

/-- The locked section of call `c`, with completion cookie `cookie`. -/
def lockedSection (s : ReplySys) (c cookie : Nat) : ReplySys :=
  match replyLocked cookie s.rpc.found with
  | .done out => { s with rpc := s.rpc.after out.2, calls := Function.update s.calls c (.done out) }
  | .fill _ =>
    { rpc := { s.rpc with state := .outgoing }, calls := Function.update s.calls c .filling,
      log := .outgoing c :: s.log }

/-- The end of call `c` once `homa_message_out_fill` returned `result`. -/
def filledSection (s : ReplySys) (c : Nat) (result : Int) : ReplySys :=
  let out := replyFilled s.rpc.id result (s.rpc.state = .dead)
  { s with rpc := s.rpc.after out.2, calls := Function.update s.calls c (.done out) }

/-- One step of the calls, the deliveries, and the other paths that touch the RPC. -/
inductive ReplySys.Step : ReplySys → ReplySys → Prop
  /-- Call `c` fails in its variant's tests before the lookup: an errno, and no RPC touched. -/
  | checks {s : ReplySys} {c cookie : Nat} {e : Int} (h : s.calls c = .start cookie) (he : e ≠ 0) :
      ReplySys.Step s { s with calls := Function.update s.calls c (.done (e, [])) }
  /-- Call `c` passes its tests and runs its locked section. -/
  | locked {s : ReplySys} {c cookie : Nat} (h : s.calls c = .start cookie) :
      ReplySys.Step s (lockedSection s c cookie)
  /-- The fill of call `c` returns `result`. -/
  | filled {s : ReplySys} {c : Nat} {result : Int} (h : s.calls c = .filling) :
      ReplySys.Step s (filledSection s c result)
  /-- `homa_recvmsg` delivers the RPC with a message of `length` bytes: `RPC_IN_SERVICE` when the
  result is not negative, `homa_rpc_end` when it is. -/
  | deliver {s : ReplySys} {length : Int} (h : s.rpc.state ≠ .dead) :
      ReplySys.Step s
        (if recvResult s.rpc.error length < 0 then { s with rpc := { s.rpc with state := .dead } }
        else { s with rpc := { s.rpc with state := .inService }, log := .inService :: s.log })
  /-- Another path records an error on the RPC. -/
  | setError {s : ReplySys} {e : Int} : ReplySys.Step s { s with rpc := { s.rpc with error := e } }
  /-- Another path ends the RPC. -/
  | finish {s : ReplySys} : ReplySys.Step s { s with rpc := { s.rpc with state := .dead } }

/-- The moves into `RPC_OUTGOING` since the last move into `RPC_IN_SERVICE`. -/
def movesSince : List ReplyEvent → Nat
  | [] => 0
  | .inService :: _ => 0
  | .outgoing _ :: log => movesSince log + 1

/-- Between any two moves into `RPC_IN_SERVICE`, and after the last, at most one move into
`RPC_OUTGOING`. -/
def AtMostOnce : List ReplyEvent → Prop
  | [] => True
  | e :: log => movesSince (e :: log) ≤ 1 ∧ AtMostOnce log

/-- How a finished call ended: it is the call that replied, or it failed without touching the
RPC, or found no RPC and returned 0, or ended the RPC and returned the RPC's error. -/
def CallEnded (log : List ReplyEvent) (c : Nat) (out : SendOutcome) : Prop :=
  ReplyEvent.outgoing c ∈ log ∨ (out.1 ≠ 0 ∧ out.2 = []) ∨ out = (0, []) ∨
    ∃ id, out.1 ≠ 0 ∧ out.2 = [.endRpc id]

/-! ### What a response call runs

Each of the four variants, on a block with `args.id ≠ 0`, fails one of its tests with an errno and
no event, or runs the response path `sendReply`: the `checks` step, or the `locked` step followed
by the `filled` one. -/

/-- What a response call on `args` returns: an errno and no event, or the response path to some
peer. -/
def RepliesOrFails (env : SendEnv) (args : SendmsgArgs) (out : SendOutcome) : Prop :=
  (out.1 ≠ 0 ∧ out.2 = []) ∨ ∃ addr, out = sendReply env args addr

section calls

variable {env : SendEnv} {args : SendmsgArgs}

theorem RepliesOrFails.fails {e : Int} (he : e ≠ 0) : RepliesOrFails env args (e, []) :=
  .inl ⟨he, rfl⟩

theorem sendBody_response {addr : SockAddr} {copy : CopyKind} (hid : args.id ≠ 0) :
    sendBody env args addr copy = sendReply env args addr := by
  simp [sendBody, hid]

/-- The tests before the request or response either pass to it or fail with an errno. -/
theorem RepliesOrFails.ofChecks {family : Nat} {checked : SendmsgArgs} {addr : SockAddr}
    {namelenBad : Bool} {copy : CopyKind} (hid : args.id ≠ 0) :
    RepliesOrFails env args
      (sendChecks env family checked addr namelenBad (sendBody env args addr copy)) := by
  unfold sendChecks
  split_ifs with _ hw
  · exact .fails (by decide)
  · exact .fails hw.2
  · exact .fails (by decide)
  · exact .fails (by decide)
  · exact .inr ⟨addr, sendBody_response hid⟩

variable {k : Sock} {msg : SendMsg}

theorem homaSendmsgUserConnected_response (hid : msg.control.id ≠ 0) :
    RepliesOrFails env msg.control (homaSendmsgUserConnected env k msg) := by
  unfold homaSendmsgUserConnected
  split_ifs
  · exact .fails (by decide)
  · exact .fails (by decide)
  · exact .fails (by decide)
  · exact .ofChecks hid

theorem homaSendmsgUserUnconnected_response (hid : msg.control.id ≠ 0) :
    RepliesOrFails env msg.control (homaSendmsgUserUnconnected env k msg) := by
  unfold homaSendmsgUserUnconnected
  split
  · exact .fails (by decide)
  · split_ifs
    · exact .fails (by decide)
    · exact .fails (by decide)
    · exact .ofChecks hid

theorem homaSendmsgInKernelConnected_response (hid : msg.control.id ≠ 0) (stack : SendmsgArgs) :
    RepliesOrFails env msg.control (homaSendmsgInKernelConnected env k msg stack) := by
  unfold homaSendmsgInKernelConnected
  split_ifs
  · exact .fails (by decide)
  · exact .ofChecks hid

theorem homaSendmsgInKernelUnconnected_response (hid : msg.control.id ≠ 0) :
    RepliesOrFails env msg.control (homaSendmsgInKernelUnconnected env k msg) := by
  unfold homaSendmsgInKernelUnconnected
  split
  · exact .fails (by decide)
  · exact .ofChecks hid

/-- Every variant `homa_sendmsg` picks, on a response block. -/
theorem homaSendmsg_response (hid : msg.control.id ≠ 0) (stack : SendmsgArgs) :
    RepliesOrFails env msg.control (homaSendmsg env k msg stack) := by
  unfold homaSendmsg
  split_ifs
  · exact homaSendmsgUserConnected_response hid
  · exact homaSendmsgUserUnconnected_response hid
  · exact homaSendmsgInKernelConnected_response hid stack
  · exact homaSendmsgInKernelUnconnected_response hid

end calls

/-! ### The locked section -/

/-- What the locked section can return without replying: `-EINVAL` for a nonzero cookie or a
state other than `RPC_IN_SERVICE`, 0 when no RPC is found, or the RPC's error after ending it. -/
theorem replyLocked_done {cookie : Nat} {found : Option ServerRpc} {out : SendOutcome}
    (h : replyLocked cookie found = .done out) :
    (out = (-einval, []) ∧
      (cookie ≠ 0 ∨ ∃ rpc, found = some rpc ∧ rpc.error = 0 ∧ rpc.state ≠ .inService)) ∨
    (out = (0, []) ∧ cookie = 0 ∧ found = none) ∨
    (∃ rpc, cookie = 0 ∧ found = some rpc ∧ rpc.error ≠ 0 ∧ out = (rpc.error, [.endRpc rpc.id])) := by
  unfold replyLocked at h
  split_ifs at h with hc
  · cases h; exact .inl ⟨rfl, .inl hc⟩
  · split at h
    · cases h; exact .inr (.inl ⟨rfl, not_not.1 hc, rfl⟩)
    · rename_i rpc
      split_ifs at h with he hs <;> cases h
      · exact .inr (.inr ⟨rpc, not_not.1 hc, rfl, he, rfl⟩)
      · exact .inl ⟨rfl, .inr ⟨rpc, rfl, not_not.1 he, hs⟩⟩

/-- The locked section replies only to an RPC in `RPC_IN_SERVICE` with no error. -/
theorem replyLocked_fill {cookie : Nat} {found : Option ServerRpc} {id : Nat}
    (h : replyLocked cookie found = .fill id) :
    ∃ rpc, found = some rpc ∧ rpc.error = 0 ∧ rpc.state = .inService := by
  unfold replyLocked at h
  split_ifs at h
  split at h
  · cases h
  · rename_i rpc
    split_ifs at h with he hs
    exact ⟨rpc, rfl, not_not.1 he, not_not.1 hs⟩

theorem CallEnded.of_done {log : List ReplyEvent} {c cookie : Nat} {found : Option ServerRpc}
    {out : SendOutcome} (h : replyLocked cookie found = .done out) : CallEnded log c out := by
  rcases replyLocked_done h with ⟨rfl, -⟩ | ⟨rfl, -⟩ | ⟨rpc, -, -, he, rfl⟩
  · exact .inr (.inl ⟨by decide, rfl⟩)
  · exact .inr (.inr (.inl rfl))
  · exact .inr (.inr (.inr ⟨rpc.id, he, rfl⟩))

theorem CallEnded.cons {log : List ReplyEvent} {c : Nat} {out : SendOutcome} (ev : ReplyEvent)
    (h : CallEnded log c out) : CallEnded (ev :: log) c out := by
  rcases h with h | h
  · exact .inl (List.mem_cons_of_mem _ h)
  · exact .inr h

/-! ### The invariant -/

/-- What holds along every run: at most one reply per period; none yet in the current period when
the RPC is in `RPC_IN_SERVICE`; every call in its fill has replied; every finished call ended in
one of the ways `CallEnded` lists. -/
structure ReplyInv (s : ReplySys) : Prop where
  once : AtMostOnce s.log
  fresh : s.rpc.state = .inService → movesSince s.log = 0
  filling : ∀ c, s.calls c = .filling → .outgoing c ∈ s.log
  ended : ∀ c out, s.calls c = .done out → CallEnded s.log c out

theorem ReplyInv.start (rpc : ReplyRpc) (cookie : Nat → Nat) :
    ReplyInv ⟨rpc, fun c => .start (cookie c), []⟩ :=
  ⟨trivial, fun _ => rfl, fun _ h => (by cases h), fun _ _ h => (by cases h)⟩

/-- A call's update keeps the facts about the other calls. -/
private theorem calls_update {s : ReplySys} (hi : ReplyInv s) (c : Nat) (pc : CallPc)
    (log : List ReplyEvent) (hlog : ∀ e ∈ s.log, e ∈ log) (hc : ∀ out, pc = .done out → CallEnded log c out)
    (hf : pc = .filling → .outgoing c ∈ log) :
    (∀ c', Function.update s.calls c pc c' = .filling → .outgoing c' ∈ log) ∧
      ∀ c' out, Function.update s.calls c pc c' = .done out → CallEnded log c' out := by
  refine ⟨fun c' h => ?_, fun c' out h => ?_⟩ <;> by_cases e : c' = c
  · subst e; rw [Function.update_same] at h; exact hf h
  · rw [Function.update_noteq e] at h; exact hlog _ (hi.filling c' h)
  · subst e; rw [Function.update_same] at h; exact hc out h
  · rw [Function.update_noteq e] at h
    rcases hi.ended c' out h with h | h
    · exact .inl (hlog _ h)
    · exact .inr h

theorem ReplyRpc.after_state {rpc : ReplyRpc} {ev : List SendEvent}
    (h : (rpc.after ev).state = .inService) : rpc.state = .inService := by
  unfold ReplyRpc.after at h; split_ifs at h; exact h

theorem ReplyInv.step {s s' : ReplySys} (hi : ReplyInv s) (h : ReplySys.Step s s') : ReplyInv s' := by
  cases h with
  | @checks c _ e _ he =>
    obtain ⟨h1, h2⟩ := calls_update hi c (.done (e, [])) s.log (fun _ h => h)
      (fun out h => by cases h; exact .inr (.inl ⟨he, rfl⟩)) (fun h => by cases h)
    exact ⟨hi.once, hi.fresh, h1, h2⟩
  | @locked c cookie _ =>
    unfold lockedSection
    split
    · rename_i out hl
      obtain ⟨h1, h2⟩ := calls_update hi c (.done out) s.log (fun _ h => h)
        (fun out' h => by cases h; exact CallEnded.of_done hl) (fun h => by cases h)
      exact ⟨hi.once, fun hs => hi.fresh (ReplyRpc.after_state hs), h1, h2⟩
    · rename_i id hl
      obtain ⟨rpc, hfound, -, hsvc⟩ := replyLocked_fill hl
      have hsvc' : s.rpc.state = .inService := by
        unfold ReplyRpc.found at hfound; split_ifs at hfound; cases hfound; exact hsvc
      obtain ⟨h1, h2⟩ := calls_update hi c .filling (.outgoing c :: s.log)
        (fun _ h => List.mem_cons_of_mem _ h)
        (fun _ h => by cases h) (fun _ => List.mem_cons_self _ _)
      refine ⟨⟨?_, hi.once⟩, fun h => (by cases h), h1, h2⟩
      simp [movesSince, hi.fresh hsvc']
  | @filled c result hc =>
    obtain ⟨h1, h2⟩ := calls_update hi c
      (.done (replyFilled s.rpc.id result (s.rpc.state = .dead))) s.log (fun _ h => h)
      (fun out h => by cases h; exact .inl (hi.filling c hc)) (fun h => by cases h)
    exact ⟨hi.once, fun hs => hi.fresh (ReplyRpc.after_state hs), h1, h2⟩
  | deliver _ =>
    split
    · exact ⟨hi.once, fun h => (by cases h), hi.filling, hi.ended⟩
    · refine ⟨⟨by simp [movesSince], hi.once⟩, fun _ => rfl,
        fun c h => List.mem_cons_of_mem _ (hi.filling c h),
        fun c out h => (hi.ended c out h).cons _⟩
  | setError => exact ⟨hi.once, hi.fresh, hi.filling, hi.ended⟩
  | finish => exact ⟨hi.once, fun h => (by cases h), hi.filling, hi.ended⟩

theorem ReplyInv.of_run {s s' : ReplySys} (h : Relation.ReflTransGen ReplySys.Step s s')
    (hi : ReplyInv s) : ReplyInv s' := by
  induction h with
  | refl => exact hi
  | tail _ hs ih => exact ih.step hs

/-- Response calls that start together on one server RPC, interleaved with each other, with
deliveries of the RPC and with the paths that end it or set its error: between two moves into
`RPC_IN_SERVICE`, and after the last, at most one call sets `RPC_OUTGOING` and fills; every other
finished call failed with an errno touching no RPC, returned 0, or ended the RPC and returned its
error. Each variant of `homa_sendmsg` runs as these calls do, and its locked section returns
`-EINVAL` only for a nonzero cookie or a state other than `RPC_IN_SERVICE`, 0 only when no RPC is
found, and ends the RPC only when its error is set. -/
theorem concurrent_replies_at_most_once {rpc : ReplyRpc} {cookie : Nat → Nat} {s : ReplySys}
    (h : Relation.ReflTransGen ReplySys.Step ⟨rpc, fun c => .start (cookie c), []⟩ s) :
    AtMostOnce s.log ∧ (∀ c out, s.calls c = .done out → CallEnded s.log c out) ∧
    (∀ env k msg stack, msg.control.id ≠ 0 →
      RepliesOrFails env msg.control (homaSendmsg env k msg stack)) ∧
    ∀ cookie found out, replyLocked cookie found = .done out →
      (out = (-einval, []) ∧
        (cookie ≠ 0 ∨ ∃ rpc, found = some rpc ∧ rpc.error = 0 ∧ rpc.state ≠ .inService)) ∨
      (out = (0, []) ∧ cookie = 0 ∧ found = none) ∨
      (∃ rpc, cookie = 0 ∧ found = some rpc ∧ rpc.error ≠ 0 ∧ out = (rpc.error, [.endRpc rpc.id])) :=
  have hi := (ReplyInv.start rpc cookie).of_run h
  ⟨hi.once, hi.ended, fun _ _ _ stack hid => homaSendmsg_response hid stack,
    fun _ _ _ => replyLocked_done⟩

/-- Three calls on RPC 1, in `RPC_IN_SERVICE`: call 0 takes the lock first and replies; call 1,
while call 0 fills, finds the RPC in `RPC_OUTGOING` and fails with `-EINVAL`; a delivery puts the RPC
back in service, and call 2 then replies in the new period. -/
theorem concurrent_replies_at_most_once_three :
    ∃ s, Relation.ReflTransGen ReplySys.Step ⟨⟨1, 0, .inService⟩, fun _ => .start 0, []⟩ s ∧
      s.log = [.outgoing 2, .inService, .outgoing 0] ∧ s.calls 1 = .done (-einval, []) ∧
      AtMostOnce s.log ∧ CallEnded s.log 1 (-einval, []) := by
  have h₁ := Relation.ReflTransGen.single
    (ReplySys.Step.locked (c := 0) (s := ⟨⟨1, 0, .inService⟩, fun _ => .start 0, []⟩) rfl)
  have h₂ := h₁.tail (ReplySys.Step.locked (c := 1) rfl)
  have h₃ := h₂.tail (@ReplySys.Step.filled _ 0 0 rfl)
  have h₄ := h₃.tail (@ReplySys.Step.deliver _ 5 (by decide))
  have h₅ := h₄.tail (ReplySys.Step.locked (c := 2) (by rfl))
  obtain ⟨hmost, hended, -⟩ := concurrent_replies_at_most_once h₅
  exact ⟨_, h₅, by rfl, by rfl, hmost, hended 1 (-einval, []) (by rfl)⟩

/-- A response call that names RPC 7, in `RPC_IN_SERVICE` with no error, from an IPv4 socket with
an IPv6 address: it returns `-EAFNOSUPPORT`, which none of the three outcomes of the locked section
is, and touches no RPC. -/
theorem homaSendmsg_response_wrong_family :
    let env : SendEnv :=
      ⟨true, 0, fun _ => .error (-enomem), 0, false, fun _ id => some ⟨id, 0, .inService⟩,
        fun _ => false, true, true⟩
    homaSendmsg env (Sock.fresh 0 afInet) ⟨some ⟨afInet6, 80, 1⟩, 28, true, ⟨7, 0, 0, 0⟩⟩
      ⟨0, 0, 0, 0⟩ = (-eafnosupport, []) := by
  decide

end Homa
