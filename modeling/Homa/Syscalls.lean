import Homa.Run
import Homa.ListHead

/-!
# The system calls on the socket table, and polling

The plumbing reaches the socket table through four system calls. `homa_socket` runs
`homa_sock_init` on the socket `sk_alloc` just made and, if it fails, `homa_sock_shutdown` and
`homa_sock_destroy`. `homa_bind` checks the address against the socket's family and length and
calls `homa_sock_bind` with its port. `homa_close` calls `homa_sock_shutdown`, then
`sk_common_release`, which calls `homa_sock_destroy` through `sk_prot->destroy` and drops the
socket's reference. `homa_shutdown` calls `homa_sock_shutdown` whatever `how` is.

`SysStep` is a run of these calls, interleaved with anything else of the step model (socket
options, connects, and the kernel's own lookups and table scans). Each call is a sequence of steps
of `Step` (`SysStep.steps`), so every state the calls reach is a state of the step model
(`sysReachable_reachable`), and everything proved there holds of it. On top of that, both ends of
a socket's life change the port map by the socket's own entry alone (`lookup_of_one`): `socket(2)`
adds it at a free default port or, when `homa_sock_init` fails, changes nothing, since the cleanup
after a failed init finds `homa` unset and does nothing (`homaSocket_spec`); `homa_close` takes it
off, frees its buffer pool once, and drops one reference (`homaClose_spec`). After a close the
socket is never found again in any run (`homaClose_never_found`), and the port it held can be bound
by another socket at once (`homaBind_after_homaClose`).

`homa_poll` reports a shut-down socket readable, and a socket `homa_sock_init` has run on never
leaves the shut-down state, so from its shutdown on every poll of it returns at once
(`homaPoll_readable_after_shutdown`). `homa_sock_wait_wmem` is the wait the send paths make when the
socket has no memory; their model takes its result as given.
-/

namespace Homa

variable (cfg : Config)

/-- `homa_socket(sk)`, on the socket `hsk` that `sk_alloc` just made: `homa_sock_init`, and when it
fails `homa_sock_shutdown` and `homa_sock_destroy`, whose table and pool parts are the teardown
calls. -/
def homaSocket (w : World) (hsk : SockId) (pool : Except Int PoolId) : Option (Int × World) :=
  (homaSockInit cfg w hsk pool).bind fun (r, w₁) =>
    if r ≠ 0 then (teardownRun w₁ [.shutdown hsk, .destroy hsk]).map fun w₂ => (r, w₂)
    else some (r, w₁)

/-- The port `homa_bind` takes from an address of the socket's family, or `-EINVAL` when
`addr_len` is shorter than the family's `sockaddr`. Both branches read the port at the same offset
of `union sockaddr_in_union` (the IPv6 branch through `in4.sin_port`, the IPv4 one through
`in6.sin6_port`), in network order; `ntohs` of a 16-bit value is `htons`. A family that is neither
`AF_INET` nor `AF_INET6` leaves the port 0. -/
def bindPort (addr : SockAddr) (addrLen : Nat) : Except Int Nat :=
  if addr.family = afInet6 then
    if addrLen < sizeofSockaddrIn6 then .error (-einval) else .ok (htons addr.port)
  else if addr.family = afInet then
    if addrLen < sizeofSockaddrIn then .error (-einval) else .ok (htons addr.port)
  else .ok 0

/-- `homa_bind(sock, addr, addr_len)` on the socket `hsk`. `none` on a socket with no `hnet`, which
`socket(2)` never hands out. -/
def homaBind (w : World) (hsk : SockId) (addr : SockAddr) (addrLen : Nat) : Option (Int × World) :=
  if addr.family ≠ (w.socks hsk).family then some (-eafnosupport, w)
  else match bindPort addr addrLen, (w.socks hsk).hnet with
    | .error e, _ => some (e, w)
    | .ok port, some hnet => homaSockBind cfg w hnet hsk port
    | .ok _, none => none

/-- `homa_close(sk, timeout)`: `homa_sock_shutdown`, then `sk_common_release`, which calls
`homa_sock_destroy`, `homa_unhash` (which does nothing) and `sock_put`. -/
def homaClose (w : World) (hsk : SockId) : Option World :=
  (teardownRun w [.shutdown hsk, .destroy hsk]).map fun w => w.sockPut hsk

/-- `homa_shutdown(sock, how)`: `homa_sock_shutdown`; it returns 0. -/
def homaShutdown (w : World) (hsk : SockId) : Option (Int × World) :=
  (shutdownUnlink w hsk).map fun w => (0, w)

/-- One system call on a socket `socket(2)` handed out (or, for `socket`, the call that makes one),
or any other step of the step model. -/
inductive SysStep : RunState → RunState → Prop
  /-- `socket(2)`: `sk_alloc` makes the next socket and `homa_socket` runs on it;
  `homa_pool_alloc` fails with an errno. -/
  | socket {w w' : World} {R : SockId → Option Int} {net : NetId} {family : Nat}
      {pool : Except Int PoolId} {r : Int} (hpool : ∀ e, pool = .error e → e < 0)
      (h : homaSocket cfg (w.alloc net family) w.count pool = some (r, w')) :
      SysStep (w, R) (w', Function.update R w.count (some r))
  | bind {w w' : World} {R : SockId → Option Int} {hsk : SockId} {addr : SockAddr}
      {addrLen : Nat} {r : Int} (hR : R hsk = some 0)
      (h : homaBind cfg w hsk addr addrLen = some (r, w')) : SysStep (w, R) (w', R)
  | close {w w' : World} {R : SockId → Option Int} {hsk : SockId} (hR : R hsk = some 0)
      (h : homaClose w hsk = some w') : SysStep (w, R) (w', R)
  | shutdown {w w' : World} {R : SockId → Option Int} {hsk : SockId} {r : Int}
      (hR : R hsk = some 0) (h : homaShutdown w hsk = some (r, w')) : SysStep (w, R) (w', R)
  /-- A socket option, a connect, a lookup or a table scan of the kernel's own. -/
  | kernel {σ σ' : RunState} (h : Step cfg σ σ') : SysStep σ σ'

/-- A state some run of system calls reaches from an empty table. -/
def SysReachable (w : World) (R : SockId → Option Int) : Prop :=
  ∃ prev, Relation.ReflTransGen (SysStep cfg) (World.start prev, fun _ => none) (w, R)

variable {cfg}

/-! ### Each call is a run of the step model -/

section steps

variable {w w' : World} {R : SockId → Option Int} {hsk : SockId}

theorem teardownRun_steps : ∀ {w : World} (calls : List TeardownCall),
    teardownRun w calls = some w' → Relation.ReflTransGen (Step cfg) (w, R) (w', R)
  | _, [], h => by cases h; exact .refl
  | w, c :: cs, h => by
    obtain ⟨w₁, h₁, h₂⟩ := Option.bind_eq_some.1 h
    have hc : Step cfg (w, R) (w₁, R) := by
      cases c with
      | shutdown s => exact .shutdown h₁
      | destroy s => cases h₁; exact .destroy w R s
    exact .head hc (teardownRun_steps cs h₂)

/-- What `homa_bind` does: nothing, or `homa_sock_bind` in the socket's own namespace. -/
theorem homaBind_cases {addr : SockAddr} {addrLen : Nat} {r : Int}
    (h : homaBind cfg w hsk addr addrLen = some (r, w')) :
    w' = w ∨ ∃ hnet port, (w.socks hsk).hnet = some hnet ∧ homaSockBind cfg w hnet hsk port = some (r, w') := by
  unfold homaBind at h
  split_ifs at h
  · cases h; exact .inl rfl
  · split at h
    · cases h; exact .inl rfl
    · exact .inr ⟨_, _, by assumption, h⟩
    · cases h

theorem SysStep.steps {σ σ' : RunState} (hi : RunInv cfg σ.1 σ.2) :
    SysStep cfg σ σ' → Relation.ReflTransGen (Step cfg) σ σ'
  | @SysStep.socket _ w _ R net family _ _ hpool h => by
    obtain ⟨⟨r₁, w₁⟩, hinit, h⟩ := Option.bind_eq_some.1 h
    have halloc : Step cfg (w, R) (w.alloc net family, R) := .alloc w R net family
    have hi' : Step cfg (w.alloc net family, R) (w₁, Function.update R w.count (some r₁)) :=
      .init (by simp [World.alloc]) (hi.fresh w.count le_rfl) hpool hinit
    dsimp only at h
    split_ifs at h with hr
    · obtain ⟨w₂, ht, he⟩ := Option.map_eq_some'.1 h
      cases he
      exact (Relation.ReflTransGen.single halloc).tail hi' |>.trans (teardownRun_steps _ ht)
    · cases h
      exact (Relation.ReflTransGen.single halloc).tail hi'
  | .bind hR h => by
    rcases homaBind_cases h with rfl | ⟨hnet, port, hn, hb⟩
    · exact .refl
    · exact .single (.bind hR hn hb)
  | @SysStep.close _ _ _ _ hsk _ h => by
    obtain ⟨w₂, ht, rfl⟩ := Option.map_eq_some'.1 h
    exact (teardownRun_steps _ ht).tail (.put w₂ _ hsk)
  | .shutdown _ h => by
    obtain ⟨w₂, hu, he⟩ := Option.map_eq_some'.1 h
    cases he
    exact .single (.shutdown hu)
  | .kernel h => .single h

end steps

/-- A run of system calls from a state of the invariant is a run of the step model. -/
theorem SysStep.run_steps {σ σ' : RunState} (hi : RunInv cfg σ.1 σ.2)
    (h : Relation.ReflTransGen (SysStep cfg) σ σ') : Relation.ReflTransGen (Step cfg) σ σ' := by
  induction h with
  | refl => exact .refl
  | tail _ hs ih => exact ih.trans (hs.steps (RunInv.of_run ih hi))

theorem SysReachable.reachable {w : World} {R : SockId → Option Int} (hr : SysReachable cfg w R) :
    Reachable cfg w R :=
  let ⟨prev, h⟩ := hr
  ⟨prev, SysStep.run_steps (.start prev) h⟩

theorem SysReachable.tail {w w' : World} {R R' : SockId → Option Int} (hr : SysReachable cfg w R)
    (h : SysStep cfg (w, R) (w', R')) : SysReachable cfg w' R' :=
  let ⟨prev, h₀⟩ := hr
  ⟨prev, h₀.tail h⟩

/-- Every state a run of system calls reaches, interleaved with the kernel's own uses of the table,
is a state of the step model: the socket-table invariant and everything proved of reachable states
hold in it. -/
theorem sysReachable_reachable {w : World} {R : SockId → Option Int} (hr : SysReachable cfg w R) :
    Reachable cfg w R :=
  hr.reachable

/-- One `socket(2)` on an empty table, with buffer pool 7: `homa_socket` returns 0. -/
theorem sysReachable_socket : ∃ w, SysReachable Config.sample w (Function.update (fun _ => none) 0 (some 0)) := by
  obtain ⟨w, h⟩ : ∃ w, homaSocket Config.sample ((World.start fun _ => 32768).alloc 0 afInet) 0
      (.ok 7) = some (0, w) := ⟨_, rfl⟩
  exact ⟨w, _, .single (.socket (fun _ h => by cases h) h)⟩

/-- The state one `socket(2)` reaches is a state of the step model. -/
theorem sysReachable_reachable_socket :
    ∃ w, SysReachable Config.sample w (Function.update (fun _ => none) 0 (some 0)) ∧
      Reachable Config.sample w (Function.update (fun _ => none) 0 (some 0)) :=
  let ⟨w, hs⟩ := sysReachable_socket
  ⟨w, hs, sysReachable_reachable hs⟩

/-! ### The port map around one socket -/

section portMap

variable {w w' : World} {R R' : SockId → Option Int} {hsk : SockId}

theorem SocktabInv.lookup_eq_some_iff (hinv : SocktabInv cfg w R) (n : NetId) (q : Nat)
    (s : SockId) :
    lookup cfg w n q = some s ↔ w.Linked s ∧ (w.socks s).hnet = some n ∧ (w.socks s).port = q :=
  let ⟨_, hok⟩ := hinv.ok
  hok.lookup_eq_some_iff hinv.unique

/-- A change of one socket `hsk` between two states of the invariant, every other socket keeping its
fields and whether it is on the table: the port map finds `hsk` where its new entry is, nothing
where its old entry was, and elsewhere what it found before. -/
theorem lookup_of_one (hinv : SocktabInv cfg w R) (hinv' : SocktabInv cfg w' R')
    (hl : ∀ s ≠ hsk, w'.Linked s ↔ w.Linked s) (hs : ∀ s ≠ hsk, w'.socks s = w.socks s)
    (n : NetId) (q : Nat) :
    lookup cfg w' n q =
      if w'.Linked hsk ∧ (w'.socks hsk).hnet = some n ∧ (w'.socks hsk).port = q then some hsk
      else if lookup cfg w n q = some hsk then none else lookup cfg w n q := by
  split_ifs with hc hd
  · exact (hinv'.lookup_eq_some_iff n q hsk).2 hc
  · refine Option.eq_none_iff_forall_not_mem.2 fun s hs' => ?_
    obtain ⟨hl', hn, hp⟩ := (hinv'.lookup_eq_some_iff n q s).1 hs'
    by_cases e : s = hsk
    · exact hc (e ▸ ⟨hl', hn, hp⟩)
    · -- `s` would hold the entry `hsk` holds in the old state
      obtain ⟨hlh, hnh, hph⟩ := (hinv.lookup_eq_some_iff n q hsk).1 hd
      exact e (hinv.unique s hsk ((hl s e).1 hl') hlh (by rw [← hs s e, hn, hnh])
        (by rw [← hs s e, hp, hph]))
  · refine Option.ext fun s => ?_
    rw [Option.mem_def, Option.mem_def, hinv'.lookup_eq_some_iff, hinv.lookup_eq_some_iff]
    by_cases e : s = hsk
    · subst e; exact ⟨fun h => absurd h hc, fun h => absurd ((hinv.lookup_eq_some_iff n q s).2 h) hd⟩
    · rw [hl s e, hs s e]

end portMap

/-! ### Closing a socket -/

section close

variable {w w₁ : World} {R R₁ : SockId → Option Int} {hsk : SockId}

/-- `homa_sock_destroy` of an initialised socket clears its pool and frees it, if it had one. -/
theorem homaSockDestroy_self (hh : (w.socks hsk).homa = true) :
    (homaSockDestroy w hsk).socks hsk = { w.socks hsk with bufferPool := none } ∧
      (homaSockDestroy w hsk).freed = (w.socks hsk).bufferPool.toList ++ w.freed := by
  unfold homaSockDestroy
  rw [if_neg (by simp [hh])]
  split
  · simp [*]
  · rename_i hp; simp only [hp, Option.toList_none, List.nil_append, and_true]; rw [← hp]

theorem lookup_homaSockDestroy : lookup cfg (homaSockDestroy w hsk) = lookup cfg w :=
  lookup_congr (homaSockDestroy_tab ..) (homaSockDestroy_count ..) fun s => by
    by_cases e : s = hsk
    · subst e; unfold homaSockDestroy; split_ifs
      · exact ⟨rfl, rfl⟩
      · split <;> simp
    · rw [homaSockDestroy_socks_of_ne e]; exact ⟨rfl, rfl⟩

/-- The shutdown section on a socket whose init returned 0, shut down or not: afterwards it is shut
down and off the table, and nothing else changed. -/
theorem shutdownUnlink_drop (hi : RunInv cfg w R) (hR : R hsk = some 0) :
    ∃ w₁, shutdownUnlink w hsk = some w₁ ∧ w₁.socks hsk = { w.socks hsk with shutdown := true } ∧
      (∀ s ≠ hsk, w₁.socks s = w.socks s) ∧ (∀ s, w₁.Linked s ↔ s ≠ hsk ∧ w.Linked s) ∧
      w₁.freed = w.freed := by
  have hh : (w.socks hsk).homa = true := (hi.homa_iff hsk).2 hR
  cases hsd : (w.socks hsk).shutdown
  · obtain ⟨B, hok⟩ := hi.socktab.ok
    have hl : w.Linked hsk := (hi.socktab.linked_iff hsk).2 ⟨hR, hsd⟩
    obtain ⟨b, hb⟩ := (hok.linked_iff hsk).1 hl
    obtain ⟨p, hp⟩ := Option.ne_none_iff_exists'.1 hl
    obtain ⟨t, hd⟩ := Hlist.delRcu_of_pprev hp
    exact ⟨_, shutdownUnlink_live hsd hh hd, by simp,
      fun s hs => World.setSock_socks_of_ne w (fun k => { k with shutdown := true }) hs,
      hok.rep.hashed_delRcu hb hd, rfl⟩
  · have hnl : ¬w.Linked hsk := fun hl => by simp [(hi.socktab.linked_iff hsk).1 hl |>.2] at hsd
    refine ⟨w, by simp [shutdownUnlink, hsd], by rw [← hsd], fun _ _ => rfl, fun s => ?_, rfl⟩
    exact ⟨fun hs => ⟨fun e => hnl (e ▸ hs), hs⟩, And.right⟩

theorem homaClose_of_shutdownUnlink (hu : shutdownUnlink w hsk = some w₁) :
    homaClose w hsk = some ((homaSockDestroy w₁ hsk).sockPut hsk) := by
  simp [homaClose, teardownRun, TeardownCall.apply, hu]

/-- What `homa_close` does to the table: the socket ends shut down and off it, and every other
socket keeps its fields and its place. -/
theorem homaClose_frame (hi : RunInv cfg w R) (hR : R hsk = some 0) :
    ∃ w', homaClose w hsk = some w' ∧ (w'.socks hsk).shutdown = true ∧
      (∀ s ≠ hsk, w'.socks s = w.socks s) ∧ ∀ s, w'.Linked s ↔ s ≠ hsk ∧ w.Linked s := by
  obtain ⟨w₁, hu, hself, hs₁, hl₁, -⟩ := shutdownUnlink_drop hi hR
  refine ⟨_, homaClose_of_shutdownUnlink hu, by simp [World.sockPut_socks, hself], fun s hs => ?_,
    fun s => by simpa only [World.Linked, World.sockPut_tab, homaSockDestroy_tab] using hl₁ s⟩
  rw [World.sockPut_socks, homaSockDestroy_socks_of_ne hs, hs₁ s hs, if_neg (Ne.symm hs)]
  simp

end close

/-- `homa_close` on a socket that `socket(2)` handed out, in every state the system calls reach: it
leaves the socket shut down and off the table, its buffer pool cleared and freed once if it had
one, and one reference fewer. No other socket changes, and the port map loses exactly this socket:
a lookup that found it finds nothing, and every other lookup finds what it found. -/
theorem homaClose_spec {w : World} {R : SockId → Option Int} (hr : SysReachable cfg w R)
    {hsk : SockId} (hR : R hsk = some 0) :
    ∃ w', homaClose w hsk = some w' ∧
      ¬w'.Linked hsk ∧ (w'.socks hsk).shutdown = true ∧ (w'.socks hsk).bufferPool = none ∧
      (w'.socks hsk).refs = (w.socks hsk).refs - 1 ∧
      w'.freed = (w.socks hsk).bufferPool.toList ++ w.freed ∧
      (∀ s ≠ hsk, w'.socks s = w.socks s) ∧
      ∀ n q, lookup cfg w' n q = if lookup cfg w n q = some hsk then none else lookup cfg w n q := by
  have hr' := hr.reachable
  have hi := RunInv.of_reachable hr'
  obtain ⟨w₁, hu, hself, hs₁, hl₁, hf₁⟩ := shutdownUnlink_drop hi hR
  have hi₁ := RunInv.of_reachable (hr'.of_run (.single (.shutdown hu)))
  have hh₁ : (w₁.socks hsk).homa = true := by rw [hself]; exact (hi.homa_iff hsk).2 hR
  obtain ⟨hd₁, hd₂⟩ := homaSockDestroy_self hh₁
  refine ⟨(homaSockDestroy w₁ hsk).sockPut hsk,
    by simp [homaClose, teardownRun, TeardownCall.apply, hu], ?_, ?_, ?_, ?_, ?_, fun s hs => ?_,
    fun n q => ?_⟩
  · simpa [World.Linked] using fun h => ((hl₁ hsk).1 h).1 rfl
  · simp [World.sockPut_socks, hd₁, hself]
  · simp [World.sockPut_socks, hd₁]
  · simp [World.sockPut_socks, hd₁, hself]
  · simp [World.sockPut, hd₂, hself, hf₁]
  · rw [World.sockPut_socks, homaSockDestroy_socks_of_ne hs, hs₁ s hs, if_neg (Ne.symm hs)]
    simp
  · have hnl : ¬w₁.Linked hsk := fun h => ((hl₁ hsk).1 h).1 rfl
    rw [lookup_sockPut, lookup_homaSockDestroy, lookup_of_one hi.socktab hi₁.socktab
      (fun s e => by rw [hl₁]; exact and_iff_right e) hs₁ n q, if_neg fun h => hnl h.1]

/-- Closing the one socket `socket(2)` made: it ends off the table and shut down. -/
theorem homaClose_spec_socket :
    ∃ w, SysReachable Config.sample w (Function.update (fun _ => none) 0 (some 0)) ∧
      Function.update (fun _ => none) 0 (some (0 : Int)) 0 = some 0 ∧
      ∃ w', homaClose w 0 = some w' ∧ ¬w'.Linked 0 ∧ (w'.socks 0).shutdown = true :=
  let ⟨w, hs⟩ := sysReachable_socket
  let ⟨w', hc, hl, hsd, _⟩ := @homaClose_spec Config.sample _ _ hs 0 rfl
  ⟨w, hs, rfl, w', hc, hl, hsd⟩

/-- After `close(2)`, in every later state of every run of system calls, `homa_sock_find` never
returns the socket again, whatever namespace and port it is asked for: no packet is delivered to a
closed socket. -/
theorem homaClose_never_found {w w₁ w' : World} {R R' : SockId → Option Int}
    (hr : SysReachable cfg w R) {hsk : SockId} (hR : R hsk = some 0)
    (hc : homaClose w hsk = some w₁) (hrun : Relation.ReflTransGen (SysStep cfg) (w₁, R) (w', R'))
    (hnet : NetId) (port : Nat) : (homaSockFind cfg w' hnet port).1 ≠ some hsk := by
  have hr₁ := (hr.tail (.close hR hc)).reachable
  obtain ⟨w₂, hc₂, hsd, -⟩ := homaClose_frame (RunInv.of_reachable hr.reachable) hR
  obtain rfl : w₂ = w₁ := Option.some.inj (hc₂.symm.trans hc)
  exact homaSockFind_ne_of_shutdown hr₁ (by simp [hR]) hsd
    (SysStep.run_steps (RunInv.of_reachable hr₁) hrun) hnet port

/-- Socket 0 made and closed, then socket 1 made: no lookup of socket 0's old port finds it. -/
theorem homaClose_never_found_later :
    ∃ w w₁ w' R', SysReachable Config.sample w (Function.update (fun _ => none) 0 (some 0)) ∧
      Function.update (fun _ => none) 0 (some (0 : Int)) 0 = some 0 ∧ homaClose w 0 = some w₁ ∧
      Relation.ReflTransGen (SysStep Config.sample)
        (w₁, Function.update (fun _ => none) 0 (some 0)) (w', R') ∧ R' 1 = some 0 ∧
      (homaSockFind Config.sample w' 0 32769).1 ≠ some 0 := by
  obtain ⟨w, w₁, w₂, h, hc, h₂, hc₁⟩ : ∃ w w₁ w₂,
      homaSocket Config.sample ((World.start fun _ => 32768).alloc 0 afInet) 0 (.ok 7) =
        some (0, w) ∧ homaClose w 0 = some w₁ ∧
      homaSocket Config.sample (w₁.alloc 0 afInet) w₁.count (.ok 8) = some (0, w₂) ∧
      w₁.count = 1 := ⟨_, _, _, rfl, rfl, rfl, rfl⟩
  have hs : SysReachable Config.sample w (Function.update (fun _ => none) 0 (some 0)) :=
    ⟨_, .single (.socket (fun _ h => by cases h) h)⟩
  have hrun : Relation.ReflTransGen (SysStep Config.sample)
      (w₁, Function.update (fun _ => none) 0 (some 0))
      (w₂, Function.update (Function.update (fun _ => none) 0 (some 0)) w₁.count (some 0)) :=
    .single (.socket (fun _ h => by cases h) h₂)
  exact ⟨w, w₁, w₂, Function.update (Function.update (fun _ => none) 0 (some 0)) w₁.count (some 0),
    hs, rfl, hc, hrun, by rw [hc₁]; rfl, homaClose_never_found hs (by rfl) hc hrun 0 32769⟩

/-- `ntohs(htons(p)) = p` for a 16-bit port. -/
theorem htons_htons {p : Nat} (hp : p < 65536) : htons (htons p) = p := by
  unfold htons
  have h1 : p / 256 % 256 = p / 256 := Nat.mod_eq_of_lt (by omega)
  have h2 : (p % 256 * 256 + p / 256) % 256 = p / 256 := by omega
  have h3 : (p % 256 * 256 + p / 256) / 256 = p % 256 := by omega
  rw [h1, h2, h3, Nat.mod_mod]
  omega

/-- A port freed by `close(2)` can be bound again at once. Once the socket that holds a port below
the default range is closed, `bind(2)` of another live socket of the same namespace to that port
returns 0; the port then finds that socket, and the socket's old port finds nothing. -/
theorem homaBind_after_homaClose {w w₁ : World} {R : SockId → Option Int}
    (hr : SysReachable cfg w R) {a b : SockId} (hab : a ≠ b) {n : NetId}
    (ha : R a = some 0) (hasd : (w.socks a).shutdown = false) (han : (w.socks a).hnet = some n)
    (hp : (w.socks a).port < cfg.minDefaultPort)
    (hb : R b = some 0) (hbsd : (w.socks b).shutdown = false) (hbn : (w.socks b).hnet = some n)
    (hfam : (w.socks b).family = afInet ∨ (w.socks b).family = afInet6)
    (hc : homaClose w a = some w₁) :
    ∃ w₂, homaBind cfg w₁ b ⟨(w.socks b).family, htons (w.socks a).port, 0⟩ sizeofSockaddrIn6 =
        some (0, w₂) ∧
      lookup cfg w₂ n (w.socks a).port = some b ∧ lookup cfg w₂ n (w.socks b).port = none := by
  have hi := RunInv.of_reachable hr.reachable
  have hi₁ := RunInv.of_reachable (hr.tail (.close ha hc)).reachable
  obtain ⟨w₂, hc₂, -, hs₁, hl₁⟩ := homaClose_frame hi ha
  obtain rfl : w₂ = w₁ := Option.some.inj (hc₂.symm.trans hc)
  have hsb := hs₁ b (Ne.symm hab)
  have hla : w.Linked a := (hi.socktab.linked_iff a).2 ⟨ha, hasd⟩
  have hlb : w₂.Linked b := (hl₁ b).2 ⟨Ne.symm hab, (hi.socktab.linked_iff b).2 ⟨hb, hbsd⟩⟩
  have hpos := (hi.socktab.port_range a hla).1
  have hmax := cfg.minDefaultPort_lt
  -- the port `a` held is free once `a` is closed
  have hfree : lookup cfg w₂ n (w.socks a).port = none := by
    rw [lookup_of_one hi.socktab hi₁.socktab (fun s e => by rw [hl₁]; exact and_iff_right e) hs₁,
      if_neg fun h => ((hl₁ a).1 h.1).1 rfl,
      if_pos ((hi.socktab.lookup_eq_some_iff n _ a).2 ⟨hla, han, rfl⟩)]
  obtain ⟨B, hok₁⟩ := hi₁.socktab.ok
  obtain ⟨pp, hpp⟩ := Option.ne_none_iff_exists'.1 hlb
  obtain ⟨tab, hd⟩ := Hlist.delRcu_of_pprev hpp
  have hport : bindPort ⟨(w.socks b).family, htons (w.socks a).port, 0⟩ sizeofSockaddrIn6 =
      .ok (w.socks a).port := by
    rcases hfam with h | h <;>
      simp [bindPort, h, htons_htons (show (w.socks a).port < 65536 by omega), afInet, afInet6,
        sizeofSockaddrIn, sizeofSockaddrIn6]
  have hbind : homaSockBind cfg w₂ n b (w.socks a).port =
      some (0, bindRehash cfg w₂ n b (w.socks a).port tab) := by
    simp [homaSockBind, hsb, hbsd, homaSockFind, hfree, hd, hpos.ne', Nat.not_le.2 hp]
  obtain ⟨h1, h2, -⟩ := lookup_bindRehash hi₁.socktab hlb (by rw [hsb, hbn])
    ((hok₁.lookup_eq_none_iff _ _).1 hfree) hd
  refine ⟨_, ?_, h1, by rwa [hsb] at h2⟩
  simp [homaBind, hsb, hport, hbn, hbind]

/-- Two sockets of namespace 0, the first bound to port 100 and then closed: the second binds to
port 100 and is found there. -/
theorem homaBind_after_homaClose_port :
    ∃ w R w₁, SysReachable Config.sample w R ∧ R 0 = some 0 ∧ R 1 = some 0 ∧
      homaClose w 0 = some w₁ ∧
      ∃ w₂, homaBind Config.sample w₁ 1 ⟨afInet, htons 100, 0⟩ sizeofSockaddrIn6 = some (0, w₂) ∧
        lookup Config.sample w₂ 0 100 = some 1 := by
  obtain ⟨w₁, w₂, w₃, w₄, h₁, h₂, h₃, h₄, hc₁, hsd0, hn0, hp0, hsd1, hn1, hf1⟩ : ∃ w₁ w₂ w₃ w₄,
      homaSocket Config.sample ((World.start fun _ => 32768).alloc 0 afInet) 0 (.ok 7) =
        some (0, w₁) ∧
      homaSocket Config.sample (w₁.alloc 0 afInet) w₁.count (.ok 8) = some (0, w₂) ∧
      homaBind Config.sample w₂ 0 ⟨afInet, htons 100, 0⟩ sizeofSockaddrIn = some (0, w₃) ∧
      homaClose w₃ 0 = some w₄ ∧ w₁.count = 1 ∧
      (w₃.socks 0).shutdown = false ∧ (w₃.socks 0).hnet = some 0 ∧ (w₃.socks 0).port = 100 ∧
      (w₃.socks 1).shutdown = false ∧ (w₃.socks 1).hnet = some 0 ∧ (w₃.socks 1).family = afInet :=
    ⟨_, _, _, _, rfl, rfl, rfl, rfl, rfl, rfl, rfl, rfl, rfl, rfl, rfl⟩
  let R : SockId → Option Int := Function.update (Function.update (fun _ => none) 0 (some 0)) 1 (some 0)
  have hR0 : R 0 = some 0 := rfl
  have hR1 : R 1 = some 0 := rfl
  have hs : SysStep Config.sample (w₁, Function.update (fun _ => none) 0 (some 0))
      (w₂, Function.update (Function.update (fun _ => none) 0 (some 0)) w₁.count (some 0)) :=
    .socket (fun _ h => by cases h) h₂
  rw [hc₁] at hs
  have hr : SysReachable Config.sample w₃ R :=
    ⟨_, .tail (.tail (.single (.socket (fun _ h => by cases h) h₁)) hs) (.bind hR0 h₃)⟩
  obtain ⟨w₅, hb, hl, -⟩ := homaBind_after_homaClose hr (by decide : (0 : SockId) ≠ 1) hR0 hsd0 hn0
    (by rw [hp0]; decide) hR1 hsd1 hn1 (.inl hf1) h₄
  rw [hf1, hp0] at hb
  rw [hp0] at hl
  exact ⟨w₃, R, w₄, hr, hR0, hR1, h₄, w₅, hb, hl⟩

/-! ### Opening a socket -/

section socket

variable {w : World} {hsk : SockId}

/-- On a socket whose `homa` is unset, as `sk_alloc` leaves it, `homa_socket` is `homa_sock_init`:
a failed init leaves `homa` unset, so the shutdown and destroy that follow it do nothing. -/
theorem homaSocket_eq_init (hh : (w.socks hsk).homa = false) (pool : Except Int PoolId) :
    homaSocket cfg w hsk pool = homaSockInit cfg w hsk pool := by
  unfold homaSocket
  cases hinit : homaSockInit cfg w hsk pool with
  | none => rfl
  | some p =>
    obtain ⟨r, w₁⟩ := p
    show (if r ≠ 0 then _ else _) = _
    split_ifs with hr
    · have hh₁ : (w₁.socks hsk).homa = false := by
        rcases homaSockInit_cases hinit with ⟨-, -, -, rfl⟩ | ⟨-, -, -, rfl⟩ | ⟨-, -, -, h0, -⟩
        · exact hh
        · simp [World.setSock_socks_self]
        · exact absurd h0 hr
      rw [teardownRun_of_not_homa hh₁ _ (by simp)]; rfl
    · rfl

/-- `homa_sock_init` returns when the namespace's counter is in the default range or a default port
is free: the port loop then stops within one period. -/
theorem homaSockInit_returns {B : Nat → List SockId} (hok : TableOk cfg w B) (hunl : ¬w.Linked hsk)
    (bp : PoolId)
    (hstart : (cfg.minDefaultPort ≤ w.prevDefaultPort (w.socks hsk).net ∧
        w.prevDefaultPort (w.socks hsk).net < 65536) ∨
      ∃ p, cfg.minDefaultPort ≤ p ∧ p < 65536 ∧ lookup cfg w (w.socks hsk).net p = none) :
    ∃ r, homaSockInit cfg w hsk (.ok bp) = some r := by
  have hfree := portFree_iff_prelude hok hunl bp (w.socks hsk).net
  have hprev : (initPrelude w hsk bp).prevDefaultPort (w.socks hsk).net =
      w.prevDefaultPort (w.socks hsk).net := rfl
  suffices ∃ e, portLoop cfg (w.socks hsk).net (w.prevDefaultPort (w.socks hsk).net)
      (65536 - cfg.minDefaultPort) (initPrelude w hsk bp) = some e by
    obtain ⟨⟨e, w₂⟩, h⟩ := this
    have h' := portLoop_mono cfg.minDefaultPort h
    rw [Nat.sub_add_cancel cfg.minDefaultPort_lt.le] at h'
    rw [homaSockInit_of_loop h']
    cases e <;> exact ⟨_, rfl⟩
  by_cases hex : ∃ p, cfg.minDefaultPort ≤ p ∧ p < 65536 ∧
      lookup cfg (initPrelude w hsk bp) (w.socks hsk).net p = none
  · obtain ⟨k, -, -, -, -, h⟩ := portLoop_some_free hprev _ (fun _ => Iff.rfl) hex
    exact ⟨_, h⟩
  · have hp0 := hstart.resolve_right fun ⟨p, h1, h2, h3⟩ =>
      hex ⟨p, h1, h2, (hfree p).1 ((hok.lookup_eq_none_iff _ _).1 h3)⟩
    exact ⟨_, portLoop_exhausted hprev hp0.1 hp0.2 fun p h1 h2 hl => hex ⟨p, h1, h2, hl⟩⟩

/-- On success `homa_sock_init` puts the socket in its own namespace, live, at a default port that
no socket of the table held. -/
theorem homaSockInit_port {B : Nat → List SockId} (hok : TableOk cfg w B) (hunl : ¬w.Linked hsk)
    {pool : Except Int PoolId} {w' : World} (hpool : ∀ e, pool = .error e → e ≠ 0)
    (h : homaSockInit cfg w hsk pool = some (0, w')) :
    (w'.socks hsk).hnet = some (w.socks hsk).net ∧ (w'.socks hsk).shutdown = false ∧
      cfg.minDefaultPort ≤ (w'.socks hsk).port ∧ (w'.socks hsk).port < 65536 ∧
      lookup cfg w (w.socks hsk).net (w'.socks hsk).port = none := by
  rcases homaSockInit_cases h with ⟨e, rfl, he, -⟩ | ⟨-, -, he, -⟩ |
      ⟨bp, p, -, -, hmin, hmax, hfree, -, -, -, -, -, hself⟩
  · exact absurd he.symm (hpool e rfl)
  · simp [eaddrnotavail] at he
  · have hfree' := (hok.lookup_eq_none_iff _ _).2 ((portFree_iff_prelude hok hunl bp _ p).2 hfree)
    simp only [hself, true_and]
    exact ⟨hmin, hmax, hfree'⟩

end socket

section alloc

variable {w : World} {R : SockId → Option Int}

theorem RunInv.not_linked_count (hi : RunInv cfg w R) : ¬w.Linked w.count := fun h => by
  simpa [hi.fresh w.count le_rfl] using ((hi.socktab.linked_iff _).1 h).1

/-- `sk_alloc` changes no lookup: the new socket is not on the table. -/
theorem lookup_alloc (hi : RunInv cfg w R) (net : NetId) (family : Nat) (n : NetId) (q : Nat) :
    lookup cfg (w.alloc net family) n q = lookup cfg w n q := by
  have hi₀ : RunInv cfg (w.alloc net family) R := hi.step (.alloc w R net family)
  rw [lookup_of_one hi.socktab hi₀.socktab (fun s e => by rw [World.linked_alloc]; exact and_iff_right e)
    (fun s e => World.alloc_socks_of_ne _ _ _ e), if_neg fun h => by simp [World.linked_alloc] at h,
    if_neg fun h => hi.not_linked_count ((hi.socktab.lookup_eq_some_iff n q _).1 h).1]

end alloc

/-- `socket(2)` in every state the system calls reach, on the socket `sk_alloc` makes. The cleanup
after a failed `homa_sock_init` does nothing, and the call returns when the namespace's counter is
in the default range or a default port is free. When it returns, no socket that existed changes and
the port map changes by the new socket's entry alone: on success the socket is on the table, in its
namespace, at a default port that was free; on failure it is not on the table and no lookup
changes. -/
theorem homaSocket_spec {w : World} {R : SockId → Option Int} (hr : SysReachable cfg w R)
    (net : NetId) (family : Nat) {pool : Except Int PoolId} (hpool : ∀ e, pool = .error e → e < 0) :
    homaSocket cfg (w.alloc net family) w.count pool =
        homaSockInit cfg (w.alloc net family) w.count pool ∧
      ((cfg.minDefaultPort ≤ w.prevDefaultPort net ∧ w.prevDefaultPort net < 65536) ∨
          (∃ p, cfg.minDefaultPort ≤ p ∧ p < 65536 ∧ lookup cfg w net p = none) →
        ∃ r w', homaSocket cfg (w.alloc net family) w.count pool = some (r, w')) ∧
      ∀ r w', homaSocket cfg (w.alloc net family) w.count pool = some (r, w') →
        (∀ s ≠ w.count, w'.socks s = w.socks s) ∧
        (w'.Linked w.count ↔ r = 0) ∧
        (r = 0 → (w'.socks w.count).hnet = some net ∧ cfg.minDefaultPort ≤ (w'.socks w.count).port ∧
          (w'.socks w.count).port < 65536 ∧ lookup cfg w net (w'.socks w.count).port = none) ∧
        ∀ n q, lookup cfg w' n q =
          if r = 0 ∧ n = net ∧ (w'.socks w.count).port = q then some w.count else lookup cfg w n q := by
  have hr' := hr.reachable
  have hi := RunInv.of_reachable hr'
  have hr₀ : Reachable cfg (w.alloc net family) R := hr'.of_run (.single (.alloc w R net family))
  have hi₀ := RunInv.of_reachable hr₀
  have heq := @homaSocket_eq_init cfg (w.alloc net family) w.count
    (by simp [World.alloc, Sock.fresh]) pool
  have hnet : ((w.alloc net family).socks w.count).net = net := by simp [World.alloc, Sock.fresh]
  have hunl₀ : ¬(w.alloc net family).Linked w.count := by simp [World.linked_alloc]
  obtain ⟨B, hok₀⟩ := hi₀.socktab.ok
  refine ⟨heq, fun hstart => ?_, fun r w' h => ?_⟩
  · rw [heq]
    cases pool with
    | error e => exact ⟨e, _, rfl⟩
    | ok bp =>
      obtain ⟨⟨r, w'⟩, h⟩ := homaSockInit_returns hok₀ hunl₀ bp
        (by rw [hnet]; simp only [lookup_alloc hi]; exact hstart)
      exact ⟨r, w', h⟩
  rw [heq] at h
  have hi₁ := RunInv.of_reachable (hr₀.of_run
    (.single (.init (by simp [World.alloc]) (hi.fresh _ le_rfl) hpool h)))
  have hs : ∀ s ≠ w.count, w'.socks s = w.socks s := fun s e =>
    (homaSockInit_socks_of_ne h e).trans (World.alloc_socks_of_ne _ _ _ e)
  have hl : ∀ s ≠ w.count, w'.Linked s ↔ w.Linked s := fun s e => by
    rw [hi₁.socktab.linked_iff, hi.socktab.linked_iff, Function.update_noteq e, hs s e]
  -- on success the socket holds a default port of its namespace that was free
  have hok : r = 0 → (w'.socks w.count).hnet = some net ∧ (w'.socks w.count).shutdown = false ∧
      cfg.minDefaultPort ≤ (w'.socks w.count).port ∧ (w'.socks w.count).port < 65536 ∧
      lookup cfg w net (w'.socks w.count).port = none := fun hr0 => by
    subst hr0
    simpa only [hnet, lookup_alloc hi] using
      homaSockInit_port hok₀ hunl₀ (fun e he => (hpool e he).ne) h
  have hlink : w'.Linked w.count ↔ r = 0 := by
    rw [hi₁.socktab.linked_iff, Function.update_same, Option.some.injEq]
    exact ⟨And.left, fun hr0 => ⟨hr0, (hok hr0).2.1⟩⟩
  refine ⟨hs, hlink, fun hr0 => ?_, fun n q => ?_⟩
  · obtain ⟨h1, -, h3⟩ := hok hr0; exact ⟨h1, h3⟩
  · rw [lookup_of_one hi.socktab hi₁.socktab hl hs n q, if_neg fun h => hi.not_linked_count
      ((hi.socktab.lookup_eq_some_iff n q _).1 h).1]
    by_cases hr0 : r = 0
    · simp only [hlink, hr0, (hok hr0).1, Option.some.injEq, true_and]
      simp only [eq_comm]
    · simp [hlink, hr0]

/-- `socket(2)` on an empty table whose counter stands at `32768`: it returns 0. -/
theorem homaSocket_spec_first :
    ∃ w, SysReachable Config.sample (World.start fun _ => 32768) (fun _ => none) ∧
      homaSocket Config.sample ((World.start fun _ => 32768).alloc 0 afInet) 0 (.ok 7) = some (0, w) ∧
      w.Linked 0 := by
  obtain ⟨w, h⟩ : ∃ w, homaSocket Config.sample ((World.start fun _ => 32768).alloc 0 afInet) 0
      (.ok 7) = some (0, w) := ⟨_, rfl⟩
  have hr : SysReachable Config.sample (World.start fun _ => 32768) (fun _ => none) := ⟨_, .refl⟩
  obtain ⟨-, -, hrun⟩ := @homaSocket_spec Config.sample _ _ hr 0 afInet (.ok 7) fun _ h => by cases h
  exact ⟨w, hr, h, ((hrun 0 w h).2.1).2 rfl⟩

/-! ### Waiting for memory and polling -/

/-- `homa_sock_wait_wmem(hsk, nonblocking)`, which sets `SOCK_NOSPACE` and waits until
`homa_sock_wmem_avl(hsk) || hsk->shutdown`. `sndtimeo` is `sk_sndtimeo`, `wait` what
`wait_event_interruptible_timeout` returns for a timeout (0 when the time ran out first), and
`signalPending` is `signal_pending(current)` after the wait. -/
def homaSockWaitWmem (sndtimeo : Int) (nonblocking : Bool) (wait : Int → Int)
    (signalPending : Bool) : Int :=
  let result := wait (if nonblocking then 0 else sndtimeo)
  if signalPending then -eintr
  else if result = 0 then -ewouldblock
  else 0

def epollin : Nat := 0x1
def epollout : Nat := 0x4
def epollrdnorm : Nat := 0x40
def epollwrnorm : Nat := 0x100

/-- `homa_poll(file, sock, wait)` on the socket `hsk`: `wmemAvl` is `homa_sock_wmem_avl(hsk)` and
`readyRpcs` the list `hsk->ready_rpcs`. The mask, and whether it set `SOCK_NOSPACE`. -/
def homaPoll (w : World) (hsk : SockId) (wmemAvl : Bool) (readyRpcs : Ring) : Nat × Bool :=
  let mask := if wmemAvl then epollout ||| epollwrnorm else 0
  let mask := if (w.socks hsk).shutdown then mask ||| epollin else mask
  let mask := if !readyRpcs.listEmpty .head then mask ||| epollin ||| epollrdnorm else mask
  (mask, !wmemAvl)

/-- The mask bit by bit: readable when shut down or an RPC is ready, `EPOLLRDNORM` only for a ready
RPC, and writable, with `SOCK_NOSPACE` left alone, exactly when there is memory. -/
theorem homaPoll_mask (w : World) (hsk : SockId) (wmemAvl : Bool) (readyRpcs : Ring) :
    let p := homaPoll w hsk wmemAvl readyRpcs
    (p.1 &&& epollin ≠ 0 ↔ (w.socks hsk).shutdown = true ∨ readyRpcs.listEmpty .head = false) ∧
      (p.1 &&& epollrdnorm ≠ 0 ↔ readyRpcs.listEmpty .head = false) ∧
      (p.1 &&& (epollout ||| epollwrnorm) = epollout ||| epollwrnorm ↔ wmemAvl = true) ∧
      (p.1 &&& (epollout ||| epollwrnorm) = 0 ↔ wmemAvl = false) ∧ p.2 = !wmemAvl := by
  simp only [homaPoll]
  cases wmemAvl <;> cases (w.socks hsk).shutdown <;> cases readyRpcs.listEmpty .head <;> decide

/-- A socket `homa_sock_init` has run on stays shut down once it is, through every later step of
every run: from then on `homa_poll` reports it readable, whatever its memory and ready list, so a
poller is never left waiting on it. -/
theorem homaPoll_readable_after_shutdown {w w' : World} {R R' : SockId → Option Int}
    (hr : Reachable cfg w R) {hsk : SockId} (hR : R hsk ≠ none)
    (hsd : (w.socks hsk).shutdown = true)
    (hrun : Relation.ReflTransGen (Step cfg) (w, R) (w', R')) (wmemAvl : Bool) (readyRpcs : Ring) :
    (homaPoll w' hsk wmemAvl readyRpcs).1 &&& epollin ≠ 0 :=
  (homaPoll_mask w' hsk wmemAvl readyRpcs).1.2
    (.inl ((settles_of_run hrun (RunInv.of_reachable hr) hR).2.2.2 hsd))

/-- Socket 0 made, initialised and shut down; then socket 1 is made and initialised: socket 0 still
polls readable with nothing ready. -/
theorem homaPoll_readable_after_shutdown_later :
    ∃ w R w' R', Reachable Config.sample w R ∧ R 0 ≠ none ∧ (w.socks 0).shutdown = true ∧
      Relation.ReflTransGen (Step Config.sample) (w, R) (w', R') ∧ R' 1 = some 0 ∧
      (homaPoll w' 0 false ⟨id, id⟩).1 &&& epollin ≠ 0 := by
  obtain ⟨w, w₁, w₂, h, hu, h₂, hsd, hc₁⟩ : ∃ w w₁ w₂, homaSockInit Config.sample
      ((World.start fun _ => 32768).alloc 0 afInet) 0 (.ok 7) = some (0, w) ∧
      shutdownUnlink w 0 = some w₁ ∧
      homaSockInit Config.sample (w₁.alloc 0 afInet) 1 (.ok 8) = some (0, w₂) ∧
      (w₁.socks 0).shutdown = true ∧ w₁.count = 1 := ⟨_, _, _, rfl, rfl, rfl, rfl, rfl⟩
  have hr : Reachable Config.sample w₁ (Function.update (fun _ => none) 0 (some 0)) :=
    ⟨_, .tail (.tail (.single (.alloc _ _ 0 afInet)) (.init (by decide) rfl (fun _ h => by cases h) h))
      (.shutdown hu)⟩
  have hrun : Relation.ReflTransGen (Step Config.sample)
      (w₁, Function.update (fun _ => none) 0 (some 0))
      (w₂, Function.update (Function.update (fun _ => none) 0 (some 0)) 1 (some 0)) :=
    .tail (.single (.alloc _ _ 0 afInet))
      (.init (by simp [World.alloc, hc₁]) (by rfl) (fun _ h => by cases h) h₂)
  exact ⟨w₁, _, w₂, _, hr, by simp, hsd, hrun, rfl,
    homaPoll_readable_after_shutdown hr (by simp) hsd hrun false ⟨id, id⟩⟩

end Homa
