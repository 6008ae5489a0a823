import Homa.Init
import Homa.Bind
import Homa.Teardown
import Homa.Scan
import Homa.Sockopt
import Mathlib.Logic.Relation

/-!
# Runs of the socket functions

A run starts from the table `homa_socktab_init` leaves, with no socket, and takes steps. Each step is
one critical section of the socket code, or a lock-free reader's whole walk: a socket allocated,
`homa_sock_init` on a socket it has not run on, `homa_sock_bind` through `homa_bind` on a socket whose
init succeeded, the first section of `homa_sock_shutdown`, `homa_sock_destroy`, a `homa_sock_find`
and the matching `sock_put`, a step of a table scan (which is how `homa_socktab_destroy` reaches its
sockets), a socket option or a connect. Sockets of any namespaces share the one table. The run
records what `homa_sock_init` returned for each socket.

`RunInv` is the socket-table invariant together with the fact that `homa_sock_init` has run only
on sockets that exist; every step keeps it (`RunInv.step`), so every reachable state satisfies it
(`RunInv.of_reachable`).
-/

namespace Homa

/-- A state of a run: the world and what `homa_sock_init` returned for each socket. -/
abbrev RunState := World × (SockId → Option Int)

variable (cfg : Config)

/-- One step of a run. -/
inductive Step : RunState → RunState → Prop
  /-- `sk_alloc` of a new socket. -/
  | alloc (w : World) (R : SockId → Option Int) (net : NetId) (family : Nat) :
      Step (w, R) (w.alloc net family, R)
  /-- `homa_sock_init`, called once by `homa_socket`; `homa_pool_alloc` fails with an errno. -/
  | init {w w' : World} {R : SockId → Option Int} {hsk : SockId} {pool : Except Int PoolId}
      {r : Int} (hlt : hsk < w.count) (hR : R hsk = none) (hpool : ∀ e, pool = .error e → e < 0)
      (h : homaSockInit cfg w hsk pool = some (r, w')) :
      Step (w, R) (w', Function.update R hsk (some r))
  /-- `homa_bind`, on a socket `homa_socket` handed out, in the socket's own namespace. -/
  | bind {w w' : World} {R : SockId → Option Int} {hsk : SockId} {hnet : NetId} {port : Nat}
      {r : Int} (hR : R hsk = some 0) (hn : (w.socks hsk).hnet = some hnet)
      (h : homaSockBind cfg w hnet hsk port = some (r, w')) : Step (w, R) (w', R)
  /-- The first section of `homa_sock_shutdown`, from `homa_shutdown`, `homa_close`, the failure
  path of `homa_socket` or `homa_socktab_destroy`. -/
  | shutdown {w w' : World} {R : SockId → Option Int} {hsk : SockId}
      (h : shutdownUnlink w hsk = some w') : Step (w, R) (w', R)
  | destroy (w : World) (R : SockId → Option Int) (hsk : SockId) :
      Step (w, R) (homaSockDestroy w hsk, R)
  | find (w : World) (R : SockId → Option Int) (hnet : NetId) (port : Nat) :
      Step (w, R) ((homaSockFind cfg w hnet port).2, R)
  | put (w : World) (R : SockId → Option Int) (s : SockId) : Step (w, R) (w.sockPut s, R)
  | scanNext (w : World) (R : SockId → Option Int) (scan : Scan) :
      Step (w, R) ((homaSocktabNext cfg w scan).2.2, R)
  | scanEnd (w : World) (R : SockId → Option Int) (scan : Scan) :
      Step (w, R) ((homaSocktabEndScan w scan).2, R)
  | setsockopt (w : World) (R : SockId → Option Int) (hsk : SockId) (caller : Caller)
      (levelHoma : Bool) (optname : SockOpt) (optlen : Nat) (rcvbufArgs : Option (Nat × Nat))
      (serverArg : Option Int) (userWritable : Bool) (setRegion : Nat → Nat → Bool → Int) :
      Step (w, R) ((homaSetsockopt w hsk caller levelHoma optname optlen rcvbufArgs serverArg
        userWritable setRegion).2, R)
  | connect (w : World) (R : SockId → Option Int) (hsk : SockId) (addr : SockAddr) (addrlen : Nat) :
      Step (w, R) ((homaConnect w hsk addr addrlen).2, R)

/-- A state that some run reaches from an empty table, whatever the namespaces' counters start at. -/
def Reachable (w : World) (R : SockId → Option Int) : Prop :=
  ∃ prev, Relation.ReflTransGen (Step cfg) (World.start prev, fun _ => none) (w, R)

/-! ### What a step does to a socket `homa_sock_init` has run on -/

section settles

variable {cfg}

/-- What a step may do to such a socket: `homa` and `in_kernel` keep their values, and
`shutdown`, once set, stays set. -/
def Settles (k k' : Sock) : Prop :=
  k'.homa = k.homa ∧ k'.inKernel = k.inKernel ∧ (k.shutdown = true → k'.shutdown = true)

theorem Settles.refl (k : Sock) : Settles k k := ⟨rfl, rfl, id⟩

theorem Settles.trans {k k' k'' : Sock} (h : Settles k k') (h' : Settles k' k'') :
    Settles k k'' :=
  ⟨h'.1.trans h.1, h'.2.1.trans h.2.1, h'.2.2 ∘ h.2.2⟩

/-- Every socket of `w` settles into the same socket of `w'`. -/
def SettledAll (w w' : World) : Prop := ∀ s, Settles (w.socks s) (w'.socks s)

theorem SettledAll.refl (w : World) : SettledAll w w := fun _ => .refl _

theorem SettledAll.trans {w w' w'' : World} (h : SettledAll w w') (h' : SettledAll w' w'') :
    SettledAll w w'' := fun s => (h s).trans (h' s)

theorem SettledAll.setSock (w : World) (s : SockId) {f : Sock → Sock} (hf : ∀ k, Settles k (f k)) :
    SettledAll w (w.setSock s f) := fun t => by
  rw [World.setSock_socks]; split
  · subst t; exact hf _
  · exact .refl _

theorem SettledAll.sockHold (w : World) (s : SockId) : SettledAll w (w.sockHold s) :=
  .setSock w s fun _ => .refl _

theorem SettledAll.sockPut (w : World) (s : SockId) : SettledAll w (w.sockPut s) :=
  .setSock w s fun _ => .refl _

theorem SettledAll.homaSockFind (w : World) (hnet : NetId) (port : Nat) :
    SettledAll w (homaSockFind cfg w hnet port).2 := by
  unfold Homa.homaSockFind; split
  · exact .refl _
  · exact .sockHold _ _

theorem SettledAll.nextBucket (w : World) (scan : Scan) :
    SettledAll w (nextBucket cfg w scan).2.2 := by
  unfold Homa.nextBucket; dsimp only; split
  · exact .sockHold _ _
  · exact .refl _

theorem SettledAll.homaSocktabNext (w : World) (scan : Scan) :
    SettledAll w (homaSocktabNext cfg w scan).2.2 := by
  unfold Homa.homaSocktabNext; split
  · dsimp only; split
    · exact (SettledAll.sockPut _ _).trans (.sockHold _ _)
    · exact (SettledAll.sockPut _ _).trans (.nextBucket _ _)
  · exact .nextBucket _ _

theorem SettledAll.homaSocktabEndScan (w : World) (scan : Scan) :
    SettledAll w (homaSocktabEndScan w scan).2 := by
  unfold Homa.homaSocktabEndScan; split
  · exact .sockPut _ _
  · exact .refl _

theorem SettledAll.homaSockDestroy (w : World) (hsk : SockId) :
    SettledAll w (homaSockDestroy w hsk) := by
  unfold Homa.homaSockDestroy; split
  · exact .refl _
  · split
    · exact SettledAll.setSock { w with freed := _ } hsk fun _ => .refl _
    · exact .refl _

theorem SettledAll.homaSockBind {w w' : World} {hnet : NetId} {hsk : SockId} {port : Nat} {r : Int}
    (h : homaSockBind cfg w hnet hsk port = some (r, w')) : SettledAll w w' := by
  rcases homaSockBind_cases h with rfl | ⟨-, -, -, -, -, tab, -, rfl⟩
  · exact .refl _
  · intro s
    by_cases hs : s = hsk
    · subst hs; simp only [bindRehash_socks_self]; exact .refl _
    · rw [bindRehash_socks_of_ne hs]; exact .refl _

theorem SettledAll.shutdownUnlink {w w' : World} {hsk : SockId} (h : shutdownUnlink w hsk = some w') :
    SettledAll w w' := by
  rcases shutdownUnlink_cases h with rfl | ⟨-, -, -, -, hs, hself, -⟩
  · exact .refl _
  · intro s
    by_cases e : s = hsk
    · subst e; rw [hself]; exact ⟨rfl, rfl, fun _ => rfl⟩
    · rw [hs s e]; exact .refl _

theorem SettledAll.fieldsOnly {w w' : World} {hsk : SockId} (h : FieldsOnly w w' hsk) :
    SettledAll w w' := by
  intro s
  by_cases e : s = hsk
  · subst e; obtain ⟨-, -, -, -, -, -, -, hsd, hh, hk⟩ := h; exact ⟨hh, hk, fun h => hsd.trans h⟩
  · rw [h.2.2.2.2.1 s e]; exact .refl _

/-- A step allocates a socket, runs `homa_sock_init` on one it has not run on, or keeps what the
inits returned and settles every socket. -/
theorem Step.settled_or {σ σ' : RunState} (hs : Step cfg σ σ') :
    (∃ net family, σ' = (σ.1.alloc net family, σ.2)) ∨
    (∃ hsk pool r, hsk < σ.1.count ∧ σ.2 hsk = none ∧ (∀ e, pool = .error e → e < 0) ∧
      homaSockInit cfg σ.1 hsk pool = some (r, σ'.1) ∧ σ'.2 = Function.update σ.2 hsk (some r)) ∨
    (σ'.2 = σ.2 ∧ SettledAll σ.1 σ'.1) := by
  cases hs with
  | alloc _ _ net family => exact .inl ⟨net, family, rfl⟩
  | init hlt hR hpool h => exact .inr (.inl ⟨_, _, _, hlt, hR, hpool, h, rfl⟩)
  | bind _ _ h => exact .inr (.inr ⟨rfl, .homaSockBind h⟩)
  | shutdown h => exact .inr (.inr ⟨rfl, .shutdownUnlink h⟩)
  | destroy w _ hsk => exact .inr (.inr ⟨rfl, .homaSockDestroy w hsk⟩)
  | find w _ hnet port => exact .inr (.inr ⟨rfl, .homaSockFind w hnet port⟩)
  | put w _ t => exact .inr (.inr ⟨rfl, .sockPut w t⟩)
  | scanNext w _ scan => exact .inr (.inr ⟨rfl, .homaSocktabNext w scan⟩)
  | scanEnd w _ scan => exact .inr (.inr ⟨rfl, .homaSocktabEndScan w scan⟩)
  | setsockopt w _ hsk caller levelHoma optname optlen rcvbufArgs serverArg userWritable setRegion =>
    exact .inr (.inr ⟨rfl, .fieldsOnly (fieldsOnly_homaSetsockopt w hsk caller levelHoma optname
      optlen rcvbufArgs serverArg userWritable setRegion)⟩)
  | connect w _ hsk addr addrlen =>
    exact .inr (.inr ⟨rfl, .fieldsOnly (fieldsOnly_homaConnect w hsk addr addrlen)⟩)

end settles

/-- The socket-table invariant, `homa_sock_init` run only on sockets that exist, and `hsk->homa`
set exactly on the sockets whose init returned 0. -/
structure RunInv (w : World) (R : SockId → Option Int) : Prop where
  socktab : SocktabInv cfg w R
  fresh : ∀ s, w.count ≤ s → R s = none
  homa_iff : ∀ s, (w.socks s).homa = true ↔ R s = some 0
  in_kernel : ∀ s, (w.socks s).homa = true → (w.socks s).inKernel = true

variable {cfg}

theorem RunInv.start (prev : NetId → Nat) : RunInv cfg (World.start prev) fun _ => none :=
  ⟨.of_empty rfl fun _ h => by simp at h, fun _ _ => rfl, fun _ => by simp [World.start, Sock.fresh],
    fun _ h => by simp [World.start, Sock.fresh] at h⟩

/-- `homa_sock_init` alone sets `homa`, and only when it returns 0. -/
private theorem homa_iff_step {σ σ' : RunState} (hs : Step cfg σ σ') (hi : RunInv cfg σ.1 σ.2)
    (s : SockId) : (σ'.1.socks s).homa = true ↔ σ'.2 s = some 0 := by
  rcases hs.settled_or with ⟨net, family, rfl⟩ | ⟨hsk, pool, r, -, hR, hpool, h, hR'⟩ | ⟨hR', hset⟩
  · by_cases e : s = σ.1.count
    · subst e; simp [World.alloc, hi.fresh _ le_rfl, Sock.fresh]
    · rw [World.alloc_socks_of_ne _ _ _ e]; exact hi.homa_iff s
  · rw [hR']
    by_cases e : s = hsk
    · subst e
      rw [Function.update_same]
      have h0 : (σ.1.socks s).homa = false := by simpa [hR] using hi.homa_iff s
      rcases homaSockInit_cases h with ⟨e, rfl, rfl, he⟩ | ⟨bp, -, rfl, he⟩ |
          ⟨bp, p, -, rfl, -, -, -, -, -, -, -, -, hself⟩
      · rw [he, h0]; simp [(hpool r rfl).ne]
      · rw [he]; simp [eaddrnotavail]
      · simp [hself]
    · rw [homaSockInit_socks_of_ne h e, Function.update_noteq e]; exact hi.homa_iff s
  · rw [hR', (hset s).1]; exact hi.homa_iff s

/-- `homa_sock_init` sets `in_kernel` where it sets `homa`, and nothing clears either. -/
private theorem in_kernel_step {σ σ' : RunState} (hs : Step cfg σ σ') (hi : RunInv cfg σ.1 σ.2)
    (s : SockId) (hh : (σ'.1.socks s).homa = true) : (σ'.1.socks s).inKernel = true := by
  rcases hs.settled_or with ⟨net, family, rfl⟩ | ⟨hsk, pool, r, -, -, -, h, -⟩ | ⟨-, hset⟩
  · by_cases e : s = σ.1.count
    · subst e; simp [World.alloc, Sock.fresh] at hh
    · rw [World.alloc_socks_of_ne _ _ _ e] at hh ⊢; exact hi.in_kernel s hh
  · by_cases e : s = hsk
    · subst e
      rcases homaSockInit_cases h with ⟨-, -, -, he⟩ | ⟨bp, -, -, he⟩ |
          ⟨bp, p, -, -, -, -, -, -, -, -, -, -, hself⟩
      · rw [he] at hh ⊢; exact hi.in_kernel s hh
      · rw [he] at hh; simp at hh
      · rw [hself]
    · rw [homaSockInit_socks_of_ne h e] at hh ⊢; exact hi.in_kernel s hh
  · rw [(hset s).2.1]; exact hi.in_kernel s (by rwa [← (hset s).1])

/-- Every step keeps the invariant. -/
theorem RunInv.step {σ σ' : RunState} (hs : Step cfg σ σ') (hi : RunInv cfg σ.1 σ.2) :
    RunInv cfg σ'.1 σ'.2 := by
  suffices SocktabInv cfg σ'.1 σ'.2 ∧ ∀ s, σ'.1.count ≤ s → σ'.2 s = none from
    ⟨this.1, this.2, homa_iff_step hs hi, in_kernel_step hs hi⟩
  obtain ⟨w, R⟩ := σ
  obtain ⟨hinv, hfresh, -, -⟩ := hi
  dsimp only at hinv hfresh
  cases hs with
  | alloc _ _ net family =>
    refine ⟨hinv.alloc (by simp [hfresh w.count le_rfl]) net family, fun s hs => hfresh s ?_⟩
    simp only [World.alloc] at hs; omega
  | @init _ _ _ hsk _ _ hlt hR hpool h =>
    refine ⟨hinv.sockInit hlt hR (fun e he => (hpool e he).ne) h, fun s hs => ?_⟩
    rw [homaSockInit_count h] at hs
    have hne : s ≠ hsk := Nat.ne_of_gt (Nat.lt_of_lt_of_le hlt hs)
    simp only [Function.update_noteq hne, hfresh s hs]
  | bind hR hn h =>
    exact ⟨hinv.sockBind hn h, fun s hs => hfresh s (by rwa [← homaSockBind_count h])⟩
  | shutdown h =>
    exact ⟨hinv.shutdownUnlink h, fun s hs => hfresh s (by rwa [← shutdownUnlink_count h])⟩
  | destroy _ _ hsk => exact ⟨hinv.sockDestroy, fun s hs => hfresh s (by simpa using hs)⟩
  | find _ _ hnet port =>
    refine ⟨?_, fun s hs => hfresh s (by simpa using hs)⟩
    unfold homaSockFind; split
    · exact hinv
    · exact hinv.sockHold _
  | put _ _ s => exact ⟨hinv.sockPut s, hfresh⟩
  | scanNext _ _ scan => exact ⟨hinv.socktabNext scan, fun s hs => hfresh s (by simpa using hs)⟩
  | scanEnd _ _ scan => exact ⟨hinv.socktabEndScan scan, fun s hs => hfresh s (by simpa using hs)⟩
  | setsockopt _ _ hsk caller levelHoma optname optlen rcvbufArgs serverArg userWritable setRegion =>
    have h := fieldsOnly_homaSetsockopt w hsk caller levelHoma optname optlen
      rcvbufArgs serverArg userWritable setRegion
    exact ⟨hinv.fieldsOnly h, fun s hs => hfresh s (by rwa [← h.2.1])⟩
  | connect _ _ hsk addr addrlen =>
    have h := fieldsOnly_homaConnect w hsk addr addrlen
    exact ⟨hinv.fieldsOnly h, fun s hs => hfresh s (by rwa [← h.2.1])⟩

theorem RunInv.of_run {σ σ' : RunState} (h : Relation.ReflTransGen (Step cfg) σ σ')
    (hi : RunInv cfg σ.1 σ.2) : RunInv cfg σ'.1 σ'.2 := by
  induction h with
  | refl => exact hi
  | tail _ hs ih => exact ih.step hs

theorem RunInv.of_reachable {w : World} {R : SockId → Option Int} (hr : Reachable cfg w R) :
    RunInv cfg w R :=
  let ⟨prev, h⟩ := hr
  RunInv.of_run h (.start prev)

theorem Reachable.of_run {w w' : World} {R R' : SockId → Option Int} (hr : Reachable cfg w R)
    (h : Relation.ReflTransGen (Step cfg) (w, R) (w', R')) : Reachable cfg w' R' :=
  let ⟨prev, h₀⟩ := hr
  ⟨prev, h₀.trans h⟩

/-- A step leaves a socket that `homa_sock_init` has run on settled, and the result of its init
recorded. -/
theorem Step.settles {σ σ' : RunState} (hs : Step cfg σ σ') (hi : RunInv cfg σ.1 σ.2) {s : SockId}
    (hR : σ.2 s ≠ none) : σ'.2 s = σ.2 s ∧ Settles (σ.1.socks s) (σ'.1.socks s) := by
  have hlt : s < σ.1.count := Nat.lt_of_not_le fun h => hR (hi.fresh s h)
  rcases hs.settled_or with ⟨net, family, rfl⟩ | ⟨hsk, pool, r, -, hR', -, h, hR''⟩ | ⟨hR', hset⟩
  · exact ⟨rfl, by rw [World.alloc_socks_of_ne _ _ _ (Nat.ne_of_lt hlt)]; exact .refl _⟩
  · have hne : s ≠ hsk := fun e => hR (e ▸ hR')
    exact ⟨by rw [hR'', Function.update_noteq hne], by
      rw [homaSockInit_socks_of_ne h hne]; exact .refl _⟩
  · exact ⟨by rw [hR'], hset s⟩

/-- Along a run, a socket `homa_sock_init` has run on stays settled. -/
theorem settles_of_run {σ σ' : RunState} (h : Relation.ReflTransGen (Step cfg) σ σ')
    (hi : RunInv cfg σ.1 σ.2) {s : SockId} (hR : σ.2 s ≠ none) :
    σ'.2 s = σ.2 s ∧ Settles (σ.1.socks s) (σ'.1.socks s) := by
  induction h with
  | refl => exact ⟨rfl, .refl _⟩
  | @tail σ₁ σ₂ h₁ hs ih =>
    obtain ⟨hR₁, hk₁⟩ := ih
    obtain ⟨hR₂, hk₂⟩ := hs.settles (hi.of_run h₁) (by rw [hR₁]; exact hR)
    exact ⟨hR₂.trans hR₁, hk₁.trans hk₂⟩

/-- A socket `homa_sock_init` has run on, once shut down, is never found again: no step clears
`shutdown`, and a shut-down socket is not on the table. -/
theorem homaSockFind_ne_of_shutdown {w w' : World} {R R' : SockId → Option Int}
    (hr : Reachable cfg w R) {hsk : SockId} (hR : R hsk ≠ none)
    (hsd : (w.socks hsk).shutdown = true)
    (hrun : Relation.ReflTransGen (Step cfg) (w, R) (w', R')) (hnet : NetId) (port : Nat) :
    (homaSockFind cfg w' hnet port).1 ≠ some hsk := by
  intro hfind
  obtain ⟨-, hk⟩ := settles_of_run hrun (RunInv.of_reachable hr) hR
  have hi' := RunInv.of_reachable (hr.of_run hrun)
  obtain ⟨B, hok⟩ := hi'.socktab.ok
  rw [homaSockFind_fst] at hfind
  exact absurd ((hi'.socktab.linked_iff hsk).1 (hok.lookup_eq_some hfind).1).2
    (by rw [hk.2.2 hsd]; decide)

/-- In every reachable state a socket is linked exactly when its `homa_sock_init` returned 0 and it
is not shut down; each linked socket is on one bucket list, the one of its namespace and port, and
every bucket list is a finite acyclic chain; no two linked sockets share a namespace and a port;
linked sockets have nonzero 16-bit ports, the ports `homa_sock_init` picks lie in the default range
and those `homa_sock_bind` sets lie below it. So `homa_sock_find` returns, with a new reference,
exactly the linked socket of the namespace that has the port, and NULL when there is none. -/
theorem socktab_invariant {w : World} {R : SockId → Option Int} (hr : Reachable cfg w R) :
    (∀ s, w.Linked s ↔ R s = some 0 ∧ (w.socks s).shutdown = false) ∧
    (∃ B : Nat → List SockId, (∀ b < cfg.buckets, Chain w.tab (.head b) (B b) ∧ (B b).Nodup) ∧
      ∀ s, w.Linked s → ∃ n, (w.socks s).hnet = some n ∧
        ∀ b, s ∈ B b ↔ b = cfg.bucket n (w.socks s).port) ∧
    Unique w ∧
    (∀ s, w.Linked s → 0 < (w.socks s).port ∧ (w.socks s).port < 65536) ∧
    (∀ hsk bp r w', homaSockInit cfg w hsk (.ok bp) = some (r, w') → r = 0 →
      cfg.minDefaultPort ≤ (w'.socks hsk).port ∧ (w'.socks hsk).port < 65536) ∧
    (∀ hnet hsk port r w', homaSockBind cfg w hnet hsk port = some (r, w') →
      w' = w ∨ (0 < port ∧ port < cfg.minDefaultPort ∧ (w'.socks hsk).port = port)) ∧
    (∀ hnet p s, homaSockFind cfg w hnet p = (some s, w.sockHold s) ↔
      w.Linked s ∧ (w.socks s).hnet = some hnet ∧ (w.socks s).port = p) ∧
    (∀ hnet p, homaSockFind cfg w hnet p = (none, w) ↔ PortFree w hnet p) := by
  obtain ⟨hinv, -⟩ := RunInv.of_reachable hr
  obtain ⟨B, hok⟩ := hinv.ok
  have hfind : ∀ hnet p, homaSockFind cfg w hnet p = match lookup cfg w hnet p with
      | none => (none, w)
      | some s => (some s, w.sockHold s) := fun _ _ => rfl
  refine ⟨hinv.linked_iff, ⟨B, fun b hb => ⟨hok.rep.chain b hb, (hok.rep.chain b hb).nodup⟩,
    fun s hs => ?_⟩, hinv.unique, hinv.port_range, fun hsk bp r w' h hr0 => ?_,
    fun hnet hsk port r w' h => ?_, fun hnet p s => ?_, fun hnet p => ?_⟩
  · obtain ⟨b₀, hb₀⟩ := (hok.linked_iff s).1 hs
    obtain ⟨n, hn, rfl⟩ := hok.placed b₀ s hb₀
    refine ⟨n, hn, fun b => ⟨fun hb => ?_, fun e => e ▸ hb₀⟩⟩
    obtain ⟨n', hn', rfl⟩ := hok.placed b s hb
    rw [hn] at hn'; cases hn'; rfl
  · rcases homaSockInit_cases h with ⟨_, he, -⟩ | ⟨_, -, rfl, -⟩ | ⟨_, p, -, -, hge, hlt, -, -, -, -, -, -, hself⟩
    · cases he
    · simp [eaddrnotavail] at hr0
    · rw [hself]; exact ⟨hge, hlt⟩
  · rcases homaSockBind_cases h with rfl | ⟨h0, hlt, -, -, -, tab, -, rfl⟩
    · exact .inl rfl
    · exact .inr ⟨h0, hlt, bindRehash_port⟩
  · rw [hfind, ← hok.lookup_eq_some_iff hinv.unique]
    split <;> simp_all
  · rw [hfind, ← hok.lookup_eq_none_iff]
    split <;> simp_all

/-- Socket 0 allocated and initialised from the start state, with buffer pool 7: the state is
reachable, and the socket is live. -/
theorem reachable_first : ∃ w, Reachable Config.sample w (Function.update (fun _ => none) 0 (some 0)) ∧
    (w.socks 0).shutdown = false := by
  obtain ⟨w, h, hsd⟩ : ∃ w, homaSockInit Config.sample ((World.start fun _ => 32768).alloc 0 afInet)
      0 (.ok 7) = some (0, w) ∧ (w.socks 0).shutdown = false := ⟨_, rfl, rfl⟩
  exact ⟨w, ⟨_, .tail (.single (.alloc _ _ 0 afInet)) (.init (by decide) rfl (fun _ h => by cases h) h)⟩,
    hsd⟩

/-- Three sockets from the start state, each initialised at the first default port of its
namespace: sockets 0 and 2 in namespace 0, socket 1 in namespace 1; socket 2 is then bound from
32770 to port 100. With `Config.sample` they sit in buckets 1, 2 and 100. -/
theorem reachable_three : ∃ w R, Reachable Config.sample w R ∧ w.count = 3 ∧
    (∀ s : Nat, R s = some 0 ↔ s < 3) ∧ (∀ s : Nat, s < 3 → (w.socks s).shutdown = false) ∧
    (w.socks 0).hnet = some 0 ∧ (w.socks 0).port = 32769 ∧
    (w.socks 1).hnet = some 1 ∧ (w.socks 1).port = 32769 ∧
    (w.socks 2).hnet = some 0 ∧ (w.socks 2).port = 100 := by
  obtain ⟨w₁, w₂, w₃, w₄, h₁, h₂, h₃, h₄, hc₁, hc₂, hn₃, hc₄, hsd, hfields⟩ : ∃ w₁ w₂ w₃ w₄,
      homaSockInit Config.sample ((World.start fun _ => 32768).alloc 0 afInet) 0 (.ok 7) =
        some (0, w₁) ∧
      homaSockInit Config.sample (w₁.alloc 1 afInet) 1 (.ok 8) = some (0, w₂) ∧
      homaSockInit Config.sample (w₂.alloc 0 afInet) 2 (.ok 9) = some (0, w₃) ∧
      homaSockBind Config.sample w₃ 0 2 100 = some (0, w₄) ∧
      w₁.count = 1 ∧ w₂.count = 2 ∧ (w₃.socks 2).hnet = some 0 ∧ w₄.count = 3 ∧
      (∀ s : Nat, s < 3 → (w₄.socks s).shutdown = false) ∧
      (w₄.socks 0).hnet = some 0 ∧ (w₄.socks 0).port = 32769 ∧
      (w₄.socks 1).hnet = some 1 ∧ (w₄.socks 1).port = 32769 ∧
      (w₄.socks 2).hnet = some 0 ∧ (w₄.socks 2).port = 100 :=
    ⟨_, _, _, _, rfl, rfl, rfl, rfl, rfl, rfl, rfl, rfl, by decide, rfl, rfl, rfl, rfl, rfl, rfl⟩
  let R : SockId → Option Int :=
    Function.update (Function.update (Function.update (fun _ => none) 0 (some 0)) 1 (some 0)) 2
      (some 0)
  have hrun : Relation.ReflTransGen (Step Config.sample)
      (World.start fun _ => 32768, fun _ => none) (w₄, R) :=
    have r₁ := Relation.ReflTransGen.single (Step.alloc _ _ 0 afInet : Step Config.sample _ _)
    have r₂ := r₁.tail (.init (by decide) (by rfl) (fun _ h => by cases h) h₁)
    have r₃ := (r₂.tail (.alloc _ _ 1 afInet)).tail
      (.init (by simp [World.alloc, hc₁]) (by rfl) (fun _ h => by cases h) h₂)
    have r₄ := (r₃.tail (.alloc _ _ 0 afInet)).tail
      (.init (by simp [World.alloc, hc₂]) (by rfl) (fun _ h => by cases h) h₃)
    r₄.tail (.bind (by rfl) hn₃ h₄)
  refine ⟨w₄, R, ⟨_, hrun⟩, hc₄, fun s => ?_, hsd, hfields⟩
  rcases (show s = 0 ∨ s = 1 ∨ s = 2 ∨ 3 ≤ s by omega) with rfl | rfl | rfl | h
  · simp [R]
  · simp [R]
  · simp [R]
  · have : s ≠ 0 ∧ s ≠ 1 ∧ s ≠ 2 := by omega
    simp only [R, Function.update_apply, this, if_false, reduceCtorEq, false_iff]
    omega

/-- Three sockets in two namespaces, two of them at port 32769 and the third bound from 32770 to
100: each lookup finds the socket of its own namespace, and the port left behind finds nothing. -/
theorem socktab_invariant_three :
    ∃ w R, Reachable Config.sample w R ∧
      homaSockFind Config.sample w 0 32769 = (some 0, w.sockHold 0) ∧
      homaSockFind Config.sample w 1 32769 = (some 1, w.sockHold 1) ∧
      homaSockFind Config.sample w 0 100 = (some 2, w.sockHold 2) ∧
      homaSockFind Config.sample w 0 32770 = (none, w) := by
  obtain ⟨w, R, hr, hc, hR, hsd, hn0, hp0, hn1, hp1, hn2, hp2⟩ := reachable_three
  obtain ⟨hlink, -, -, -, -, -, hsome, hnone⟩ := socktab_invariant hr
  have hl : ∀ s < 3, w.Linked s := fun s hs => (hlink s).2 ⟨(hR s).2 hs, hsd s hs⟩
  refine ⟨w, R, hr, (hsome 0 32769 0).2 ⟨hl 0 (by decide), hn0, hp0⟩,
    (hsome 1 32769 1).2 ⟨hl 1 (by decide), hn1, hp1⟩, (hsome 0 100 2).2 ⟨hl 2 (by decide), hn2, hp2⟩,
    (hnone 0 32770).2 fun s hs _ ⟨hn, hp⟩ => ?_⟩
  obtain rfl | rfl | rfl : s = 0 ∨ s = 1 ∨ s = 2 := by omega
  all_goals simp_all

end Homa
