import Homa.Init

/-!
# Unlinking and destroying a socket

`homa_sock_shutdown` opens with one socket-lock section: a socket already shut down, or one whose
`homa_sock_init` never got as far as setting `hsk->homa`, is left alone; any other gets `shutdown`
set and is taken off the table by `homa_sock_unlink`. That section is all the shutdown does to the
socket table (`shutdownUnlink`); the RPC and interest loops that follow are modelled with the lists
they walk. `homa_sock_destroy` frees the buffer pool of an initialised socket.

`shutdownUnlink_cases` says what the section can do; it and `homa_sock_destroy` keep the
socket-table invariant (`SocktabInv.shutdownUnlink`, `SocktabInv.sockDestroy`).
-/

namespace Homa

/-- `homa_sock_unlink`: `hlist_del_rcu` under the table's write lock. `none` when the socket is
not on the table, where `hlist_del_rcu` faults. -/
def homaSockUnlink (w : World) (hsk : SockId) : Option World :=
  (w.tab.delRcu hsk).map fun tab => { w with tab }

/-- The first socket-lock section of `homa_sock_shutdown`: nothing on a socket already shut down or
never initialised, and otherwise `hsk->shutdown = true` and `homa_sock_unlink`. -/
def shutdownUnlink (w : World) (hsk : SockId) : Option World :=
  if (w.socks hsk).shutdown || !(w.socks hsk).homa then some w
  else homaSockUnlink (w.setSock hsk fun k => { k with shutdown := true }) hsk

/-- `homa_sock_destroy`: on an initialised socket, `homa_pool_free` of its buffer pool, which is
then cleared. The reaping of dead RPCs that comes first is outside the model. -/
def homaSockDestroy (w : World) (hsk : SockId) : World :=
  if !(w.socks hsk).homa then w
  else match (w.socks hsk).bufferPool with
    | some bp => { w with freed := bp :: w.freed }.setSock hsk fun k => { k with bufferPool := none }
    | none => w

/-- A teardown call on a socket. -/
inductive TeardownCall where
  /-- `homa_sock_shutdown(hsk)`. -/
  | shutdown (hsk : SockId)
  /-- `homa_sock_destroy(&hsk->sock)`. -/
  | destroy (hsk : SockId)
  deriving DecidableEq, Repr

/-- What a teardown call does to the world: the first section of `homa_sock_shutdown`, or
`homa_sock_destroy`. `none` when `hlist_del_rcu` faults. -/
def TeardownCall.apply (w : World) : TeardownCall → Option World
  | .shutdown hsk => shutdownUnlink w hsk
  | .destroy hsk => some (homaSockDestroy w hsk)

/-- A sequence of teardown calls, in order. -/
def teardownRun (w : World) : List TeardownCall → Option World
  | [] => some w
  | c :: cs => (c.apply w).bind fun w => teardownRun w cs

section

variable {cfg : Config} {w w' : World} {hsk : SockId} {R : SockId → Option Int}

/-- Everything the section can do: nothing, or mark a live initialised socket shut down and take
it off the table. -/
theorem shutdownUnlink_cases (h : shutdownUnlink w hsk = some w') :
    w' = w ∨ ((w.socks hsk).shutdown = false ∧ (w.socks hsk).homa = true ∧
      w.tab.delRcu hsk = some w'.tab ∧ w'.count = w.count ∧ (∀ s ≠ hsk, w'.socks s = w.socks s) ∧
      w'.socks hsk = { w.socks hsk with shutdown := true } ∧
      w'.prevDefaultPort = w.prevDefaultPort ∧ w'.freed = w.freed) := by
  unfold shutdownUnlink homaSockUnlink at h
  split_ifs at h with hs
  · exact .inl (Option.some.inj h).symm
  · simp only [Bool.or_eq_true, Bool.not_eq_true', not_or, Bool.not_eq_true] at hs
    simp only [World.setSock_tab, Option.map_eq_some'] at h
    obtain ⟨tab, hd, rfl⟩ := h
    exact .inr ⟨hs.1, by simpa using hs.2, hd, rfl,
      fun s hs => by simp [World.setSock_socks_of_ne _ _ hs], by simp, rfl, rfl⟩

theorem shutdownUnlink_count (h : shutdownUnlink w hsk = some w') : w'.count = w.count := by
  rcases shutdownUnlink_cases h with rfl | ⟨-, -, -, hc, -⟩
  · rfl
  · exact hc

@[simp] theorem homaSockDestroy_count : (homaSockDestroy w hsk).count = w.count := by
  unfold homaSockDestroy; split_ifs
  · rfl
  · split <;> rfl

@[simp] theorem homaSockDestroy_tab : (homaSockDestroy w hsk).tab = w.tab := by
  unfold homaSockDestroy; split_ifs
  · rfl
  · split <;> rfl

theorem homaSockDestroy_socks_of_ne {s : SockId} (hs : s ≠ hsk) :
    (homaSockDestroy w hsk).socks s = w.socks s := by
  unfold homaSockDestroy; split_ifs
  · rfl
  · split
    · exact World.setSock_socks_of_ne _ _ hs
    · rfl

@[simp] theorem homaSockDestroy_shutdown :
    ((homaSockDestroy w hsk).socks hsk).shutdown = (w.socks hsk).shutdown := by
  unfold homaSockDestroy; split_ifs
  · rfl
  · split <;> simp

/-- On a live initialised socket the section sets `shutdown` and unlinks the socket. -/
theorem shutdownUnlink_live {t : Hlist} (hs : (w.socks hsk).shutdown = false)
    (hh : (w.socks hsk).homa = true) (hd : w.tab.delRcu hsk = some t) :
    shutdownUnlink w hsk =
      some { w.setSock hsk (fun k => { k with shutdown := true }) with tab := t } := by
  simp [shutdownUnlink, homaSockUnlink, hs, hh, hd]

/-- The shutdown section keeps the socket-table invariant. -/
theorem SocktabInv.shutdownUnlink (hinv : SocktabInv cfg w R) (h : shutdownUnlink w hsk = some w') :
    SocktabInv cfg w' R := by
  rcases shutdownUnlink_cases h with rfl | ⟨-, -, hd, hc, hsock, hself, -, -⟩
  · exact hinv
  obtain ⟨B, hok⟩ := hinv.ok
  obtain ⟨b₀, hb₀⟩ := (hok.linked_iff hsk).1 (Hlist.pprev_ne_none_of_delRcu hd)
  have hok' := hok.unlink hb₀ w' hd hc fun s hs => by rw [hsock s hs]; exact ⟨rfl, rfl⟩
  have hlk : ∀ s, w'.Linked s ↔ s ≠ hsk ∧ w.Linked s := hok.rep.hashed_delRcu hb₀ hd
  refine ⟨⟨_, hok'⟩, fun s => ?_, hinv.unique.of_move hsk (fun s _ hs => ((hlk s).1 hs).2)
    (fun s hs => by rw [hsock s hs]; exact ⟨rfl, rfl⟩) fun hl => absurd rfl ((hlk hsk).1 hl).1,
    fun s hs => ?_⟩
  · by_cases e : s = hsk
    · subst e; simp [hlk, hself]
    · rw [hlk, hsock s e, hinv.linked_iff]; simp [e]
  · obtain ⟨e, hs⟩ := (hlk s).1 hs
    rw [hsock s e]; exact hinv.port_range s hs

/-- `homa_sock_destroy` keeps the socket-table invariant. -/
theorem SocktabInv.sockDestroy (hinv : SocktabInv cfg w R) :
    SocktabInv cfg (homaSockDestroy w hsk) R := by
  unfold homaSockDestroy
  split_ifs
  · exact hinv
  split
  · refine hinv.congr rfl rfl (fun s _ => ?_) fun s => ?_ <;>
      by_cases e : s = hsk <;> simp [e, World.setSock_socks_of_ne]
  · exact hinv

end

/-! ### The buffer pool from `homa_sock_init` to the last teardown call -/

section pool

variable {cfg : Config} {w w₁ : World} {hsk : SockId} {bp : PoolId} {freed₀ : List PoolId}
  {d : Bool}

/-- On a socket whose `hsk->homa` is NULL, both teardown calls return at once. -/
theorem teardownRun_of_not_homa (hh : (w.socks hsk).homa = false) :
    ∀ calls, (∀ c ∈ calls, c = .shutdown hsk ∨ c = .destroy hsk) → teardownRun w calls = some w
  | [], _ => rfl
  | c :: cs, hc => by
    have hrest := teardownRun_of_not_homa hh cs fun c' h => hc c' (List.mem_cons_of_mem _ h)
    rcases hc c (List.mem_cons_self _ _) with rfl | rfl
    · simp [teardownRun, TeardownCall.apply, shutdownUnlink, hh, hrest]
    · simp [teardownRun, TeardownCall.apply, homaSockDestroy, hh, hrest]

/-- A socket after a successful `homa_sock_init` and some teardown calls: `hsk->homa` set, live and
linked or shut down, and its pool `bp` still held or, once a destroy has run (`d`), freed once on
top of `freed₀` and cleared. -/
structure PoolHeld (hsk : SockId) (bp : PoolId) (freed₀ : List PoolId) (d : Bool) (w : World) :
    Prop where
  homa : (w.socks hsk).homa = true
  live : (w.socks hsk).shutdown = true ∨ w.Linked hsk
  pool : (w.socks hsk).bufferPool = if d then none else some bp
  freed : w.freed = (if d then [bp] else []) ++ freed₀

theorem PoolHeld.shutdown (hp : PoolHeld hsk bp freed₀ d w) :
    ∃ w', shutdownUnlink w hsk = some w' ∧ PoolHeld hsk bp freed₀ d w' := by
  cases hsd : (w.socks hsk).shutdown
  · obtain ⟨p, hpp⟩ := Option.ne_none_iff_exists'.1 (hp.live.resolve_left (by simp [hsd]))
    obtain ⟨t, hd⟩ := Hlist.delRcu_of_pprev hpp
    exact ⟨_, shutdownUnlink_live hsd hp.homa hd,
      ⟨by simp [hp.homa], .inl (by simp), by simp [hp.pool], by simp [hp.freed]⟩⟩
  · exact ⟨w, by simp [shutdownUnlink, hsd], hp⟩

/-- The first `homa_sock_destroy` frees the pool and clears `hsk->buffer_pool`; a later one finds
it NULL. -/
theorem PoolHeld.destroy (hp : PoolHeld hsk bp freed₀ d w) :
    PoolHeld hsk bp freed₀ true (homaSockDestroy w hsk) := by
  have hpool := hp.pool
  cases d
  · simp only [Bool.false_eq_true, if_false] at hpool
    refine ⟨by simp [homaSockDestroy, hp.homa, hpool], ?_, by simp [homaSockDestroy, hp.homa, hpool],
      by simp [homaSockDestroy, hp.homa, hpool, hp.freed]⟩
    simpa [homaSockDestroy, hp.homa, hpool, World.Linked] using hp.live
  · simp only [if_true] at hpool
    simpa [homaSockDestroy, hp.homa, hpool] using hp

/-- Any teardown calls on the socket succeed and keep `PoolHeld`, with the pool freed once a
destroy is among them. -/
theorem PoolHeld.run : ∀ {d : Bool} {w : World} (calls : List TeardownCall),
    (∀ c ∈ calls, c = .shutdown hsk ∨ c = .destroy hsk) → PoolHeld hsk bp freed₀ d w →
    ∃ w', teardownRun w calls = some w' ∧
      PoolHeld hsk bp freed₀ (d || decide (.destroy hsk ∈ calls)) w'
  | _, w, [], _, hp => ⟨w, rfl, by simpa using hp⟩
  | _, _, c :: cs, hc, hp => by
    have hcs : ∀ c ∈ cs, c = .shutdown hsk ∨ c = .destroy hsk := fun c h =>
      hc c (List.mem_cons_of_mem _ h)
    rcases hc c (List.mem_cons_self _ _) with rfl | rfl
    · obtain ⟨w₁, h1, hp₁⟩ := hp.shutdown
      obtain ⟨w₂, h2, hp₂⟩ := PoolHeld.run cs hcs hp₁
      exact ⟨w₂, by simp [teardownRun, TeardownCall.apply, h1, h2], by simpa using hp₂⟩
    · obtain ⟨w₂, h2, hp₂⟩ := PoolHeld.run cs hcs hp.destroy
      exact ⟨w₂, by simp [teardownRun, TeardownCall.apply, h2], by simpa using hp₂⟩

/-- A successful init leaves the socket linked, live, and holding its pool. -/
theorem PoolHeld.init (h : homaSockInit cfg w hsk (.ok bp) = some (0, w₁)) :
    PoolHeld hsk bp w.freed false w₁ := by
  rcases homaSockInit_cases h with ⟨e, he, -⟩ | ⟨_, -, h0, -⟩ |
    ⟨bp', p, hbp, -, -, -, -, htab, -, -, hfreed, -, hself⟩
  · cases he
  · simp [eaddrnotavail] at h0
  · cases hbp
    refine ⟨by simp [hself], .inr ?_, by simp [hself], by simp [hfreed]⟩
    simp only [World.Linked, htab, Hlist.pprev_addHeadRcu]
    split_ifs <;> simp

/-- Whatever `homa_sock_init` returns on a socket as `sk_alloc` leaves it (`hsk->homa` NULL), and
whatever teardown calls on the socket follow, in any order and number, the calls never fault. When
`homa_pool_alloc` fails, nothing is freed and the calls change nothing. On `-EADDRNOTAVAIL`, the
init has freed the pool and the calls change nothing. On success, the pool is freed by the first
`homa_sock_destroy`, which clears `hsk->buffer_pool`, and never again. -/
theorem homaSockInit_pool_freed_once {pool : Except Int PoolId} {r : Int}
    (hfresh : (w.socks hsk).homa = false) (h : homaSockInit cfg w hsk pool = some (r, w₁))
    (calls : List TeardownCall) (hcalls : ∀ c ∈ calls, c = .shutdown hsk ∨ c = .destroy hsk) :
    ∃ w₂, teardownRun w₁ calls = some w₂ ∧
      (∀ e, pool = .error e → w₁ = w ∧ w₂ = w₁) ∧
      (∀ bp, pool = .ok bp → r ≠ 0 → r = -eaddrnotavail ∧ w₁.freed = bp :: w.freed ∧ w₂ = w₁) ∧
      (∀ bp, pool = .ok bp → r = 0 →
        w₂.freed = (if .destroy hsk ∈ calls then [bp] else []) ++ w.freed ∧
        (w₂.socks hsk).bufferPool = if .destroy hsk ∈ calls then none else some bp) := by
  rcases homaSockInit_cases h with ⟨e, rfl, rfl, rfl⟩ | ⟨bp, rfl, rfl, rfl⟩ |
    ⟨bp, p, rfl, rfl, -⟩
  · refine ⟨w₁, teardownRun_of_not_homa hfresh calls hcalls, fun _ _ => ⟨rfl, rfl⟩,
      fun _ h => (by cases h), fun _ h => (by cases h)⟩
  · refine ⟨_, teardownRun_of_not_homa (by simp) calls hcalls, fun _ h => (by cases h),
      fun bp' h _ => ?_, fun _ _ h => by simp [eaddrnotavail] at h⟩
    cases h
    exact ⟨rfl, by simp, rfl⟩
  · obtain ⟨w₂, hrun, hp⟩ := (PoolHeld.init h).run calls hcalls
    refine ⟨w₂, hrun, fun _ h => (by cases h), fun _ _ h => absurd rfl h, fun bp' h _ => ?_⟩
    cases h
    exact ⟨by simpa using hp.freed, by simpa using hp.pool⟩

/-- Socket 0 allocated and initialised with pool 7, then shut down and destroyed twice: pool 7 is
freed once. -/
theorem homaSockInit_pool_freed_once_first :
    ∃ w₁ w₂, homaSockInit Config.sample ((World.start fun _ => 32768).alloc 0 afInet) 0 (.ok 7) =
        some (0, w₁) ∧ teardownRun w₁ [.shutdown 0, .destroy 0, .destroy 0] = some w₂ ∧
      w₂.freed = [7] := by
  obtain ⟨w₁, h⟩ : ∃ w₁, homaSockInit Config.sample ((World.start fun _ => 32768).alloc 0 afInet)
      0 (.ok 7) = some (0, w₁) := ⟨_, rfl⟩
  obtain ⟨w₂, hrun, -, -, hok⟩ :=
    homaSockInit_pool_freed_once (by decide) h [.shutdown 0, .destroy 0, .destroy 0] (by decide)
  exact ⟨w₁, w₂, h, hrun, by simpa using (hok 7 rfl rfl).1⟩

end pool

end Homa
