import Homa.Socktab
import Mathlib.Logic.Function.Iterate
import Mathlib.Data.Nat.Find

/-!
# `homa_sock_init` and the default port

`homa_sock_init` allocates the buffer pool, then, with the table's write lock held, steps the
namespace's 16-bit counter `prev_default_port` until `homa_sock_find` reports a free port, and
links the socket there. The loop gives up with `-EADDRNOTAVAIL` only when the counter comes back to
where it started.

On `[HOMA_MIN_DEFAULT_PORT, 65535]` one step of the counter is a rotation of period
`65536 - HOMA_MIN_DEFAULT_PORT` (`iterate_nextDefaultPort`), and one step from anywhere lands in
that range. So from any start the first `65536 - HOMA_MIN_DEFAULT_PORT` steps visit every default
port once: that bounds the loop, and makes the port it picks the first free one in the counter's
order (`homaSockInit_default_port`).
-/

namespace Homa

variable (cfg : Config)

/-- `hnet->prev_default_port++` on the 16-bit counter, then `HOMA_MIN_DEFAULT_PORT` if the counter
fell below it. -/
def nextDefaultPort (p : Nat) : Nat :=
  if (p + 1) % 65536 < cfg.minDefaultPort then cfg.minDefaultPort else (p + 1) % 65536

/-- How the port loop of `homa_sock_init` ends: at a free port, or back at `starting_port`. -/
inductive PortLoopExit where
  | free
  | exhausted
  deriving DecidableEq, Repr

/-- The `while (1)` loop of `homa_sock_init`, for at most `fuel` iterations; `none` when it has not
ended within them. -/
def portLoop (hnet : NetId) (start : Nat) : Nat → World → Option (PortLoopExit × World)
  | 0, _ => none
  | fuel + 1, w =>
    let w := w.setPrev hnet (nextDefaultPort cfg (w.prevDefaultPort hnet))
    match homaSockFind cfg w hnet (w.prevDefaultPort hnet) with
    | (none, w) => some (.free, w)
    | (some other, w) =>
      let w := w.sockPut other
      if w.prevDefaultPort hnet = start then some (.exhausted, w)
      else portLoop hnet start fuel w

/-- `homa_sock_init(hsk)`, given what `homa_pool_alloc` returned. `none` when the port loop never
ends: past `65536` iterations the counter only repeats itself. -/
def homaSockInit (w : World) (hsk : SockId) (pool : Except Int PoolId) : Option (Int × World) :=
  match pool with
  | .error e => some (e, w)
  | .ok bp =>
    let hnet := (w.socks hsk).net
    let w := w.setSock hsk fun k => { k with homa := true, hnet := some hnet, bufferPool := some bp }
    match portLoop cfg hnet (w.prevDefaultPort hnet) 65536 w with
    | none => none
    | some (.exhausted, w) =>
      some (-eaddrnotavail, { w with freed := bp :: w.freed }.setSock hsk fun k =>
        { k with shutdown := true, homa := false })
    | some (.free, w) =>
      let port := w.prevDefaultPort hnet
      let w := w.setSock hsk fun k =>
        { k with port, inetNum := port, inetSport := htons port, isServer := false,
                 shutdown := false, inKernel := true }
      let w := { w with tab := w.tab.addHeadRcu hsk (cfg.bucket hnet port) }
      some (0, w.setSock hsk fun k => { k with connected := false, targetAddr := ⟨0, 0, 0⟩ })

/-! ### The counter -/

section counter

variable {cfg}

theorem nextDefaultPort_ge (p : Nat) : cfg.minDefaultPort ≤ nextDefaultPort cfg p := by
  unfold nextDefaultPort; split <;> omega

theorem nextDefaultPort_lt (p : Nat) : nextDefaultPort cfg p < 65536 := by
  have := cfg.minDefaultPort_lt
  unfold nextDefaultPort; split <;> omega

/-- One step of the counter, as an offset from `HOMA_MIN_DEFAULT_PORT`. -/
theorem nextDefaultPort_offset {x : Nat} (hx : x < 65536 - cfg.minDefaultPort) :
    nextDefaultPort cfg (cfg.minDefaultPort + x) =
      cfg.minDefaultPort + (x + 1) % (65536 - cfg.minDefaultPort) := by
  have hpos := cfg.minDefaultPort_pos
  unfold nextDefaultPort
  by_cases hlast : x + 1 = 65536 - cfg.minDefaultPort
  · rw [hlast, Nat.mod_self, if_pos (by omega)]; rfl
  · rw [Nat.mod_eq_of_lt (by omega : x + 1 < 65536 - cfg.minDefaultPort), if_neg (by omega)]
    omega

/-- On the default ports the counter rotates with period `65536 - HOMA_MIN_DEFAULT_PORT`. -/
theorem iterate_nextDefaultPort {x : Nat} (hx : x < 65536 - cfg.minDefaultPort) (j : Nat) :
    (nextDefaultPort cfg)^[j] (cfg.minDefaultPort + x) =
      cfg.minDefaultPort + (x + j) % (65536 - cfg.minDefaultPort) := by
  induction j with
  | zero => rw [Nat.add_zero, Nat.mod_eq_of_lt hx]; rfl
  | succ j ih =>
    rw [Function.iterate_succ_apply', ih,
      nextDefaultPort_offset (Nat.mod_lt _ (by have := cfg.minDefaultPort_lt; omega)),
      Nat.mod_add_mod, Nat.add_assoc]

/-- After its first step the counter is `j - 1` rotations past where that step took it. -/
theorem iterate_succ_nextDefaultPort (p j : Nat) :
    (nextDefaultPort cfg)^[j + 1] p =
      cfg.minDefaultPort + (nextDefaultPort cfg p - cfg.minDefaultPort + j) %
        (65536 - cfg.minDefaultPort) := by
  rw [Function.iterate_succ_apply]
  have h1 := @nextDefaultPort_ge cfg p
  have h2 := @nextDefaultPort_lt cfg p
  conv_lhs => rw [show nextDefaultPort cfg p =
    cfg.minDefaultPort + (nextDefaultPort cfg p - cfg.minDefaultPort) by omega]
  exact iterate_nextDefaultPort (by omega) j

/-- The first `65536 - HOMA_MIN_DEFAULT_PORT` steps reach every default port. -/
theorem exists_iterate_eq (p t : Nat) (ht : cfg.minDefaultPort ≤ t) (ht' : t < 65536) :
    ∃ j, 1 ≤ j ∧ j ≤ 65536 - cfg.minDefaultPort ∧ (nextDefaultPort cfg)^[j] p = t := by
  set R := 65536 - cfg.minDefaultPort
  have hR : 0 < R := by have := cfg.minDefaultPort_lt; omega
  set x := nextDefaultPort cfg p - cfg.minDefaultPort
  refine ⟨(t - cfg.minDefaultPort + R - x) % R + 1, by omega, Nat.mod_lt _ hR, ?_⟩
  rw [iterate_succ_nextDefaultPort, Nat.add_mod_mod]
  have hx : x < R := by have := @nextDefaultPort_lt cfg p; omega
  rw [show x + (t - cfg.minDefaultPort + R - x) = t - cfg.minDefaultPort + R by omega,
    Nat.add_mod_right, Nat.mod_eq_of_lt (by omega)]
  omega

/-- From a default port, the counter is back only after a full period. -/
theorem iterate_ne_self {p j : Nat} (hp : cfg.minDefaultPort ≤ p) (hp' : p < 65536) (hj : 1 ≤ j)
    (hjR : j < 65536 - cfg.minDefaultPort) : (nextDefaultPort cfg)^[j] p ≠ p := by
  obtain ⟨x, rfl⟩ : ∃ x, p = cfg.minDefaultPort + x := ⟨p - cfg.minDefaultPort, by omega⟩
  rw [iterate_nextDefaultPort (by omega)]
  by_cases hlt : x + j < 65536 - cfg.minDefaultPort
  · rw [Nat.mod_eq_of_lt hlt]; omega
  · rw [Nat.mod_eq_sub_mod (by omega), Nat.mod_eq_of_lt (by omega)]; omega

theorem iterate_period {p : Nat} (hp : cfg.minDefaultPort ≤ p) (hp' : p < 65536) :
    (nextDefaultPort cfg)^[65536 - cfg.minDefaultPort] p = p := by
  obtain ⟨x, rfl⟩ : ∃ x, p = cfg.minDefaultPort + x := ⟨p - cfg.minDefaultPort, by omega⟩
  rw [iterate_nextDefaultPort (by omega), Nat.add_mod_right, Nat.mod_eq_of_lt (by omega)]

end counter

/-! ### The loop -/

section loop

variable {cfg}

/-- One iteration: the counter steps, and the loop stops at a free port or back at the start.
The reference `homa_sock_find` takes on an owner is dropped again, so only the counter moves. -/
theorem portLoop_succ (hnet : NetId) (start fuel : Nat) (w : World) :
    portLoop cfg hnet start (fuel + 1) w =
      if lookup cfg w hnet (nextDefaultPort cfg (w.prevDefaultPort hnet)) = none then
        some (.free, w.setPrev hnet (nextDefaultPort cfg (w.prevDefaultPort hnet)))
      else if nextDefaultPort cfg (w.prevDefaultPort hnet) = start then
        some (.exhausted, w.setPrev hnet (nextDefaultPort cfg (w.prevDefaultPort hnet)))
      else portLoop cfg hnet start fuel (w.setPrev hnet (nextDefaultPort cfg (w.prevDefaultPort hnet))) := by
  simp only [portLoop, homaSockFind, lookup_setPrev, World.setPrev_prevDefaultPort]
  cases lookup cfg w hnet (nextDefaultPort cfg (w.prevDefaultPort hnet)) <;>
    simp [World.sockPut_sockHold]

/-- `k` iterations over occupied ports other than the start only move the counter. -/
theorem portLoop_add (hnet : NetId) (start k : Nat) : ∀ (w : World) (fuel : Nat),
    (∀ j, 1 ≤ j → j ≤ k →
      lookup cfg w hnet ((nextDefaultPort cfg)^[j] (w.prevDefaultPort hnet)) ≠ none ∧
      (nextDefaultPort cfg)^[j] (w.prevDefaultPort hnet) ≠ start) →
    portLoop cfg hnet start (fuel + k) w =
      portLoop cfg hnet start fuel
        (w.setPrev hnet ((nextDefaultPort cfg)^[k] (w.prevDefaultPort hnet))) := by
  induction k with
  | zero => intro w fuel _; simp
  | succ k ih =>
    intro w fuel hocc
    obtain ⟨h1, h2⟩ := hocc 1 le_rfl (by omega)
    rw [Function.iterate_one] at h1 h2
    rw [← Nat.add_assoc, portLoop_succ, if_neg h1, if_neg h2, ih]
    · simp [Function.iterate_succ_apply]
    · intro j hj hjk
      simpa [Function.iterate_succ_apply] using hocc (j + 1) (by omega) (by omega)

/-- More fuel changes no result the loop has reached. -/
theorem portLoop_mono {hnet : NetId} {start : Nat} {r : PortLoopExit × World} :
    ∀ {fuel : Nat} {w : World} (m : Nat), portLoop cfg hnet start fuel w = some r →
      portLoop cfg hnet start (fuel + m) w = some r := by
  intro fuel
  induction fuel with
  | zero => intro w m h; simp [portLoop] at h
  | succ fuel ih =>
    intro w m h
    rw [Nat.add_right_comm, portLoop_succ] at *
    split_ifs at h ⊢
    · exact h
    · exact h
    · exact ih m h

/-- Where the loop stops: a default port, free if it stopped there, the start if it gave up. -/
theorem portLoop_result {hnet : NetId} {start : Nat} {e : PortLoopExit} {w' : World} :
    ∀ {fuel : Nat} {w : World}, portLoop cfg hnet start fuel w = some (e, w') →
      ∃ p, w' = w.setPrev hnet p ∧ cfg.minDefaultPort ≤ p ∧ p < 65536 ∧
        (e = .free → lookup cfg w hnet p = none) ∧ (e = .exhausted → p = start) := by
  intro fuel
  induction fuel with
  | zero => intro w h; simp [portLoop] at h
  | succ fuel ih =>
    intro w h
    have hge := @nextDefaultPort_ge cfg (w.prevDefaultPort hnet)
    have hlt := @nextDefaultPort_lt cfg (w.prevDefaultPort hnet)
    rw [portLoop_succ] at h
    split_ifs at h with h1 h2
    · cases h; exact ⟨_, rfl, hge, hlt, fun _ => h1, by simp⟩
    · cases h; exact ⟨_, rfl, hge, hlt, by simp, fun _ => h2⟩
    · obtain ⟨p, rfl, hp⟩ := ih h
      exact ⟨p, by simp, by simpa using hp⟩

end loop

/-! ### What `homa_sock_init` does -/

section init

variable {cfg}

/-- The socket after the fields `homa_sock_init` sets before it takes the write lock. -/
def initPrelude (w : World) (hsk : SockId) (bp : PoolId) : World :=
  w.setSock hsk fun k => { k with homa := true, hnet := some (w.socks hsk).net, bufferPool := some bp }

/-- Everything `homa_sock_init` can do: fail in `homa_pool_alloc`, give up on the ports, or link the
socket at a free default port. -/
theorem homaSockInit_cases {w w' : World} {hsk : SockId} {pool : Except Int PoolId} {r : Int}
    (h : homaSockInit cfg w hsk pool = some (r, w')) :
    (∃ e, pool = .error e ∧ r = e ∧ w' = w) ∨
    (∃ bp, pool = .ok bp ∧ r = -eaddrnotavail ∧
      w' = { initPrelude w hsk bp with freed := bp :: w.freed }.setSock hsk
        (fun k => { k with shutdown := true, homa := false })) ∨
    (∃ bp p, pool = .ok bp ∧ r = 0 ∧ cfg.minDefaultPort ≤ p ∧ p < 65536 ∧
      lookup cfg (initPrelude w hsk bp) (w.socks hsk).net p = none ∧
      w'.tab = w.tab.addHeadRcu hsk (cfg.bucket (w.socks hsk).net p) ∧ w'.count = w.count ∧
      w'.prevDefaultPort = Function.update w.prevDefaultPort (w.socks hsk).net p ∧
      w'.freed = w.freed ∧ (∀ s ≠ hsk, w'.socks s = w.socks s) ∧
      w'.socks hsk =
        { w.socks hsk with
          homa := true, hnet := some (w.socks hsk).net, bufferPool := some bp, port := p,
          inetNum := p, inetSport := htons p, isServer := false, shutdown := false,
          inKernel := true, connected := false, targetAddr := ⟨0, 0, 0⟩ }) := by
  cases pool with
  | error e => simp only [homaSockInit, Option.some.injEq, Prod.mk.injEq] at h; exact .inl ⟨e, rfl, h.1.symm, h.2.symm⟩
  | ok bp =>
    right
    simp only [homaSockInit] at h
    split at h
    · cases h
    · rename_i w₁ hl
      obtain ⟨p, rfl, -, -, -, hp⟩ := portLoop_result hl
      simp only [Option.some.injEq, Prod.mk.injEq] at h
      refine .inl ⟨bp, rfl, h.1.symm, ?_⟩
      rw [← h.2, hp rfl]
      simp [initPrelude, World.setPrev]
    · rename_i w₁ hl
      obtain ⟨p, rfl, hge, hlt, hfree, -⟩ := portLoop_result hl
      simp only [Option.some.injEq, Prod.mk.injEq] at h
      refine .inr ⟨bp, p, rfl, h.1.symm, hge, hlt, hfree rfl, ?_⟩
      rw [← h.2]
      refine ⟨?_, rfl, ?_, rfl, fun s hs => ?_, ?_⟩ <;>
        simp [initPrelude, World.setSock, World.setPrev, Function.update_noteq, *]

theorem homaSockInit_count {w w' : World} {hsk : SockId} {pool : Except Int PoolId} {r : Int}
    (h : homaSockInit cfg w hsk pool = some (r, w')) : w'.count = w.count := by
  rcases homaSockInit_cases h with ⟨-, -, -, rfl⟩ | ⟨-, -, -, rfl⟩ | ⟨-, -, -, -, -, -, -, -, hc, -⟩
  · rfl
  · rfl
  · exact hc

/-- `homa_sock_init` touches no other socket. -/
theorem homaSockInit_socks_of_ne {w w' : World} {hsk s : SockId} {pool : Except Int PoolId}
    {r : Int} (h : homaSockInit cfg w hsk pool = some (r, w')) (hs : s ≠ hsk) :
    w'.socks s = w.socks s := by
  rcases homaSockInit_cases h with ⟨-, -, -, rfl⟩ | ⟨-, -, -, rfl⟩ | ⟨-, -, -, -, -, -, -, -, -, -, -, ho, -⟩
  · rfl
  · simp [World.setSock_socks_of_ne _ _ hs, initPrelude]
  · exact ho s hs

theorem homaSockInit_of_loop {w w₂ : World} {hsk : SockId} {bp : PoolId} {e : PortLoopExit}
    (h : portLoop cfg (w.socks hsk).net ((initPrelude w hsk bp).prevDefaultPort (w.socks hsk).net)
      65536 (initPrelude w hsk bp) = some (e, w₂)) :
    homaSockInit cfg w hsk (.ok bp) = match e with
      | .exhausted => some (-eaddrnotavail, { w₂ with freed := bp :: w₂.freed }.setSock hsk fun k =>
          { k with shutdown := true, homa := false })
      | .free => some (0, ({ w₂.setSock hsk fun k =>
          { k with port := w₂.prevDefaultPort (w.socks hsk).net,
                   inetNum := w₂.prevDefaultPort (w.socks hsk).net,
                   inetSport := htons (w₂.prevDefaultPort (w.socks hsk).net), isServer := false,
                   shutdown := false, inKernel := true } with
          tab := w₂.tab.addHeadRcu hsk (cfg.bucket (w.socks hsk).net
            (w₂.prevDefaultPort (w.socks hsk).net)) }).setSock hsk fun k =>
            { k with connected := false, targetAddr := ⟨0, 0, 0⟩ }) := by
  simp only [initPrelude] at h
  simp only [homaSockInit, h]
  cases e <;> rfl

/-- Before the lock, only the new socket changes, and it is on no bucket; so the loop's lookups
are the table's. -/
theorem portFree_iff_prelude {w : World} {B : Nat → List SockId} (hok : TableOk cfg w B)
    {hsk : SockId} (hunl : ¬w.Linked hsk) (bp : PoolId) (hnet : NetId) (p : Nat) :
    PortFree w hnet p ↔ lookup cfg (initPrelude w hsk bp) hnet p = none := by
  rw [← hok.lookup_eq_none_iff,
    lookup_eq_of_agree (initPrelude w hsk bp) hok.rep hok.lt_count rfl rfl fun s hs => ?_]
  have hne : s ≠ hsk := fun e => hunl (e ▸ (hok.linked_iff s).2 ⟨_, hs⟩)
  simp [owns, initPrelude, World.setSock_socks_of_ne _ _ hne]

/-- The port loop on a table where every default port is taken ends, after one period, with the
counter back at its start. -/
theorem portLoop_exhausted {hnet : NetId} {p0 : Nat} {w₁ : World}
    (hprev : w₁.prevDefaultPort hnet = p0) (hp0 : cfg.minDefaultPort ≤ p0) (hp0' : p0 < 65536)
    (htaken : ∀ p, cfg.minDefaultPort ≤ p → p < 65536 → lookup cfg w₁ hnet p ≠ none) :
    portLoop cfg hnet p0 (65536 - cfg.minDefaultPort) w₁ = some (.exhausted, w₁) := by
  have hR : 1 ≤ 65536 - cfg.minDefaultPort := by have := cfg.minDefaultPort_lt; omega
  have hin : ∀ i, cfg.minDefaultPort ≤ (nextDefaultPort cfg)^[i + 1] p0 ∧
      (nextDefaultPort cfg)^[i + 1] p0 < 65536 := fun i => by
    rw [Function.iterate_succ_apply']; exact ⟨nextDefaultPort_ge _, nextDefaultPort_lt _⟩
  have hstep := @portLoop_add cfg hnet p0 (65536 - cfg.minDefaultPort - 1) w₁ 1
    (fun i hi hiR => by
      obtain ⟨i', rfl⟩ : ∃ i', i = i' + 1 := ⟨i - 1, by omega⟩
      rw [hprev]
      exact ⟨htaken _ (hin i').1 (hin i').2, iterate_ne_self hp0 hp0' hi (by omega)⟩)
  rw [show 1 + (65536 - cfg.minDefaultPort - 1) = 65536 - cfg.minDefaultPort by omega] at hstep
  rw [hstep, portLoop_succ, World.setPrev_prevDefaultPort, hprev,
    ← Function.iterate_succ_apply' (nextDefaultPort cfg), Nat.succ_eq_add_one,
    show 65536 - cfg.minDefaultPort - 1 + 1 = 65536 - cfg.minDefaultPort by omega,
    iterate_period hp0 hp0', lookup_setPrev, if_neg (htaken p0 hp0 hp0'), if_pos rfl]
  simp [← hprev]

/-- The port loop from a counter whose first free default port is `k` steps away stops there. -/
theorem portLoop_first_free {hnet : NetId} {p0 k : Nat} {w₁ : World}
    (hprev : w₁.prevDefaultPort hnet = p0) (hk : 1 ≤ k) (hkR : k ≤ 65536 - cfg.minDefaultPort)
    (hfree : lookup cfg w₁ hnet ((nextDefaultPort cfg)^[k] p0) = none)
    (hmin : ∀ i, 1 ≤ i → i < k → lookup cfg w₁ hnet ((nextDefaultPort cfg)^[i] p0) ≠ none) :
    portLoop cfg hnet p0 (65536 - cfg.minDefaultPort) w₁ =
      some (.free, w₁.setPrev hnet ((nextDefaultPort cfg)^[k] p0)) := by
  obtain ⟨k, rfl⟩ : ∃ k', k = k' + 1 := ⟨k - 1, by omega⟩
  have hne : ∀ i, 1 ≤ i → i < 65536 - cfg.minDefaultPort → (nextDefaultPort cfg)^[i] p0 ≠ p0 := by
    intro i hi hiR
    by_cases hp : cfg.minDefaultPort ≤ p0 ∧ p0 < 65536
    · exact iterate_ne_self hp.1 hp.2 hi hiR
    · obtain ⟨i', rfl⟩ : ∃ i', i = i' + 1 := ⟨i - 1, by omega⟩
      rw [Function.iterate_succ_apply']
      have := @nextDefaultPort_ge cfg ((nextDefaultPort cfg)^[i'] p0)
      have := @nextDefaultPort_lt cfg ((nextDefaultPort cfg)^[i'] p0)
      omega
  have hstep := @portLoop_add cfg hnet p0 k w₁ (65536 - cfg.minDefaultPort - k - 1 + 1)
    (fun i hi hik => by rw [hprev]; exact ⟨hmin i hi (by omega), hne i hi (by omega)⟩)
  rw [show 65536 - cfg.minDefaultPort - k - 1 + 1 + k = 65536 - cfg.minDefaultPort by omega]
    at hstep
  rw [hstep, portLoop_succ, World.setPrev_prevDefaultPort, hprev,
    ← Function.iterate_succ_apply' (nextDefaultPort cfg), lookup_setPrev, if_pos hfree,
    World.setPrev_setPrev]

/-- When some default port satisfies `F`, which marks the free ports, the port loop stops at
the first such port in the counter's order. -/
theorem portLoop_some_free {hnet : NetId} {p0 : Nat} {w₁ : World}
    (hprev : w₁.prevDefaultPort hnet = p0) (F : Nat → Prop)
    (hF : ∀ p, F p ↔ lookup cfg w₁ hnet p = none)
    (hex : ∃ p, cfg.minDefaultPort ≤ p ∧ p < 65536 ∧ F p) :
    ∃ k, 1 ≤ k ∧ k ≤ 65536 - cfg.minDefaultPort ∧ F ((nextDefaultPort cfg)^[k] p0) ∧
      (∀ j, 1 ≤ j → j < k → ¬F ((nextDefaultPort cfg)^[j] p0)) ∧
      portLoop cfg hnet p0 (65536 - cfg.minDefaultPort) w₁ =
        some (.free, w₁.setPrev hnet ((nextDefaultPort cfg)^[k] p0)) := by
  obtain ⟨t, ht, ht', htf⟩ := hex
  obtain ⟨j, hj1, hjR, rfl⟩ := @exists_iterate_eq cfg p0 t ht ht'
  classical
  have hex : ∃ k, 1 ≤ k ∧ F ((nextDefaultPort cfg)^[k] p0) := ⟨j, hj1, htf⟩
  obtain ⟨k, ⟨hk1, hkf⟩, hkj, hmin⟩ : ∃ k, (1 ≤ k ∧ F ((nextDefaultPort cfg)^[k] p0)) ∧ k ≤ j ∧
      ∀ i < k, ¬(1 ≤ i ∧ F ((nextDefaultPort cfg)^[i] p0)) :=
    ⟨Nat.find hex, Nat.find_spec hex, Nat.find_min' hex ⟨hj1, htf⟩, fun i hi => Nat.find_min hex hi⟩
  refine ⟨k, hk1, by omega, hkf, fun i hi hik hf => hmin i hik ⟨hi, hf⟩, ?_⟩
  exact portLoop_first_free hprev hk1 (by omega) ((hF _).1 hkf)
    fun i hi hik hl => hmin i hik ⟨hi, (hF _).2 hl⟩

/-- `homa_sock_init` on a socket that has not been initialised keeps the socket-table invariant,
with its result recorded; `homa_pool_alloc` fails only with a nonzero errno. -/
theorem SocktabInv.sockInit {w w' : World} {R : SockId → Option Int} (hinv : SocktabInv cfg w R)
    {hsk : SockId} (hlt : hsk < w.count) (hR : R hsk = none) {pool : Except Int PoolId}
    (hpool : ∀ e, pool = .error e → e ≠ 0) {r : Int}
    (h : homaSockInit cfg w hsk pool = some (r, w')) :
    SocktabInv cfg w' (Function.update R hsk (some r)) := by
  have hunl : ¬w.Linked hsk := fun hl => by simp [((hinv.linked_iff hsk).1 hl).1] at hR
  have hne : ∀ s, w.Linked s → s ≠ hsk := fun s hs e => hunl (e ▸ hs)
  rcases homaSockInit_cases h with ⟨e, rfl, rfl, rfl⟩ | ⟨bp, rfl, rfl, rfl⟩ |
    ⟨bp, p, rfl, rfl, hge, hlt', hfree, htab, hcount, -, -, hsocks, hself⟩
  · refine hinv.congr rfl rfl (fun _ _ => ⟨rfl, rfl⟩) fun s => ?_
    by_cases e : s = hsk
    · subst e; simp [hR, hpool _ rfl]
    · simp [Function.update_noteq e]
  · refine hinv.congr (by simp [initPrelude]) rfl
      (fun s hs => by simp [initPrelude, World.setSock_socks_of_ne _ _ (hne s hs)]) fun s => ?_
    by_cases e : s = hsk
    · subst e; simp [hR, eaddrnotavail]
    · simp [Function.update_noteq e, initPrelude, World.setSock_socks_of_ne _ _ e]
  · obtain ⟨B, hok⟩ := hinv.ok
    have hport := (portFree_iff_prelude hok hunl bp _ p).2 hfree
    have hok' := hok.link hunl hlt w' (w.socks hsk).net (by rw [hself])
      (by rw [htab, hself]) hcount fun s hs => by rw [hsocks s hs]; exact ⟨rfl, rfl⟩
    have hlink : ∀ s, w'.Linked s ↔ s = hsk ∨ w.Linked s := fun s => by
      rw [hok'.linked_iff, hok.linked_iff]
      simp only [mem_update_cons]
      constructor
      · rintro ⟨b, ⟨rfl, -⟩ | hb⟩
        · exact .inl rfl
        · exact .inr ⟨b, hb⟩
      · rintro (rfl | ⟨b, hb⟩)
        · exact ⟨_, .inl ⟨rfl, rfl⟩⟩
        · exact ⟨b, .inr hb⟩
    refine ⟨⟨_, hok'⟩, fun s => ?_, hinv.unique.of_move hsk (fun s hs hl => ?_)
      (fun s hs => by rw [hsocks s hs]; exact ⟨rfl, rfl⟩) fun _ s hs hl => ?_, fun s hs => ?_⟩
    · by_cases e : s = hsk
      · subst e; simp [hlink, hself]
      · rw [hlink, Function.update_noteq e, hinv.linked_iff, hsocks s e]
        simp [e]
    · exact ((hlink s).1 hl).resolve_left hs
    · rw [hself]; exact hport s (hok.lt_count_of_linked hl) hl
    · by_cases e : s = hsk
      · subst e; have := cfg.minDefaultPort_pos; simp [hself]; omega
      · rw [hsocks s e]; exact hinv.port_range s (((hlink s).1 hs).resolve_left e)

/-- The default port `homa_sock_init` picks. From a counter that is a default port, and from any
counter when some default port is free, the loop ends within `65536 - HOMA_MIN_DEFAULT_PORT`
iterations. If a default port is free the socket gets the first free one in the counter's order,
the counter stays there and the socket heads that port's bucket; otherwise `-EADDRNOTAVAIL` comes
back with the counter where it was, the table as it was and the socket unlinked. -/
theorem homaSockInit_default_port {w : World} {B : Nat → List SockId} (hok : TableOk cfg w B)
    {hsk : SockId} (hunl : ¬w.Linked hsk) (bp : PoolId) {hnet : NetId} {p0 : Nat}
    (hnet_eq : (w.socks hsk).net = hnet) (hp0 : w.prevDefaultPort hnet = p0)
    (hstart : (cfg.minDefaultPort ≤ p0 ∧ p0 < 65536) ∨
      ∃ p, cfg.minDefaultPort ≤ p ∧ p < 65536 ∧ PortFree w hnet p) :
    (∃ r, portLoop cfg hnet p0 (65536 - cfg.minDefaultPort) (initPrelude w hsk bp) = some r) ∧
    ((∃ p, cfg.minDefaultPort ≤ p ∧ p < 65536 ∧ PortFree w hnet p) →
      ∃ k, 1 ≤ k ∧ k ≤ 65536 - cfg.minDefaultPort ∧
        PortFree w hnet ((nextDefaultPort cfg)^[k] p0) ∧
        (∀ j, 1 ≤ j → j < k → ¬PortFree w hnet ((nextDefaultPort cfg)^[j] p0)) ∧
        ∃ w', homaSockInit cfg w hsk (.ok bp) = some (0, w') ∧
          (w'.socks hsk).port = (nextDefaultPort cfg)^[k] p0 ∧
          w'.prevDefaultPort hnet = (nextDefaultPort cfg)^[k] p0 ∧
          Rep w'.tab cfg.buckets (Function.update B (cfg.bucket hnet ((nextDefaultPort cfg)^[k] p0))
            (hsk :: B (cfg.bucket hnet ((nextDefaultPort cfg)^[k] p0))))) ∧
    ((∀ p, cfg.minDefaultPort ≤ p → p < 65536 → ¬PortFree w hnet p) →
      ∃ w', homaSockInit cfg w hsk (.ok bp) = some (-eaddrnotavail, w') ∧
        w'.prevDefaultPort hnet = p0 ∧ w'.tab = w.tab ∧ ¬w'.Linked hsk) := by
  subst hnet_eq hp0
  have hfree := portFree_iff_prelude hok hunl bp (w.socks hsk).net
  have hprev : (initPrelude w hsk bp).prevDefaultPort (w.socks hsk).net =
      w.prevDefaultPort (w.socks hsk).net := rfl
  have hfull : ∀ {r}, portLoop cfg (w.socks hsk).net (w.prevDefaultPort (w.socks hsk).net)
      (65536 - cfg.minDefaultPort) (initPrelude w hsk bp) = some r →
      portLoop cfg (w.socks hsk).net (w.prevDefaultPort (w.socks hsk).net) 65536
        (initPrelude w hsk bp) = some r := fun h => by
    have := portLoop_mono cfg.minDefaultPort h
    rwa [Nat.sub_add_cancel cfg.minDefaultPort_lt.le] at this
  have hfreeCase := portLoop_some_free hprev (PortFree w (w.socks hsk).net) hfree
  refine ⟨?_, fun hex => ?_, fun htaken => ?_⟩
  · by_cases hex : ∃ p, cfg.minDefaultPort ≤ p ∧ p < 65536 ∧ PortFree w (w.socks hsk).net p
    · obtain ⟨k, -, -, -, -, h⟩ := hfreeCase hex
      exact ⟨_, h⟩
    · have hp0 := hstart.resolve_right hex
      push_neg at hex
      exact ⟨_, portLoop_exhausted hprev hp0.1 hp0.2 fun p h1 h2 hl => hex p h1 h2 ((hfree p).2 hl)⟩
  · obtain ⟨k, hk1, hkR, hkf, hmin, hloop⟩ := hfreeCase hex
    refine ⟨k, hk1, hkR, hkf, hmin, _, homaSockInit_of_loop (hfull hloop), ?_, ?_, ?_⟩
    · simp
    · simp [World.setSock]
    · convert hok.rep.addHeadRcu (n := hsk) (cfg.bucket_lt (w.socks hsk).net
        ((nextDefaultPort cfg)^[k] (w.prevDefaultPort (w.socks hsk).net)))
        (fun b hb => hunl ((hok.linked_iff hsk).2 ⟨b, hb⟩)) using 2
      simp [World.setSock, initPrelude]
  · have hp0 := hstart.resolve_right fun ⟨p, h1, h2, h3⟩ => htaken p h1 h2 h3
    have hloop := portLoop_exhausted hprev hp0.1 hp0.2 fun p h1 h2 hl => htaken p h1 h2 ((hfree p).2 hl)
    exact ⟨_, homaSockInit_of_loop (hfull hloop), rfl, rfl, hunl⟩

/-- Under `Config.small`, whose default ports are 65533 to 65535, from a counter at 65533: the first
socket gets 65534, the port after the counter. Once three sockets have taken every default port,
the loop of a fourth passes them all and it gets `-EADDRNOTAVAIL`, with the counter left at 65533,
where the third put it. -/
theorem homaSockInit_default_port_full :
    ∃ w₀ w₃ B₀ B₃, TableOk Config.small w₀ B₀ ∧ ¬w₀.Linked 0 ∧
      TableOk Config.small w₃ B₃ ∧ ¬w₃.Linked 3 ∧
      (∃ w', homaSockInit Config.small w₀ 0 (.ok 1) = some (0, w') ∧ (w'.socks 0).port = 65534) ∧
      ∃ w', homaSockInit Config.small w₃ 3 (.ok 4) = some (-eaddrnotavail, w') ∧
        w'.prevDefaultPort 0 = 65533 ∧ ¬w'.Linked 3 := by
  obtain ⟨w₁, w₂, w₃, h₁, h₂, h₃, hc₁, hc₂, hc₃, hnet, hprev, hsd, hn, hp0, hp1, hp2⟩ : ∃ w₁ w₂ w₃,
      homaSockInit Config.small ((World.start fun _ => 65533).alloc 0 afInet) 0 (.ok 1) =
        some (0, w₁) ∧
      homaSockInit Config.small (w₁.alloc 0 afInet) 1 (.ok 2) = some (0, w₂) ∧
      homaSockInit Config.small (w₂.alloc 0 afInet) 2 (.ok 3) = some (0, w₃) ∧
      w₁.count = 1 ∧ w₂.count = 2 ∧ w₃.count = 3 ∧
      ((w₃.alloc 0 afInet).socks 3).net = 0 ∧ (w₃.alloc 0 afInet).prevDefaultPort 0 = 65533 ∧
      (∀ s : Nat, s < 3 → ((w₃.alloc 0 afInet).socks s).shutdown = false) ∧
      (∀ s : Nat, s < 3 → ((w₃.alloc 0 afInet).socks s).hnet = some 0) ∧
      ((w₃.alloc 0 afInet).socks 0).port = 65534 ∧ ((w₃.alloc 0 afInet).socks 1).port = 65535 ∧
        ((w₃.alloc 0 afInet).socks 2).port = 65533 :=
    ⟨_, _, _, rfl, rfl, rfl, rfl, rfl, rfl, rfl, rfl, by decide, by decide, rfl, rfl, rfl⟩
  have hinv₀ : SocktabInv Config.small (World.start fun _ => 65533) fun _ => none :=
    .of_empty rfl fun _ h => by cases h
  have hinv₃ := ((((((hinv₀.alloc (by simp) 0 afInet).sockInit (by decide) rfl
    (fun _ h => by cases h) h₁).alloc (by simp [hc₁]) 0 afInet).sockInit
      (by simp [World.alloc, hc₁]) (by simp [hc₁]) (fun _ h => by cases h) h₂).alloc
        (by simp [hc₂]) 0 afInet).sockInit (by simp [World.alloc, hc₂]) (by simp [hc₂])
          (fun _ h => by cases h) h₃).alloc (by simp [hc₃]) 0 afInet
  obtain ⟨B₃, hok₃⟩ := hinv₃.ok
  have hl : ∀ s : Nat, s < 3 → (w₃.alloc 0 afInet).Linked s := fun s hs =>
    (hinv₃.linked_iff s).2 ⟨by rcases (show s = 0 ∨ s = 1 ∨ s = 2 by omega) with rfl | rfl | rfl <;> rfl,
      hsd s hs⟩
  have hunl₃ : ¬(w₃.alloc 0 afInet).Linked 3 := fun h =>
    absurd ((hinv₃.linked_iff 3).1 h).1 (by decide)
  -- the first socket: every default port is free, so the loop stops at the first one it tries
  have hok₀ := (TableOk.init Config.small (World.start fun _ => 65533) rfl).alloc 0 afInet
  have hnone : ∀ s, ¬((World.start fun _ => 65533).alloc 0 afInet).Linked s := fun s => by
    by_cases e : s = 0 <;> simp [World.Linked, World.alloc, World.start, homaSocktabInit, Hlist.clear, e]
  obtain ⟨-, hfree, -⟩ :=
    homaSockInit_default_port hok₀ (hnone 0) 1 rfl rfl (.inl ⟨by decide, by decide⟩)
  obtain ⟨k, hk1, -, -, hmin, w', h, hport, -⟩ :=
    hfree ⟨65534, by decide, by decide, fun s _ hs => absurd hs (hnone s)⟩
  obtain rfl : k = 1 := by
    by_contra hk
    exact hmin 1 le_rfl (by omega) fun s _ hs => absurd hs (hnone s)
  -- the fourth socket: the three others hold every default port
  obtain ⟨-, -, htaken⟩ :=
    homaSockInit_default_port hok₃ hunl₃ 4 hnet hprev (.inl ⟨by decide, by decide⟩)
  have hlt : ∀ s : Nat, s < 3 → s < (w₃.alloc 0 afInet).count := fun s hs => by
    simp [World.alloc, hc₃]; omega
  obtain ⟨w'', h'', hprev'', -, hunl''⟩ := htaken fun p h1 h2 hfree => by
    simp only [Config.small] at h1
    rcases (show p = 65533 ∨ p = 65534 ∨ p = 65535 by omega) with rfl | rfl | rfl
    · exact hfree 2 (hlt 2 (by decide)) (hl 2 (by decide)) ⟨hn 2 (by decide), hp2⟩
    · exact hfree 0 (hlt 0 (by decide)) (hl 0 (by decide)) ⟨hn 0 (by decide), hp0⟩
    · exact hfree 1 (hlt 1 (by decide)) (hl 1 (by decide)) ⟨hn 1 (by decide), hp1⟩
  exact ⟨_, _, _, B₃, hok₀, hnone 0, hok₃, hunl₃, ⟨w', h, hport⟩, w'', h'', hprev'', hunl''⟩

end init

end Homa
