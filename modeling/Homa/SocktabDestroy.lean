import Homa.ScanOrder

/-!
# Tearing down the socket table: `homa_socktab_destroy`

`homa_socktab_destroy(socktab, hnet)` scans the table and passes every socket of `hnet` (every
socket when `hnet` is NULL) to `homa_sock_shutdown` and then to `homa_sock_destroy`. The shutdown
unlinks the socket the scan holds, and the scan goes on from its `next` link, which
`hlist_del_rcu` kept (`Returned.delRcu`). Of `homa_sock_shutdown`, what touches the table is its
first section, `shutdownUnlink`; the loops after it work on the socket's own RPC and interest lists
(`homaSockShutdown`).

While the loop runs, `DestroyInv` relates the world to the one it started from: a socket still
linked, or of another namespace, is as it was but for the reference the scan holds, and a socket
taken off the table has been shut down. On a table that keeps the socket-table invariant, the loop
ends, every socket of `hnet` has been shut down and destroyed once and is off the table, and every
other socket is still on its bucket, unchanged (`homaSocktabDestroy_spec`).
-/

namespace Homa

/-- A socket that `homa_socktab_destroy` with `hnet` tears down: `hnet` is NULL or the socket's. -/
def InNet (hnet : Option NetId) (k : Sock) : Prop := hnet = none ∨ hnet = k.hnet

instance (hnet : Option NetId) (k : Sock) : Decidable (InNet hnet k) :=
  inferInstanceAs (Decidable (_ ∨ _))

/-- The body of the loop of `homa_socktab_destroy`: a socket of another namespace is skipped; any
other is passed to `homa_sock_shutdown`, whose table part is `shutdownUnlink`, then to
`homa_sock_destroy`. -/
def destroyBody (hnet : Option NetId) (w : World) (hsk : SockId) :
    Option (World × List TeardownCall) :=
  if hnet.isSome ∧ hnet ≠ (w.socks hsk).hnet then some (w, [])
  else (shutdownUnlink w hsk).map fun w => (homaSockDestroy w hsk, [.shutdown hsk, .destroy hsk])

variable (cfg : Config)

/-- `homa_socktab_destroy(socktab, hnet)`: the calls it makes, in order, and the world it leaves.
The loop is given one socket of fuel for each socket allocated, which is enough
(`homaSocktabDestroy_spec`). -/
def homaSocktabDestroy (w : World) (hnet : Option NetId) : Option (List TeardownCall × World) :=
  (scanRun cfg (destroyBody hnet) w.count w).map fun r =>
    (r.2.1, (homaSocktabEndScan r.2.2.2 r.2.2.1).2)

/-- The calls the loop makes on socket `s` of the table it started from. -/
def destroyCalls (hnet : Option NetId) (w₀ : World) (s : SockId) : List TeardownCall :=
  if InNet hnet (w₀.socks s) then [.shutdown s, .destroy s] else []

/-- While `homa_socktab_destroy` runs from `w₀`: a socket linked now was linked in `w₀`; a socket
linked now, or of another namespace, is as in `w₀` but for the reference the scan holds on it; a
socket of `w₀`'s table that is no longer linked has been shut down. -/
structure DestroyInv (hnet : Option NetId) (w₀ w : World) (scan : Scan) : Prop where
  linked : ∀ s, w.Linked s → w₀.Linked s
  socks : ∀ s, (w.Linked s ∨ ¬InNet hnet (w₀.socks s)) →
    w.socks s = { w₀.socks s with refs := (w₀.socks s).refs + if scan.hsk = some s then 1 else 0 }
  shutdown : ∀ s, w₀.Linked s → ¬w.Linked s → (w.socks s).shutdown = true

variable {cfg} {hnet : Option NetId} {w₀ w : World}

theorem destroyBody_of_not_inNet {s : SockId} (h : ¬InNet hnet (w.socks s)) :
    destroyBody hnet w s = some (w, []) := by
  simp only [InNet, not_or] at h
  rw [destroyBody, if_pos ⟨Option.isSome_iff_ne_none.2 h.1, h.2⟩]

theorem destroyBody_of_inNet {s : SockId} (h : InNet hnet (w.socks s)) :
    destroyBody hnet w s =
      (shutdownUnlink w s).map fun w => (homaSockDestroy w s, [.shutdown s, .destroy s]) := by
  refine if_neg fun ⟨h1, h2⟩ => ?_
  rcases h with rfl | h
  · exact Bool.false_ne_true h1
  · exact h2 h

theorem DestroyInv.start : DestroyInv hnet w₀ w₀ ⟨none, -1⟩ :=
  ⟨fun _ h => h, fun _ _ => by simp, fun _ h h' => absurd h h'⟩

/-- A call of `homa_socktab_next` moves the scan's reference and nothing else. -/
theorem DestroyInv.next {scan : Scan} (hi : DestroyInv hnet w₀ w scan) :
    DestroyInv hnet w₀ (homaSocktabNext cfg w scan).2.2 (homaSocktabNext cfg w scan).2.1 := by
  have hl : ∀ s, (homaSocktabNext cfg w scan).2.2.Linked s ↔ w.Linked s := fun s => by
    simp [World.Linked]
  refine ⟨fun s h => hi.linked s ((hl s).1 h), fun s h => ?_, fun s h0 h => ?_⟩
  · exact homaSocktabNext_held (hi.socks s (by rwa [hl] at h))
  · rw [homaSocktabNext_socks]
    exact hi.shutdown s h0 (by rwa [hl] at h)

/-- Shutting down and destroying the socket the scan holds takes it off the table and marks it
shut down, and changes no other socket. -/
theorem DestroyInv.teardown {scan : Scan} {s : SockId} {w' : World} {B : Nat → List SockId}
    {b : Nat} (hi : DestroyInv hnet w₀ w scan) (hin : InNet hnet (w₀.socks s))
    (hr : Rep w.tab cfg.buckets B) (hb : s ∈ B b) (hd : w.tab.delRcu s = some w'.tab)
    (hsock : ∀ s' ≠ s, w'.socks s' = w.socks s') (hsd : (w'.socks s).shutdown = true) :
    DestroyInv hnet w₀ w' scan := by
  have hl : ∀ s', w'.Linked s' ↔ s' ≠ s ∧ w.Linked s' := hr.hashed_delRcu hb hd
  refine ⟨fun s' h => hi.linked s' ((hl s').1 h).2, fun s' h => ?_, fun s' h0 h => ?_⟩
  · have e : s' ≠ s := by
      rintro rfl
      rcases h with h | h
      · exact ((hl s').1 h).1 rfl
      · exact h hin
    rw [hsock s' e]
    exact hi.socks s' (h.imp (fun h => ((hl s').1 h).2) id)
  · by_cases e : s' = s
    · exact e ▸ hsd
    · rw [hsock s' e]
      exact hi.shutdown s' h0 fun h' => h ((hl s').2 ⟨e, h'⟩)

variable (cfg) in
/-- The loop's body does what `scanLoop` asks, on a table that keeps the socket-table invariant
and whose initialised sockets have `hsk->homa` set: it tears down exactly the sockets of `hnet`. -/
theorem destroyBody_loopBody {R : SockId → Option Int} (hinv : SocktabInv cfg w₀ R)
    (hhoma : ∀ s, R s = some 0 → (w₀.socks s).homa = true) :
    LoopBody cfg (destroyBody hnet) (fun s => decide (InNet hnet (w₀.socks s)))
      (destroyCalls hnet w₀) (DestroyInv hnet w₀) := by
  refine ⟨fun w scan s B hr ⟨b, hb⟩ _ hi => ?_, fun _ _ hi => hi.next⟩
  have hs := hi.socks s (.inl ((hr.hashed_iff s).2 ⟨b, hb⟩))
  have hnet_eq : (w.socks s).hnet = (w₀.socks s).hnet := by rw [hs]
  by_cases hin : InNet hnet (w₀.socks s)
  · obtain ⟨hR, hsd⟩ := (hinv.linked_iff s).1 (hi.linked s ((hr.hashed_iff s).2 ⟨b, hb⟩))
    obtain ⟨t, hd, -⟩ := hr.delRcu hb
    have hu := shutdownUnlink_live (by rw [hs]; exact hsd) (by rw [hs]; exact hhoma s hR) hd
    refine ⟨_, by rw [destroyBody_of_inNet (by rwa [InNet, hnet_eq]), hu, Option.map_some',
      destroyCalls, if_pos hin],
      hi.teardown hin hr hb (by simpa using hd) (fun s' hs' => ?_) (by simp), by simp [hin, hd]⟩
    rw [homaSockDestroy_socks_of_ne hs']
    exact World.setSock_socks_of_ne w (fun k => { k with shutdown := true }) hs'
  · exact ⟨w, by rw [destroyBody_of_not_inNet (by rwa [InNet, hnet_eq])]; simp [destroyCalls, hin],
      hi, by simp [hin]⟩

/-- Over a list of distinct sockets, the loop shuts down and destroys once each socket of the list
that is in the namespace, and no other. -/
theorem count_destroyCalls {L : List SockId} (hnd : L.Nodup) (s : SockId) :
    (L.flatMap (destroyCalls hnet w₀)).count (.shutdown s) =
        (if s ∈ L ∧ InNet hnet (w₀.socks s) then 1 else 0) ∧
      (L.flatMap (destroyCalls hnet w₀)).count (.destroy s) =
        (if s ∈ L ∧ InNet hnet (w₀.socks s) then 1 else 0) := by
  induction L with
  | nil => simp
  | cons x L ih =>
    obtain ⟨hx, hnd⟩ := List.nodup_cons.1 hnd
    obtain ⟨ih1, ih2⟩ := ih hnd
    rw [List.flatMap_cons, List.count_append, List.count_append, ih1, ih2]
    by_cases e : x = s
    · subst e
      by_cases hin : InNet hnet (w₀.socks x) <;> simp [destroyCalls, hx, hin]
    · by_cases hin : InNet hnet (w₀.socks x) <;> simp [destroyCalls, hin, e, Ne.symm e]

/-- `homa_socktab_destroy` on a table that keeps the socket-table invariant and whose initialised
sockets have `hsk->homa` set, for any `hnet`, returns. It passes each socket of the table that is in
`hnet` (each socket when `hnet` is NULL) to `homa_sock_shutdown` and then to `homa_sock_destroy`,
once each and in scan order, and no other socket. Those sockets end off the table and shut down;
every other socket is still on its bucket, in its place there, and unchanged. -/
theorem homaSocktabDestroy_spec {w : World} {R : SockId → Option Int} (hinv : SocktabInv cfg w R)
    (hhoma : ∀ s, R s = some 0 → (w.socks s).homa = true) (hnet : Option NetId) :
    ∃ B : Nat → List SockId, (∀ b < cfg.buckets, Chain w.tab (.head b) (B b)) ∧
      ∃ ev w', homaSocktabDestroy cfg w hnet = some (ev, w') ∧
        ev = ((List.range cfg.buckets).flatMap B).flatMap (destroyCalls hnet w) ∧
        (∀ s, ev.count (.shutdown s) = (if w.Linked s ∧ InNet hnet (w.socks s) then 1 else 0) ∧
          ev.count (.destroy s) = (if w.Linked s ∧ InNet hnet (w.socks s) then 1 else 0)) ∧
        (∀ s, w.Linked s → InNet hnet (w.socks s) → ¬w'.Linked s ∧ (w'.socks s).shutdown = true) ∧
        (∀ s, w.Linked s → ¬InNet hnet (w.socks s) → w'.Linked s ∧ w'.socks s = w.socks s) ∧
        ∀ b < cfg.buckets, Chain w'.tab (.head b) ((B b).filter fun s => ¬InNet hnet (w.socks s)) := by
  obtain ⟨B, hok⟩ := hinv.ok
  have hmem : ∀ s, s ∈ (List.range cfg.buckets).flatMap B ↔ w.Linked s := hok.rep.mem_flatMap_iff
  obtain ⟨scan', w', hrun, hi, hh, -, hr'⟩ := scanRun_spec (destroyBody_loopBody cfg hinv hhoma)
    hok.rep DestroyInv.start (bucketsFrom_zero ▸ hok.length_le_count)
  rw [bucketsFrom_zero] at hrun hr'
  have hfinal : without B (((List.range cfg.buckets).flatMap B).filter fun s =>
      decide (InNet hnet (w.socks s))) = fun b => (B b).filter fun s => ¬InNet hnet (w.socks s) :=
    funext fun b => List.filter_congr fun s hs => by
      simp [List.mem_flatMap.2 ⟨b, List.mem_range.2 (hok.rep.lt_of_mem hs), hs⟩]
  rw [hfinal] at hr'
  refine ⟨B, hok.rep.chain, _, w', by simp [homaSocktabDestroy, hrun, homaSocktabEndScan, hh], rfl,
    fun s => by simpa only [hmem] using count_destroyCalls hok.rep.nodup_flatMap s,
    fun s hl hin => ?_, fun s hl hin => ?_, hr'.chain⟩
  · have hl' : ¬w'.Linked s := fun hl' => by
      obtain ⟨b, hb⟩ := (hr'.hashed_iff s).1 hl'
      simp [hin] at hb
    exact ⟨hl', hi.shutdown s hl hl'⟩
  · obtain ⟨b, hb⟩ := (hok.linked_iff s).1 hl
    refine ⟨(hr'.hashed_iff s).2 ⟨b, by simp [hb, hin]⟩, ?_⟩
    rw [hi.socks s (.inr hin), hh]
    simp

/-- The three sockets of `reachable_three`, two in namespace 0 and one in namespace 1: tearing down
namespace 0 shuts sockets 0 and 2 down once each and takes them off the table, and leaves socket 1
on the table as it was. -/
theorem homaSocktabDestroy_spec_three :
    ∃ w R, SocktabInv Config.sample w R ∧ (∀ s, R s = some 0 → (w.socks s).homa = true) ∧
      ∃ ev w', homaSocktabDestroy Config.sample w (some 0) = some (ev, w') ∧
        ev.count (.shutdown 0) = 1 ∧ ev.count (.shutdown 2) = 1 ∧ ev.count (.shutdown 1) = 0 ∧
        ¬w'.Linked 0 ∧ ¬w'.Linked 2 ∧ w'.Linked 1 ∧ w'.socks 1 = w.socks 1 := by
  obtain ⟨w, R, hr, -, hR, hsd, hn0, -, hn1, -, hn2, -⟩ := reachable_three
  have hi := RunInv.of_reachable hr
  have hl : ∀ s : Nat, s < 3 → w.Linked s := fun s hs =>
    (hi.socktab.linked_iff s).2 ⟨(hR s).2 hs, hsd s hs⟩
  obtain ⟨B, -, ev, w', hd, -, hcount, hgone, hkeep, -⟩ :=
    homaSocktabDestroy_spec hi.socktab (fun s h => (hi.homa_iff s).2 h) (some 0)
  have hin0 : InNet (some 0) (w.socks 0) := .inr hn0.symm
  have hin2 : InNet (some 0) (w.socks 2) := .inr hn2.symm
  have hout1 : ¬InNet (some 0) (w.socks 1) := by simp [InNet, hn1]
  exact ⟨w, R, hi.socktab, fun s h => (hi.homa_iff s).2 h, ev, w', hd,
    by simp [(hcount 0).1, hl 0 (by decide), hin0], by simp [(hcount 2).1, hl 2 (by decide), hin2],
    by simp [(hcount 1).1, hout1], (hgone 0 (hl 0 (by decide)) hin0).1,
    (hgone 2 (hl 2 (by decide)) hin2).1, (hkeep 1 (hl 1 (by decide)) hout1).1,
    (hkeep 1 (hl 1 (by decide)) hout1).2⟩

end Homa
