import Homa.Scan

/-!
# Reference counts

`homa_sock_find` takes one reference on the socket it returns (`homaSockFind_socks`). The port loop
of `homa_sock_init` and the owner test of `homa_sock_bind` drop every reference they take, on every
path, so neither changes a reference count (`portLoop_socks`, `homaSockInit_refs`,
`homaSockBind_refs`). Between calls a scan holds one reference, on the socket it returned last
(`ScanHolds`): each call moves it, and `homa_socktab_end_scan` drops it, so a scan started,
advanced any number of times and ended leaves every socket as it was (`socket_refs_balanced`).
-/

namespace Homa

variable {cfg : Config} {w w₀ : World}

/-- `homa_sock_find` takes one reference on the socket it returns, none when it returns NULL, and
changes nothing else of any socket. -/
theorem homaSockFind_socks (hnet : NetId) (port : Nat) (s : SockId) :
    (homaSockFind cfg w hnet port).2.socks s = { w.socks s with
      refs := (w.socks s).refs + if (homaSockFind cfg w hnet port).1 = some s then 1 else 0 } := by
  unfold homaSockFind
  split
  · simp
  · simp [World.sockHold_socks]

/-- The port loop of `homa_sock_init`, on every exit, changes only the namespace's counter: each
`sock_put` matches the reference `homa_sock_find` took. -/
theorem portLoop_socks {hnet : NetId} {start fuel : Nat} {e : PortLoopExit} {w' : World}
    (h : portLoop cfg hnet start fuel w = some (e, w')) : w'.socks = w.socks := by
  obtain ⟨p, rfl, -⟩ := portLoop_result h
  rfl

/-- `homa_sock_init`, on every path, changes no socket's reference count. -/
theorem homaSockInit_refs {hsk : SockId} {pool : Except Int PoolId} {r : Int} {w' : World}
    (h : homaSockInit cfg w hsk pool = some (r, w')) (s : SockId) :
    (w'.socks s).refs = (w.socks s).refs := by
  rcases homaSockInit_cases h with ⟨-, -, -, rfl⟩ | ⟨bp, -, -, rfl⟩ |
    ⟨bp, p, -, -, -, -, -, -, -, -, -, hsocks, hself⟩
  · rfl
  · by_cases e : s = hsk
    · subst e; simp [initPrelude]
    · simp [World.setSock_socks_of_ne _ _ e, initPrelude]
  · by_cases e : s = hsk
    · subst e; rw [hself]
    · rw [hsocks s e]

/-- `homa_sock_bind`, on every path, changes no socket's reference count. -/
theorem homaSockBind_refs {hnet : NetId} {hsk : SockId} {port : Nat} {r : Int} {w' : World}
    (h : homaSockBind cfg w hnet hsk port = some (r, w')) (s : SockId) :
    (w'.socks s).refs = (w.socks s).refs := by
  rcases homaSockBind_cases h with rfl | ⟨-, -, -, -, -, tab, -, rfl⟩
  · rfl
  · by_cases e : s = hsk
    · subst e; simp
    · rw [bindRehash_socks_of_ne e]

/-! ### Scans -/

variable (cfg) in
/-- `homa_socktab_start_scan` followed by `k` calls of `homa_socktab_next`. -/
def scanCalls (w : World) : Nat → Option SockId × Scan × World
  | 0 => homaSocktabStartScan cfg w
  | k + 1 => homaSocktabNext cfg (scanCalls w k).2.2 (scanCalls w k).2.1

/-- Between calls, a scan started on `w₀` holds one reference, on the socket it returned last, and
the sockets are otherwise as in `w₀`. -/
def ScanHolds (w₀ w : World) (scan : Scan) : Prop :=
  ∀ s, w.socks s =
    { w₀.socks s with refs := (w₀.socks s).refs + if scan.hsk = some s then 1 else 0 }

theorem ScanHolds.start : ScanHolds w₀ w₀ ⟨none, -1⟩ := fun s => by simp

theorem ScanHolds.next {scan : Scan} (h : ScanHolds w₀ w scan) :
    ScanHolds w₀ (homaSocktabNext cfg w scan).2.2 (homaSocktabNext cfg w scan).2.1 :=
  fun s => homaSocktabNext_held (h s)

theorem scanCalls_holds : ∀ k, ScanHolds w (scanCalls cfg w k).2.2 (scanCalls cfg w k).2.1
  | 0 => ScanHolds.start.next
  | k + 1 => (scanCalls_holds k).next

/-- `homa_socktab_end_scan` drops the scan's reference. -/
theorem ScanHolds.endScan {scan : Scan} (h : ScanHolds w₀ w scan) :
    (homaSocktabEndScan w scan).2.socks = w₀.socks := funext fun s => by
  unfold homaSocktabEndScan
  split
  · next hsk hh =>
    rw [World.sockPut_socks, h s, hh]
    by_cases e : hsk = s <;> simp [e]
  · next hh => rw [h s, hh]; simp

/-- For every socket-table state: `homa_sock_find` takes exactly one reference on the socket it
returns and none when it returns NULL. The port loop of `homa_sock_init`, and `homa_sock_init` and
`homa_sock_bind` whole, leave every reference count as it was, on every path. Between calls a scan
holds one reference, on `scan->hsk`, and none on any other socket; so a scan started, advanced any
number of times and ended leaves every socket as it was. -/
theorem socket_refs_balanced (w : World) :
    (∀ hnet port s, (homaSockFind cfg w hnet port).2.socks s = { w.socks s with
      refs := (w.socks s).refs + if (homaSockFind cfg w hnet port).1 = some s then 1 else 0 }) ∧
    (∀ hnet start fuel e w', portLoop cfg hnet start fuel w = some (e, w') → w'.socks = w.socks) ∧
    (∀ hsk pool r w', homaSockInit cfg w hsk pool = some (r, w') →
      ∀ s, (w'.socks s).refs = (w.socks s).refs) ∧
    (∀ hnet hsk port r w', homaSockBind cfg w hnet hsk port = some (r, w') →
      ∀ s, (w'.socks s).refs = (w.socks s).refs) ∧
    (∀ k, ScanHolds w (scanCalls cfg w k).2.2 (scanCalls cfg w k).2.1) ∧
    ∀ k, (homaSocktabEndScan (scanCalls cfg w k).2.2 (scanCalls cfg w k).2.1).2.socks = w.socks :=
  ⟨homaSockFind_socks, fun _ _ _ _ _ => portLoop_socks, fun _ _ _ _ => homaSockInit_refs,
    fun _ _ _ _ _ => homaSockBind_refs, scanCalls_holds, fun k => (scanCalls_holds k).endScan⟩

end Homa
