import Homa.Init
import Homa.Bind

/-!
# Scanning the socket table

A scan walks the table without its write lock: `homa_socktab_next` follows the `next` link of the
socket it returned last, on which it holds a reference, and when that link is NULL it moves on to
the first socket of the next nonempty bucket. The link it follows is the socket's link at the time
of the call, so the walk goes wherever the table has moved that socket since.

A scan touches only reference counts, so it keeps the socket-table invariant
(`SocktabInv.socktabNext`). It does not keep the promise of `homa_socktab_start_scan` that every
socket present when the scan starts and never removed is returned: if `homa_sock_bind` moves the
socket the scan holds to another bucket, the next call follows the socket's new link, and the
sockets after it on its old bucket are never visited (`socktab_scan_misses_socket`).
-/

namespace Homa

/-- `struct homa_socktab_scan`. -/
structure Scan where
  /-- The socket last returned, on which the scan holds a reference. -/
  hsk : Option SockId
  currentBucket : Int
  deriving DecidableEq, Repr

/-- The `for` loop of `homa_socktab_next` from bucket `b`, for at most `fuel` buckets: the bucket
it stopped at and the first socket found there. -/
def bucketLoop (w : World) (b : Nat) : Nat → Nat × Option SockId
  | 0 => (b, none)
  | fuel + 1 =>
    match w.tab.first b with
    | some s => (b, some s)
    | none => bucketLoop w (b + 1) fuel

variable (cfg : Config)

/-- The `for` loop of `homa_socktab_next` with what follows it: the first socket of the next
nonempty bucket, with a reference taken on it, or NULL past the last bucket. -/
def nextBucket (w : World) (scan : Scan) : Option SockId × Scan × World :=
  let b := (scan.currentBucket + 1).toNat
  match bucketLoop w b (cfg.buckets - b) with
  | (b, some n) => (some n, ⟨some n, b⟩, w.sockHold n)
  | (b, none) => (none, ⟨none, b⟩, w)

/-- `homa_socktab_next`: release the socket the scan holds and return its successor on the table,
or else the first socket of the next nonempty bucket, holding a reference on the result. -/
def homaSocktabNext (w : World) (scan : Scan) : Option SockId × Scan × World :=
  match scan.hsk with
  | some h =>
    let w := w.sockPut h
    match (w.tab.node h).next with
    | some n => (some n, { scan with hsk := some n }, w.sockHold n)
    | none => nextBucket cfg w scan
  | none => nextBucket cfg w scan

/-- `homa_socktab_start_scan`. -/
def homaSocktabStartScan (w : World) : Option SockId × Scan × World :=
  homaSocktabNext cfg w ⟨none, -1⟩

/-- `homa_socktab_end_scan`. -/
def homaSocktabEndScan (w : World) (scan : Scan) : Scan × World :=
  match scan.hsk with
  | some h => ({ scan with hsk := none }, w.sockPut h)
  | none => (scan, w)

variable {cfg} {w : World} {R : SockId → Option Int}

@[simp] theorem nextBucket_count (scan : Scan) : (nextBucket cfg w scan).2.2.count = w.count := by
  unfold Homa.nextBucket; dsimp only; split <;> rfl

@[simp] theorem homaSocktabNext_count (scan : Scan) :
    (homaSocktabNext cfg w scan).2.2.count = w.count := by
  unfold homaSocktabNext; split
  · dsimp only; split
    · rfl
    · exact nextBucket_count _
  · exact nextBucket_count _

@[simp] theorem homaSocktabEndScan_count (scan : Scan) :
    (homaSocktabEndScan w scan).2.count = w.count := by
  unfold homaSocktabEndScan; split <;> rfl

@[simp] theorem nextBucket_tab (scan : Scan) : (nextBucket cfg w scan).2.2.tab = w.tab := by
  unfold Homa.nextBucket; dsimp only; split <;> rfl

@[simp] theorem homaSocktabNext_tab (scan : Scan) : (homaSocktabNext cfg w scan).2.2.tab = w.tab := by
  unfold homaSocktabNext; split
  · dsimp only; split
    · rfl
    · exact nextBucket_tab _
  · exact nextBucket_tab _

theorem nextBucket_hsk (scan : Scan) : (nextBucket cfg w scan).2.1.hsk = (nextBucket cfg w scan).1 := by
  unfold Homa.nextBucket; dsimp only; split <;> rfl

/-- The scan holds the socket a call returns. -/
theorem homaSocktabNext_hsk (scan : Scan) :
    (homaSocktabNext cfg w scan).2.1.hsk = (homaSocktabNext cfg w scan).1 := by
  unfold homaSocktabNext; split
  · dsimp only; split
    · rfl
    · exact nextBucket_hsk _
  · exact nextBucket_hsk _

theorem nextBucket_socks (scan : Scan) (s : SockId) :
    (nextBucket cfg w scan).2.2.socks s = { w.socks s with
      refs := (w.socks s).refs + if (nextBucket cfg w scan).1 = some s then 1 else 0 } := by
  unfold Homa.nextBucket; dsimp only; split
  · simp [World.sockHold_socks]
  · simp

/-- A call releases the socket the scan held, holds the one it returns, and changes no other field
of any socket. -/
theorem homaSocktabNext_socks (scan : Scan) (s : SockId) :
    (homaSocktabNext cfg w scan).2.2.socks s = { w.socks s with
      refs := (w.socks s).refs - (if scan.hsk = some s then 1 else 0) +
        if (homaSocktabNext cfg w scan).1 = some s then 1 else 0 } := by
  unfold homaSocktabNext; split
  · next h hh =>
    dsimp only; split
    · simp [World.sockHold_socks, World.sockPut_socks, hh]
    · rw [nextBucket_socks, World.sockPut_socks]; simp [hh]
  · next hh => rw [nextBucket_socks]; simp [hh]

/-- The reference a scan holds moves with it: a socket that is `k` but for the scan's reference
before a call is `k` but for the scan's reference after it. -/
theorem homaSocktabNext_held {scan : Scan} {s : SockId} {k : Sock}
    (h : w.socks s = { k with refs := k.refs + if scan.hsk = some s then 1 else 0 }) :
    (homaSocktabNext cfg w scan).2.2.socks s =
      { k with refs := k.refs + if (homaSocktabNext cfg w scan).2.1.hsk = some s then 1 else 0 } := by
  rw [homaSocktabNext_socks, h, homaSocktabNext_hsk]
  simp

theorem SocktabInv.nextBucket (hinv : SocktabInv cfg w R) (scan : Scan) :
    SocktabInv cfg (nextBucket cfg w scan).2.2 R := by
  unfold Homa.nextBucket
  dsimp only
  split
  · exact hinv.sockHold _
  · exact hinv

/-- A scan step changes only reference counts. -/
theorem SocktabInv.socktabNext (hinv : SocktabInv cfg w R) (scan : Scan) :
    SocktabInv cfg (homaSocktabNext cfg w scan).2.2 R := by
  unfold homaSocktabNext
  split
  · dsimp only
    split
    · exact (hinv.sockPut _).sockHold _
    · exact (hinv.sockPut _).nextBucket _
  · exact hinv.nextBucket _

theorem SocktabInv.socktabEndScan (hinv : SocktabInv cfg w R) (scan : Scan) :
    SocktabInv cfg (homaSocktabEndScan w scan).2 R := by
  unfold homaSocktabEndScan
  split
  · exact hinv.sockPut _
  · exact hinv

set_option maxRecDepth 4000 in
/-- Sockets `0` and `1` of one namespace get default ports `32769` and `32770`, and socket `1`
binds port `1`, which puts it in front of socket `0` on bucket `1`. A scan starts and returns
socket `1`; socket `1` then binds port `3`, moving to bucket `3`. The scan follows socket `1` to
bucket `3`, returns it again, and ends. Socket `0` was linked with its port all along and is never
returned. -/
theorem socktab_scan_misses_socket :
    ∃ w₂ w₄ w₅ w₆ w₇ w₈ w₉ sc₁ sc₂ sc₃,
      homaSockInit Config.sample ((World.start fun _ => 32768).alloc 0 afInet) 0 (.ok 0) =
        some (0, w₂) ∧
      homaSockInit Config.sample (w₂.alloc 0 afInet) 1 (.ok 1) = some (0, w₄) ∧
      homaSockBind Config.sample w₄ 0 1 1 = some (0, w₅) ∧
      homaSocktabStartScan Config.sample w₅ = (some 1, sc₁, w₆) ∧
      homaSockBind Config.sample w₆ 0 1 3 = some (0, w₇) ∧
      homaSocktabNext Config.sample w₇ sc₁ = (some 1, sc₂, w₈) ∧
      homaSocktabNext Config.sample w₈ sc₂ = (none, sc₃, w₉) ∧
      w₅.Linked 0 ∧ (w₅.socks 0).port = 32769 ∧ w₉.Linked 0 ∧ (w₉.socks 0).port = 32769 :=
  ⟨_, _, _, _, _, _, _, _, _, _, rfl, rfl, rfl, rfl, rfl, rfl, rfl, by decide, rfl, by decide, rfl⟩

end Homa
