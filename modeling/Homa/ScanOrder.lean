import Homa.Run

/-!
# What a scan returns

On a table that holds bucket lists `B` and that nothing else changes, a scan returns the sockets of
bucket 0, then of bucket 1, and so on, each bucket in list order (`bucketsFrom`). Between calls the
scan's state says what it has still to return (`Pending`): holding no socket, the buckets after
`current_bucket`; holding one, the rest of its bucket, which its `next` link leads to. A call
returns the head of that list (`homaSocktabNext_spec`).

A caller may unlink the socket it was just given before it asks for the next one: `hlist_del_rcu`
keeps the socket's `next` link, which still leads to the rest of the bucket (`Returned.delRcu`).
`scanLoop` is a caller's loop with its body as a parameter, and `scanRun_spec` says what a whole
run returns and leaves, for every body that leaves the table alone or unlinks the socket it is
given (`LoopBody`). A scan whose caller does nothing with the sockets, or unlinks each, returns
every linked socket exactly once, in bucket order, and then NULL (`socktab_scan_in_order`).
-/

namespace Homa

/-- The sockets of buckets `b` to `N - 1`, bucket by bucket and each bucket in list order. -/
def bucketsFrom (B : Nat → List SockId) (N b : Nat) : List SockId :=
  (List.range' b (N - b)).flatMap B

/-- The bucket lists `B` less the sockets `D`. -/
def without (B : Nat → List SockId) (D : List SockId) (b : Nat) : List SockId :=
  (B b).filter fun s => s ∉ D

section buckets

variable {B B' : Nat → List SockId} {N b : Nat}

theorem bucketsFrom_of_le (h : N ≤ b) : bucketsFrom B N b = [] := by
  simp [bucketsFrom, Nat.sub_eq_zero_of_le h]

theorem bucketsFrom_of_lt (h : b < N) : bucketsFrom B N b = B b ++ bucketsFrom B N (b + 1) := by
  obtain ⟨d, hd⟩ : ∃ d, N - b = d + 1 := ⟨N - b - 1, by omega⟩
  rw [bucketsFrom, hd, List.range'_succ, List.flatMap_cons, bucketsFrom,
    show N - (b + 1) = d by omega]

theorem bucketsFrom_zero : bucketsFrom B N 0 = (List.range N).flatMap B := by
  rw [bucketsFrom, List.range_eq_range', Nat.sub_zero]

/-- Only the buckets from `b` on matter. -/
theorem bucketsFrom_congr (h : ∀ b', b < b' + 1 → B' b' = B b') :
    bucketsFrom B' N b = bucketsFrom B N b :=
  List.flatMap_congr fun b' hb' => h b' (by simp at hb'; omega)

theorem without_nil : without B [] = B := funext fun b => by simp [without]

theorem without_congr {D D' : List SockId} (h : ∀ s, s ∈ D ↔ s ∈ D') : without B D = without B D' :=
  funext fun b => by simp [without, h]

end buckets

section rep

variable {tab : Hlist} {N : Nat} {B : Nat → List SockId}

/-- No socket is twice in the buckets of a table. -/
theorem Rep.nodup_flatMap (hr : Rep tab N B) : ((List.range N).flatMap B).Nodup :=
  List.nodup_flatMap.2 ⟨fun b hb => (hr.chain b (List.mem_range.1 hb)).nodup,
    (List.nodup_range N).pairwise_of_forall_ne fun _ _ _ _ hne _ h₁ h₂ =>
      hne (hr.disjoint _ _ _ h₁ h₂)⟩

theorem Rep.mem_flatMap_iff (hr : Rep tab N B) (s : SockId) :
    s ∈ (List.range N).flatMap B ↔ (tab.node s).pprev ≠ none := by
  rw [hr.hashed_iff]
  exact ⟨fun h => by obtain ⟨b, -, hb⟩ := List.mem_flatMap.1 h; exact ⟨b, hb⟩,
    fun ⟨b, hb⟩ => List.mem_flatMap.2 ⟨b, List.mem_range.2 (hr.lt_of_mem hb), hb⟩⟩

/-- Unlinking socket `x` of bucket `b` from the table holding `without B D` leaves
`without B (x :: D)`. -/
theorem without_cons {D : List SockId} {x b : Nat} (hr : Rep tab N (without B D))
    (hx : x ∈ without B D b) :
    Function.update (without B D) b ((without B D b).erase x) = without B (x :: D) := by
  have hxD : x ∉ D := by simpa [without] using (List.mem_filter.1 hx).2
  funext b'
  by_cases e : b' = b
  · subst e
    rw [Function.update_same, (hr.chain b' (hr.lt_of_mem hx)).nodup.erase_eq_filter, without,
      without, List.filter_filter]
    exact List.filter_congr fun s _ => by by_cases h : s = x <;> simp [h]
  · rw [Function.update_noteq e]
    refine List.filter_congr fun s hs => ?_
    have hsx : s ≠ x := by
      rintro rfl
      exact e (hr.disjoint _ _ s (List.mem_filter.2 ⟨hs, by simpa using hxD⟩) hx)
    simp [hsx]

end rep

/-! ### One call -/

/-- What a scan still has to return, from its state between calls, on a table that holds bucket
lists `B`: holding no socket, the buckets after `current_bucket`; holding one, the part of bucket
`current_bucket` that its `next` link leads to, then the buckets after it. -/
def Pending (tab : Hlist) (N : Nat) (B : Nat → List SockId) (scan : Scan) (L : List SockId) :
    Prop :=
  match scan.hsk with
  | none => L = bucketsFrom B N (scan.currentBucket + 1).toNat
  | some s => ∃ b : Nat, ∃ M, scan.currentBucket = b ∧ b < N ∧ M <:+ B b ∧ (tab.node s).next = M.head? ∧
      L = M ++ bucketsFrom B N (b + 1)

/-- A scan that has just returned `x`, with `L` still to come: `x` is on bucket `current_bucket`,
and `L` is what follows it there, then the buckets after it. -/
def Returned (N : Nat) (B : Nat → List SockId) (scan : Scan) (x : SockId) (L : List SockId) :
    Prop :=
  scan.hsk = some x ∧ ∃ b : Nat, ∃ A M, scan.currentBucket = b ∧ b < N ∧ B b = A ++ x :: M ∧
    L = M ++ bucketsFrom B N (b + 1)

/-- What a call returns with `L` still to come: NULL, holding nothing and past the last bucket,
when `L` is empty, and otherwise the head of `L`, with its tail still to come. -/
def NextSpec (N : Nat) (B : Nat → List SockId) (r : Option SockId × Scan × World) :
    List SockId → Prop
  | [] => r.1 = none ∧ r.2.1.hsk = none ∧ (N : Int) ≤ r.2.1.currentBucket
  | x :: L => r.1 = some x ∧ Returned N B r.2.1 x L

section next

variable {cfg : Config} {w : World} {tab tab' : Hlist} {N : Nat} {B : Nat → List SockId}
  {scan : Scan} {x : SockId} {L : List SockId}

/-- The bucket loop from bucket `b` stops at the first socket of the buckets from `b` on, or past
the last bucket when they are all empty. -/
theorem bucketLoop_spec (hr : Rep w.tab N B) (b : Nat) :
    (bucketsFrom B N b = [] ∧ ∃ b', N ≤ b' ∧ bucketLoop w b (N - b) = (b', none)) ∨
    ∃ b' x M, b' < N ∧ B b' = x :: M ∧ bucketLoop w b (N - b) = (b', some x) ∧
      bucketsFrom B N b = x :: (M ++ bucketsFrom B N (b' + 1)) := by
  obtain ⟨d, hd⟩ : ∃ d, N - b = d := ⟨_, rfl⟩
  rw [hd]
  induction d generalizing b with
  | zero => exact .inl ⟨bucketsFrom_of_le (by omega), b, by omega, rfl⟩
  | succ d ih =>
    have hb : b < N := by omega
    have hfirst : w.tab.first b = (B b).head? := (hr.chain b hb).load_eq
    rw [bucketsFrom_of_lt hb]
    cases e : B b with
    | nil => simpa [bucketLoop, hfirst, e] using ih (b + 1) (by omega)
    | cons x M => exact .inr ⟨b, x, M, hb, e, by simp [bucketLoop, hfirst, e], rfl⟩

theorem nextBucket_spec (hr : Rep w.tab cfg.buckets B) (scan : Scan) :
    NextSpec cfg.buckets B (nextBucket cfg w scan)
      (bucketsFrom B cfg.buckets (scan.currentBucket + 1).toNat) := by
  unfold Homa.nextBucket
  rcases bucketLoop_spec hr (scan.currentBucket + 1).toNat with
    ⟨he, b', hb', hl⟩ | ⟨b', x, M, hb', hB, hl, he⟩
  · simp only [hl, he, NextSpec, true_and]
    omega
  · simp only [hl, he, NextSpec, true_and]
    exact ⟨rfl, b', [], M, rfl, hb', hB, rfl⟩

/-- One call of `homa_socktab_next` returns the head of what is still to come. -/
theorem homaSocktabNext_spec (hr : Rep w.tab cfg.buckets B)
    (hp : Pending w.tab cfg.buckets B scan L) :
    NextSpec cfg.buckets B (homaSocktabNext cfg w scan) L := by
  unfold Pending at hp
  unfold homaSocktabNext
  split
  · next s hs =>
    rw [hs] at hp
    obtain ⟨b, M, hc, hb, ⟨A, hA⟩, hn, rfl⟩ := hp
    dsimp only
    rw [World.sockPut_tab, hn]
    cases M with
    | nil =>
      have := nextBucket_spec (w := w.sockPut s) hr scan
      rwa [hc, show ((b : Int) + 1).toNat = b + 1 by omega] at this
    | cons m M => exact ⟨rfl, rfl, b, A, M, hc, hb, hA.symm, rfl⟩
  · next hs =>
    rw [hs] at hp
    exact hp ▸ nextBucket_spec hr scan

/-- Past the last bucket and holding nothing, a scan returns NULL, whatever the table. -/
theorem homaSocktabNext_past_end (hh : scan.hsk = none)
    (hc : (cfg.buckets : Int) ≤ scan.currentBucket) : (homaSocktabNext cfg w scan).1 = none := by
  simp only [homaSocktabNext, hh, Homa.nextBucket]
  rw [show cfg.buckets - (scan.currentBucket + 1).toNat = 0 by omega]
  rfl

theorem Returned.mem (h : Returned N B scan x L) : ∃ b, x ∈ B b := by
  obtain ⟨-, b, A, M, -, -, hB, -⟩ := h
  exact ⟨b, by simp [hB]⟩

/-- On a table left alone, the socket just returned leads to the rest. -/
theorem Returned.pending (hr : Rep tab N B) (h : Returned N B scan x L) :
    Pending tab N B scan L := by
  obtain ⟨hh, b, A, M, hc, hb, hB, rfl⟩ := h
  simp only [Pending, hh]
  exact ⟨b, M, hc, hb, ⟨A ++ [x], by simp [hB]⟩, (hB ▸ hr.chain b hb).suffix.load_eq, rfl⟩

/-- Unlinking the socket just returned leaves the rest to come: `hlist_del_rcu` keeps the
socket's `next` link. -/
theorem Returned.delRcu {D : List SockId} (hr : Rep tab N (without B D))
    (h : Returned N (without B D) scan x L) (hd : tab.delRcu x = some tab') :
    Rep tab' N (without B (x :: D)) ∧ Pending tab' N (without B (x :: D)) scan L := by
  obtain ⟨hh, b, A, M, hc, hb, hB, rfl⟩ := h
  have hx : x ∈ without B D b := by simp [hB]
  obtain ⟨h', hd', hr', hnext⟩ := hr.delRcu hx
  obtain rfl : h' = tab' := Option.some.inj (hd'.symm.trans hd)
  have hchain := hB ▸ hr.chain b hb
  have hxA : x ∉ A := fun hA => (List.nodup_append.1 hchain.nodup).2.2 hA (List.mem_cons_self x M)
  have hB' : without B (x :: D) b = A ++ M := by
    rw [← without_cons hr hx, Function.update_same, hB, List.erase_append_right _ hxA,
      List.erase_cons_head]
  refine ⟨without_cons hr hx ▸ hr', ?_⟩
  simp only [Pending, hh]
  refine ⟨b, M, hc, hb, hB' ▸ List.suffix_append A M, hnext.trans hchain.suffix.load_eq, ?_⟩
  rw [bucketsFrom_congr fun b' hb' => ?_]
  rw [← without_cons hr hx, Function.update_noteq (by omega)]

end next

/-! ### A caller's loop -/

variable (cfg : Config)

/-- A caller's loop over a scan, the loop of `homa_socktab_destroy`: on the socket `cur` that the
last call returned, run `body`, which returns the world and what it did, then call
`homa_socktab_next`; stop at NULL, or after `fuel` sockets. The sockets returned, what the body
did to them in order, and the scan and the world at the end. -/
def scanLoop {E : Type} (body : World → SockId → Option (World × List E)) :
    Nat → World → Scan → Option SockId → Option (List SockId × List E × Scan × World)
  | _, w, scan, none => some ([], [], scan, w)
  | 0, _, _, some _ => none
  | fuel + 1, w, scan, some s =>
    match body w s with
    | none => none
    | some (w, ev) =>
      let r := homaSocktabNext cfg w scan
      (scanLoop body fuel r.2.2 r.2.1 r.1).map fun r => (s :: r.1, ev ++ r.2.1, r.2.2)

/-- `homa_socktab_start_scan`, then `scanLoop` from the socket it returns. -/
def scanRun {E : Type} (body : World → SockId → Option (World × List E)) (fuel : Nat)
    (w : World) : Option (List SockId × List E × Scan × World) :=
  let r := homaSocktabStartScan cfg w
  scanLoop cfg body fuel r.2.2 r.2.1 r.1

/-- What `scanLoop` asks of its body. Given a socket `s` on a table that holds bucket lists `B'`,
held by the scan, with `Inv` true, the body succeeds with the events `evs s`, keeps `Inv`, and
unlinks `s` when `del s` and leaves the table alone otherwise. `homa_socktab_next` keeps `Inv`. -/
structure LoopBody {E : Type} (body : World → SockId → Option (World × List E))
    (del : SockId → Bool) (evs : SockId → List E) (Inv : World → Scan → Prop) : Prop where
  body : ∀ w scan s (B' : Nat → List SockId), Rep w.tab cfg.buckets B' → (∃ b, s ∈ B' b) →
    scan.hsk = some s → Inv w scan →
    ∃ w', body w s = some (w', evs s) ∧ Inv w' scan ∧
      if del s then w.tab.delRcu s = some w'.tab else w'.tab = w.tab
  next : ∀ w scan, Inv w scan → Inv (homaSocktabNext cfg w scan).2.2 (homaSocktabNext cfg w scan).2.1

section loop

variable {cfg} {E : Type} {body : World → SockId → Option (World × List E)} {del : SockId → Bool}
  {evs : SockId → List E} {Inv : World → Scan → Prop} {B : Nat → List SockId} {w : World}

/-- The body's step: after it, the table holds `without B D₁`, where `D₁` adds the socket when
the body unlinks it, and the rest is still to come. -/
theorem LoopBody.step (hb : LoopBody cfg body del evs Inv) {D L : List SockId} {scan : Scan}
    {x : SockId} (hr : Rep w.tab cfg.buckets (without B D))
    (hret : Returned cfg.buckets (without B D) scan x L) (hinv : Inv w scan) :
    ∃ w₁ D₁, body w x = some (w₁, evs x) ∧ Inv w₁ scan ∧
      (∀ s, s ∈ D₁ ↔ s ∈ D ++ [x].filter del) ∧ Rep w₁.tab cfg.buckets (without B D₁) ∧
      Pending w₁.tab cfg.buckets (without B D₁) scan L := by
  obtain ⟨w₁, hbody, hinv₁, htab⟩ := hb.body w scan x _ hr hret.mem hret.1 hinv
  refine ⟨w₁, ?_⟩
  cases hdel : del x
  · rw [hdel, if_neg Bool.false_ne_true] at htab
    exact ⟨D, hbody, hinv₁, by simp [hdel], htab ▸ hr, htab ▸ hret.pending hr⟩
  · rw [hdel, if_pos rfl] at htab
    exact ⟨x :: D, hbody, hinv₁, by simp [hdel, or_comm], hret.delRcu hr htab⟩

/-- From a socket just returned, with enough fuel, the loop returns it and every socket still to
come, runs the body on each in order, and ends holding nothing, past the last bucket, with the
sockets `del` picks unlinked. -/
theorem scanLoop_spec (hb : LoopBody cfg body del evs Inv) :
    ∀ fuel (D L : List SockId) (w : World) (scan : Scan) (x : SockId),
      Rep w.tab cfg.buckets (without B D) → Returned cfg.buckets (without B D) scan x L →
      Inv w scan → L.length < fuel →
      ∃ scan' w', scanLoop cfg body fuel w scan (some x) =
          some (x :: L, (x :: L).flatMap evs, scan', w') ∧ Inv w' scan' ∧
        scan'.hsk = none ∧ (cfg.buckets : Int) ≤ scan'.currentBucket ∧
        Rep w'.tab cfg.buckets (without B (D ++ (x :: L).filter del)) := by
  intro fuel
  induction fuel with
  | zero => intros; omega
  | succ fuel ih =>
    intro D L w scan x hr hret hinv hlen
    obtain ⟨w₁, D₁, hbody, hinv₁, hD₁, hr₁, hp₁⟩ := hb.step hr hret hinv
    have hnext := homaSocktabNext_spec hr₁ hp₁
    have hinv₂ := hb.next _ _ hinv₁
    simp only [scanLoop, hbody]
    cases L with
    | nil =>
      obtain ⟨h1, h2, h3⟩ := hnext
      refine ⟨_, _, by simp [h1, scanLoop], hinv₂, h2, h3, ?_⟩
      rw [homaSocktabNext_tab, without_congr fun s => (hD₁ s).symm]
      exact hr₁
    | cons y L =>
      obtain ⟨h1, h2⟩ := hnext
      obtain ⟨scan', w', hrun, hinv', hh', hc', hr'⟩ :=
        ih D₁ L _ _ y (by rwa [homaSocktabNext_tab]) h2 hinv₂ (by simp at hlen; omega)
      refine ⟨scan', w', by simp [h1, hrun], hinv', hh', hc', ?_⟩
      rwa [@without_congr B _ (D₁ ++ (y :: L).filter del) fun s => ?_]
      simp only [List.mem_append, hD₁ s, List.mem_filter, List.mem_cons, List.not_mem_nil,
        false_and, false_or, or_and_right, or_assoc]

/-- A whole run on a table that holds bucket lists `B`, with enough fuel: the scan returns
`bucketsFrom B N 0`, the body runs on each socket in that order, and the run ends holding nothing,
past the last bucket, with the sockets `del` picks unlinked. -/
theorem scanRun_spec (hb : LoopBody cfg body del evs Inv) (hr : Rep w.tab cfg.buckets B)
    (hinv : Inv w ⟨none, -1⟩) {fuel : Nat}
    (hfuel : (bucketsFrom B cfg.buckets 0).length ≤ fuel) :
    ∃ scan' w', scanRun cfg body fuel w = some (bucketsFrom B cfg.buckets 0,
        (bucketsFrom B cfg.buckets 0).flatMap evs, scan', w') ∧ Inv w' scan' ∧
      scan'.hsk = none ∧ (cfg.buckets : Int) ≤ scan'.currentBucket ∧
      Rep w'.tab cfg.buckets (without B ((bucketsFrom B cfg.buckets 0).filter del)) := by
  have hnext : NextSpec cfg.buckets B (homaSocktabNext cfg w ⟨none, -1⟩)
      (bucketsFrom B cfg.buckets 0) := homaSocktabNext_spec hr rfl
  have hinv₁ := hb.next _ _ hinv
  unfold scanRun homaSocktabStartScan
  generalize bucketsFrom B cfg.buckets 0 = L at hnext hfuel ⊢
  cases L with
  | nil =>
    obtain ⟨h1, h2, h3⟩ := hnext
    exact ⟨_, _, by simp [h1, scanLoop], hinv₁, h2, h3, by simpa [without_nil] using hr⟩
  | cons x L =>
    obtain ⟨h1, h2⟩ := hnext
    rw [← without_nil (B := B)] at hr h2
    obtain ⟨scan', w', hrun, hrest⟩ :=
      scanLoop_spec hb fuel [] L _ _ x (by simpa using hr) h2 hinv₁ (by simp at hfuel; omega)
    exact ⟨scan', w', by dsimp only; rw [h1, hrun], by simpa using hrest⟩

end loop

/-! ### Scanning the whole table -/

/-- The body of a caller that does nothing with the sockets a scan returns (`unlink = false`), or
unlinks each with `homa_sock_unlink` before the next call (`unlink = true`). -/
def unlinkBody (unlink : Bool) (w : World) (s : SockId) : Option (World × List Unit) :=
  if unlink then (homaSockUnlink w s).map fun w => (w, []) else some (w, [])

theorem unlinkBody_loopBody (unlink : Bool) :
    LoopBody cfg (unlinkBody unlink) (fun _ => unlink) (fun _ => []) fun _ _ => True := by
  refine ⟨fun w _ s _ hr ⟨b, hb⟩ _ _ => ?_, fun _ _ _ => trivial⟩
  cases unlink
  · exact ⟨w, rfl, trivial, rfl⟩
  · obtain ⟨h', hd, -⟩ := hr.delRcu hb
    exact ⟨{ w with tab := h' }, by simp [unlinkBody, homaSockUnlink, hd], trivial, hd⟩

variable {cfg}

/-- The sockets of a well-formed table are below `count`, so `count` is enough fuel. -/
theorem TableOk.length_le_count {w : World} {B : Nat → List SockId} (hok : TableOk cfg w B) :
    ((List.range cfg.buckets).flatMap B).length ≤ w.count := by
  have hsub : (List.range cfg.buckets).flatMap B ⊆ List.range w.count := fun s hs => by
    obtain ⟨b, -, hb⟩ := List.mem_flatMap.1 hs
    exact List.mem_range.2 (hok.lt_count b s hb)
  simpa using (hok.rep.nodup_flatMap.subperm hsub).length_le

/-- On a table that keeps the socket-table invariant and that nothing else changes, a scan returns
the linked sockets, from bucket 0 to the last and each bucket in list order, each exactly once, and
then NULL; and so it does when the caller unlinks each socket it gets before the next call. -/
theorem socktab_scan_in_order {w : World} {R : SockId → Option Int} (hinv : SocktabInv cfg w R)
    (unlink : Bool) :
    ∃ B : Nat → List SockId, (∀ b < cfg.buckets, Chain w.tab (.head b) (B b)) ∧
      ∃ ev scan' w', scanRun cfg (unlinkBody unlink) w.count w =
          some ((List.range cfg.buckets).flatMap B, ev, scan', w') ∧
        ((List.range cfg.buckets).flatMap B).Nodup ∧
        (∀ s, s ∈ (List.range cfg.buckets).flatMap B ↔ w.Linked s) ∧
        (homaSocktabNext cfg w' scan').1 = none := by
  obtain ⟨B, hok⟩ := hinv.ok
  obtain ⟨scan', w', hrun, -, hh, hc, -⟩ := scanRun_spec (unlinkBody_loopBody cfg unlink) hok.rep
    trivial (bucketsFrom_zero ▸ hok.length_le_count)
  rw [bucketsFrom_zero] at hrun
  exact ⟨B, hok.rep.chain, _, scan', w', hrun, hok.rep.nodup_flatMap, hok.rep.mem_flatMap_iff,
    homaSocktabNext_past_end hh hc⟩

/-- The three sockets of `reachable_three`, in buckets 1, 2 and 100 and in two namespaces: the scan
of a caller that unlinks each socket returns each of them once, and then NULL. -/
theorem socktab_scan_in_order_three :
    ∃ w R, SocktabInv Config.sample w R ∧ ∃ L ev scan' w',
      scanRun Config.sample (unlinkBody true) w.count w = some (L, ev, scan', w') ∧
      L.Nodup ∧ 0 ∈ L ∧ 1 ∈ L ∧ 2 ∈ L ∧ (homaSocktabNext Config.sample w' scan').1 = none := by
  obtain ⟨w, R, hr, -, hR, hsd, -⟩ := reachable_three
  have hinv := (RunInv.of_reachable hr).socktab
  have hl : ∀ s : Nat, s < 3 → w.Linked s := fun s hs =>
    (hinv.linked_iff s).2 ⟨(hR s).2 hs, hsd s hs⟩
  obtain ⟨B, -, ev, scan', w', hrun, hnd, hmem, hend⟩ := socktab_scan_in_order hinv true
  exact ⟨w, R, hinv, _, ev, scan', w', hrun, hnd, (hmem 0).2 (hl 0 (by decide)),
    (hmem 1).2 (hl 1 (by decide)), (hmem 2).2 (hl 2 (by decide)), hend⟩

end Homa
