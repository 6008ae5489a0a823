import Homa.Run
import Homa.ListHead

/-!
# `homa_sock_shutdown`

After its first socket-lock section (`shutdownUnlink`), `homa_sock_shutdown` walks `active_rpcs`
under `rcu_read_lock` and ends every RPC, then takes the socket lock again, takes every interest off
`interests` and marks it ready. The RPC walk relies on `list_del_rcu` keeping the `next` link of
the RPC just ended: the walk goes on from there, which is where the head now points
(`rpcLoop_spec`).

The wake loop holds the socket lock from its first `list_empty` test to the unlock. The owner of an
interest may call `homa_interest_unlink_shared`, which tests `list_empty` on its interest without
the lock and then takes the lock for `list_del_init`. So the owner's `list_del_init` comes before
the loop or after it, and after it the interest is already linked to itself, so the second
`list_del_init` changes nothing. `WakeStep` interleaves the loop with any number of such owners;
`WakeInv` holds in every state they reach (`WakeInv.of_run`), and the sequential `wakeLoop` is one
of the runs (`wakeLoop_run`).
-/

namespace Homa

/-- The lists `homa_sock_shutdown` empties: `active_rpcs` through every RPC's `active_links`,
`interests` through every interest's `links`, and every interest's `ready`. -/
structure SockLists where
  active : Ring
  interests : Ring
  ready : Nat → Nat

/-- `list_for_each_entry_rcu(rpc, &hsk->active_rpcs, active_links)` with `homa_rpc_end` as its
body, from the node `pos`, for at most `fuel` RPCs. `homa_rpc_end`, which is outside the source,
takes the RPC off the list with `list_del_rcu`. The result is the list after the walk and the RPCs
ended, in order; `none` when the walk runs out of fuel or reaches the poison. -/
def rpcLoop : Nat → Ring → Node → Option (Ring × List Nat)
  | _, r, .head => some (r, [])
  | 0, _, _ => none
  | fuel + 1, r, .elem i =>
    let r := r.listDelRcu (.elem i)
    (rpcLoop fuel r (r.next (.elem i))).map fun (r, ended) => (r, i :: ended)
  | _ + 1, _, .poison => none

/-- The wake loop of `homa_sock_shutdown`, for at most `fuel` interests: while `interests` is not
empty, `list_del_init` of its first interest and `ready = 1`. -/
def wakeLoop : Nat → Ring → (Nat → Nat) → Option (Ring × (Nat → Nat))
  | 0, r, ready => if r.listEmpty .head then some (r, ready) else none
  | fuel + 1, r, ready =>
    if r.listEmpty .head then some (r, ready)
    else match r.next .head with
      | .elem i => wakeLoop fuel (r.listDelInit (.elem i)) (Function.update ready i 1)
      | _ => none

/-- `homa_sock_shutdown(hsk)`, with the socket's lists and loops of at most `fuel` elements: the
world, the lists, and the RPCs passed to `homa_rpc_end`, in order. -/
def homaSockShutdown (w : World) (hsk : SockId) (ls : SockLists) (fuel : Nat) :
    Option (World × SockLists × List Nat) :=
  if (w.socks hsk).shutdown || !(w.socks hsk).homa then some (w, ls, [])
  else do
    let w ← homaSockUnlink (w.setSock hsk fun k => { k with shutdown := true }) hsk
    let (active, ended) ← rpcLoop fuel ls.active (ls.active.next .head)
    let (interests, ready) ← wakeLoop fuel ls.interests ls.ready
    pure (w, ⟨active, interests, ready⟩, ended)

/-! ### The two loops -/

section loops

variable {r : Ring} {L : List Nat}

/-- The RPC walk ends the RPCs of the list, each once and in order, and leaves the list empty.
`list_del_rcu` keeps the `next` of the RPC just ended, and that is where the head now points. -/
theorem rpcLoop_spec : ∀ {L : List Nat} {r : Ring} {fuel : Nat}, r.IsList L → L.length ≤ fuel →
    ∃ r', rpcLoop fuel r (r.next .head) = some (r', L) ∧ r'.IsList []
  | [], r, fuel, h, _ => ⟨r, by rw [h.next_head_nil]; cases fuel <;> rfl, h⟩
  | i :: L, r, fuel + 1, h, hf => by
    have hprev : r.prev (.elem i) = .head := by cases h.1 with | cons _ hv _ => exact hv
    have h' : (r.listDelRcu (.elem i)).IsList L := Ring.IsList.listDelRcu (A := []) h
    -- the walk reads the `next` of the RPC it ended, and the head points there too
    have hnext : (r.listDelRcu (.elem i)).next (.elem i) = (r.listDelRcu (.elem i)).next .head := by
      simp [Ring.listDelRcu, Ring.listDel_next, hprev]
    obtain ⟨r', e, hr'⟩ := rpcLoop_spec h' (Nat.le_of_succ_le_succ hf)
    exact ⟨r', by simp only [rpcLoop, h.next_head_cons, hnext, e, Option.map_some'], hr'⟩

/-- The wake loop takes every interest off the list, linked to itself and ready, and changes no
other interest. -/
theorem wakeLoop_spec : ∀ {L : List Nat} {r : Ring} {ready : Nat → Nat} {fuel : Nat},
    r.IsList L → L.length ≤ fuel →
    ∃ r' ready', wakeLoop fuel r ready = some (r', ready') ∧ r'.IsList [] ∧
      (∀ i ∈ L, ready' i = 1 ∧ r'.SelfLinked (.elem i)) ∧
      ∀ j ∉ L, ready' j = ready j ∧ (r.SelfLinked (.elem j) → r'.SelfLinked (.elem j))
  | [], r, ready, fuel, h, _ => by
    have he : r.listEmpty .head := h.listEmpty_iff.2 rfl
    exact ⟨r, ready, by cases fuel <;> simp [wakeLoop, he], h, by simp, fun _ _ => ⟨rfl, id⟩⟩
  | i :: L, r, ready, fuel + 1, h, hf => by
    have he : ¬r.listEmpty .head := fun he => List.cons_ne_nil _ _ (h.listEmpty_iff.1 he)
    obtain ⟨r', ready', e, hr', hL, hout⟩ :=
      @wakeLoop_spec L _ (Function.update ready i 1) fuel (Ring.IsList.listDelInit (A := []) h)
        (Nat.le_of_succ_le_succ hf)
    have hi : i ∉ L := (List.nodup_cons.1 h.2).1
    refine ⟨r', ready', by simp [wakeLoop, he, h.next_head_cons, e], hr', ?_, ?_⟩
    · intro k hk
      rcases List.mem_cons.1 hk with rfl | hk
      · obtain ⟨hrd, hsl⟩ := hout k hi
        exact ⟨by simpa using hrd, hsl (Ring.selfLinked_listDelInit _ _)⟩
      · exact hL k hk
    · intro j hj
      have hji : j ≠ i := fun e => hj (e ▸ List.mem_cons_self _ _)
      obtain ⟨hrd, hsl⟩ := hout j fun hjL => hj (List.mem_cons_of_mem _ hjL)
      exact ⟨by simpa [hji] using hrd, fun hs =>
        hsl (Ring.IsList.selfLinked_listDelInit (A := []) h hj hs)⟩

end loops

/-! ### The wake section against the owners' unlinks -/

/-- Where `homa_sock_shutdown` is in its last socket-lock section: before taking the lock, in the
wake loop holding it, or past the unlock. -/
inductive WakePc where
  | before
  | waking
  | done
  deriving DecidableEq, Repr

/-- Where the `homa_interest_unlink_shared` of an interest's owner is: before its `list_empty`
test, past the test and waiting for the socket lock, or returned. -/
inductive UnlinkPc where
  | idle
  | locking
  | done
  deriving DecidableEq, Repr

/-- The shutdown's last section and the owners' unlinks. `started` is the list when the shutdown
took the lock; no step reads it. -/
structure WakeState where
  ring : Ring
  ready : Nat → Nat
  pc : WakePc
  owners : Nat → UnlinkPc
  started : List Nat

/-- One atomic step: the shutdown takes the socket lock, runs one iteration of the wake loop, or
finds the list empty and unlocks; an owner tests `list_empty` on its interest without the lock, or,
when the lock is free, takes it and runs `list_del_init`. -/
inductive WakeStep : WakeState → WakeState → Prop
  | lock {s : WakeState} {L : List Nat} (h : s.pc = .before) (hL : s.ring.IsList L) :
      WakeStep s { s with pc := .waking, started := L }
  | wake {s : WakeState} {i : Nat} (h : s.pc = .waking) (he : ¬s.ring.listEmpty .head)
      (hi : s.ring.next .head = .elem i) :
      WakeStep s
        { s with
          ring := s.ring.listDelInit (.elem i)
          ready := Function.update s.ready i 1 }
  | unlock {s : WakeState} (h : s.pc = .waking) (he : s.ring.listEmpty .head) :
      WakeStep s { s with pc := .done }
  | test {s : WakeState} {i : Nat} (h : s.owners i = .idle) :
      WakeStep s
        { s with
          owners := Function.update s.owners i
            (if s.ring.listEmpty (.elem i) then .done else .locking) }
  | unlink {s : WakeState} {i : Nat} (h : s.owners i = .locking) (hfree : s.pc ≠ .waking) :
      WakeStep s
        { s with
          ring := s.ring.listDelInit (.elem i)
          owners := Function.update s.owners i .done }

/-- What holds in every state of the section: the interests form a list and every other interest is
linked to itself; in the loop the list is what is left of `started`, whose other interests are
ready; after it the list is empty and every interest of `started` is ready. -/
def WakeInv (s : WakeState) : Prop :=
  ∃ M, s.ring.IsList M ∧ (∀ j ∉ M, s.ring.SelfLinked (.elem j)) ∧
    match s.pc with
    | .before => True
    | .waking => List.IsSuffix M s.started ∧ ∀ i ∈ s.started, i ∉ M → s.ready i = 1
    | .done => M = [] ∧ ∀ i ∈ s.started, s.ready i = 1

/-- `list_del_init` by an owner while the lock is free keeps the interests a list with the others
linked to themselves, whether its interest is still on the list or not. -/
private theorem unlink_keeps {r : Ring} {M : List Nat} (hM : r.IsList M)
    (hs : ∀ j ∉ M, r.SelfLinked (.elem j)) (i : Nat) :
    ∃ M', List.Sublist M' M ∧ (r.listDelInit (.elem i)).IsList M' ∧
      ∀ j ∉ M', (r.listDelInit (.elem i)).SelfLinked (.elem j) := by
  by_cases hi : i ∈ M
  · obtain ⟨A, B, rfl⟩ := List.append_of_mem hi
    refine ⟨A ++ B, by simp, hM.listDelInit, fun j hj => ?_⟩
    by_cases hji : j = i
    · subst hji; exact Ring.selfLinked_listDelInit _ _
    · exact hM.selfLinked_listDelInit (by simpa [hji] using hj) (hs j (by simpa [hji] using hj))
  · rw [Ring.listDelInit_of_selfLinked (hs i hi)]
    exact ⟨M, List.Sublist.refl _, hM, hs⟩

theorem WakeInv.step {s s' : WakeState} (hi : WakeInv s) (h : WakeStep s s') : WakeInv s' := by
  obtain ⟨M, hM, hs, hpc⟩ := hi
  cases h with
  | lock _ hL =>
    obtain rfl := hL.unique hM
    exact ⟨_, hM, hs, List.suffix_refl _, fun _ hi hn => absurd hi hn⟩
  | @wake i hw he hn =>
    rw [hw] at hpc
    obtain ⟨hsuf, hrd⟩ := hpc
    cases M with
    | nil => exact absurd (hM.listEmpty_iff.2 rfl) he
    | cons k M =>
      obtain rfl : i = k := by rw [hM.next_head_cons] at hn; cases hn; rfl
      have hiM : i ∉ M := (List.nodup_cons.1 hM.2).1
      refine ⟨M, Ring.IsList.listDelInit (A := []) hM, fun j hj => ?_, ?_⟩
      · by_cases hji : j = i
        · subst hji; exact Ring.selfLinked_listDelInit _ _
        · have hj' : j ∉ i :: M := by simp [hji, hj]
          exact Ring.IsList.selfLinked_listDelInit (A := []) hM hj' (hs j hj')
      · simp only [hw]
        refine ⟨(List.suffix_cons i M).trans hsuf, fun k hk hkM => ?_⟩
        by_cases hki : k = i
        · subst hki; simp
        · rw [Function.update_noteq hki]; exact hrd k hk (by simp [hki, hkM])
  | unlock hw he =>
    rw [hw] at hpc
    obtain rfl := hM.listEmpty_iff.1 he
    exact ⟨[], hM, hs, rfl, fun k hk => hpc.2 k hk (List.not_mem_nil k)⟩
  | test => exact ⟨M, hM, hs, hpc⟩
  | @unlink i _ hfree =>
    obtain ⟨M', hsub, hM', hs'⟩ := unlink_keeps hM hs i
    refine ⟨M', hM', hs', ?_⟩
    revert hpc hfree; rcases s.pc with _ | _ | _ <;> intro hpc hfree
    · trivial
    · exact absurd rfl hfree
    · obtain ⟨rfl, hrd⟩ := hpc
      exact ⟨List.eq_nil_of_sublist_nil hsub, hrd⟩

theorem WakeInv.of_run {s s' : WakeState} (h : Relation.ReflTransGen WakeStep s s')
    (hi : WakeInv s) : WakeInv s' := by
  induction h with
  | refl => exact hi
  | tail _ hs ih => exact ih.step hs

/-- The sequential wake loop is the run of the section in which no owner moves. -/
theorem wakeLoop_run : ∀ {fuel : Nat} {s : WakeState} {r' : Ring} {ready' : Nat → Nat},
    s.pc = .waking → wakeLoop fuel s.ring s.ready = some (r', ready') →
    Relation.ReflTransGen WakeStep s ⟨r', ready', .done, s.owners, s.started⟩
  | 0, s, r', ready', hw, h => by
    simp only [wakeLoop] at h
    split_ifs at h with he
    cases h
    exact .single (.unlock hw he)
  | fuel + 1, s, r', ready', hw, h => by
    simp only [wakeLoop] at h
    split_ifs at h with he
    · cases h; exact .single (.unlock hw he)
    · split at h
      · rename_i i hi
        exact .head (.wake hw he hi) (wakeLoop_run (s := { s with
          ring := s.ring.listDelInit (.elem i), ready := Function.update s.ready i 1 }) hw h)
      · cases h

/-! ### The whole shutdown -/

section shutdown

variable {cfg : Config} {w : World} {hsk : SockId} {ls : SockLists} {fuel : Nat}

/-- A socket already shut down, or never initialised, is left as it is. -/
theorem homaSockShutdown_of_done (h : (w.socks hsk).shutdown = true ∨ (w.socks hsk).homa = false) :
    homaSockShutdown w hsk ls fuel = some (w, ls, []) := by
  rw [homaSockShutdown, if_pos (by rcases h with h | h <;> simp [h])]

/-- On a live socket the shutdown is its first section followed by the two loops. -/
theorem homaSockShutdown_live {w' : World} {active interests : Ring} {ended : List Nat}
    {ready : Nat → Nat} (hs : (w.socks hsk).shutdown = false) (hh : (w.socks hsk).homa = true)
    (hu : shutdownUnlink w hsk = some w')
    (hr : rpcLoop fuel ls.active (ls.active.next .head) = some (active, ended))
    (hw : wakeLoop fuel ls.interests ls.ready = some (interests, ready)) :
    homaSockShutdown w hsk ls fuel = some (w', ⟨active, interests, ready⟩, ended) := by
  simp only [shutdownUnlink, hs, hh, Bool.not_true, Bool.or_self, Bool.false_eq_true,
    if_false] at hu
  simp [homaSockShutdown, hs, hh, hu, hr, hw]

/-- `homa_sock_shutdown` on a socket whose `homa_sock_init` succeeded and which is not shut down,
in any reachable state: it sets `shutdown` and takes the socket off the table, after which no run
ever finds it again; it ends every RPC of `active_rpcs` once, in list order; and it empties
`interests`, leaving every interest ready and linked to itself. A second call, or a call on a
socket whose init failed, changes nothing. Against owners running `homa_interest_unlink_shared`
at any moment, the interests stay a well-formed list, and once the shutdown has unlocked, the list
is empty and every interest on it when the wake loop took the lock is ready and linked to itself;
the sequential wake loop is the run of that section in which no owner moves. -/
theorem homaSockShutdown_spec {R : SockId → Option Int} (hr : Reachable cfg w R) (hsk : SockId)
    (ls : SockLists) {A I : List Nat} (hA : ls.active.IsList A) (hI : ls.interests.IsList I) :
    (R hsk = some 0 → (w.socks hsk).shutdown = false →
      ∃ w' ls', homaSockShutdown w hsk ls (A.length + I.length) = some (w', ls', A) ∧
        (w'.socks hsk).shutdown = true ∧ ¬w'.Linked hsk ∧
        (∀ w'' R'', Relation.ReflTransGen (Step cfg) (w', R) (w'', R'') →
          ∀ hnet port, (homaSockFind cfg w'' hnet port).1 ≠ some hsk) ∧
        ls'.active.IsList [] ∧ ls'.interests.IsList [] ∧
        (∀ i ∈ I, ls'.ready i = 1 ∧ ls'.interests.SelfLinked (.elem i)) ∧
        (∀ owners, Relation.ReflTransGen WakeStep ⟨ls.interests, ls.ready, .before, owners, []⟩
          ⟨ls'.interests, ls'.ready, .done, owners, I⟩) ∧
        ∀ fuel, homaSockShutdown w' hsk ls' fuel = some (w', ls', [])) ∧
    (R hsk ≠ some 0 ∨ (w.socks hsk).shutdown = true →
      ∀ fuel, homaSockShutdown w hsk ls fuel = some (w, ls, [])) ∧
    (∀ (owners : Nat → UnlinkPc) (s : WakeState), (∀ j ∉ I, ls.interests.SelfLinked (.elem j)) →
      Relation.ReflTransGen WakeStep ⟨ls.interests, ls.ready, .before, owners, []⟩ s →
      (∃ M, s.ring.IsList M) ∧
      (s.pc = .done → s.ring.IsList [] ∧
        ∀ i ∈ s.started, s.ready i = 1 ∧ s.ring.SelfLinked (.elem i))) := by
  have hi := RunInv.of_reachable hr
  refine ⟨fun hR0 hsd => ?_, fun h fuel => homaSockShutdown_of_done ?_,
    fun owners s hself hrun => ?_⟩
  · -- a live socket: the first section finds it linked
    have hh : (w.socks hsk).homa = true := (hi.homa_iff hsk).2 hR0
    obtain ⟨p, hp⟩ := Option.ne_none_iff_exists'.1 ((hi.socktab.linked_iff hsk).2 ⟨hR0, hsd⟩)
    obtain ⟨tab, htab⟩ := Hlist.delRcu_of_pprev hp
    set w' := { w.setSock hsk (fun k => { k with shutdown := true }) with tab }
    have hu : shutdownUnlink w hsk = some w' := by
      simp [shutdownUnlink, homaSockUnlink, hsd, hh, htab, w']
    have hsd' : (w'.socks hsk).shutdown = true := by simp [w']
    obtain ⟨active, ha, hA'⟩ := @rpcLoop_spec A _ (A.length + I.length) hA (Nat.le_add_right _ _)
    obtain ⟨interests, ready, hw, hI', hready, -⟩ :=
      @wakeLoop_spec I _ ls.ready (A.length + I.length) hI (Nat.le_add_left _ _)
    have hr' : Reachable cfg w' R := hr.of_run (.single (.shutdown hu))
    refine ⟨w', ⟨active, interests, ready⟩, homaSockShutdown_live hsd hh hu ha hw, hsd',
      fun hl => absurd (((RunInv.of_reachable hr').socktab.linked_iff hsk).1 hl).2
        (by rw [hsd']; decide),
      fun _ _ hrun => homaSockFind_ne_of_shutdown hr' (by simp [hR0]) hsd' hrun, hA', hI', hready,
      fun _ => .head (.lock rfl hI) (wakeLoop_run rfl hw), fun _ => homaSockShutdown_of_done (.inl hsd')⟩
  · rcases h with h | h
    · exact .inr (by simpa [h] using (hi.homa_iff hsk).not.2 h)
    · exact .inl h
  · obtain ⟨M, hM, hs, hpc⟩ := WakeInv.of_run hrun ⟨I, hI, hself, trivial⟩
    refine ⟨⟨M, hM⟩, fun hd => ?_⟩
    rw [hd] at hpc
    obtain ⟨rfl, hrd⟩ := hpc
    exact ⟨hM, fun i hi => ⟨hrd i hi, hs i (List.not_mem_nil i)⟩⟩

end shutdown

/-- `active_rpcs` holding RPCs 1 and 2. -/
def activeOneTwo : Ring :=
  ⟨fun | .head => .elem 1 | .elem 1 => .elem 2 | .elem 2 => .head | x => x,
    fun | .head => .elem 2 | .elem 2 => .elem 1 | .elem 1 => .head | x => x⟩

/-- `interests` holding interest 3. -/
def interestsThree : Ring :=
  ⟨fun | .head => .elem 3 | .elem 3 => .head | x => x,
    fun | .head => .elem 3 | .elem 3 => .head | x => x⟩

/-- Socket 0, live, with RPCs 1 and 2 active and interest 3 waiting: the shutdown ends both RPCs in
list order, takes the socket off the table, and leaves interest 3 ready with both lists empty. -/
theorem homaSockShutdown_spec_live :
    ∃ w R, Reachable Config.sample w R ∧ activeOneTwo.IsList [1, 2] ∧ interestsThree.IsList [3] ∧
      R 0 = some 0 ∧ (w.socks 0).shutdown = false ∧
      ∃ w' ls', homaSockShutdown w 0 ⟨activeOneTwo, interestsThree, fun _ => 0⟩ 3 =
          some (w', ls', [1, 2]) ∧
        (w'.socks 0).shutdown = true ∧ ¬w'.Linked 0 ∧ ls'.active.IsList [] ∧
        ls'.interests.IsList [] ∧ ls'.ready 3 = 1 := by
  obtain ⟨w, hr, hsd⟩ := reachable_first
  have hA : activeOneTwo.IsList [1, 2] := ⟨.cons rfl rfl (.cons rfl rfl (.last rfl rfl)), by decide⟩
  have hI : interestsThree.IsList [3] := ⟨.cons rfl rfl (.last rfl rfl), by decide⟩
  obtain ⟨w', ls', h, hsd', hunl, -, hA', hI', hready, -⟩ :=
    (homaSockShutdown_spec hr 0 ⟨activeOneTwo, interestsThree, fun _ => 0⟩ hA hI).1 rfl hsd
  exact ⟨w, _, hr, hA, hI, rfl, hsd, w', ls', h, hsd', hunl, hA', hI', (hready 3 (by simp)).1⟩

end Homa
