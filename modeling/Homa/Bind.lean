import Homa.Init

/-!
# Binding a port

`homa_sock_bind` moves a socket to a port below `HOMA_MIN_DEFAULT_PORT`. Port zero, a port in the
default range and a shut-down socket are turned away before anything is touched. Then, under the
table's write lock, `homa_sock_find` looks the port up: an owner ends the call, with `-EADDRINUSE`
unless the owner is the socket itself, and otherwise the socket is rehashed, `hlist_del_rcu` off its
old bucket and `hlist_add_head_rcu` onto the new port's.

`homaSockBind_cases` says once what a call can do: leave the world exactly as it was (the reference
`homa_sock_find` took is dropped again), or rehash a socket that is on the table to a free port.
`TableOk.bindRehash` follows the rehash through the bucket lists; with it the rehash keeps the
socket-table invariant (`SocktabInv.sockBind`) and moves exactly one lookup (`homaSockBind_spec`).
-/

namespace Homa

variable (cfg : Config)

/-- The end of `homa_sock_bind`, on the table `tab` that `hlist_del_rcu` left: the new port, the
push onto its bucket, and `is_server`. -/
def bindRehash (w : World) (hnet : NetId) (hsk : SockId) (port : Nat) (tab : Hlist) : World :=
  let w := { w with tab }.setSock hsk fun k =>
    { k with port, inetNum := port, inetSport := htons port }
  let w := { w with tab := w.tab.addHeadRcu hsk (cfg.bucket hnet port) }
  w.setSock hsk fun k => { k with isServer := true }

/-- `homa_sock_bind(hnet, hsk, port)`. `none` when the socket to rehash is not on the table, where
`hlist_del_rcu` faults. -/
def homaSockBind (w : World) (hnet : NetId) (hsk : SockId) (port : Nat) : Option (Int × World) :=
  if port = 0 then some (0, w)
  else if cfg.minDefaultPort ≤ port then some (-einval, w)
  else if (w.socks hsk).shutdown then some (-eshutdown, w)
  else
    match homaSockFind cfg w hnet port with
    | (some owner, w) => some (if owner ≠ hsk then -eaddrinuse else 0, w.sockPut owner)
    | (none, w) => (w.tab.delRcu hsk).map fun tab => (0, bindRehash cfg w hnet hsk port tab)

section rehash

variable {cfg} {w : World} {hnet : NetId} {hsk : SockId} {port : Nat} {tab : Hlist}

@[simp] theorem bindRehash_tab :
    (bindRehash cfg w hnet hsk port tab).tab = tab.addHeadRcu hsk (cfg.bucket hnet port) := rfl

@[simp] theorem bindRehash_count : (bindRehash cfg w hnet hsk port tab).count = w.count := rfl

@[simp] theorem bindRehash_socks_self : (bindRehash cfg w hnet hsk port tab).socks hsk =
    { w.socks hsk with port, inetNum := port, inetSport := htons port, isServer := true } := by
  simp [bindRehash]

theorem bindRehash_port : ((bindRehash cfg w hnet hsk port tab).socks hsk).port = port := by
  simp

theorem bindRehash_socks_of_ne {s : SockId} (h : s ≠ hsk) :
    (bindRehash cfg w hnet hsk port tab).socks s = w.socks s := by
  simp [bindRehash, World.setSock_socks_of_ne _ _ h]

/-- The rehash moves the socket from its bucket `b₀` to the bucket of its namespace and new port. -/
theorem TableOk.bindRehash {B : Nat → List SockId} (hok : TableOk cfg w B) (port : Nat) {b₀ : Nat}
    (hb₀ : hsk ∈ B b₀) (hn : (w.socks hsk).hnet = some hnet) (hd : w.tab.delRcu hsk = some tab) :
    TableOk cfg (Homa.bindRehash cfg w hnet hsk port tab)
      (Function.update (Function.update B b₀ ((B b₀).erase hsk)) (cfg.bucket hnet port)
        (hsk :: Function.update B b₀ ((B b₀).erase hsk) (cfg.bucket hnet port))) := by
  have hok₁ := hok.unlink hb₀ { w with tab } hd rfl fun _ _ => ⟨rfl, rfl⟩
  have hunl : ¬({ w with tab } : World).Linked hsk := fun hl => by
    obtain ⟨b, hb⟩ := (hok₁.linked_iff hsk).1 hl
    exact ((hok.rep.mem_erase_iff hb₀).1 hb).1 rfl
  have := hok₁.link hunl (hok.lt_count b₀ hsk hb₀) (Homa.bindRehash cfg w hnet hsk port tab) hnet
    (by simpa using hn) (by simp) rfl
    fun s hs => by rw [bindRehash_socks_of_ne hs]; exact ⟨rfl, rfl⟩
  rwa [bindRehash_port] at this

/-- A rehashed socket stays on the table, and so does every other. -/
theorem linked_bindRehash {B : Nat → List SockId} (hok : TableOk cfg w B) (port : Nat) {b₀ : Nat}
    (hb₀ : hsk ∈ B b₀) (hn : (w.socks hsk).hnet = some hnet) (hd : w.tab.delRcu hsk = some tab)
    (s : SockId) : (Homa.bindRehash cfg w hnet hsk port tab).Linked s ↔ w.Linked s := by
  rw [(hok.bindRehash port hb₀ hn hd).linked_iff, hok.linked_iff]
  simp only [mem_update_cons, hok.rep.mem_erase_iff hb₀]
  by_cases e : s = hsk
  · subst e; exact ⟨fun _ => ⟨b₀, hb₀⟩, fun _ => ⟨_, .inl ⟨rfl, rfl⟩⟩⟩
  · simp [e]

/-- After a rehash to a free port, owners are still unique. -/
theorem Unique.bindRehash {B : Nat → List SockId} (hok : TableOk cfg w B) (hu : Unique w)
    {b₀ : Nat} (hb₀ : hsk ∈ B b₀) (hn : (w.socks hsk).hnet = some hnet)
    (hd : w.tab.delRcu hsk = some tab) (hfree : PortFree w hnet port) :
    Unique (Homa.bindRehash cfg w hnet hsk port tab) :=
  hu.of_move hsk (fun s _ hs => (linked_bindRehash hok port hb₀ hn hd s).1 hs)
    (fun s hs => by rw [bindRehash_socks_of_ne hs]; exact ⟨rfl, rfl⟩)
    fun _ s _ hs => by simpa [hn] using hfree s (hok.lt_count_of_linked hs) hs

/-- A rehash of a live socket to a free port moves exactly one owner: the new port finds the
socket, the old one finds nothing, and every other port finds what it found. -/
theorem lookup_bindRehash {R : SockId → Option Int} (hinv : SocktabInv cfg w R)
    (hlive : w.Linked hsk) (hn : (w.socks hsk).hnet = some hnet) (hfree : PortFree w hnet port)
    (hd : w.tab.delRcu hsk = some tab) :
    lookup cfg (Homa.bindRehash cfg w hnet hsk port tab) hnet port = some hsk ∧
    lookup cfg (Homa.bindRehash cfg w hnet hsk port tab) hnet (w.socks hsk).port = none ∧
    ∀ n q, (n, q) ≠ (hnet, port) → (n, q) ≠ (hnet, (w.socks hsk).port) →
      lookup cfg (Homa.bindRehash cfg w hnet hsk port tab) n q = lookup cfg w n q := by
  obtain ⟨B, hok⟩ := hinv.ok
  obtain ⟨b₀, hb₀⟩ := (hok.linked_iff hsk).1 hlive
  have hold : (w.socks hsk).port ≠ port := fun e =>
    hfree hsk (hok.lt_count_of_linked hlive) hlive ⟨hn, e⟩
  have hlk := linked_bindRehash hok port hb₀ hn hd
  have hown : ∀ {s n q}, lookup cfg w n q = some s ↔
      w.Linked s ∧ (w.socks s).hnet = some n ∧ (w.socks s).port = q :=
    hok.lookup_eq_some_iff hinv.unique
  have hown' : ∀ {s n q}, lookup cfg (Homa.bindRehash cfg w hnet hsk port tab) n q = some s ↔
      (Homa.bindRehash cfg w hnet hsk port tab).Linked s ∧
        ((Homa.bindRehash cfg w hnet hsk port tab).socks s).hnet = some n ∧
        ((Homa.bindRehash cfg w hnet hsk port tab).socks s).port = q :=
    (hok.bindRehash port hb₀ hn hd).lookup_eq_some_iff (hinv.unique.bindRehash hok hb₀ hn hd hfree)
  refine ⟨hown'.2 ⟨(hlk hsk).2 hlive, by simpa using hn, by simp⟩, ?_, fun n q h1 h2 => ?_⟩
  · refine Option.eq_none_iff_forall_not_mem.2 fun s hs' => ?_
    obtain ⟨hl', hsn, hsp⟩ := hown'.1 hs'
    by_cases e : s = hsk
    · subst e; simp at hsp; exact hold hsp.symm
    · rw [bindRehash_socks_of_ne e] at hsn hsp
      exact e (hinv.unique s hsk ((hlk s).1 hl') hlive (hsn.trans hn.symm) hsp)
  · refine Option.ext fun s => ?_
    rw [Option.mem_def, Option.mem_def, hown', hown, hlk]
    by_cases e : s = hsk
    · subst e
      simp only [bindRehash_socks_self, hn]
      constructor
      · rintro ⟨-, h3, h4⟩; cases h3; exact absurd (by rw [h4]) h1
      · rintro ⟨-, h3, h4⟩; cases h3; exact absurd (by rw [h4]) h2
    · rw [bindRehash_socks_of_ne e]

end rehash

/-! ### What `homa_sock_bind` does -/

section bind

variable {cfg} {w w' : World} {hnet : NetId} {hsk : SockId} {port : Nat} {r : Int}

/-- Everything `homa_sock_bind` can do: nothing, or rehash a socket on the table to a free port
below `HOMA_MIN_DEFAULT_PORT`. -/
theorem homaSockBind_cases (h : homaSockBind cfg w hnet hsk port = some (r, w')) :
    w' = w ∨ (0 < port ∧ port < cfg.minDefaultPort ∧ (w.socks hsk).shutdown = false ∧
      lookup cfg w hnet port = none ∧ r = 0 ∧
      ∃ tab, w.tab.delRcu hsk = some tab ∧ w' = bindRehash cfg w hnet hsk port tab) := by
  unfold homaSockBind at h
  split_ifs at h with h0 hge hs
  · exact .inl (Prod.mk.inj (Option.some.inj h)).2.symm
  · exact .inl (Prod.mk.inj (Option.some.inj h)).2.symm
  · exact .inl (Prod.mk.inj (Option.some.inj h)).2.symm
  · cases hl : lookup cfg w hnet port with
    | some o =>
      simp only [homaSockFind, hl, World.sockPut_sockHold, Option.some.injEq, Prod.mk.injEq] at h
      exact .inl h.2.symm
    | none =>
      simp only [homaSockFind, hl, Option.map_eq_some', Prod.mk.injEq] at h
      obtain ⟨tab, hd, rfl, rfl⟩ := h
      exact .inr ⟨Nat.pos_of_ne_zero h0, by omega, by simpa using hs, rfl, rfl, tab, hd, rfl⟩

theorem homaSockBind_count (h : homaSockBind cfg w hnet hsk port = some (r, w')) :
    w'.count = w.count := by
  rcases homaSockBind_cases h with rfl | ⟨-, -, -, -, -, tab, -, rfl⟩ <;> rfl

/-- `homa_sock_bind` keeps the socket-table invariant. -/
theorem SocktabInv.sockBind {R : SockId → Option Int} (hinv : SocktabInv cfg w R)
    (hn : (w.socks hsk).hnet = some hnet) (h : homaSockBind cfg w hnet hsk port = some (r, w')) :
    SocktabInv cfg w' R := by
  rcases homaSockBind_cases h with rfl | ⟨h0, hlt, -, hl, -, tab, hd, rfl⟩
  · exact hinv
  obtain ⟨B, hok⟩ := hinv.ok
  obtain ⟨b₀, hb₀⟩ := (hok.linked_iff hsk).1 (Hlist.pprev_ne_none_of_delRcu hd)
  have hfree := (hok.lookup_eq_none_iff hnet port).1 hl
  have hlk := linked_bindRehash hok port hb₀ hn hd
  refine ⟨⟨_, hok.bindRehash port hb₀ hn hd⟩, fun s => ?_, hinv.unique.bindRehash hok hb₀ hn hd hfree,
    fun s hs => ?_⟩
  · by_cases e : s = hsk
    · subst e; rw [hlk, hinv.linked_iff]; simp
    · rw [hlk, hinv.linked_iff, bindRehash_socks_of_ne e]
  · by_cases e : s = hsk
    · subst e; have := cfg.minDefaultPort_lt; simp; omega
    · rw [bindRehash_socks_of_ne e]; exact hinv.port_range s ((hlk s).1 hs)

/-- `homa_sock_bind(hnet, hsk, port)` on a socket of `hnet` whose `homa_sock_init` succeeded, over
the socket-table invariant. Port zero, a port in the default range, a shut-down socket, a port the
socket already owns and a port another socket owns each leave the world as it was, and a live
socket is then still found at its port. Otherwise the socket is found at the new port and no
longer at its old one, and every other lookup is unchanged. -/
theorem homaSockBind_spec {R : SockId → Option Int} (hinv : SocktabInv cfg w R)
    (hinit : R hsk = some 0) (hn : (w.socks hsk).hnet = some hnet) (port : Nat) :
    ∃ r w', homaSockBind cfg w hnet hsk port = some (r, w') ∧
      (port = 0 → r = 0 ∧ w' = w) ∧
      (port ≠ 0 → cfg.minDefaultPort ≤ port → r = -einval ∧ w' = w) ∧
      (port ≠ 0 → port < cfg.minDefaultPort →
        ((w.socks hsk).shutdown = true → r = -eshutdown ∧ w' = w) ∧
        ((w.socks hsk).shutdown = false → (w.socks hsk).port = port → r = 0 ∧ w' = w) ∧
        ((w.socks hsk).shutdown = false →
          (∃ s ≠ hsk, w.Linked s ∧ (w.socks s).hnet = some hnet ∧ (w.socks s).port = port) →
          r = -eaddrinuse ∧ w' = w) ∧
        ((w.socks hsk).shutdown = false → PortFree w hnet port →
          r = 0 ∧ lookup cfg w' hnet port = some hsk ∧
          lookup cfg w' hnet (w.socks hsk).port = none ∧ (w'.socks hsk).inetNum = port ∧
          ∀ n q, (n, q) ≠ (hnet, port) → (n, q) ≠ (hnet, (w.socks hsk).port) →
            lookup cfg w' n q = lookup cfg w n q)) ∧
      ((w.socks hsk).shutdown = false → w' = w →
        lookup cfg w' hnet (w'.socks hsk).port = some hsk) := by
  obtain ⟨B, hok⟩ := hinv.ok
  have hown : ∀ {s n q}, lookup cfg w n q = some s ↔
      w.Linked s ∧ (w.socks s).hnet = some n ∧ (w.socks s).port = q :=
    hok.lookup_eq_some_iff hinv.unique
  have hfind : (w.socks hsk).shutdown = false → lookup cfg w hnet (w.socks hsk).port = some hsk :=
    fun hs => hown.2 ⟨(hinv.linked_iff hsk).2 ⟨hinit, hs⟩, hn, rfl⟩
  by_cases h0 : port = 0
  · subst h0
    exact ⟨0, w, by simp [homaSockBind], fun _ => ⟨rfl, rfl⟩, fun h => absurd rfl h,
      fun h => absurd rfl h, fun hs _ => hfind hs⟩
  by_cases hge : cfg.minDefaultPort ≤ port
  · exact ⟨-einval, w, by simp [homaSockBind, h0, hge], fun h => absurd h h0, fun _ _ => ⟨rfl, rfl⟩,
      fun _ h => absurd hge (by omega), fun hs _ => hfind hs⟩
  refine Or.elim (Bool.eq_false_or_eq_true (w.socks hsk).shutdown) (fun hs => ?_) fun hs => ?_
  · exact ⟨-eshutdown, w, by simp [homaSockBind, h0, hge, hs], fun h => absurd h h0,
      fun _ h => absurd h hge, fun _ _ => ⟨fun _ => ⟨rfl, rfl⟩, by simp [hs]⟩,
      fun h => by simp [hs] at h⟩
  have hlive : w.Linked hsk := (hinv.linked_iff hsk).2 ⟨hinit, hs⟩
  cases hl : lookup cfg w hnet port with
  | some o =>
    obtain ⟨ho, hon, hop⟩ := hown.1 hl
    have hcall : homaSockBind cfg w hnet hsk port = some (if o ≠ hsk then -eaddrinuse else 0, w) := by
      simp [homaSockBind, homaSockFind, h0, hge, hs, hl]
    refine ⟨_, w, hcall, fun h => absurd h h0, fun _ h => absurd h hge, fun _ _ => ⟨by simp [hs],
      fun _ hp => ⟨?_, rfl⟩, fun _ ⟨s, hs', hl', hsn, hsp⟩ => ⟨?_, rfl⟩, fun _ hfree => ?_⟩,
      fun _ _ => hfind hs⟩
    · rw [hinv.unique o hsk ho hlive (hon.trans hn.symm) (hop.trans hp.symm)]; simp
    · have e : o ≠ hsk := fun e => hs' (hinv.unique s o hl' ho (hsn.trans hon.symm)
        (hsp.trans hop.symm) |>.trans e)
      simp [e]
    · exact absurd ⟨hon, hop⟩ (hfree o (hok.lt_count_of_linked ho) ho)
  | none =>
    have hfree := (hok.lookup_eq_none_iff hnet port).1 hl
    have hold : (w.socks hsk).port ≠ port := fun e =>
      hfree hsk (hok.lt_count_of_linked hlive) hlive ⟨hn, e⟩
    obtain ⟨p, hp⟩ := Option.ne_none_iff_exists'.1 hlive
    obtain ⟨tab, hd⟩ := Hlist.delRcu_of_pprev hp
    obtain ⟨hnew, hgone, hrest⟩ := lookup_bindRehash hinv hlive hn hfree hd
    refine ⟨0, bindRehash cfg w hnet hsk port tab,
      by simp [homaSockBind, homaSockFind, h0, hge, hs, hl, hd], fun h => absurd h h0,
      fun _ h => absurd h hge, fun _ _ => ⟨by simp [hs], fun _ hp => absurd hp hold,
      fun _ ⟨s, _, hl', hsn, hsp⟩ => absurd ⟨hsn, hsp⟩ (hfree s (hok.lt_count_of_linked hl') hl'),
      fun _ _ => ⟨rfl, hnew, hgone, by simp, hrest⟩⟩,
      fun _ e => absurd (congrArg (fun w : World => (w.socks hsk).port) e) (by simpa using hold.symm)⟩

/-- Two sockets of namespace 0, at default ports 32769 and 32770, from the start state: binding the
first to port 100 rehashes it there, after which its old port finds nothing; binding the second to
100 then reports `-EADDRINUSE` and changes nothing. -/
theorem homaSockBind_spec_rebind :
    ∃ w R w₁, SocktabInv Config.sample w R ∧ R 0 = some 0 ∧ R 1 = some 0 ∧
      homaSockBind Config.sample w 0 0 100 = some (0, w₁) ∧
      lookup Config.sample w₁ 0 100 = some 0 ∧ lookup Config.sample w₁ 0 32769 = none ∧
      SocktabInv Config.sample w₁ R ∧
      homaSockBind Config.sample w₁ 0 1 100 = some (-eaddrinuse, w₁) := by
  obtain ⟨w₁, w₂, w₃, h₁, h₂, h₃, hc₁, hc₂, hn0, hp0, hsd0, hp1, hn1', hsd1'⟩ : ∃ w₁ w₂ w₃,
      homaSockInit Config.sample ((World.start fun _ => 32768).alloc 0 afInet) 0 (.ok 7) =
        some (0, w₁) ∧
      homaSockInit Config.sample (w₁.alloc 0 afInet) 1 (.ok 8) = some (0, w₂) ∧
      homaSockBind Config.sample w₂ 0 0 100 = some (0, w₃) ∧
      w₁.count = 1 ∧ w₂.count = 2 ∧ (w₂.socks 0).hnet = some 0 ∧ (w₂.socks 0).port = 32769 ∧
      (w₂.socks 0).shutdown = false ∧ (w₂.socks 1).port = 32770 ∧
      (w₃.socks 1).hnet = some 0 ∧ (w₃.socks 1).shutdown = false :=
    ⟨_, _, _, rfl, rfl, rfl, rfl, rfl, rfl, rfl, rfl, rfl, rfl, rfl⟩
  have hinv₀ : SocktabInv Config.sample (World.start fun _ => 32768) fun _ => none :=
    .of_empty rfl fun _ h => by cases h
  have hinv₁ := (hinv₀.alloc (by simp) 0 afInet).sockInit (by decide) rfl
    (fun _ h => by cases h) h₁
  have hinv₂ := (hinv₁.alloc (by simp [hc₁]) 0 afInet).sockInit (by simp [World.alloc, hc₁])
    (by simp [hc₁]) (fun _ h => by cases h) h₂
  have hR0 : Function.update (Function.update (fun _ => none) 0 (some (0 : Int))) 1 (some 0) 0 =
      some 0 := rfl
  have hR1 : Function.update (Function.update (fun _ => none) 0 (some (0 : Int))) 1 (some 0) 1 =
      some 0 := rfl
  have hl₂ : ∀ s, w₂.Linked s → s = 0 ∨ s = 1 := fun s hs => by
    have := (hinv₂.linked_iff s).1 hs
    by_cases e0 : s = 0
    · exact .inl e0
    by_cases e1 : s = 1
    · exact .inr e1
    simp [Function.update_noteq e0, Function.update_noteq e1] at this
  -- the first bind: port 100 is free, so the socket is rehashed
  obtain ⟨r, w', h, -, -, hlow, -⟩ := homaSockBind_spec hinv₂ hR0 hn0 100
  obtain ⟨-, hw⟩ : r = 0 ∧ w' = w₃ := by simpa using h.symm.trans h₃
  rw [hw] at hlow
  obtain ⟨-, hnew, hold, -⟩ := (hlow (by decide) (by decide)).2.2.2 hsd0 fun s _ hs ⟨_, hp⟩ => by
    rcases hl₂ s hs with rfl | rfl
    · simp [hp0] at hp
    · simp [hp1] at hp
  rw [hp0] at hold
  -- the second bind: socket 0 now owns port 100
  have hinv₃ := hinv₂.sockBind hn0 h₃
  obtain ⟨B, hok⟩ := hinv₃.ok
  obtain ⟨r', w'', h', -, -, hlow', -⟩ := homaSockBind_spec hinv₃ hR1 hn1' 100
  obtain ⟨hr', hw'⟩ := (hlow' (by decide) (by decide)).2.2.1 hsd1'
    ⟨0, by decide, (hok.lookup_eq_some_iff hinv₃.unique).1 hnew⟩
  rw [hr', hw'] at h'
  exact ⟨w₂, _, w₃, hinv₂, hR0, hR1, h₃, hnew, hold, hinv₃, h'⟩

end bind

end Homa
