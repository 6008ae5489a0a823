import Mathlib.Logic.Function.Basic
import Mathlib.Data.List.Nodup

/-!
# Hash-list pointers

The socket table is an array of `hlist_head`s, and every socket carries an `hlist_node`
(`socktab_links`): a `next` pointer, and a `pprev` pointer back at the location that points to it.
This module models those pointers as the kernel's `hlist_add_head_rcu` and `hlist_del_rcu` write
them, and proves what the rest of the development uses instead of the pointers: a bucket holds the
list of nodes that `Chain` visits, and the two operations push onto and erase from that list
(`Rep.addHeadRcu`, `Rep.delRcu`).

A `Chain` reaches NULL after finitely many nodes, so a bucket that has one is finite and acyclic;
`Chain.nodup` is that fact. `hlist_del_rcu` leaves the deleted node's `next` alone, so a reader
standing on it still finds its old successor. The socket-table scans depend on exactly that.
-/

namespace Homa

/-- A location holding a node pointer: the `first` field of bucket `b`, or the `next` field of
node `n`. An `hlist_node`'s `pprev` names one of these. -/
inductive Link where
  | head (b : Nat)
  | node (n : Nat)
  deriving DecidableEq, Repr

/-- `struct hlist_node`. `pprev = none` is an unhashed node: zeroed, or poisoned by
`hlist_del_rcu`. -/
structure HlistNode where
  next : Option Nat
  pprev : Option Link
  deriving DecidableEq, Repr

/-- The bucket heads of one table and the `hlist_node` of every node that can be put on them. -/
structure Hlist where
  first : Nat → Option Nat
  node : Nat → HlistNode

namespace Hlist

/-- The pointer stored at a location. -/
def load (h : Hlist) : Link → Option Nat
  | .head b => h.first b
  | .node n => (h.node n).next

/-- `*l = v`. -/
def store (h : Hlist) (l : Link) (v : Option Nat) : Hlist :=
  match l with
  | .head b => { h with first := Function.update h.first b v }
  | .node n => { h with node := Function.update h.node n { h.node n with next := v } }

/-- `n->pprev = p`. -/
def setPprev (h : Hlist) (n : Nat) (p : Option Link) : Hlist :=
  { h with node := Function.update h.node n { h.node n with pprev := p } }

/-- `hlist_del_rcu(n)`: the location `n->pprev` names takes `n->next`, the successor's `pprev`
takes `n->pprev`, and `n` is poisoned; `n->next` stays for readers still on `n`. `none` when `n`
is unhashed, where the store through `pprev` faults. -/
def delRcu (h : Hlist) (n : Nat) : Option Hlist :=
  let next := (h.node n).next
  match (h.node n).pprev with
  | none => none
  | some pprev =>
    let h := h.store pprev next
    let h := match next with
      | some m => h.setPprev m (some pprev)
      | none => h
    some (h.setPprev n none)

/-- `hlist_add_head_rcu(n, &buckets[b])`. -/
def addHeadRcu (h : Hlist) (n b : Nat) : Hlist :=
  let first := h.first b
  let h := { h with node := Function.update h.node n ⟨first, some (.head b)⟩ }
  let h := { h with first := Function.update h.first b (some n) }
  match first with
  | some m => h.setPprev m (some (.node n))
  | none => h

/-- The zeroed links of a freshly allocated node. -/
def clear (h : Hlist) (n : Nat) : Hlist :=
  { h with node := Function.update h.node n ⟨none, none⟩ }

@[simp] theorem load_head (h : Hlist) (b : Nat) : h.load (.head b) = h.first b := rfl

@[simp] theorem load_node (h : Hlist) (n : Nat) : h.load (.node n) = (h.node n).next := rfl

theorem load_store (h : Hlist) (l : Link) (v : Option Nat) (x : Link) :
    (h.store l v).load x = if x = l then v else h.load x := by
  cases l <;> cases x <;> simp [store, Function.update_apply]
  split <;> simp_all

@[simp] theorem pprev_store (h : Hlist) (l : Link) (v : Option Nat) (m : Nat) :
    ((h.store l v).node m).pprev = (h.node m).pprev := by
  cases l <;> simp only [store, Function.update_apply]
  split <;> simp_all

@[simp] theorem first_setPprev (h : Hlist) (n : Nat) (p : Option Link) :
    (h.setPprev n p).first = h.first := rfl

@[simp] theorem next_setPprev (h : Hlist) (n : Nat) (p : Option Link) (m : Nat) :
    ((h.setPprev n p).node m).next = (h.node m).next := by
  simp only [setPprev, Function.update_apply]
  split <;> simp_all

@[simp] theorem load_setPprev (h : Hlist) (n : Nat) (p : Option Link) (x : Link) :
    (h.setPprev n p).load x = h.load x := by
  cases x <;> simp

theorem pprev_setPprev (h : Hlist) (n : Nat) (p : Option Link) (m : Nat) :
    ((h.setPprev n p).node m).pprev = if m = n then p else (h.node m).pprev := by
  simp only [setPprev, Function.update_apply]
  split <;> rfl

section delRcu

variable {h h' : Hlist} {n : Nat} {p : Link}

theorem delRcu_of_pprev (hp : (h.node n).pprev = some p) : ∃ h', h.delRcu n = some h' := by
  simp [delRcu, hp]

theorem pprev_ne_none_of_delRcu (hd : h.delRcu n = some h') : (h.node n).pprev ≠ none := by
  intro hp; simp [delRcu, hp] at hd

theorem load_of_delRcu (hd : h.delRcu n = some h') (hp : (h.node n).pprev = some p) (x : Link) :
    h'.load x = if x = p then (h.node n).next else h.load x := by
  simp only [delRcu, hp, Option.some.injEq] at hd
  subst hd
  cases hn : (h.node n).next <;> simp [load_store, hn]

theorem pprev_of_delRcu (hd : h.delRcu n = some h') (hp : (h.node n).pprev = some p) (m : Nat) :
    (h'.node m).pprev =
      if m = n then none else if (h.node n).next = some m then some p else (h.node m).pprev := by
  simp only [delRcu, hp, Option.some.injEq] at hd
  subst hd
  cases hn : (h.node n).next <;> simp [pprev_setPprev, eq_comm]

/-- The deleted node keeps its successor. -/
theorem next_of_delRcu (hd : h.delRcu n = some h') : (h'.node n).next = (h.node n).next := by
  obtain ⟨p, hp⟩ : ∃ p, (h.node n).pprev = some p := by
    cases hq : (h.node n).pprev <;> simp_all [delRcu]
  have := load_of_delRcu hd hp (.node n)
  simp only [load_node] at this
  rw [this]
  split <;> rfl

end delRcu

theorem load_addHeadRcu (h : Hlist) (n b : Nat) (x : Link) :
    (h.addHeadRcu n b).load x =
      if x = .head b then some n else if x = .node n then h.first b else h.load x := by
  cases hf : h.first b <;> cases x <;> simp [addHeadRcu, hf, Function.update_apply] <;>
    split <;> simp_all

theorem pprev_addHeadRcu (h : Hlist) (n b m : Nat) :
    ((h.addHeadRcu n b).node m).pprev =
      if h.first b = some m then some (.node n)
      else if m = n then some (.head b) else (h.node m).pprev := by
  cases hf : h.first b with
  | none => simp [addHeadRcu, hf, Function.update_apply]; split <;> rfl
  | some f =>
    simp only [addHeadRcu, hf, pprev_setPprev, Function.update_apply, Option.some.injEq]
    by_cases h1 : m = f
    · simp [h1]
    · simp only [h1, if_false, Ne.symm h1]; split <;> rfl

end Hlist

/-- `Chain h l L`: following the pointer stored at `l` and then each node's `next` visits exactly
the nodes `L` and reaches NULL, and each visited node's `pprev` names the location it was reached
through. -/
inductive Chain (h : Hlist) : Link → List Nat → Prop
  | nil {l : Link} : h.load l = none → Chain h l []
  | cons {l : Link} {n : Nat} {L : List Nat} :
      h.load l = some n → (h.node n).pprev = some l → Chain h (.node n) L → Chain h l (n :: L)

namespace Chain

variable {h h' : Hlist} {l : Link} {L : List Nat}

/-- The location a chain starts from holds its first node. -/
theorem load_eq (hc : Chain h l L) : h.load l = L.head? := by
  cases hc with
  | nil h0 => exact h0
  | cons h0 _ _ => exact h0

/-- A chain depends only on the locations it reads and the `pprev`s of the nodes it visits. -/
theorem congr (hc : Chain h l L) (hl : h'.load l = h.load l)
    (hn : ∀ n ∈ L, h'.load (.node n) = h.load (.node n) ∧ (h'.node n).pprev = (h.node n).pprev) :
    Chain h' l L := by
  induction hc with
  | nil h0 => exact .nil (hl.trans h0)
  | cons h0 hp _ ih =>
    obtain ⟨h1, h2⟩ := hn _ (List.mem_cons_self _ _)
    exact .cons (hl.trans h0) (h2.trans hp) (ih h1 fun m hm => hn m (List.mem_cons_of_mem _ hm))

/-- The nodes a location leads to are determined by the pointers. -/
theorem unique {L₁ L₂ : List Nat} (h₁ : Chain h l L₁) (h₂ : Chain h l L₂) : L₁ = L₂ := by
  induction h₁ generalizing L₂ with
  | nil h0 =>
    cases h₂ with
    | nil _ => rfl
    | cons h1 _ _ => simp_all
  | cons h0 _ _ ih =>
    cases h₂ with
    | nil h1 => simp_all
    | cons h1 _ hc =>
      obtain rfl := Option.some.inj (h0.symm.trans h1)
      rw [ih hc]

theorem suffix {A B : List Nat} {n : Nat} (hc : Chain h l (A ++ n :: B)) : Chain h (.node n) B := by
  induction A generalizing l with
  | nil => cases hc with | cons _ _ hc => exact hc
  | cons a A ih => cases hc with | cons _ _ hc => exact ih hc

theorem mem_of_load {m : Nat} (hc : Chain h l L) (hm : h.load l = some m) : m ∈ L := by
  cases hc with
  | nil h0 => simp_all
  | cons h0 _ _ => simp_all

/-- A location never points back into the chain it heads. -/
theorem link_ne {k : Nat} (hc : Chain h l L) (hk : k ∈ L) : l ≠ .node k := by
  rintro rfl
  obtain ⟨A, B, rfl⟩ := List.append_of_mem hk
  have := congrArg List.length (unique hc (suffix hc))
  simp at this
  omega

/-- A chain is finite and acyclic: no node is visited twice. -/
theorem nodup (hc : Chain h l L) : L.Nodup := by
  induction hc with
  | nil => exact List.nodup_nil
  | cons _ _ hc ih => exact List.nodup_cons.2 ⟨fun hn => link_ne hc hn rfl, ih⟩

theorem pprev_ne_none {n : Nat} (hc : Chain h l L) (hn : n ∈ L) : (h.node n).pprev ≠ none := by
  induction hc with
  | nil => simp at hn
  | cons _ hp _ ih =>
    rcases List.mem_cons.1 hn with rfl | hn
    · simp [hp]
    · exact ih hn

/-- A visited node's `pprev` names the head location or the `next` of a visited node. -/
theorem pprev_mem {n : Nat} (hc : Chain h l L) (hn : n ∈ L) :
    (h.node n).pprev = some l ∨ ∃ k ∈ L, (h.node n).pprev = some (.node k) := by
  induction hc with
  | nil => simp at hn
  | @cons l m L _ hp _ ih =>
    rcases List.mem_cons.1 hn with rfl | hn
    · exact .inl hp
    · rcases ih hn with h1 | ⟨k, hk, h1⟩
      · exact .inr ⟨m, List.mem_cons_self _ _, h1⟩
      · exact .inr ⟨k, List.mem_cons_of_mem _ hk, h1⟩

/-- `hlist_del_rcu` erases its node from the chain that holds it. -/
theorem delRcu {A B : List Nat} {n : Nat} (hc : Chain h l (A ++ n :: B))
    (hd : h.delRcu n = some h') : Chain h' l (A ++ B) := by
  obtain ⟨p, hp⟩ : ∃ p, (h.node n).pprev = some p :=
    Option.ne_none_iff_exists'.1 (hc.pprev_ne_none (by simp))
  have hload := Hlist.load_of_delRcu hd hp
  have hpprev := Hlist.pprev_of_delRcu hd hp
  induction A generalizing l with
  | nil =>
    have hnd := hc.nodup
    have hc₀ := hc
    obtain _ | ⟨_, hp0, hB⟩ := hc₀
    obtain rfl := Option.some.inj (hp.symm.trans hp0)
    obtain _ | ⟨hm, hpm, hB'⟩ := hB
    · exact .nil (by rw [hload]; simpa using ‹h.load (.node n) = none›)
    · rename_i m B'
      have hnm : m ≠ n := fun e => by subst e; simp at hnd
      have hnext : (h.node n).next = some m := hm
      refine .cons (by rw [hload]; simpa using hm) (by rw [hpprev]; simp [hnm, hnext]) ?_
      refine hB'.congr ?_ fun k hk => ?_
      · rw [hload, if_neg (hc.link_ne (by simp)).symm]
      · have hkn : k ≠ n := fun e => by subst e; simp_all
        have hkm : k ≠ m := fun e => by subst e; simp_all
        refine ⟨by rw [hload, if_neg (hc.link_ne (by simp [hk])).symm], ?_⟩
        rw [hpprev]; simp [hkn, hnext, Ne.symm hkm]
  | cons a A ih =>
    have hnd := hc.nodup
    have htail : Chain h (.node n) B := hc.suffix
    have hc₀ := hc
    obtain _ | ⟨h0, hpa, hA⟩ := hc₀
    have hla : h'.load l = h.load l := by
      rw [hload, if_neg]
      rintro rfl
      rcases hA.pprev_mem (n := n) (by simp) with e | ⟨k, hk, e⟩
      · exact hc.link_ne (List.mem_cons_self a _) (Option.some.inj (hp.symm.trans e))
      · exact hc.link_ne (List.mem_cons_of_mem _ hk) (Option.some.inj (hp.symm.trans e))
    have han : a ≠ n := fun e => by subst e; simp at hnd
    have hnext : (h.node n).next ≠ some a := fun e => by
      have := htail.mem_of_load (by simpa using e)
      simp_all [List.nodup_cons]
    exact .cons (hla.trans h0) (by rw [hpprev]; simp [han, hnext, hpa]) (ih hA)

end Chain

/-- After a push, a bucket holds what it held, and the pushed node if it is the pushed-on one. -/
theorem mem_update_cons {B : Nat → List Nat} {n b b' m : Nat} :
    m ∈ Function.update B b (n :: B b) b' ↔ (m = n ∧ b' = b) ∨ m ∈ B b' := by
  by_cases e : b' = b
  · subst e; simp
  · simp [Function.update_noteq e, e]

/-- A table holds bucket lists `B`: bucket `b < N` is the chain `B b`, buckets at or past `N` are
empty, no node is on two buckets, and a node on no bucket is unhashed. -/
structure Rep (h : Hlist) (N : Nat) (B : Nat → List Nat) : Prop where
  chain : ∀ b < N, Chain h (.head b) (B b)
  empty : ∀ b, N ≤ b → B b = []
  disjoint : ∀ b₁ b₂ n, n ∈ B b₁ → n ∈ B b₂ → b₁ = b₂
  unhashed : ∀ n, (∀ b, n ∉ B b) → (h.node n).pprev = none

namespace Rep

variable {h : Hlist} {N : Nat} {B : Nat → List Nat}

theorem lt_of_mem {b n : Nat} (hr : Rep h N B) (hn : n ∈ B b) : b < N := by
  by_contra hb
  simp [hr.empty b (by omega)] at hn

/-- A node is hashed exactly when it is on some bucket. -/
theorem hashed_iff (hr : Rep h N B) (n : Nat) : (h.node n).pprev ≠ none ↔ ∃ b, n ∈ B b := by
  constructor
  · intro hn
    by_contra hno
    exact hn (hr.unhashed n fun b hb => hno ⟨b, hb⟩)
  · rintro ⟨b, hb⟩
    exact (hr.chain b (hr.lt_of_mem hb)).pprev_ne_none hb

/-- `hlist_add_head_rcu` of an unhashed node pushes it onto its bucket. -/
theorem addHeadRcu {n b : Nat} (hr : Rep h N B) (hb : b < N) (hn : ∀ b, n ∉ B b) :
    Rep (h.addHeadRcu n b) N (Function.update B b (n :: B b)) := by
  have hfirst : ∀ m, h.first b = some m → m ∈ B b := fun m hm =>
    (hr.chain b hb).mem_of_load (by simpa using hm)
  have hfn : h.first b ≠ some n := fun e => hn b (hfirst n e)
  have hload := Hlist.load_addHeadRcu h n b
  have hpprev := Hlist.pprev_addHeadRcu h n b
  refine ⟨fun b' hb' => ?_, fun b' hb' => ?_, fun b₁ b₂ m h₁ h₂ => ?_, fun m hm => ?_⟩
  · by_cases e : b' = b
    · subst e
      rw [Function.update_same]
      have hc := hr.chain b' hb'
      have hnd := hc.nodup
      refine .cons (by rw [hload]; simp) (by rw [hpprev]; simp [hfn]) ?_
      have hnb := hn b'
      generalize B b' = L at hc hnd hnb
      obtain _ | ⟨h0, hpm, hL⟩ := hc
      · exact .nil (by rw [hload]; simpa using ‹h.load (.head b') = none›)
      · rename_i m L
        have h0' : h.first b' = some m := h0
        have hmn : m ≠ n := fun e => hnb (by simp [e])
        refine .cons (by rw [hload]; simpa using h0) (by rw [hpprev, if_pos h0']) ?_
        refine hL.congr (by rw [hload]; simp [hmn]) fun k hk => ?_
        have hkn : k ≠ n := fun e => hnb (e ▸ List.mem_cons_of_mem _ hk)
        have hkm : h.first b' ≠ some k := fun e => by
          rw [h0'] at e
          cases e
          exact (List.nodup_cons.1 hnd).1 hk
        exact ⟨by rw [hload]; simp [hkn], by rw [hpprev]; simp [hkm, hkn]⟩
    · rw [Function.update_noteq e]
      refine (hr.chain b' hb').congr (by rw [hload]; simp [e]) fun k hk => ?_
      have hkn : k ≠ n := fun e' => hn b' (e' ▸ hk)
      have hkf : h.first b ≠ some k := fun e' => e (hr.disjoint _ _ k hk (hfirst k e'))
      exact ⟨by rw [hload]; simp [hkn], by rw [hpprev]; simp [hkf, hkn]⟩
  · have : b' ≠ b := by omega
    rw [Function.update_noteq this, hr.empty b' hb']
  · rcases mem_update_cons.1 h₁ with ⟨rfl, rfl⟩ | h₁' <;>
      rcases mem_update_cons.1 h₂ with ⟨e, rfl⟩ | h₂'
    · rfl
    · exact absurd h₂' (hn _)
    · exact absurd (e ▸ h₁') (hn _)
    · exact hr.disjoint _ _ _ h₁' h₂'
  · have hmn : m ≠ n := fun e => hm b (by simp [e])
    have hmB : ∀ b', m ∉ B b' := fun b' hb' => hm b' (mem_update_cons.2 (.inr hb'))
    have hmf : h.first b ≠ some m := fun e => hmB b (hfirst m e)
    rw [hpprev]; simp [hmf, hmn, hr.unhashed m hmB]

/-- After a removal, a bucket holds what it held, less the removed node. -/
theorem mem_erase_iff {n b b' m : Nat} (hr : Rep h N B) (hn : n ∈ B b) :
    m ∈ Function.update B b ((B b).erase n) b' ↔ m ≠ n ∧ m ∈ B b' := by
  by_cases e : b' = b
  · subst e
    rw [Function.update_same, ((hr.chain b' (hr.lt_of_mem hn)).nodup).mem_erase_iff]
  · rw [Function.update_noteq e]
    exact ⟨fun hm => ⟨fun e' => e (hr.disjoint _ _ n (e' ▸ hm) hn), hm⟩, And.right⟩

/-- `hlist_del_rcu` of a node on bucket `b` erases it from that bucket and keeps its `next`. -/
theorem delRcu {n b : Nat} (hr : Rep h N B) (hn : n ∈ B b) :
    ∃ h', h.delRcu n = some h' ∧ Rep h' N (Function.update B b ((B b).erase n)) ∧
      (h'.node n).next = (h.node n).next := by
  have hb := hr.lt_of_mem hn
  have hc := hr.chain b hb
  obtain ⟨p, hp⟩ : ∃ p, (h.node n).pprev = some p :=
    Option.ne_none_iff_exists'.1 (hc.pprev_ne_none hn)
  obtain ⟨h', hd⟩ := Hlist.delRcu_of_pprev hp
  have hload := Hlist.load_of_delRcu hd hp
  have hpprev := Hlist.pprev_of_delRcu hd hp
  obtain ⟨A, C, hAC⟩ := List.append_of_mem hn
  have hnd := hc.nodup
  rw [hAC] at hnd hc
  have hnA : n ∉ A := fun hA => (List.nodup_append.1 hnd).2.2 hA (List.mem_cons_self n C)
  have herase : (B b).erase n = A ++ C := by
    rw [hAC, List.erase_append_right _ hnA, List.erase_cons_head]
  have hpb : p = .head b ∨ ∃ k ∈ B b, p = .node k := by
    rcases hc.pprev_mem (n := n) (by simp) with e | ⟨k, hk, e⟩
    · exact .inl (Option.some.inj (hp.symm.trans e))
    · exact .inr ⟨k, hAC ▸ hk, Option.some.inj (hp.symm.trans e)⟩
  have hnext : ∀ m, (h.node n).next = some m → m ∈ B b := fun m hm => by
    rw [hAC]; simp [hc.suffix.mem_of_load (by simpa using hm)]
  refine ⟨h', hd, ⟨fun b' hb' => ?_, fun b' hb' => ?_, fun b₁ b₂ m h₁ h₂ => ?_, fun m hm => ?_⟩,
    Hlist.next_of_delRcu hd⟩
  · by_cases e : b' = b
    · subst e; rw [Function.update_same, herase]; exact hc.delRcu hd
    · rw [Function.update_noteq e]
      refine (hr.chain b' hb').congr ?_ fun k hk => ?_
      · rw [hload, if_neg (by rcases hpb with rfl | ⟨k, _, rfl⟩ <;> simp [e])]
      · have hkn : k ≠ n := fun e' => e (hr.disjoint _ _ n (e' ▸ hk) hn)
        have hkx : (h.node n).next ≠ some k := fun e' => e (hr.disjoint _ _ k hk (hnext k e'))
        have hkp : Link.node k ≠ p := by
          rcases hpb with rfl | ⟨k', hk', rfl⟩
          · simp
          · simp only [ne_eq, Link.node.injEq]
            rintro rfl
            exact e (hr.disjoint _ _ k hk hk')
        exact ⟨by rw [hload, if_neg hkp], by rw [hpprev]; simp [hkn, hkx]⟩
  · have : b' ≠ b := by omega
    rw [Function.update_noteq this, hr.empty b' hb']
  · exact hr.disjoint _ _ _ ((hr.mem_erase_iff hn).1 h₁).2 ((hr.mem_erase_iff hn).1 h₂).2
  · rw [hpprev]
    by_cases e : m = n
    · simp [e]
    · have hmB : ∀ b', m ∉ B b' := fun b' hb' => hm b' ((hr.mem_erase_iff hn).2 ⟨e, hb'⟩)
      have hx : (h.node n).next ≠ some m := fun e' => hmB b (hnext m e')
      simp [e, hx, hr.unhashed m hmB]

/-- After `hlist_del_rcu` of a node on the table, the hashed nodes are the others that were. -/
theorem hashed_delRcu {n b : Nat} {h' : Hlist} (hr : Rep h N B) (hn : n ∈ B b)
    (hd : h.delRcu n = some h') (m : Nat) :
    (h'.node m).pprev ≠ none ↔ m ≠ n ∧ (h.node m).pprev ≠ none := by
  obtain ⟨h'', hd', hr', -⟩ := hr.delRcu hn
  obtain rfl : h'' = h' := Option.some.inj (hd'.symm.trans hd)
  simp only [hr'.hashed_iff, hr.hashed_iff, hr.mem_erase_iff hn]
  exact ⟨fun ⟨b, hm, hb⟩ => ⟨hm, b, hb⟩, fun ⟨hm, b, hb⟩ => ⟨b, hm, hb⟩⟩

/-- Zeroing the links of a node on no bucket keeps every bucket. -/
theorem clear {n : Nat} (hr : Rep h N B) (hn : ∀ b, n ∉ B b) : Rep (h.clear n) N B := by
  refine ⟨fun b hb => (hr.chain b hb).congr rfl fun k hk => ?_, hr.empty, hr.disjoint,
    fun m hm => ?_⟩
  · have hkn : k ≠ n := fun e => hn b (e ▸ hk)
    simp [Hlist.clear, hkn]
  · by_cases e : m = n
    · simp [Hlist.clear, e]
    · simp [Hlist.clear, e, hr.unhashed m hm]

end Rep

end Homa
