import Mathlib.Logic.Function.Basic
import Mathlib.Data.List.Nodup
import Mathlib.Data.List.Infix

/-!
# `struct list_head` rings

A socket's `active_rpcs` and `interests` are kernel lists: circular, doubly linked through a
`struct list_head` in the socket and one in each element. The model keeps both pointers of every
node. `Ring.IsList r L` says that the ring from the head visits the elements `L`, each once, with
every `prev` pointing back. The primitives of `include/linux/list.h` that the shutdown uses are
written as they are there: `__list_del_entry`; `list_del_rcu`, which leaves the entry's `next` for
RCU readers and poisons its `prev`; and `list_del_init`, which links the entry to itself.

Removing any element keeps a list a list (`IsList.del`). `list_del_init` of a self-linked entry
changes nothing (`listDelInit_of_selfLinked`): that is why a second `list_del_init` of the same
interest, by `homa_interest_unlink_shared` after the shutdown took it off, does no harm.
-/

namespace Homa

/-- A pointer to a `struct list_head`: the list head in the socket, the links of element `i`, or
`LIST_POISON2`. -/
inductive Node where
  | head
  | elem (i : Nat)
  | poison
  deriving DecidableEq, Repr

/-- The `next` and `prev` pointers of one list's nodes. -/
structure Ring where
  next : Node → Node
  prev : Node → Node

namespace Ring

/-- `__list_del_entry(e)`: `next->prev = prev; prev->next = next`. -/
def listDel (r : Ring) (e : Node) : Ring :=
  ⟨Function.update r.next (r.prev e) (r.next e), Function.update r.prev (r.next e) (r.prev e)⟩

/-- `list_del_rcu(e)`: unlinked, with `next` kept for readers and `prev = LIST_POISON2`. -/
def listDelRcu (r : Ring) (e : Node) : Ring :=
  ⟨(r.listDel e).next, Function.update (r.listDel e).prev e .poison⟩

/-- `list_del_init(e)`: unlinked and linked to itself. -/
def listDelInit (r : Ring) (e : Node) : Ring :=
  ⟨Function.update (r.listDel e).next e e, Function.update (r.listDel e).prev e e⟩

/-- `list_empty(e)`. -/
def listEmpty (r : Ring) (e : Node) : Bool := r.next e = e

/-- A node linked to itself, as `INIT_LIST_HEAD` and `list_del_init` leave it. -/
def SelfLinked (r : Ring) (e : Node) : Prop := r.next e = e ∧ r.prev e = e

theorem listDel_next (r : Ring) (e x : Node) :
    (r.listDel e).next x = if x = r.prev e then r.next e else r.next x := by
  simp [listDel, Function.update_apply]

theorem listDel_prev (r : Ring) (e x : Node) :
    (r.listDel e).prev x = if x = r.next e then r.prev e else r.prev x := by
  simp [listDel, Function.update_apply]

/-- `Path r a L b`: from node `a`, `next` runs through the elements `L` to `b`, and every `prev`
points back. -/
inductive Path (r : Ring) : Node → List Nat → Node → Prop
  | last {a b : Node} : r.next a = b → r.prev b = a → Path r a [] b
  | cons {a : Node} {i : Nat} {L : List Nat} {b : Node} :
      r.next a = .elem i → r.prev (.elem i) = a → Path r (.elem i) L b → Path r a (i :: L) b

/-- The list at `head` holds the elements `L`, in order, each once. -/
def IsList (r : Ring) (L : List Nat) : Prop := r.Path .head L .head ∧ L.Nodup

section path

variable {r r' : Ring} {a b : Node} {L : List Nat}

/-- A path reads `next` at its start and its elements, and `prev` at its elements and its end. -/
theorem Path.congr (hp : r.Path a L b)
    (hn : ∀ x, (x = a ∨ ∃ i ∈ L, x = .elem i) → r'.next x = r.next x)
    (hv : ∀ x, (x = b ∨ ∃ i ∈ L, x = .elem i) → r'.prev x = r.prev x) : r'.Path a L b := by
  induction hp with
  | last h1 h2 => exact .last ((hn _ (.inl rfl)).trans h1) ((hv _ (.inl rfl)).trans h2)
  | @cons a i L b h1 h2 _ ih =>
    refine .cons ((hn _ (.inl rfl)).trans h1)
      ((hv _ (.inr ⟨i, List.mem_cons_self _ _, rfl⟩)).trans h2) (ih ?_ ?_)
    · rintro x (rfl | ⟨j, hj, rfl⟩)
      · exact hn _ (.inr ⟨i, List.mem_cons_self _ _, rfl⟩)
      · exact hn _ (.inr ⟨j, List.mem_cons_of_mem _ hj, rfl⟩)
    · rintro x (rfl | ⟨j, hj, rfl⟩)
      · exact hv _ (.inl rfl)
      · exact hv _ (.inr ⟨j, List.mem_cons_of_mem _ hj, rfl⟩)

/-- The node before an element of a path is its start or an element before it. -/
theorem Path.prev_mem {A B : List Nat} {i : Nat} (hp : r.Path a (A ++ i :: B) b) :
    r.prev (.elem i) = a ∨ ∃ j ∈ A, r.prev (.elem i) = .elem j := by
  induction A generalizing a with
  | nil => cases hp with | cons _ h _ => exact .inl h
  | cons x A ih =>
    cases hp with
    | cons _ _ hp =>
      rcases ih hp with h | ⟨j, hj, h⟩
      · exact .inr ⟨x, List.mem_cons_self _ _, h⟩
      · exact .inr ⟨j, List.mem_cons_of_mem _ hj, h⟩

/-- The node after an element of a path is an element after it or its end. -/
theorem Path.next_mem {A B : List Nat} {i : Nat} (hp : r.Path a (A ++ i :: B) b) :
    r.next (.elem i) = b ∨ ∃ j ∈ B, r.next (.elem i) = .elem j := by
  induction A generalizing a with
  | nil =>
    cases hp with
    | cons _ _ hp =>
      cases hp with
      | last h _ => exact .inl h
      | @cons _ j _ _ h _ _ => exact .inr ⟨j, List.mem_cons_self _ _, h⟩
  | cons x A ih => cases hp with | cons _ _ hp => exact ih hp

/-- Taking an element off a path with `__list_del_entry` leaves a path through the others. -/
theorem Path.del {A B : List Nat} {i : Nat} (hp : r.Path a (A ++ i :: B) b)
    (hnd : (A ++ i :: B).Nodup) (ha : ∀ j ∈ A ++ i :: B, a ≠ .elem j)
    (hb : ∀ j ∈ A ++ i :: B, b ≠ .elem j) : (r.listDel (.elem i)).Path a (A ++ B) b := by
  induction A generalizing a with
  | nil =>
    cases hp with
    | cons hn hv hp =>
      cases hp with
      | last hn' hv' =>
        exact .last (by simp [listDel_next, hv, hn']) (by simp [listDel_prev, hn', hv])
      | @cons _ j B _ hn' hv' hp =>
        refine .cons (by simp [listDel_next, hv, hn']) (by simp [listDel_prev, hn', hv]) ?_
        refine hp.congr (fun x hx => ?_) (fun x hx => ?_)
        · have hxa : x ≠ a := by
            rcases hx with rfl | ⟨k, hk, rfl⟩
            · exact fun e => ha j (by simp) e.symm
            · exact fun e => ha k (by simp [hk]) e.symm
          rw [listDel_next, hv, if_neg hxa]
        · have hxj : x ≠ .elem j := by
            rcases hx with rfl | ⟨k, hk, rfl⟩
            · exact hb j (by simp)
            · intro e; cases e
              exact (List.nodup_cons.1 (List.nodup_cons.1 hnd).2).1 hk
          rw [listDel_prev, hn', if_neg hxj]
  | cons x A ih =>
    cases hp with
    | cons hn hv hp =>
      have hnd' := List.nodup_cons.1 hnd
      refine .cons ?_ ?_ (ih hp hnd'.2 (fun j hj e => hnd'.1 (by cases e; exact hj))
        fun j hj => hb j (List.mem_cons_of_mem _ hj))
      · rw [listDel_next, if_neg]; exact hn
        rintro e
        rcases hp.prev_mem with h | ⟨k, hk, h⟩
        · rw [h] at e; exact ha x (List.mem_cons_self _ _) e
        · rw [h] at e; exact ha k (by simp [hk]) e
      · rw [listDel_prev, if_neg]; exact hv
        rintro e
        rcases hp.next_mem with h | ⟨k, hk, h⟩
        · rw [h] at e; exact hb x (List.mem_cons_self _ _) e.symm
        · rw [h] at e; cases e; exact hnd'.1 (by simp [hk])

/-- Two paths between the same nodes visit the same elements, when the end is no element. -/
theorem Path.unique {M : List Nat} (hp : r.Path a L b) (hq : r.Path a M b)
    (hb : ∀ j, b ≠ .elem j) : L = M := by
  induction hp generalizing M with
  | last h _ =>
    cases hq with
    | last => rfl
    | cons h' => exact absurd (h.symm.trans h') (hb _)
  | cons h _ _ ih =>
    cases hq with
    | last h' => exact absurd (h'.symm.trans h) (hb _)
    | cons h' _ hq => rw [h] at h'; cases h'; rw [ih hq hb]

end path

theorem listDelInit_next (r : Ring) (e x : Node) :
    (r.listDelInit e).next x = if x = e then e else (r.listDel e).next x := by
  simp [listDelInit, Function.update_apply]

theorem listDelInit_prev (r : Ring) (e x : Node) :
    (r.listDelInit e).prev x = if x = e then e else (r.listDel e).prev x := by
  simp [listDelInit, Function.update_apply]

theorem selfLinked_listDelInit (r : Ring) (e : Node) : (r.listDelInit e).SelfLinked e := by
  simp [SelfLinked, listDelInit_next, listDelInit_prev]

/-- `list_del_init` of an entry already linked to itself changes nothing. -/
theorem listDelInit_of_selfLinked {r : Ring} {e : Node} (h : r.SelfLinked e) :
    r.listDelInit e = r := by
  obtain ⟨hn, hp⟩ := h
  cases r
  simp only at hn hp
  simp only [listDelInit, listDel, hn, hp, Function.update_idem, Ring.mk.injEq]
  constructor <;> funext x <;> by_cases hx : x = e <;> simp [Function.update_apply, hx, hn, hp]

/-- `list_del_init` keeps another node linked to itself unless that node is a neighbour of the
entry. -/
theorem SelfLinked.listDelInit {r : Ring} {x e : Node} (hx : r.SelfLinked x)
    (hp : x ≠ r.prev e) (hn : x ≠ r.next e) : (r.listDelInit e).SelfLinked x := by
  by_cases hxe : x = e
  · subst hxe; exact selfLinked_listDelInit r x
  · exact ⟨by rw [listDelInit_next, if_neg hxe, listDel_next, if_neg hp, hx.1],
      by rw [listDelInit_prev, if_neg hxe, listDel_prev, if_neg hn, hx.2]⟩

section list

variable {r : Ring} {L A B : List Nat} {i : Nat}

theorem IsList.listDel (h : r.IsList (A ++ i :: B)) : (r.listDel (.elem i)).IsList (A ++ B) :=
  ⟨h.1.del h.2 (fun _ _ => by simp) (fun _ _ => by simp), (List.nodup_middle.1 h.2).of_cons⟩

/-- The elements left after a removal are not the removed one, nor the head. -/
private theorem path_avoids (h : r.IsList (A ++ i :: B)) :
    ∀ x : Node, (x = .head ∨ ∃ j ∈ A ++ B, x = .elem j) → x ≠ .elem i := by
  rintro x (rfl | ⟨j, hj, rfl⟩) e
  · cases e
  · cases e; exact (List.nodup_cons.1 (List.nodup_middle.1 h.2)).1 hj

/-- `list_del_rcu` takes an element off a list. -/
theorem IsList.listDelRcu (h : r.IsList (A ++ i :: B)) :
    (r.listDelRcu (.elem i)).IsList (A ++ B) :=
  ⟨h.listDel.1.congr (fun _ _ => rfl) fun x hx => by
      simp [Ring.listDelRcu, Function.update_apply, path_avoids h x hx],
    h.listDel.2⟩

/-- `list_del_init` takes an element off a list. -/
theorem IsList.listDelInit (h : r.IsList (A ++ i :: B)) :
    (r.listDelInit (.elem i)).IsList (A ++ B) :=
  ⟨h.listDel.1.congr (fun x hx => by rw [listDelInit_next, if_neg (path_avoids h x hx)])
      fun x hx => by rw [listDelInit_prev, if_neg (path_avoids h x hx)],
    h.listDel.2⟩

theorem IsList.unique {M : List Nat} (h : r.IsList L) (h' : r.IsList M) : L = M :=
  h.1.unique h'.1 fun _ => by simp

theorem IsList.next_head_cons (h : r.IsList (i :: L)) : r.next .head = .elem i := by
  cases h.1 with | cons hn _ _ => exact hn

theorem IsList.next_head_nil (h : r.IsList []) : r.next .head = .head := by
  cases h.1 with | last hn _ => exact hn

/-- `list_empty(head)` tells whether the list has no element. -/
theorem IsList.listEmpty_iff (h : r.IsList L) : r.listEmpty .head ↔ L = [] := by
  cases L with
  | nil => simp [listEmpty, h.next_head_nil]
  | cons i L => simp [listEmpty, h.next_head_cons]

/-- `list_del_init` of an element keeps every node outside the list linked to itself. -/
theorem IsList.selfLinked_listDelInit (h : r.IsList (A ++ i :: B)) {j : Nat}
    (hj : j ∉ A ++ i :: B) (hs : r.SelfLinked (.elem j)) :
    (r.listDelInit (.elem i)).SelfLinked (.elem j) := by
  refine hs.listDelInit ?_ ?_
  · rcases h.1.prev_mem with e | ⟨k, hk, e⟩ <;> rw [e] <;> intro e' <;> cases e'
    exact hj (by simp [hk])
  · rcases h.1.next_mem with e | ⟨k, hk, e⟩ <;> rw [e] <;> intro e' <;> cases e'
    exact hj (by simp [hk])

end list

end Ring

end Homa
