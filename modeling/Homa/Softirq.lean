import Mathlib.Data.List.Perm.Basic
import Mathlib.Data.List.Nodup
import Mathlib.Data.List.Sublists

/-!
# Packet intake: `homa_softirq`

`homa_softirq` gets one skb whose `frag_list` holds the packets GRO merged with it, and splits the
chain with pointer-to-pointer surgery in two loops. The first loop walks the chain once: packets it
cannot use are unlinked and freed, control packets and short DATA messages are unlinked and
dispatched on their own, and the long DATA packets stay behind. The second loop takes the first
packet left, moves every packet with its sender id and source address behind it, the others onto
a second list, dispatches the batch, and starts over on the other list.

The model keeps the pointers: a `SkbHeap` is the two locals `packets` and `other_pkts` and the
`next` field of every skb, and `prev_link` and `other_link` are `Loc`s. `Seg` and `Walk` describe
the lists the pointers form; the stores of the loops keep them where the code's comments say. The
result is compared with list functions: `firstEvent`, applied packet by packet, for the first loop,
and the stable group-by `batches` for the second (`homaSoftirq_spec`).
-/

namespace Homa

/-! ### Packets -/

/-- `DATA` of `enum homa_packet_type`, which lives in `homa_wire.h` outside the source. The codes
from `DATA` to `MAX_OP` are the nine types whose sizes `header_lengths` lists, in its order. -/
def typeData : Nat := 0x10

/-- `FREEZE`, the seventh entry of `header_lengths`. -/
def typeFreeze : Nat := 0x16

/-- `MAX_OP`, the code of `ACK`, the last entry of `header_lengths`. -/
def maxOp : Nat := 0x18

/-- The header sizes `homa_softirq` checks against, from structs outside the source:
`sizeof(struct homa_common_hdr)` and the nine entries of `header_lengths`. -/
structure WireSizes where
  commonHdr : Nat
  headerLengths : List Nat
  headerLengths_length : headerLengths.length = 9

/-- The fields of a packet that `homa_softirq` reads. -/
structure Packet where
  /-- `homa_make_header_avl(skb)` succeeds. -/
  headerAvl : Bool
  /-- `skb->len`, once the transport header is at `skb->data`. -/
  len : Nat
  /-- `h->type`. -/
  type : Nat
  /-- `ntohl(message_length)` of a DATA header. -/
  messageLength : Nat
  /-- `h->sender_id`. -/
  senderId : Nat
  /-- `skb_canonical_ipv6_saddr(skb)`. -/
  saddr : Nat
  deriving DecidableEq, Repr

/-- What the first loop does with a packet. -/
inductive Verdict where
  | discard
  | shortcut
  | keep
  deriving DecidableEq, Repr

/-- The length test of the first loop; `none` where `header_lengths` would be read out of bounds. -/
def tooShort (ws : WireSizes) (p : Packet) : Option Bool :=
  if p.len < ws.commonHdr || p.type < typeData || maxOp < p.type then some true
  else (ws.headerLengths[p.type - typeData]?).map (p.len < ·)

/-- The tests of the first loop on one packet: `goto discard`, the shortcut to
`homa_dispatch_pkts`, or left on the list. -/
def verdict (ws : WireSizes) (p : Packet) : Option Verdict :=
  if !p.headerAvl then some .discard
  else match tooShort ws p with
    | none => none
    | some true => some .discard
    | some false =>
      if p.type = typeFreeze then some .discard
      else if p.type ≠ typeData ∨ p.messageLength < 1400 then some .shortcut
      else some .keep

/-- A call `homa_softirq` makes on packets: `kfree_skb`, or `homa_dispatch_pkts` on a chain. -/
inductive Event where
  | free (skb : Nat)
  | dispatch (batch : List Nat)
  deriving DecidableEq, Repr

/-- The packets an event hands on. -/
def Event.skbs : Event → List Nat
  | .free skb => [skb]
  | .dispatch batch => batch

@[simp] theorem Event.skbs_dispatch (batch : List Nat) : (Event.dispatch batch).skbs = batch := rfl

/-! ### Pointers -/

/-- A location holding an skb pointer: the locals `packets` and `other_pkts`, or an skb's `next`. -/
inductive Loc where
  | packets
  | otherPkts
  | next (skb : Nat)
  deriving DecidableEq, Repr

/-- The pointers `homa_softirq` reads and writes. -/
structure SkbHeap where
  packets : Option Nat
  otherPkts : Option Nat
  next : Nat → Option Nat

namespace SkbHeap

def load (h : SkbHeap) : Loc → Option Nat
  | .packets => h.packets
  | .otherPkts => h.otherPkts
  | .next n => h.next n

/-- `*l = v`. -/
def store (h : SkbHeap) (l : Loc) (v : Option Nat) : SkbHeap :=
  match l with
  | .packets => { h with packets := v }
  | .otherPkts => { h with otherPkts := v }
  | .next n => { h with next := Function.update h.next n v }

/-- The chain `homa_dispatch_pkts` walks from `p`, for at most `fuel` packets. -/
def walk (h : SkbHeap) : Option Nat → Nat → List Nat
  | none, _ => []
  | some _, 0 => []
  | some n, fuel + 1 => n :: h.walk (h.next n) fuel

@[simp] theorem load_packets (h : SkbHeap) : h.load .packets = h.packets := rfl

@[simp] theorem load_otherPkts (h : SkbHeap) : h.load .otherPkts = h.otherPkts := rfl

@[simp] theorem load_next (h : SkbHeap) (n : Nat) : h.load (.next n) = h.next n := rfl

@[simp] theorem packets_store_packets (h : SkbHeap) (v : Option Nat) :
    (h.store .packets v).packets = v := rfl

theorem load_store (h : SkbHeap) (l : Loc) (v : Option Nat) (x : Loc) :
    (h.store l v).load x = if x = l then v else h.load x := by
  cases l <;> cases x <;> simp [store, load, Function.update_apply, eq_comm]

theorem next_store (h : SkbHeap) (l : Loc) (v : Option Nat) (n : Nat) :
    (h.store l v).next n = if Loc.next n = l then v else h.next n :=
  load_store h l v (.next n)

end SkbHeap

/-! ### The two loops -/

variable (ws : WireSizes) (pkt : Nat → Packet)

/-- The first `for` loop of `homa_softirq` from `skb`, with `prev_link` at `prevLink`, for at most
`fuel` packets. -/
def firstLoop : Nat → SkbHeap → Loc → List Event → Option Nat → Option (SkbHeap × List Event)
  | _, h, _, ev, none => some (h, ev)
  | 0, _, _, _, some _ => none
  | fuel + 1, h, prevLink, ev, some skb =>
    let next := h.next skb
    match verdict ws (pkt skb) with
    | none => none
    | some .discard => firstLoop fuel (h.store prevLink (h.next skb)) prevLink (ev ++ [.free skb]) next
    | some .shortcut =>
      let h := (h.store prevLink (h.next skb)).store (.next skb) none
      firstLoop fuel h prevLink (ev ++ [.dispatch (h.walk (some skb) (fuel + 1))]) next
    | some .keep => firstLoop fuel h (.next skb) ev next

/-- The key the second loop groups by: `h->sender_id` and the canonical source address. -/
def packetKey (n : Nat) : Nat × Nat := ((pkt n).senderId, (pkt n).saddr)

/-- The inner `for` loop of the second loop, from `skb2`, with `prev_link` at `prevLink` and
`other_link` at `otherLink`, for at most `fuel` packets. -/
def splitLoop (key : Nat × Nat) : Nat → SkbHeap → Loc → Loc → Option Nat →
    Option (SkbHeap × Loc × Loc)
  | _, h, prevLink, otherLink, none => some (h, prevLink, otherLink)
  | 0, _, _, _, some _ => none
  | fuel + 1, h, prevLink, otherLink, some skb2 =>
    let next := h.next skb2
    if (pkt skb2).senderId = key.1 ∧ (pkt skb2).saddr = key.2 then
      splitLoop key fuel (h.store prevLink (some skb2)) (.next skb2) otherLink next
    else splitLoop key fuel (h.store otherLink (some skb2)) prevLink (.next skb2) next

/-- The `while (packets)` loop, for at most `fuel` batches; each inner loop and each dispatched
chain gets at most `bound` packets. -/
def batchLoop (bound : Nat) : Nat → SkbHeap → List Event → Option (List Event)
  | fuel, h, ev =>
    match h.packets with
    | none => some ev
    | some skb =>
      match fuel with
      | 0 => none
      | fuel + 1 =>
        let h := h.store .otherPkts none
        match splitLoop pkt (packetKey pkt skb) bound h (.next skb) .otherPkts (h.next skb) with
        | none => none
        | some (h, prevLink, otherLink) =>
          let h := (h.store prevLink none).store otherLink none
          batchLoop bound fuel (h.store .packets h.otherPkts) (ev ++ [.dispatch (h.walk (some skb) bound)])

/-- `homa_softirq(skb)` on a chain of at most `fuel` packets: the calls it makes on them, in
order. `none` when a loop runs out of fuel or `header_lengths` is read out of bounds. -/
def homaSoftirq (fuel : Nat) (h : SkbHeap) (skb : Nat) (fragList : Option Nat) :
    Option (List Event) :=
  let h := h.store (.next skb) fragList
  let h := h.store .packets (some skb)
  match firstLoop ws pkt fuel h .packets [] h.packets with
  | none => none
  | some (h, ev) => batchLoop pkt fuel fuel h ev

/-! ### Lists of skbs -/

/-- `Seg h l L e`: from location `l` the pointers lead through the skbs `L`, and `e` is the
location after the last of them (`l` itself when `L` is empty). -/
inductive Seg (h : SkbHeap) : Loc → List Nat → Loc → Prop
  | nil (l : Loc) : Seg h l [] l
  | cons {l : Loc} {n : Nat} {L : List Nat} {e : Loc} :
      h.load l = some n → Seg h (.next n) L e → Seg h l (n :: L) e

/-- `Walk h p L`: following `next` from the pointer `p` visits `L` and reaches NULL. -/
inductive Walk (h : SkbHeap) : Option Nat → List Nat → Prop
  | nil : Walk h none []
  | cons {n : Nat} {L : List Nat} : Walk h (h.next n) L → Walk h (some n) (n :: L)

/-- The locations the loops start their lists at, which no skb's `next` is. -/
def Loc.IsRoot : Loc → Prop
  | .next _ => False
  | _ => True

namespace Seg

variable {h : SkbHeap} {l e x : Loc} {L : List Nat} {v : Option Nat}

theorem snoc {n : Nat} (hs : Seg h l L e) (he : h.load e = some n) :
    Seg h l (L ++ [n]) (.next n) := by
  induction hs with
  | nil => exact .cons he (.nil _)
  | cons hl _ ih => exact .cons hl (ih he)

/-- A segment followed by a walk from its end is a walk. -/
theorem walk {M : List Nat} (hs : Seg h l L e) (hw : Walk h (h.load e) M) :
    Walk h (h.load l) (L ++ M) := by
  induction hs with
  | nil => exact hw
  | cons hl _ ih => rw [hl]; exact .cons (ih hw)

/-- The end of a nonempty segment is the `next` of one of its skbs. -/
theorem end_mem (hs : Seg h l L e) (hL : L ≠ []) : ∃ n ∈ L, e = .next n := by
  induction hs with
  | nil => exact absurd rfl hL
  | @cons _ n L _ _ hs ih =>
    cases hs with
    | nil => exact ⟨n, List.mem_cons_self _ _, rfl⟩
    | cons h1 h2 =>
      obtain ⟨m, hm, rfl⟩ := ih (List.cons_ne_nil _ _)
      exact ⟨m, List.mem_cons_of_mem _ hm, rfl⟩

/-- A store at a location the segment does not read keeps it. -/
theorem store_of_ne (hs : Seg h l L e) (hl : x ≠ l) (hx : ∀ n ∈ L, x ≠ .next n) :
    Seg (h.store x v) l L e := by
  induction hs with
  | nil => exact .nil _
  | cons h1 _ ih =>
    refine .cons (by rw [SkbHeap.load_store, if_neg hl.symm]; exact h1) ?_
    exact ih (hx _ (List.mem_cons_self _ _)) fun n hn => hx n (List.mem_cons_of_mem _ hn)

/-- A store at the end of a segment of distinct skbs from a root keeps the segment. -/
theorem store_end (hs : Seg h l L e) (hnd : L.Nodup) (hl : ∀ n ∈ L, l ≠ .next n) :
    Seg (h.store e v) l L e := by
  induction hs with
  | nil => exact .nil _
  | @cons l n L e h1 hs ih =>
    have hnd' := List.nodup_cons.1 hnd
    have hle : e ≠ l := by
      by_cases hL : L = []
      · subst hL; cases hs; exact (hl n (List.mem_cons_self _ _)).symm
      · obtain ⟨m, hm, rfl⟩ := hs.end_mem hL
        exact (hl m (List.mem_cons_of_mem _ hm)).symm
    refine .cons (by rw [SkbHeap.load_store, if_neg hle.symm]; exact h1) (ih hnd'.2 fun m hm e' => ?_)
    cases e'
    exact hnd'.1 hm

theorem ends_of_root (hs : Seg h l L e) (hr : l.IsRoot) : ∀ n ∈ L, l ≠ .next n := by
  rintro n - rfl; exact hr

theorem end_eq (hs : Seg h l L e) : e = l ∨ ∃ n ∈ L, e = .next n := by
  by_cases hL : L = []
  · subst hL; cases hs; exact .inl rfl
  · exact .inr (hs.end_mem hL)

/-- A segment's first skb is what its start holds. -/
theorem head {n : Nat} (hs : Seg h l (n :: L) e) : h.load l = some n := by
  cases hs with | cons hl _ => exact hl

/-- A segment whose end holds NULL is a walk. -/
theorem walk_nil (hs : Seg h l L e) (he : h.load e = none) : Walk h (h.load l) L := by
  simpa using hs.walk (M := []) (by rw [he]; exact .nil)

/-- The end of a segment from a root is no `next` of an skb outside it. -/
theorem end_ne (hs : Seg h l L e) (hr : l.IsRoot) {r : Nat} (hrL : r ∉ L) : e ≠ .next r := by
  by_cases hL : L = []
  · subst hL; cases hs; rintro rfl; exact hr
  · obtain ⟨k, hk, rfl⟩ := hs.end_mem hL
    rintro ⟨⟩; exact hrL hk

end Seg

namespace Walk

variable {h : SkbHeap} {p : Option Nat} {L : List Nat}

/-- A store at a location the walk does not read keeps it. -/
theorem store (hw : Walk h p L) {x : Loc} {v : Option Nat} (hx : ∀ n ∈ L, x ≠ .next n) :
    Walk (h.store x v) p L := by
  induction hw with
  | nil => exact .nil
  | @cons n L _ ih =>
    refine .cons ?_
    rw [SkbHeap.next_store, if_neg (hx n (List.mem_cons_self _ _)).symm]
    exact ih fun m hm => hx m (List.mem_cons_of_mem _ hm)

/-- With enough fuel, `homa_dispatch_pkts`'s walk of a chain visits the chain. -/
theorem walk_eq (hw : Walk h p L) {fuel : Nat} (hf : L.length ≤ fuel) : h.walk p fuel = L := by
  induction hw generalizing fuel with
  | nil => cases fuel <;> rfl
  | cons _ ih =>
    obtain ⟨fuel, rfl⟩ : ∃ f, fuel = f + 1 := ⟨fuel - 1, by simp at hf; omega⟩
    simp only [SkbHeap.walk, ih (by simpa using hf)]

theorem unique {L' : List Nat} (hw : Walk h p L) (hw' : Walk h p L') : L = L' := by
  induction hw generalizing L' with
  | nil => cases hw'; rfl
  | cons _ ih => cases hw' with | cons hw' => rw [ih hw']

theorem suffix {A B : List Nat} {m : Nat} (hw : Walk h p (A ++ m :: B)) :
    Walk h (some m) (m :: B) := by
  induction A generalizing p with
  | nil => cases hw with | cons hw => exact .cons hw
  | cons a A ih => cases hw with | cons hw => exact ih hw

/-- A chain is finite and acyclic: no skb is visited twice. -/
theorem nodup (hw : Walk h p L) : L.Nodup := by
  induction hw with
  | nil => exact List.nodup_nil
  | @cons n L hw ih =>
    refine List.nodup_cons.2 ⟨fun hn => ?_, ih⟩
    obtain ⟨A, B, rfl⟩ := List.append_of_mem hn
    have := congrArg List.length ((Walk.cons hw).unique hw.suffix)
    simp at this
    omega

end Walk

/-! ### What the loops compute -/

/-- What the first loop does with a packet, as a call: `kfree_skb`, or `homa_dispatch_pkts` on the
packet alone; `none` for a packet it leaves on the list. -/
def firstEvent (n : Nat) : Option Event :=
  match verdict ws (pkt n) with
  | some .discard => some (.free n)
  | some .shortcut => some (.dispatch [n])
  | _ => none

/-- The packets the first loop leaves on the list. -/
def kept (n : Nat) : Bool := verdict ws (pkt n) = some .keep

/-- The batches of the second loop as a stable group-by: the first packet with every later packet
of its key, then the batches of the others. -/
def batches (key : Nat → Nat × Nat) : List Nat → List (List Nat)
  | [] => []
  | p :: ps => (p :: ps.filter fun q => key q = key p) :: batches key (ps.filter fun q => key q ≠ key p)
termination_by l => l.length
decreasing_by exact Nat.lt_succ_of_le (List.length_filter_le _ _)

/-- The tests on which the first loop frees a packet, as the source writes them: `goto discard`
when `homa_make_header_avl` fails, when the packet is too short or of a bogus type, and for
`FREEZE`. -/
def Discards (ws : WireSizes) (p : Packet) : Prop :=
  p.headerAvl = false ∨
    (p.len < ws.commonHdr ∨ p.type < typeData ∨ maxOp < p.type ∨
      p.len < ws.headerLengths.getD (p.type - typeData) 0) ∨
    p.type = typeFreeze

instance (p : Packet) : Decidable (Discards ws p) := by
  unfold Discards; infer_instance

/-- The first batch: the first packet and every later one with its key; then the batches of the
others. -/
theorem batches_cons (key : Nat → Nat × Nat) (p : Nat) (ps : List Nat) :
    batches key (p :: ps) = (p :: ps.filter fun q => key q = key p) ::
      batches key (ps.filter fun q => key q ≠ key p) := by
  rw [batches]

/-- The `||` of the length test reads `header_lengths` only in bounds. -/
theorem tooShort_eq (p : Packet) :
    tooShort ws p = some (decide (p.len < ws.commonHdr ∨ p.type < typeData ∨ maxOp < p.type ∨
      p.len < ws.headerLengths.getD (p.type - typeData) 0)) := by
  unfold tooShort
  split_ifs with h
  · simp only [Bool.or_eq_true, decide_eq_true_eq] at h
    simp [or_assoc] at h ⊢; tauto
  · simp only [Bool.or_eq_true, decide_eq_true_eq, not_or] at h
    obtain ⟨⟨h1, h2⟩, h3⟩ := h
    have hi : p.type - typeData < ws.headerLengths.length := by
      rw [ws.headerLengths_length]; simp only [typeData, maxOp] at h2 h3 ⊢; omega
    simp [List.getElem?_eq_getElem hi, List.getD_eq_getElem?_getD, h1, h2, h3]

/-- Every packet gets a verdict: the freed ones, the shortcut, and the long DATA packets. -/
theorem verdict_eq (p : Packet) :
    verdict ws p = some (if Discards ws p then .discard
      else if p.type ≠ typeData ∨ p.messageLength < 1400 then .shortcut else .keep) := by
  unfold verdict Discards
  rw [tooShort_eq]
  by_cases hs : p.len < ws.commonHdr ∨ p.type < typeData ∨ maxOp < p.type ∨
    p.len < ws.headerLengths.getD (p.type - typeData) 0
  · simp only [hs, decide_True, true_or, or_true, ite_true, ite_self]
  · simp only [decide_eq_false hs, hs, false_or]
    by_cases hA : p.headerAvl = true <;> simp only [hA] <;> split_ifs <;> simp_all

/-- The packets `homa_softirq` keeps for the second loop, as the source's tests say: not freed,
and DATA with a `message_length` of at least 1400. -/
def Long (ws : WireSizes) (p : Packet) : Prop :=
  ¬Discards ws p ∧ p.type = typeData ∧ 1400 ≤ p.messageLength

instance (p : Packet) : Decidable (Long ws p) := by
  unfold Long; infer_instance

theorem kept_iff (n : Nat) : kept ws pkt n = true ↔ Long ws (pkt n) := by
  simp only [kept, verdict_eq, Long, decide_eq_true_eq, Option.some.injEq]
  split_ifs <;> simp_all [or_iff_not_imp_left]

/-- What the first loop calls on a packet it does not keep: `kfree_skb` if a test rejects it,
`homa_dispatch_pkts` on it alone if not. -/
def shortEvent (n : Nat) : Event :=
  if Discards ws (pkt n) then .free n else .dispatch [n]

@[simp] theorem shortEvent_skbs (n : Nat) : (shortEvent ws pkt n).skbs = [n] := by
  unfold shortEvent; split <;> rfl

theorem firstEvent_eq (n : Nat) :
    firstEvent ws pkt n = if kept ws pkt n then none else some (shortEvent ws pkt n) := by
  simp only [firstEvent, kept, shortEvent, verdict_eq]
  split_ifs <;> simp_all

/-- The calls of the first loop: one per packet it does not keep, in input order. -/
theorem filterMap_firstEvent (l : List Nat) :
    l.filterMap (firstEvent ws pkt) = (l.filter fun n => !kept ws pkt n).map (shortEvent ws pkt) := by
  induction l with
  | nil => rfl
  | cons n l ih => by_cases hk : kept ws pkt n <;> simp [firstEvent_eq, hk, ih, List.filter_cons]

section batches

variable (key : Nat → Nat × Nat)

/-- Every packet lands in exactly one batch. -/
theorem batches_flatten_perm (L : List Nat) : List.Perm (batches key L).flatten L := by
  induction L using batches.induct key with
  | case1 => simp [batches]
  | case2 p ps ih =>
    rw [batches_cons, List.flatten_cons, List.cons_append]
    refine .cons _ ((ih.append_left _).trans ?_)
    simpa using List.filter_append_perm (fun q => decide (key q = key p)) ps

theorem mem_of_mem_batches {L b : List Nat} (hb : b ∈ batches key L) {x : Nat} (hx : x ∈ b) :
    x ∈ L :=
  (batches_flatten_perm key L).subset (List.mem_flatten.2 ⟨b, hb, hx⟩)

/-- Each batch is the class of one of the packets, in input order. -/
theorem batches_eq_filter (L : List Nat) :
    ∀ b ∈ batches key L, ∃ p ∈ L, b = L.filter fun q => key q = key p := by
  induction L using batches.induct key with
  | case1 => simp [batches]
  | case2 p ps ih =>
    rw [batches_cons]
    rintro b (_ | ⟨_, hb⟩)
    · exact ⟨p, List.mem_cons_self _ _, by simp [List.filter_cons]⟩
    · obtain ⟨r, hr, rfl⟩ := ih b hb
      have hrp : key r ≠ key p := by simpa using (List.mem_filter.1 hr).2
      refine ⟨r, List.mem_cons_of_mem _ (List.mem_filter.1 hr).1, ?_⟩
      rw [List.filter_filter, List.filter_cons_of_neg (by simpa [eq_comm] using hrp)]
      exact List.filter_congr fun x _ => by by_cases hx : key x = key r <;> simp [hx, hrp]

/-- Two batches never share a key. -/
theorem batches_pairwise (L : List Nat) :
    (batches key L).Pairwise fun b b' => ∀ x ∈ b, ∀ y ∈ b', key x ≠ key y := by
  induction L using batches.induct key with
  | case1 => simp [batches]
  | case2 p ps ih =>
    rw [batches_cons, List.pairwise_cons]
    refine ⟨fun b hb x hx y hy => ?_, ih⟩
    have hy : key y ≠ key p := by simpa using (List.mem_filter.1 (mem_of_mem_batches key hb hy)).2
    have hx : key x = key p := by
      rcases List.mem_cons.1 hx with rfl | hx
      · rfl
      · simpa using (List.mem_filter.1 hx).2
    rw [hx]; exact hy.symm

/-- The batches come in the order of their first packets. -/
theorem batches_heads_sublist (L : List Nat) :
    List.Sublist ((batches key L).filterMap List.head?) L := by
  induction L using batches.induct key with
  | case1 => simp [batches]
  | case2 p ps ih =>
    rw [batches_cons]; simp only [List.filterMap_cons, List.head?_cons]
    exact (ih.trans (List.filter_sublist _)).cons_cons p

end batches

section loops

/-- The first loop, from `prev_link` at the end of the packets kept so far and the rest `Rm` of the
chain: it makes the calls `firstEvent` gives, in order, and leaves the kept packets chained from
`packets`. -/
theorem firstLoop_spec {h : SkbHeap} {K Rm : List Nat} {prevLink : Loc} {cur : Option Nat}
    (ev : List Event) {fuel : Nat} (hseg : Seg h .packets K prevLink)
    (hcur : h.load prevLink = cur) (hwalk : Walk h cur Rm) (hnd : (K ++ Rm).Nodup)
    (hf : Rm.length ≤ fuel) :
    ∃ h', firstLoop ws pkt fuel h prevLink ev cur =
        some (h', ev ++ Rm.filterMap (firstEvent ws pkt)) ∧
      Walk h' h'.packets (K ++ Rm.filter (kept ws pkt)) := by
  induction Rm generalizing h K prevLink cur ev fuel with
  | nil =>
    cases hwalk
    refine ⟨h, by cases fuel <;> simp [firstLoop], ?_⟩
    have := hseg.walk (M := []) (by rw [hcur]; exact .nil)
    simpa using this
  | cons c Rm ih =>
    cases hwalk with
    | cons hw =>
    obtain ⟨fuel, rfl⟩ : ∃ f, fuel = f + 1 := ⟨fuel - 1, by simp at hf; omega⟩
    have hf' : Rm.length ≤ fuel := by simpa using hf
    simp only [List.nodup_append, List.nodup_cons, List.mem_cons, List.disjoint_cons_right] at hnd
    obtain ⟨hK, ⟨hcRm, hRm⟩, hcK, hdisj⟩ := hnd
    have hpc : prevLink ≠ .next c := hseg.end_ne trivial hcK
    have hpr : ∀ r ∈ Rm, prevLink ≠ .next r := fun r hr =>
      hseg.end_ne trivial fun hrK => hdisj hrK hr
    have hnd' : (K ++ Rm).Nodup := List.nodup_append.2 ⟨hK, hRm, hdisj⟩
    have hroot := hseg.ends_of_root trivial
    rcases hv : verdict ws (pkt c) with _ | _ | _ | _
    · simp [verdict_eq] at hv
    · -- `goto discard`: unlinked and freed
      obtain ⟨h', e, hw'⟩ := ih (ev ++ [.free c]) (hseg.store_end (v := h.next c) hK hroot)
        (by rw [SkbHeap.load_store, if_pos rfl]) (hw.store hpr) hnd' hf'
      refine ⟨h', ?_, by simpa [kept, hv] using hw'⟩
      simp only [firstLoop, hv, e, List.filterMap_cons, firstEvent, List.append_assoc,
        List.singleton_append]
    · -- the shortcut: unlinked and dispatched alone
      obtain ⟨h', e, hw'⟩ := ih (ev ++ [.dispatch [c]])
        ((hseg.store_end (v := h.next c) hK hroot).store_of_ne (x := .next c) (v := none)
          (by rintro ⟨⟩)
          fun k hk e => hcK (by rwa [Loc.next.inj e]))
        (by simp [SkbHeap.load_store, hpc])
        ((hw.store hpr).store fun r hr e => hcRm (by rwa [Loc.next.inj e])) hnd' hf'
      refine ⟨h', ?_, by simpa [kept, hv] using hw'⟩
      have hwalk1 : ((h.store prevLink (h.next c)).store (.next c) none).walk (some c) (fuel + 1) =
          [c] := by
        simp [SkbHeap.walk, SkbHeap.next_store, SkbHeap.walk]
      simp only [firstLoop, hv, hwalk1, e, List.filterMap_cons, firstEvent, List.append_assoc,
        List.singleton_append]
    · -- left on the list: `prev_link` moves to its `next`
      obtain ⟨h', e, hw'⟩ := ih ev (hseg.snoc (hcur.trans rfl)) rfl hw
        (by simpa using List.nodup_middle.2 (List.nodup_cons.2 ⟨by simp [hcK, hcRm], hnd'⟩)) hf'
      refine ⟨h', ?_, by simpa [kept, hv] using hw'⟩
      simp only [firstLoop, hv, List.filterMap_cons, firstEvent]
      exact e

/-- Moving the packet in front of the rest to the end of the batch or of the others keeps the
three lists apart. -/
private theorem nodup_move {B O Rm : List Nat} {c : Nat} (h : (B ++ O ++ c :: Rm).Nodup) :
    (B ++ [c] ++ O ++ Rm).Nodup ∧ (B ++ (O ++ [c]) ++ Rm).Nodup := by
  have hp : List.Perm (B ++ O ++ c :: Rm) (c :: (B ++ O ++ Rm)) := by
    simpa using @List.perm_middle _ c (B ++ O) Rm
  have h1 : List.Perm (B ++ [c] ++ O ++ Rm) (c :: (B ++ O ++ Rm)) := by
    simp
  have h2 : List.Perm (B ++ (O ++ [c]) ++ Rm) (c :: (B ++ O ++ Rm)) := by
    simpa using @List.perm_middle _ c (B ++ O) Rm
  exact ⟨(h1.trans hp.symm).nodup_iff.2 h, (h2.trans hp.symm).nodup_iff.2 h⟩

/-- The inner loop of the second loop, with `prev_link` at the end of the batch `B` chained from
`packets` and `other_link` at the end of the others `O` chained from `other_pkts`: it appends each
packet of the rest `Rm` to the batch if it has the key, and to the others if not. -/
theorem splitLoop_spec (key : Nat × Nat) {h : SkbHeap} {B O Rm : List Nat}
    {prevLink otherLink : Loc} {cur : Option Nat} {fuel : Nat}
    (hB : Seg h .packets B prevLink) (hO : Seg h .otherPkts O otherLink) (hw : Walk h cur Rm)
    (hnd : (B ++ O ++ Rm).Nodup) (hf : Rm.length ≤ fuel) :
    ∃ h' pl ol, splitLoop pkt key fuel h prevLink otherLink cur = some (h', pl, ol) ∧
      Seg h' .packets (B ++ Rm.filter fun q => (pkt q).senderId = key.1 ∧ (pkt q).saddr = key.2) pl ∧
      Seg h' .otherPkts
        (O ++ Rm.filter fun q => ¬((pkt q).senderId = key.1 ∧ (pkt q).saddr = key.2)) ol := by
  induction Rm generalizing h B O prevLink otherLink cur fuel with
  | nil =>
    cases hw
    exact ⟨h, prevLink, otherLink, by cases fuel <;> simp [splitLoop], by simpa using hB,
      by simpa using hO⟩
  | cons c Rm ih =>
    cases hw with
    | cons hw =>
    obtain ⟨fuel, rfl⟩ : ∃ f, fuel = f + 1 := ⟨fuel - 1, by simp at hf; omega⟩
    have hf' : Rm.length ≤ fuel := by simpa using hf
    obtain ⟨hnd₁, hnd₂⟩ := nodup_move hnd
    simp only [List.append_assoc, List.nodup_append, List.nodup_cons, List.mem_cons,
      List.disjoint_cons_right, List.disjoint_append_right] at hnd
    obtain ⟨hBnd, ⟨hOnd, ⟨hcRm, hRm⟩, hcO, hOR⟩, hBO, hcB, hBR⟩ := hnd
    have hpo : prevLink ≠ .otherPkts := by
      rcases hB.end_eq with rfl | ⟨n, -, rfl⟩ <;> rintro ⟨⟩
    have hop : otherLink ≠ .packets := by
      rcases hO.end_eq with rfl | ⟨n, -, rfl⟩ <;> rintro ⟨⟩
    have hpO : ∀ o ∈ O, prevLink ≠ .next o := fun o ho => hB.end_ne trivial fun hb => hBO hb ho
    have hoB : ∀ b ∈ B, otherLink ≠ .next b := fun b hb => hO.end_ne trivial fun ho => hBO hb ho
    have hpr : ∀ r ∈ Rm, prevLink ≠ .next r := fun r hr => hB.end_ne trivial fun hb => hBR hb hr
    have hor : ∀ r ∈ Rm, otherLink ≠ .next r := fun r hr => hO.end_ne trivial fun ho => hOR ho hr
    by_cases hm : (pkt c).senderId = key.1 ∧ (pkt c).saddr = key.2
    · -- same RPC: `*prev_link = skb2`, `prev_link = &skb2->next`
      obtain ⟨h', pl, ol, e, hB', hO'⟩ := ih
        ((hB.store_end (v := some c) hBnd (hB.ends_of_root trivial)).snoc (n := c)
          (by simp [SkbHeap.load_store]))
        (hO.store_of_ne hpo hpO) (hw.store hpr) hnd₁ hf'
      refine ⟨h', pl, ol, by simpa [splitLoop, hm] using e, ?_, ?_⟩
      · rw [List.filter_cons_of_pos (by simpa using hm)]; simpa using hB'
      · rw [List.filter_cons_of_neg (by simpa using hm)]; exact hO'
    · -- another RPC: `*other_link = skb2`, `other_link = &skb2->next`
      obtain ⟨h', pl, ol, e, hB', hO'⟩ := ih
        (hB.store_of_ne hop hoB)
        ((hO.store_end (v := some c) hOnd (hO.ends_of_root trivial)).snoc (n := c)
          (by simp [SkbHeap.load_store]))
        (hw.store hor) hnd₂ hf'
      refine ⟨h', pl, ol, by simpa [splitLoop, hm] using e, ?_, ?_⟩
      · rw [List.filter_cons_of_neg (by simpa using hm)]; exact hB'
      · rw [List.filter_cons_of_pos (by simpa [Decidable.imp_iff_not_or] using hm)]
        simpa using hO'

/-- The inner loop's test is the comparison of keys. -/
theorem sameKey_iff (p q : Nat) :
    ((pkt q).senderId = (packetKey pkt p).1 ∧ (pkt q).saddr = (packetKey pkt p).2) ↔
      packetKey pkt q = packetKey pkt p := by
  simp [packetKey]

/-- One iteration of the outer loop of the second loop: it dispatches the batch of the first
packet `p0`, in order, and leaves the other packets, in order, at `packets`. -/
theorem batchLoop_step {bound f : Nat} {h : SkbHeap} {p0 : Nat} {Ps : List Nat} (ev : List Event)
    (hp : h.packets = some p0) (hw : Walk h (h.next p0) Ps) (hb : Ps.length < bound) :
    ∃ h', Walk h' h'.packets (Ps.filter fun q => packetKey pkt q ≠ packetKey pkt p0) ∧
      batchLoop pkt bound (f + 1) h ev = batchLoop pkt bound f h'
        (ev ++ [.dispatch (p0 :: Ps.filter fun q => packetKey pkt q = packetKey pkt p0)]) := by
  have hnd := (Walk.cons hw).nodup
  -- `other_pkts = NULL`, `prev_link = &skb->next`, `other_link = &other_pkts`
  have hw1 : Walk (h.store .otherPkts none) ((h.store .otherPkts none).next p0) Ps := by
    rw [SkbHeap.next_store, if_neg (by rintro ⟨⟩)]
    exact hw.store fun _ _ => by rintro ⟨⟩
  obtain ⟨h2, pl, ol, e, hB2, hO2⟩ := splitLoop_spec pkt (packetKey pkt p0)
    (show Seg (h.store .otherPkts none) .packets [p0] (.next p0) from .cons hp (.nil _)) (.nil _)
    hw1 (by simpa using hnd) hb.le
  simp only [List.singleton_append, List.nil_append, sameKey_iff] at hB2 hO2
  set Bm := Ps.filter fun q => packetKey pkt q = packetKey pkt p0
  set Om := Ps.filter fun q => packetKey pkt q ≠ packetKey pkt p0
  have hBnd : (p0 :: Bm).Nodup := hnd.sublist ((List.filter_sublist _).cons_cons _)
  have hOnd : Om.Nodup := (List.nodup_cons.1 hnd).2.filter _
  have hOB : ∀ o ∈ Om, o ∉ p0 :: Bm := by
    intro o ho hob
    simp only [Om, Bm, List.mem_filter, List.mem_cons] at ho hob
    rcases hob with rfl | hob
    · exact (List.nodup_cons.1 hnd).1 ho.1
    · simp_all
  have hpl : ∀ o ∈ Om, pl ≠ .next o := fun o ho => hB2.end_ne trivial (hOB o ho)
  have hol : ∀ b ∈ p0 :: Bm, ol ≠ .next b := fun b hb =>
    hO2.end_ne trivial fun ho => hOB b ho hb
  have hpo : pl ≠ .otherPkts := by
    rcases hB2.end_eq with rfl | ⟨n, -, rfl⟩ <;> rintro ⟨⟩
  have hop : ol ≠ .packets := by
    rcases hO2.end_eq with rfl | ⟨n, -, rfl⟩ <;> rintro ⟨⟩
  have hplol : pl ≠ ol := by
    rcases hO2.end_eq with rfl | ⟨o, ho, rfl⟩
    · exact hpo
    · exact hpl o ho
  -- `*prev_link = NULL`, `*other_link = NULL`
  set h3 := (h2.store pl none).store ol none
  have hB3 : Seg h3 .packets (p0 :: Bm) pl :=
    (hB2.store_end hBnd (hB2.ends_of_root trivial)).store_of_ne hop hol
  have hO3 : Seg h3 .otherPkts Om ol :=
    (hO2.store_of_ne hpo hpl).store_end hOnd (hO2.ends_of_root trivial)
  have hdisp : h3.walk (some p0) bound = p0 :: Bm := by
    rw [← hB3.head]
    have hBm : Bm.length ≤ Ps.length := List.length_filter_le _ _
    exact (hB3.walk_nil (by simp [h3, SkbHeap.load_store])).walk_eq (by simp; omega)
  -- `packets = other_pkts`
  refine ⟨h3.store .packets h3.otherPkts,
    (hO3.walk_nil (by simp [h3, SkbHeap.load_store, hplol])).store fun _ _ => by rintro ⟨⟩, ?_⟩
  rw [← hdisp, batchLoop, hp]
  simp only [e, h3]

/-- The outer loop of the second loop: from a chain `P` at `packets` it dispatches the batches of
`P`, in order. -/
theorem batchLoop_spec {bound : Nat} : ∀ {fuel : Nat} {h : SkbHeap} {P : List Nat} (ev : List Event),
    Walk h h.packets P → P.length ≤ fuel → P.length ≤ bound →
    batchLoop pkt bound fuel h ev = some (ev ++ (batches (packetKey pkt) P).map .dispatch) := by
  intro fuel
  induction fuel with
  | zero =>
    intro h P ev hw hf _
    obtain rfl : P = [] := List.eq_nil_of_length_eq_zero (by omega)
    generalize hp : h.packets = p at hw
    cases hw
    rw [batchLoop, hp]; simp [batches]
  | succ f ih =>
    intro h P ev hw hf hb
    generalize hp : h.packets = p at hw
    cases hw with
    | nil => rw [batchLoop, hp]; simp [batches]
    | @cons p0 Ps hw =>
    have hb' : Ps.length < bound := by simp at hb; omega
    obtain ⟨h', hw', hstep⟩ := batchLoop_step pkt ev hp hw hb'
    have hOm := List.length_filter_le (fun q => decide (packetKey pkt q ≠ packetKey pkt p0)) Ps
    rw [hstep, ih _ hw' (by simp at hf; omega) (by omega), batches_cons]
    simp

/-- `homa_softirq` on the chain of `skb` and its `frag_list` runs to the end with one unit of fuel
per packet: the calls of the first loop, then one `homa_dispatch_pkts` per batch. -/
theorem homaSoftirq_eq {h : SkbHeap} {skb : Nat} {fragList : Option Nat} {frags : List Nat}
    (hw : Walk h fragList frags) (hskb : skb ∉ frags) :
    homaSoftirq ws pkt (frags.length + 1) h skb fragList =
      some ((skb :: frags).filterMap (firstEvent ws pkt) ++
        (batches (packetKey pkt) ((skb :: frags).filter (kept ws pkt))).map .dispatch) := by
  -- `skb->next = skb_shinfo(skb)->frag_list`, `packets = skb`
  have hw1 : Walk ((h.store (.next skb) fragList).store .packets (some skb)) (some skb)
      (skb :: frags) := by
    refine .cons ?_
    rw [SkbHeap.next_store, if_neg (by rintro ⟨⟩), SkbHeap.next_store, if_pos rfl]
    exact (hw.store fun n hn e => hskb (by rwa [Loc.next.inj e])).store fun _ _ => by rintro ⟨⟩
  obtain ⟨h', e, hw'⟩ := firstLoop_spec ws pkt [] (.nil .packets) rfl hw1
    (by simpa using hw1.nodup) le_rfl
  simp only [List.nil_append, SkbHeap.load_packets, SkbHeap.packets_store_packets,
    List.length_cons] at e hw'
  have hlen : ((skb :: frags).filter (kept ws pkt)).length ≤ frags.length + 1 :=
    List.length_filter_le _ _
  simp only [homaSoftirq, SkbHeap.packets_store_packets, e]
  exact batchLoop_spec pkt _ hw' hlen hlen

end loops

theorem filter_kept (l : List Nat) : l.filter (kept ws pkt) = l.filter fun n => Long ws (pkt n) :=
  List.filter_congr fun n _ => by have := kept_iff ws pkt n; cases hk : kept ws pkt n <;> simp_all

theorem filter_not_kept (l : List Nat) :
    (l.filter fun n => !kept ws pkt n) = l.filter fun n => ¬Long ws (pkt n) :=
  List.filter_congr fun n _ => by have := kept_iff ws pkt n; cases hk : kept ws pkt n <;> simp_all

theorem shortEvent_eq_free_iff (m n : Nat) :
    shortEvent ws pkt m = .free n ↔ Discards ws (pkt m) ∧ m = n := by
  unfold shortEvent; split_ifs <;> simp [*, eq_comm]

/-- Every packet of a finite chain is handed on exactly once, freed if one of the first loop's
tests rejects it, and the long DATA packets in batches that are the classes of equal
`(sender_id, source address)`, each in input order, the batches in the order of their first
packets. Both loops terminate. -/
theorem homaSoftirq_spec {h : SkbHeap} {skb : Nat} {fragList : Option Nat} {frags : List Nat}
    (hw : Walk h fragList frags) (hskb : skb ∉ frags) :
    ∃ (ev : List Event) (B : List (List Nat)),
      homaSoftirq ws pkt (frags.length + 1) h skb fragList = some ev ∧
      List.Perm (ev.flatMap Event.skbs) (skb :: frags) ∧
      (∀ n ∈ skb :: frags, Event.free n ∈ ev ↔ Discards ws (pkt n)) ∧
      ev = ((skb :: frags).filter fun n => ¬Long ws (pkt n)).map (shortEvent ws pkt) ++
        B.map .dispatch ∧
      List.Perm B.flatten ((skb :: frags).filter fun n => Long ws (pkt n)) ∧
      (∀ b ∈ B, ∃ p ∈ b, b = (skb :: frags).filter fun q =>
        Long ws (pkt q) ∧ packetKey pkt q = packetKey pkt p) ∧
      B.Pairwise (fun b b' => ∀ x ∈ b, ∀ y ∈ b', packetKey pkt x ≠ packetKey pkt y) ∧
      List.Sublist (B.filterMap List.head?) (skb :: frags) := by
  set chain := skb :: frags
  set L := chain.filter fun n => Long ws (pkt n)
  set B := batches (packetKey pkt) L
  have hev : chain.filterMap (firstEvent ws pkt) ++ (batches (packetKey pkt)
      (chain.filter (kept ws pkt))).map .dispatch =
      (chain.filter fun n => ¬Long ws (pkt n)).map (shortEvent ws pkt) ++ B.map .dispatch := by
    rw [filterMap_firstEvent, filter_not_kept, filter_kept]
  have hperm : List.Perm B.flatten L := batches_flatten_perm _ L
  refine ⟨_, B, homaSoftirq_eq ws pkt hw hskb, ?_, ?_, hev, hperm, ?_, batches_pairwise _ L,
    (batches_heads_sublist _ L).trans (List.filter_sublist _)⟩
  · -- exactly once
    rw [hev, List.flatMap_append, List.flatMap_map, List.flatMap_map]
    simp only [shortEvent_skbs, List.flatMap_singleton', Event.skbs_dispatch]
    rw [show (B.flatMap fun b => b) = B.flatten from List.flatMap_id B]
    refine (hperm.append_left _).trans (List.perm_append_comm.trans ?_)
    simpa using List.filter_append_perm (fun n => decide (Long ws (pkt n))) chain
  · -- freed iff rejected
    intro n hn
    rw [hev]
    simp only [List.mem_append, List.mem_map, List.mem_filter, shortEvent_eq_free_iff]
    constructor
    · rintro (⟨m, -, hd, rfl⟩ | ⟨b, -, ⟨⟩⟩)
      exact hd
    · intro hd
      exact .inl ⟨n, ⟨hn, by simp [Long, hd]⟩, hd, rfl⟩
  · -- each batch is a class
    intro b hb
    obtain ⟨p, hp, rfl⟩ := batches_eq_filter _ L b hb
    refine ⟨p, List.mem_filter.2 ⟨hp, by simp⟩, ?_⟩
    rw [List.filter_filter]
    exact List.filter_congr fun q _ => by simp [Bool.and_comm]

/-- A chain of three DATA packets of two RPCs: `skb` 0 with `frag_list` 1, then 2. -/
theorem homaSoftirq_spec_three :
    Walk ⟨none, none, fun n => if n = 1 then some 2 else none⟩ (some 1) [1, 2] ∧ 0 ∉ [1, 2] ∧
      ∃ ev, homaSoftirq ⟨8, [60, 40, 40, 40, 40, 40, 40, 40, 40], rfl⟩
        (fun n => ⟨true, 1500, typeData, 2000, n % 2, 0⟩) 3
        ⟨none, none, fun n => if n = 1 then some 2 else none⟩ 0 (some 1) = some ev :=
  have hw : Walk ⟨none, none, fun n => if n = 1 then some 2 else none⟩ (some 1) [1, 2] :=
    .cons (.cons .nil)
  ⟨hw, by decide, (homaSoftirq_spec _ _ hw (by decide)).imp fun _ ⟨_, h, _⟩ => h⟩

end Homa
