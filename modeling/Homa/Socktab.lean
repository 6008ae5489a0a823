import Homa.Basic
import Homa.Hlist
import Mathlib.Data.List.Range
import Mathlib.Data.List.Perm.Subperm

/-!
# Sockets and the socket table

A `World` is what the socket functions of `homa_sock.c` share: the table's buckets together with
the `socktab_links` of every socket, the sockets themselves, each namespace's default-port counter,
and the buffer pools handed to `homa_pool_free`. Sockets are numbered in allocation order, so the
sockets that exist are those below `count`; that bound is also the fuel of the bucket walk in
`homa_sock_find`, which it never exhausts on a well-formed table.

`lookup` is the walk without its reference; `lookup_eq_find?` says what it returns on a table that
holds bucket lists `B` (`Rep`): the first socket of the bucket that owns the port. On a table whose
sockets sit on the bucket of their own namespace and port (`TableOk`) that is the linked socket
owning the port, whichever bucket the walk starts from (`lookup_eq_none_iff`, `lookup_eq_some`).
-/

namespace Homa

/-- `union sockaddr_in_union`, reduced to what the modelled code compares and copies. -/
structure SockAddr where
  family : Nat
  port : Nat
  addr : Nat
  deriving DecidableEq, Repr

/-- The fields of `struct homa_sock`, and of the `struct sock` it embeds, that the modelled
functions read or write. -/
structure Sock where
  /-- `sock_net(&hsk->sock)`, fixed when the socket is allocated. -/
  net : NetId
  /-- `sk_family`. -/
  family : Nat
  /-- `hsk->homa != NULL`. -/
  homa : Bool
  hnet : Option NetId
  port : Nat
  /-- `inet.inet_num`. -/
  inetNum : Nat
  /-- `inet.inet_sport`, in network byte order. -/
  inetSport : Nat
  shutdown : Bool
  isServer : Bool
  inKernel : Bool
  connected : Bool
  targetAddr : SockAddr
  bufferPool : Option PoolId
  /-- `sk_refcnt`. -/
  refs : Nat
  deriving DecidableEq, Repr

/-- A socket as `sk_alloc` hands it to `homa_socket`: one reference, and the Homa part zeroed. -/
def Sock.fresh (net : NetId) (family : Nat) : Sock :=
  { net, family, homa := false, hnet := none, port := 0, inetNum := 0, inetSport := 0,
    shutdown := false, isServer := false, inKernel := false, connected := false,
    targetAddr := ⟨0, 0, 0⟩, bufferPool := none, refs := 1 }

/-- `homa_socktab_init`: every bucket empty, and no socket's links hashed. -/
def homaSocktabInit : Hlist := ⟨fun _ => none, fun _ => ⟨none, none⟩⟩

/-- The state the socket-table functions share. -/
structure World where
  /-- `socktab->buckets` and every socket's `socktab_links`. -/
  tab : Hlist
  socks : SockId → Sock
  /-- Sockets allocated so far; their ids are the numbers below it. -/
  count : Nat
  /-- `hnet->prev_default_port` of every namespace. -/
  prevDefaultPort : NetId → Nat
  /-- The pools passed to `homa_pool_free`, latest first. -/
  freed : List PoolId

namespace World

/-- The world before any socket exists: the buckets `homa_socktab_init` left, and every
namespace's counter at `prev`. -/
def start (prev : NetId → Nat) : World := ⟨homaSocktabInit, fun _ => Sock.fresh 0 0, 0, prev, []⟩

/-- Apply `f` to one socket. -/
def setSock (w : World) (s : SockId) (f : Sock → Sock) : World :=
  { w with socks := Function.update w.socks s (f (w.socks s)) }

/-- `sock_hold`. -/
def sockHold (w : World) (s : SockId) : World :=
  w.setSock s fun k => { k with refs := k.refs + 1 }

/-- `sock_put`. -/
def sockPut (w : World) (s : SockId) : World :=
  w.setSock s fun k => { k with refs := k.refs - 1 }

/-- `sk_alloc` of a Homa socket: the next socket, zeroed, with one reference. -/
def alloc (w : World) (net : NetId) (family : Nat) : World :=
  { w with tab := w.tab.clear w.count,
           socks := Function.update w.socks w.count (Sock.fresh net family), count := w.count + 1 }

/-- A socket is on the table: its `socktab_links` is hashed. -/
def Linked (w : World) (s : SockId) : Prop := (w.tab.node s).pprev ≠ none

instance (w : World) (s : SockId) : Decidable (w.Linked s) :=
  inferInstanceAs (Decidable (_ ≠ _))

@[simp] theorem setSock_tab (w : World) (s : SockId) (f : Sock → Sock) :
    (w.setSock s f).tab = w.tab := rfl

@[simp] theorem setSock_count (w : World) (s : SockId) (f : Sock → Sock) :
    (w.setSock s f).count = w.count := rfl

@[simp] theorem setSock_prevDefaultPort (w : World) (s : SockId) (f : Sock → Sock) :
    (w.setSock s f).prevDefaultPort = w.prevDefaultPort := rfl

@[simp] theorem setSock_freed (w : World) (s : SockId) (f : Sock → Sock) :
    (w.setSock s f).freed = w.freed := rfl

theorem setSock_socks (w : World) (s : SockId) (f : Sock → Sock) (t : SockId) :
    (w.setSock s f).socks t = if t = s then f (w.socks s) else w.socks t := by
  simp [setSock, Function.update_apply]

@[simp] theorem setSock_socks_self (w : World) (s : SockId) (f : Sock → Sock) :
    (w.setSock s f).socks s = f (w.socks s) := by
  simp [setSock_socks]

theorem setSock_socks_of_ne (w : World) {s t : SockId} (f : Sock → Sock) (h : t ≠ s) :
    (w.setSock s f).socks t = w.socks t := by
  simp [setSock_socks, h]

@[simp] theorem linked_setSock (w : World) (s : SockId) (f : Sock → Sock) (t : SockId) :
    (w.setSock s f).Linked t ↔ w.Linked t := Iff.rfl

theorem linked_alloc (w : World) (net : NetId) (family : Nat) (s : SockId) :
    (w.alloc net family).Linked s ↔ s ≠ w.count ∧ w.Linked s := by
  by_cases e : s = w.count <;> simp [alloc, Linked, Hlist.clear, e]

theorem alloc_socks_of_ne (w : World) (net : NetId) (family : Nat) {s : SockId}
    (h : s ≠ w.count) : (w.alloc net family).socks s = w.socks s :=
  Function.update_noteq h _ _

@[simp] theorem sockPut_sockHold (w : World) (s : SockId) : (w.sockHold s).sockPut s = w := by
  cases w
  simp [sockHold, sockPut, setSock, Function.update_idem]

@[simp] theorem sockHold_tab (w : World) (s : SockId) : (w.sockHold s).tab = w.tab := rfl

@[simp] theorem sockPut_tab (w : World) (s : SockId) : (w.sockPut s).tab = w.tab := rfl

/-- `sock_hold` adds one reference to its socket and changes nothing else. -/
theorem sockHold_socks (w : World) (n s : SockId) :
    (w.sockHold n).socks s = { w.socks s with refs := (w.socks s).refs + if n = s then 1 else 0 } := by
  by_cases e : s = n
  · simp [sockHold, e]
  · simp [sockHold, setSock_socks_of_ne _ _ e, Ne.symm e]

/-- `sock_put` drops one reference from its socket and changes nothing else. -/
theorem sockPut_socks (w : World) (n s : SockId) :
    (w.sockPut n).socks s = { w.socks s with refs := (w.socks s).refs - if n = s then 1 else 0 } := by
  by_cases e : s = n
  · simp [sockPut, e]
  · simp [sockPut, setSock_socks_of_ne _ _ e, Ne.symm e]

/-- `hnet->prev_default_port = p`. -/
def setPrev (w : World) (hnet : NetId) (p : Nat) : World :=
  { w with prevDefaultPort := Function.update w.prevDefaultPort hnet p }

@[simp] theorem setPrev_prevDefaultPort (w : World) (hnet : NetId) (p : Nat) :
    (w.setPrev hnet p).prevDefaultPort hnet = p := by
  simp [setPrev]

@[simp] theorem setPrev_setPrev (w : World) (hnet : NetId) (p q : Nat) :
    (w.setPrev hnet p).setPrev hnet q = w.setPrev hnet q := by
  simp [setPrev]

@[simp] theorem setPrev_self (w : World) (hnet : NetId) : w.setPrev hnet (w.prevDefaultPort hnet) = w := by
  simp [setPrev]

@[simp] theorem setPrev_tab (w : World) (hnet : NetId) (p : Nat) : (w.setPrev hnet p).tab = w.tab := rfl

@[simp] theorem setPrev_socks (w : World) (hnet : NetId) (p : Nat) :
    (w.setPrev hnet p).socks = w.socks := rfl

@[simp] theorem setPrev_count (w : World) (hnet : NetId) (p : Nat) :
    (w.setPrev hnet p).count = w.count := rfl

@[simp] theorem setPrev_freed (w : World) (hnet : NetId) (p : Nat) :
    (w.setPrev hnet p).freed = w.freed := rfl

end World

/-! ### `homa_sock_find` -/

/-- The test of `homa_sock_find`: `hsk->port == port && hsk->hnet == hnet`. -/
def owns (w : World) (hnet : NetId) (port : Nat) (s : SockId) : Bool :=
  (w.socks s).port == port && (w.socks s).hnet == some hnet

/-- The `hlist_for_each_entry_rcu` walk of `homa_sock_find` from node `cur`, for at most `fuel`
nodes. -/
def findIn (w : World) (hnet : NetId) (port : Nat) : Nat → Option SockId → Option SockId
  | 0, _ => none
  | _ + 1, none => none
  | fuel + 1, some s =>
    if owns w hnet port s then some s else findIn w hnet port fuel (w.tab.node s).next

/-- The socket `homa_sock_find` returns, before the reference it takes. -/
def lookup (cfg : Config) (w : World) (hnet : NetId) (port : Nat) : Option SockId :=
  findIn w hnet port w.count (w.tab.first (cfg.bucket hnet port))

/-- `homa_sock_find(hnet, port)`: the first socket of `hnet` with `port` on the port's bucket,
with a reference taken on it. -/
def homaSockFind (cfg : Config) (w : World) (hnet : NetId) (port : Nat) :
    Option SockId × World :=
  match lookup cfg w hnet port with
  | none => (none, w)
  | some s => (some s, w.sockHold s)

@[simp] theorem homaSockFind_count (cfg : Config) (w : World) (hnet : NetId) (port : Nat) :
    (homaSockFind cfg w hnet port).2.count = w.count := by
  unfold homaSockFind; split <;> rfl

@[simp] theorem homaSockFind_fst (cfg : Config) (w : World) (hnet : NetId) (port : Nat) :
    (homaSockFind cfg w hnet port).1 = lookup cfg w hnet port := by
  unfold homaSockFind; split <;> simp_all

theorem findIn_chain {w : World} {hnet : NetId} {port : Nat} {l : Link} {L : List SockId}
    (hc : Chain w.tab l L) {fuel : Nat} (hf : L.length ≤ fuel) :
    findIn w hnet port fuel (w.tab.load l) = L.find? (owns w hnet port) := by
  induction hc generalizing fuel with
  | nil h0 => rw [h0]; cases fuel <;> rfl
  | cons h0 _ _ ih =>
    obtain ⟨fuel, rfl⟩ : ∃ f, fuel = f + 1 := ⟨fuel - 1, by simp at hf; omega⟩
    rw [h0, findIn, List.find?_cons]
    split <;> simp_all

/-- On a table holding bucket lists `B` whose sockets all exist, `homa_sock_find` returns the
first socket of the port's bucket that owns the port. -/
theorem lookup_eq_find? {cfg : Config} {w : World} {B : Nat → List SockId}
    (hr : Rep w.tab cfg.buckets B) (hlt : ∀ b, ∀ s ∈ B b, s < w.count) (hnet : NetId) (port : Nat) :
    lookup cfg w hnet port = (B (cfg.bucket hnet port)).find? (owns w hnet port) := by
  have hc := hr.chain _ (cfg.bucket_lt hnet port)
  refine findIn_chain hc ?_
  have hsub : List.Subperm (B (cfg.bucket hnet port)) (List.range w.count) :=
    hc.nodup.subperm fun s hs => List.mem_range.2 (hlt _ s hs)
  simpa using hsub.length_le

/-- Changing reference counts changes no lookup. -/
theorem lookup_congr {cfg : Config} {w w' : World} (ht : w'.tab = w.tab) (hc : w'.count = w.count)
    (hk : ∀ s, (w'.socks s).port = (w.socks s).port ∧ (w'.socks s).hnet = (w.socks s).hnet) :
    lookup cfg w' = lookup cfg w := by
  have howns : owns w' = owns w := by
    funext hnet port s; simp [owns, (hk s).1, (hk s).2]
  have hfind : ∀ hnet port fuel cur, findIn w' hnet port fuel cur = findIn w hnet port fuel cur := by
    intro hnet port fuel
    induction fuel with
    | zero => intro cur; rfl
    | succ fuel ih => intro cur; cases cur <;> simp [findIn, howns, ht, ih]
  funext hnet port
  simp [lookup, hfind, ht, hc]

/-- A lookup reads only the sockets on the table. -/
theorem lookup_eq_of_agree {cfg : Config} {w : World} (w' : World) {B : Nat → List SockId}
    (hr : Rep w.tab cfg.buckets B) (hlt : ∀ b, ∀ s ∈ B b, s < w.count) (ht : w'.tab = w.tab)
    (hc : w'.count = w.count) {hnet : NetId} {port : Nat}
    (hk : ∀ s ∈ B (cfg.bucket hnet port), owns w' hnet port s = owns w hnet port s) :
    lookup cfg w' hnet port = lookup cfg w hnet port := by
  rw [lookup_eq_find? hr hlt, lookup_eq_find? (ht ▸ hr) (hc ▸ hlt)]
  generalize B (cfg.bucket hnet port) = L at hk
  induction L with
  | nil => rfl
  | cons a L ih =>
    simp only [List.find?_cons, hk a (List.mem_cons_self a L)]
    rw [ih fun s hs => hk s (List.mem_cons_of_mem a hs)]

@[simp] theorem lookup_sockHold (cfg : Config) (w : World) (s : SockId) :
    lookup cfg (w.sockHold s) = lookup cfg w :=
  lookup_congr rfl rfl fun t => by
    by_cases h : t = s <;> simp [World.sockHold, World.setSock_socks, h]

@[simp] theorem lookup_sockPut (cfg : Config) (w : World) (s : SockId) :
    lookup cfg (w.sockPut s) = lookup cfg w :=
  lookup_congr rfl rfl fun t => by
    by_cases h : t = s <;> simp [World.sockPut, World.setSock_socks, h]

@[simp] theorem lookup_setPrev (cfg : Config) (w : World) (hnet : NetId) (p : Nat) :
    lookup cfg (w.setPrev hnet p) = lookup cfg w :=
  lookup_congr rfl rfl fun _ => ⟨rfl, rfl⟩

/-! ### A well-formed table -/

/-- The table holds bucket lists `B` of existing sockets, each on the bucket of its own namespace
and port. -/
structure TableOk (cfg : Config) (w : World) (B : Nat → List SockId) : Prop where
  rep : Rep w.tab cfg.buckets B
  lt_count : ∀ b, ∀ s ∈ B b, s < w.count
  placed : ∀ b, ∀ s ∈ B b, ∃ n, (w.socks s).hnet = some n ∧ cfg.bucket n (w.socks s).port = b

/-- No linked socket of `hnet` has port `p`. -/
def PortFree (w : World) (hnet : NetId) (p : Nat) : Prop :=
  ∀ s < w.count, w.Linked s → ¬((w.socks s).hnet = some hnet ∧ (w.socks s).port = p)

instance (w : World) (hnet : NetId) (p : Nat) : Decidable (PortFree w hnet p) :=
  inferInstanceAs (Decidable (∀ s < w.count, _))

namespace TableOk

variable {cfg : Config} {w : World} {B : Nat → List SockId}

theorem linked_iff (hok : TableOk cfg w B) (s : SockId) : w.Linked s ↔ ∃ b, s ∈ B b :=
  hok.rep.hashed_iff s

theorem lt_count_of_linked (hok : TableOk cfg w B) {s : SockId} (hs : w.Linked s) : s < w.count := by
  obtain ⟨b, hb⟩ := (hok.linked_iff s).1 hs
  exact hok.lt_count b s hb

/-- A linked socket that owns a port sits on that port's bucket. -/
theorem mem_bucket (hok : TableOk cfg w B) {s : SockId} {hnet : NetId} {p : Nat}
    (hs : w.Linked s) (hown : owns w hnet p s = true) : s ∈ B (cfg.bucket hnet p) := by
  obtain ⟨b, hb⟩ := (hok.linked_iff s).1 hs
  obtain ⟨n, hn, rfl⟩ := hok.placed b s hb
  simp only [owns, Bool.and_eq_true, beq_iff_eq] at hown
  rw [hown.2] at hn
  cases hn
  rwa [hown.1] at hb

theorem lookup_eq_none_iff (hok : TableOk cfg w B) (hnet : NetId) (p : Nat) :
    lookup cfg w hnet p = none ↔ PortFree w hnet p := by
  rw [lookup_eq_find? hok.rep hok.lt_count, List.find?_eq_none]
  constructor
  · intro h s _ hs ⟨h1, h2⟩
    have hown : owns w hnet p s = true := by simp [owns, h1, h2]
    simpa [hown] using h s (hok.mem_bucket hs hown)
  · intro h s hs
    have hl : w.Linked s := (hok.linked_iff s).2 ⟨_, hs⟩
    simp only [owns, Bool.and_eq_true, beq_iff_eq, not_and]
    exact fun h1 h2 => h s (hok.lt_count _ s hs) hl ⟨h2, h1⟩

theorem lookup_eq_some (hok : TableOk cfg w B) {hnet : NetId} {p : Nat} {s : SockId}
    (h : lookup cfg w hnet p = some s) : w.Linked s ∧ (w.socks s).hnet = some hnet ∧
      (w.socks s).port = p := by
  rw [lookup_eq_find? hok.rep hok.lt_count] at h
  have hs := List.mem_of_find?_eq_some h
  have hown := List.find?_some h
  simp only [owns, Bool.and_eq_true, beq_iff_eq] at hown
  exact ⟨(hok.linked_iff s).2 ⟨_, hs⟩, hown.2, hown.1⟩

/-- The table before any socket is linked holds empty bucket lists. -/
theorem init (cfg : Config) (w : World) (ht : w.tab = homaSocktabInit) :
    TableOk cfg w fun _ => [] :=
  ⟨⟨fun b _ => .nil (by simp [ht, homaSocktabInit]), fun _ _ => rfl, fun _ _ _ h => by simp at h,
    fun _ _ => by simp [ht, homaSocktabInit]⟩, fun _ _ h => by simp at h, fun _ _ h => by simp at h⟩

/-- The table keeps its bucket lists when only counters, pools and fields of sockets other than
the linked sockets' namespaces and ports change. -/
theorem congr (hok : TableOk cfg w B) {w' : World} (ht : w'.tab = w.tab) (hc : w'.count = w.count)
    (hk : ∀ s, w.Linked s →
      (w'.socks s).hnet = (w.socks s).hnet ∧ (w'.socks s).port = (w.socks s).port) :
    TableOk cfg w' B := by
  refine ⟨ht ▸ hok.rep, hc ▸ hok.lt_count, fun b s hs => ?_⟩
  rw [(hk s ((hok.linked_iff s).2 ⟨b, hs⟩)).1, (hk s ((hok.linked_iff s).2 ⟨b, hs⟩)).2]
  exact hok.placed b s hs

/-- `hlist_add_head_rcu` of an unlinked socket onto the bucket of its namespace and new port. -/
theorem link (hok : TableOk cfg w B) {hsk : SockId} (hunl : ¬w.Linked hsk) (hlt : hsk < w.count)
    (w' : World) (n : NetId) (hn : (w'.socks hsk).hnet = some n)
    (ht : w'.tab = w.tab.addHeadRcu hsk (cfg.bucket n (w'.socks hsk).port))
    (hc : w'.count = w.count)
    (hk : ∀ s ≠ hsk, (w'.socks s).hnet = (w.socks s).hnet ∧ (w'.socks s).port = (w.socks s).port) :
    TableOk cfg w' (Function.update B (cfg.bucket n (w'.socks hsk).port)
      (hsk :: B (cfg.bucket n (w'.socks hsk).port))) := by
  have hoff : ∀ b, hsk ∉ B b := fun b hb => hunl ((hok.linked_iff hsk).2 ⟨b, hb⟩)
  refine ⟨ht ▸ hok.rep.addHeadRcu (cfg.bucket_lt _ _) hoff, fun b s hs => ?_, fun b s hs => ?_⟩
  · rw [hc]
    rcases mem_update_cons.1 hs with ⟨rfl, -⟩ | hs
    · exact hlt
    · exact hok.lt_count b s hs
  · rcases mem_update_cons.1 hs with ⟨rfl, rfl⟩ | hs
    · exact ⟨n, hn, rfl⟩
    · have hne : s ≠ hsk := fun e => hoff b (e ▸ hs)
      rw [(hk s hne).1, (hk s hne).2]
      exact hok.placed b s hs

/-- `hlist_del_rcu` of a linked socket takes it off its bucket. -/
theorem unlink (hok : TableOk cfg w B) {hsk : SockId} {b : Nat} (hb : hsk ∈ B b) (w' : World)
    (hd : w.tab.delRcu hsk = some w'.tab) (hc : w'.count = w.count)
    (hk : ∀ s ≠ hsk, (w'.socks s).hnet = (w.socks s).hnet ∧ (w'.socks s).port = (w.socks s).port) :
    TableOk cfg w' (Function.update B b ((B b).erase hsk)) := by
  obtain ⟨h', hd', hrep, -⟩ := hok.rep.delRcu hb
  obtain rfl : h' = w'.tab := Option.some.inj (hd'.symm.trans hd)
  refine ⟨hrep, fun b' s hs => ?_, fun b' s hs => ?_⟩
  · rw [hc]; exact hok.lt_count b' s ((hok.rep.mem_erase_iff hb).1 hs).2
  · obtain ⟨hne, hs⟩ := (hok.rep.mem_erase_iff hb).1 hs
    rw [(hk s hne).1, (hk s hne).2]
    exact hok.placed b' s hs

theorem alloc (hok : TableOk cfg w B) (net : NetId) (family : Nat) :
    TableOk cfg (w.alloc net family) B := by
  have hne : ∀ b, ∀ s ∈ B b, s ≠ w.count := fun b s hs => (hok.lt_count b s hs).ne
  refine ⟨hok.rep.clear fun b hb => hne b _ hb rfl, fun b s hs => ?_, fun b s hs => ?_⟩
  · exact Nat.lt_succ_of_lt (hok.lt_count b s hs)
  · rw [World.alloc_socks_of_ne _ _ _ (hne b s hs)]; exact hok.placed b s hs

end TableOk

/-- No two linked sockets share a namespace and a port. -/
def Unique (w : World) : Prop :=
  ∀ s t, w.Linked s → w.Linked t → (w.socks s).hnet = (w.socks t).hnet →
    (w.socks s).port = (w.socks t).port → s = t

/-- Owners stay unique when one socket `hsk` joins or leaves the table, or moves on it, to a key
that no other linked socket holds. -/
theorem Unique.of_move {w w' : World} (hu : Unique w) (hsk : SockId)
    (hl : ∀ s ≠ hsk, w'.Linked s → w.Linked s)
    (hk : ∀ s ≠ hsk, (w'.socks s).hnet = (w.socks s).hnet ∧ (w'.socks s).port = (w.socks s).port)
    (hfree : w'.Linked hsk → ∀ s ≠ hsk, w.Linked s →
      ¬((w.socks s).hnet = (w'.socks hsk).hnet ∧ (w.socks s).port = (w'.socks hsk).port)) :
    Unique w' := by
  intro s t hs ht hn hp
  by_cases es : s = hsk <;> by_cases et : t = hsk
  · rw [es, et]
  · subst es
    rw [(hk t et).1] at hn
    rw [(hk t et).2] at hp
    exact absurd ⟨hn.symm, hp.symm⟩ (hfree hs t et (hl t et ht))
  · subst et
    rw [(hk s es).1] at hn
    rw [(hk s es).2] at hp
    exact absurd ⟨hn, hp⟩ (hfree ht s es (hl s es hs))
  · rw [(hk s es).1, (hk t et).1] at hn
    rw [(hk s es).2, (hk t et).2] at hp
    exact hu s t (hl s es hs) (hl t et ht) hn hp

/-- With unique owners, `homa_sock_find` finds exactly the linked socket that owns the port. -/
theorem TableOk.lookup_eq_some_iff {cfg : Config} {w : World} {B : Nat → List SockId}
    (hok : TableOk cfg w B) (hu : Unique w) {hnet : NetId} {p : Nat} {s : SockId} :
    lookup cfg w hnet p = some s ↔
      w.Linked s ∧ (w.socks s).hnet = some hnet ∧ (w.socks s).port = p := by
  refine ⟨hok.lookup_eq_some, fun ⟨hl, hn, hp⟩ => ?_⟩
  cases h : lookup cfg w hnet p with
  | none => exact absurd ⟨hn, hp⟩ ((hok.lookup_eq_none_iff hnet p).1 h s (hok.lt_count_of_linked hl) hl)
  | some t =>
    obtain ⟨ht, htn, htp⟩ := hok.lookup_eq_some h
    rw [hu t s ht hl (htn.trans hn.symm) (htp.trans hp.symm)]

/-- The socket-table invariant, over a world and what `homa_sock_init` has returned for each
socket (`none` while it has not run): the table is well formed, the linked sockets are exactly
those whose `homa_sock_init` succeeded and that are not shut down, no two of them share a
namespace and a port, and their ports are nonzero 16-bit values. -/
structure SocktabInv (cfg : Config) (w : World) (R : SockId → Option Int) : Prop where
  ok : ∃ B, TableOk cfg w B
  linked_iff : ∀ s, w.Linked s ↔ R s = some 0 ∧ (w.socks s).shutdown = false
  unique : Unique w
  port_range : ∀ s, w.Linked s → 0 < (w.socks s).port ∧ (w.socks s).port < 65536

namespace SocktabInv

variable {cfg : Config} {w : World} {R : SockId → Option Int}

/-- A table with no socket linked satisfies the invariant when every socket whose
`homa_sock_init` succeeded is shut down. -/
theorem of_empty (ht : w.tab = homaSocktabInit)
    (hR : ∀ s, R s = some 0 → (w.socks s).shutdown = true) : SocktabInv cfg w R := by
  have hl : ∀ s, ¬w.Linked s := by simp [World.Linked, ht, homaSocktabInit]
  refine ⟨⟨_, TableOk.init cfg w ht⟩, fun s => ?_, fun s _ hs => absurd hs (hl s),
    fun s hs => absurd hs (hl s)⟩
  simp only [hl s, false_iff, not_and]
  intro h; simp [hR s h]

/-- The invariant survives a change that leaves the table and the linked sockets' namespaces and
ports alone, and keeps which sockets are live. -/
theorem congr (hinv : SocktabInv cfg w R) {w' : World} {R' : SockId → Option Int}
    (ht : w'.tab = w.tab) (hc : w'.count = w.count)
    (hk : ∀ s, w.Linked s →
      (w'.socks s).hnet = (w.socks s).hnet ∧ (w'.socks s).port = (w.socks s).port)
    (hlive : ∀ s, (R' s = some 0 ∧ (w'.socks s).shutdown = false) ↔
      (R s = some 0 ∧ (w.socks s).shutdown = false)) :
    SocktabInv cfg w' R' := by
  obtain ⟨B, hok⟩ := hinv.ok
  have hl : ∀ s, w'.Linked s ↔ w.Linked s := fun s => by simp only [World.Linked, ht]
  refine ⟨⟨B, hok.congr ht hc hk⟩, fun s => (hl s).trans ((hinv.linked_iff s).trans (hlive s).symm),
    fun s t hs ht' => ?_, fun s hs => ?_⟩
  · rw [(hk s ((hl s).1 hs)).1, (hk t ((hl t).1 ht')).1, (hk s ((hl s).1 hs)).2,
      (hk t ((hl t).1 ht')).2]
    exact hinv.unique s t ((hl s).1 hs) ((hl t).1 ht')
  · rw [(hk s ((hl s).1 hs)).2]; exact hinv.port_range s ((hl s).1 hs)

theorem sockHold (hinv : SocktabInv cfg w R) (s : SockId) : SocktabInv cfg (w.sockHold s) R :=
  hinv.congr rfl rfl (fun t _ => by by_cases e : t = s <;> simp [World.sockHold, World.setSock_socks, e])
    fun t => by by_cases e : t = s <;> simp [World.sockHold, World.setSock_socks, e]

theorem sockPut (hinv : SocktabInv cfg w R) (s : SockId) : SocktabInv cfg (w.sockPut s) R :=
  hinv.congr rfl rfl (fun t _ => by by_cases e : t = s <;> simp [World.sockPut, World.setSock_socks, e])
    fun t => by by_cases e : t = s <;> simp [World.sockPut, World.setSock_socks, e]

/-- Allocating a socket keeps the invariant. -/
theorem alloc (hinv : SocktabInv cfg w R) (hR : R w.count ≠ some 0) (net : NetId)
    (family : Nat) : SocktabInv cfg (w.alloc net family) R := by
  obtain ⟨B, hok⟩ := hinv.ok
  have hsock : ∀ s, (w.alloc net family).Linked s → (w.alloc net family).socks s = w.socks s :=
    fun s hs => World.alloc_socks_of_ne _ _ _ ((World.linked_alloc _ _ _ _).1 hs).1
  refine ⟨⟨B, hok.alloc net family⟩, fun s => ?_, fun s t hs ht => ?_, fun s hs => ?_⟩
  · by_cases e : s = w.count
    · subst e; simp [World.linked_alloc, hR]
    · rw [World.linked_alloc, World.alloc_socks_of_ne _ _ _ e, hinv.linked_iff]; simp [e]
  · rw [hsock s hs, hsock t ht]
    exact hinv.unique s t ((World.linked_alloc _ _ _ _).1 hs).2 ((World.linked_alloc _ _ _ _).1 ht).2
  · rw [hsock s hs]; exact hinv.port_range s ((World.linked_alloc _ _ _ _).1 hs).2

end SocktabInv

end Homa
