import Homa.Basic
import Mathlib.Data.List.GetD
import Mathlib.Data.List.OfFn
import Mathlib.Data.Fin.VecNotation

/-!
# The `gen3_softirq_cores` sysctl: `homa_sysctl_softirq_cores`

A write hands `proc_dointvec` an array of `max_values = (NUM_GEN3_SOFTIRQ_CORES + 1) * nr_cpu_ids`
integers, all `-1`, and then reads it in groups: a core id, then that core's
`NUM_GEN3_SOFTIRQ_CORES` entries, up to the first negative id. A read fills the array from every
core and hands it to `proc_dointvec` to print.

`proc_dointvec` takes `maxlen` in bytes: it stores or prints at most `maxlen / sizeof(int)`
integers (`procDointvecWrite`, `procDointvecRead`). The read path counts bytes and prints every
integer. The write path sets `maxlen` to the count `max_values`, so only the first quarter of the
array is ever filled, and its loop uses each id it finds as a `per_cpu` index without comparing it
with `nr_cpu_ids`: entries past that quarter are lost and read back as `-1`, and the loop reaches
the `homa_offload_core` of an id out of range (`homaSysctlSoftirqCores_one_group`).
-/

namespace Homa

def sizeofInt : Nat := 4

/-- What `homa_sysctl_softirq_cores` reads of the system: `NUM_GEN3_SOFTIRQ_CORES`, from a header
outside the source, `nr_cpu_ids`, and whether `kmalloc_array` succeeds. -/
structure SysctlEnv where
  numGen3 : Nat
  nrCpuIds : Nat
  allocOk : Bool
  deriving DecidableEq, Repr

/-- `proc_dointvec` on a write: the integers parsed from the buffer go into `data` from the start,
at most `maxlen / sizeof(int)` of them. -/
def procDointvecWrite (maxlen : Nat) (data ints : List Int) : List Int :=
  let stored := ints.take (maxlen / sizeofInt)
  stored ++ data.drop stored.length

/-- `proc_dointvec` on a read: the first `maxlen / sizeof(int)` integers of `data`, printed. -/
def procDointvecRead (maxlen : Nat) (data : List Int) : List Int :=
  data.take (maxlen / sizeofInt)

/-- The `for` loop of the write path from index `i` of `values`, for at most `fuel` groups of
`K + 1` integers: the `gen3_softirq_cores` arrays after it, and the ids whose `homa_offload_core` it
reached with `per_cpu`, in order. The indexes it reads are below `max_values`. -/
def writeLoop (K : Nat) (values : List Int) :
    Nat → Nat → (Nat → Fin K → Int) → (Nat → Fin K → Int) × List Nat
  | 0, _, cores => (cores, [])
  | fuel + 1, i, cores =>
    let v := values.getD i (-1)
    if v < 0 then (cores, [])
    else
      let r := writeLoop K values fuel (i + (K + 1))
        (Function.update cores v.toNat fun j => values.getD (i + j + 1) (-1))
      (r.1, v.toNat :: r.2)

/-- The read path's array: each core's id, then its entries. -/
def readValues (K n : Nat) (cores : Nat → Fin K → Int) : List Int :=
  (List.range n).flatMap fun i => (i : Int) :: List.ofFn (cores i)

structure SysctlOutcome (K : Nat) where
  result : Int
  cores : Nat → Fin K → Int
  accessed : List Nat
  printed : List Int

/-- `homa_sysctl_softirq_cores(table, write, buffer, lenp, ppos)`. `parsed` is what `proc_dointvec`
makes of the buffer on a write: the integers, or an errno. -/
def homaSysctlSoftirqCores (env : SysctlEnv) (write : Bool) (parsed : Except Int (List Int))
    (cores : Nat → Fin env.numGen3 → Int) : SysctlOutcome env.numGen3 :=
  let maxValues := (env.numGen3 + 1) * env.nrCpuIds
  if !env.allocOk then ⟨-enomem, cores, [], []⟩
  else if write then
    match parsed with
    | .error e => ⟨e, cores, [], []⟩
    | .ok ints =>
      let values := procDointvecWrite maxValues (List.replicate maxValues (-1)) ints
      let r := writeLoop env.numGen3 values env.nrCpuIds 0 cores
      ⟨0, r.1, r.2, []⟩
  else
    ⟨0, cores, [], procDointvecRead (env.nrCpuIds * ((env.numGen3 + 1) * sizeofInt))
      (readValues env.numGen3 env.nrCpuIds cores)⟩

section

variable {K : Nat}

theorem procDointvecWrite_getD (maxlen L : Nat) (ints : List Int) (i : Nat) :
    (procDointvecWrite maxlen (List.replicate L (-1)) ints).getD i (-1) =
      if i < maxlen / sizeofInt then ints.getD i (-1) else -1 := by
  unfold procDointvecWrite
  by_cases hi : i < (ints.take (maxlen / sizeofInt)).length
  · rw [List.getD_append _ _ _ _ hi, if_pos (by simp at hi; omega)]
    simp [List.getElem?_take, show i < maxlen / sizeofInt by simp at hi; omega]
  · rw [List.getD_append_right _ _ _ _ (by omega), List.drop_replicate]
    split_ifs with h
    · simp only [List.length_take, Nat.lt_min, not_and_or, not_lt] at hi
      simp [List.getElem?_eq_none (hi.resolve_left (by omega))]
    · simp

theorem writeLoop_one (values : List Int) {fuel c : Nat} (cores : Nat → Fin K → Int)
    (hfuel : 1 ≤ fuel) (h0 : values.getD 0 (-1) = c) (hstop : values.getD (K + 1) (-1) < 0) :
    writeLoop K values fuel 0 cores =
      (Function.update cores c fun j => values.getD (0 + j + 1) (-1), [c]) := by
  obtain ⟨fuel, rfl⟩ : ∃ f, fuel = f + 1 := ⟨fuel - 1, by omega⟩
  rw [writeLoop, h0, if_neg (by omega), Int.toNat_ofNat]
  cases fuel with
  | zero => rfl
  | succ fuel => rw [writeLoop, Nat.zero_add, if_pos hstop]

end

/-- A write of one group, core `c` with entries `f`, when `max_values` is at least
`sizeof(int)`: the loop reaches `per_cpu(homa_offload_core, c)` whatever `c` is, and sets the
core's entry `j` to `f j` only while `j + 1 < max_values / sizeof(int)`, and to `-1` past it. -/
theorem homaSysctlSoftirqCores_one_group {env : SysctlEnv} (ha : env.allocOk = true)
    (hm : sizeofInt ≤ (env.numGen3 + 1) * env.nrCpuIds) (c : Nat) (f : Fin env.numGen3 → Int)
    (cores : Nat → Fin env.numGen3 → Int) :
    homaSysctlSoftirqCores env true (.ok ((c : Int) :: List.ofFn f)) cores =
      ⟨0, Function.update cores c (fun j =>
        if j.val + 1 < (env.numGen3 + 1) * env.nrCpuIds / sizeofInt then f j else -1), [c], []⟩ := by
  have hV := procDointvecWrite_getD ((env.numGen3 + 1) * env.nrCpuIds)
    ((env.numGen3 + 1) * env.nrCpuIds) ((c : Int) :: List.ofFn f)
  have hm1 : 0 < (env.numGen3 + 1) * env.nrCpuIds / sizeofInt := Nat.div_pos hm (by decide)
  have hn : 1 ≤ env.nrCpuIds := Nat.pos_of_ne_zero fun h => by simp [h, sizeofInt] at hm
  simp only [homaSysctlSoftirqCores, ha, Bool.not_true, Bool.false_eq_true, if_false, if_true]
  rw [writeLoop_one _ cores hn (by rw [hV, if_pos hm1]; rfl)
    (by rw [hV, List.getD_eq_default _ _ (by simp)]; split_ifs <;> decide)]
  refine congrArg (fun g => SysctlOutcome.mk 0 (Function.update cores c g) [c] [])
    (funext fun j => ?_)
  rw [hV, Nat.zero_add]
  split_ifs
  · rw [List.getD_cons_succ, List.getD_eq_getElem _ _ (by simp), List.getElem_ofFn]
  · rfl

/-- With three entries per core: on one CPU, writing core 0's entries `5 6 7` leaves them `-1`; on
four CPUs, writing entries for core id 7 reaches `per_cpu(homa_offload_core, 7)`, past
`nr_cpu_ids`. -/
theorem homaSysctlSoftirqCores_one_group_lost :
    (homaSysctlSoftirqCores ⟨3, 1, true⟩ true (.ok (((0 : Nat) : Int) :: List.ofFn ![5, 6, 7]))
        fun _ _ => 0).cores 0 = (fun _ => -1) ∧
    (homaSysctlSoftirqCores ⟨3, 4, true⟩ true (.ok (((7 : Nat) : Int) :: List.ofFn ![1, 2, 3]))
        fun _ _ => 0).accessed = [7] := by
  rw [@homaSysctlSoftirqCores_one_group ⟨3, 1, true⟩ rfl (by decide) 0 ![5, 6, 7] _,
    @homaSysctlSoftirqCores_one_group ⟨3, 4, true⟩ rfl (by decide) 7 ![1, 2, 3] _]
  refine ⟨funext fun j => ?_, rfl⟩
  simp [sizeofInt]

end Homa
