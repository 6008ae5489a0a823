import Homa.Sysctl

/-!
# The sysctl parameters: `homa_dointvec`

Every entry of `homa_ctl_table` but `gen3_softirq_cores` is served by `homa_dointvec`. It points
the entry at the namespace's `struct homa`, lets `proc_dointvec` read or write the field, and after
a write refreshes what depends on the parameters: `homa_incoming_sysctl_changed` always, and
`homa_prios_changed` when the entry is `unsched_cutoffs` or `num_priorities`. Two fields work as
triggers. A nonzero `next_id` is handed to `next_outgoing_id` and cleared. A write to `action` runs
the log action its value names and clears it. Both tests run after every write, whatever the entry
and whatever `proc_dointvec` returned.

The two refreshes are outside the source. They are passed in (`Refresh`) together with what the
code relies on of them (`Refresh.Spec`): the fields they may write, and, from homa.7 and the
comment before the call, that `homa_prios_changed` increments `cutoff_version`.
`Refresh.sample_spec` shows that the specification can be met.

The `next_id` test runs after a write to any entry, so the trigger works only because both fields
read 0 between calls. `dointvecRun_spec` shows that a run of calls from a state where both are 0
keeps them 0. `next_outgoing_id` ends at the last nonzero value a write stored into `next_id`, every
field the refreshes leave alone holds what the writes to its own entry stored, in order, and
`cutoff_version` goes up once per write to a priority entry. Each write calls out exactly as its
entry and the first integer it stored say, whatever came before it.
-/

namespace Homa

/-- The fields of `struct homa` that the `.data` offsets of the entries served by
`homa_dointvec` point at. -/
inductive HomaParam where
  | acceptBits | sysctlAction | bpageLeaseUsecs | busyUsecs | cutoffVersion | deadBuffsLimit
  | dropBits | flags | freezeType | groBusyUsecs | groPolicy | gsoForceSoftware | hijackTcp
  | maxDeadBuffs | maxGroSkbs | maxGsoSize | maxSchedPrio | nextId | numPriorities | pollUsecs
  | priorityMap | reapLimit | requestAckTicks | resendInterval | resendTicks
  | skbPageFreesPerSec | skbPagePoolMinKb | temp | timeoutResends | timeoutTicks | unschedBytes
  | unschedCutoffs | verbose | wmemMax
  deriving DecidableEq, Repr

structure CtlEntry where
  data : HomaParam
  maxlen : Nat
  deriving DecidableEq, Repr

/-- The part of the namespace's `struct homa` that `homa_dointvec` reads and writes: every field an
entry points at, as its array of `int`s, and `next_outgoing_id`. -/
structure HomaSysctlState where
  values : HomaParam → List Int
  nextOutgoingId : Int

namespace HomaSysctlState

def get (h : HomaSysctlState) (p : HomaParam) : Int := (h.values p).getD 0 0

def set (h : HomaSysctlState) (p : HomaParam) (v : Int) : HomaSysctlState :=
  { h with values := Function.update h.values p (v :: (h.values p).tail) }

def clear (h : HomaSysctlState) (p : HomaParam) : HomaSysctlState := h.set p 0

def store (h : HomaSysctlState) (e : CtlEntry) (ints : List Int) : HomaSysctlState :=
  let v := procDointvecWrite e.maxlen (h.values e.data) ints
  { h with values := Function.update h.values e.data v }

/-- The `next_id` block of `homa_dointvec`: a nonzero `next_id` goes to
`atomic64_set(&homa->next_outgoing_id, homa->next_id)`, then `homa->next_id = 0`. -/
def handOverNextId (h : HomaSysctlState) : HomaSysctlState :=
  if h.get .nextId ≠ 0 then ({ h with nextOutgoingId := h.get .nextId } : HomaSysctlState).clear .nextId
  else h

end HomaSysctlState

/-- `homa_incoming_sysctl_changed(homa)` and `homa_prios_changed(homa)`, outside the source, as what
they do to `struct homa`. -/
structure Refresh where
  incomingSysctlChanged : HomaSysctlState → HomaSysctlState
  priosChanged : HomaSysctlState → HomaSysctlState

/-- What `homa_dointvec` relies on of the refreshes, for the fields `touched` they may write:
neither writes another field, `next_id`, `action` or `next_outgoing_id`; and `homa_prios_changed`
increments `cutoff_version`, which `homa_incoming_sysctl_changed` leaves alone. -/
structure Refresh.Spec (r : Refresh) (touched : HomaParam → Prop) : Prop where
  incoming_values : ∀ h p, ¬touched p → (r.incomingSysctlChanged h).values p = h.values p
  prios_values : ∀ h p, ¬touched p → (r.priosChanged h).values p = h.values p
  incoming_nextOutgoingId : ∀ h, (r.incomingSysctlChanged h).nextOutgoingId = h.nextOutgoingId
  prios_nextOutgoingId : ∀ h, (r.priosChanged h).nextOutgoingId = h.nextOutgoingId
  nextId_untouched : ¬touched .nextId
  sysctlAction_untouched : ¬touched .sysctlAction
  incoming_cutoffVersion :
    ∀ h, (r.incomingSysctlChanged h).get .cutoffVersion = h.get .cutoffVersion
  prios_cutoffVersion : ∀ h, (r.priosChanged h).get .cutoffVersion = h.get .cutoffVersion + 1

def Refresh.after (r : Refresh) (table : CtlEntry) (h : HomaSysctlState) : HomaSysctlState :=
  let h₁ := r.incomingSysctlChanged h
  if table.data = .unschedCutoffs ∨ table.data = .numPriorities then r.priosChanged h₁ else h₁

/-- The functions outside the source that `homa_dointvec` calls. -/
inductive DointvecEvent where
  | incomingSysctlChanged
  | priosChanged
  | rpcLogActive (id : Int)
  | ttFreeze
  | pacerLogThrottled
  | ttPrintk
  | rpcLogActiveTt
  | freezePeers
  | printTotalIncoming
  | ttPrintFile
  deriving DecidableEq, Repr

/-- The log action `homa_dointvec` runs for a value of `action`. -/
def actionEvents (action : Int) : List DointvecEvent :=
  if action = 2 then [.rpcLogActive 0]
  else if action = 3 then [.ttFreeze]
  else if action = 4 then [.pacerLogThrottled]
  else if action = 5 then [.ttPrintk]
  else if action = 6 then [.rpcLogActiveTt, .ttFreeze]
  else if action = 7 then [.rpcLogActiveTt, .freezePeers, .ttFreeze]
  else if action = 8 then [.printTotalIncoming]
  else if action = 9 then [.ttPrintFile]
  else [.rpcLogActive action]

/-- What `proc_dointvec` does on the call: on a write, the integers it converted and stored before
it stopped; and what it returns. -/
structure ProcDointvec where
  ints : List Int
  result : Int
  deriving DecidableEq, Repr

structure DointvecOutcome where
  result : Int
  state : HomaSysctlState
  events : List DointvecEvent
  printed : List Int

/-- `homa_dointvec(table, write, buffer, lenp, ppos)` on the namespace's `struct homa`. -/
def homaDointvec (r : Refresh) (h : HomaSysctlState) (table : CtlEntry) (write : Bool)
    (proc : ProcDointvec) : DointvecOutcome :=
  if !write then ⟨proc.result, h, [], procDointvecRead table.maxlen (h.values table.data)⟩
  else
    let h₁ := (r.after table (h.store table proc.ints)).handOverNextId
    let ev := .incomingSysctlChanged ::
      if table.data = .unschedCutoffs ∨ table.data = .numPriorities then [.priosChanged] else []
    if table.data = .sysctlAction then
      ⟨proc.result, h₁.clear .sysctlAction, ev ++ actionEvents (h₁.get .sysctlAction), []⟩
    else ⟨proc.result, h₁, ev, []⟩

structure SysctlCall where
  entry : CtlEntry
  write : Bool
  proc : ProcDointvec
  deriving DecidableEq, Repr

/-- The calls of a run, one after another: the `struct homa` after them, and what they called. -/
def dointvecRun (r : Refresh) (h : HomaSysctlState) :
    List SysctlCall → HomaSysctlState × List DointvecEvent
  | [] => (h, [])
  | c :: cs =>
    let o := homaDointvec r h c.entry c.write c.proc
    let q := dointvecRun r o.state cs
    (q.1, o.events ++ q.2)

/-! ### What a run is for -/

def SysctlCall.firstStored (c : SysctlCall) (p : HomaParam) : Option Int :=
  if c.write ∧ c.entry.data = p then (c.proc.ints.take (c.entry.maxlen / sizeofInt)).head?
  else none

/-- The last nonzero value a run's writes stored into `next_id`, or `id` if none did. -/
def lastNextId (id : Int) : List SysctlCall → Int
  | [] => id
  | c :: cs => lastNextId (((c.firstStored .nextId).filter (· != 0)).getD id) cs

def SysctlCall.written (c : SysctlCall) (p : HomaParam) (v : List Int) : List Int :=
  if c.write ∧ c.entry.data = p then procDointvecWrite c.entry.maxlen v c.proc.ints else v

def SysctlCall.changesPrios (c : SysctlCall) : Bool :=
  decide (c.write ∧ (c.entry.data = .unschedCutoffs ∨ c.entry.data = .numPriorities))

/-- What a call runs outside the source: on a write, `homa_incoming_sysctl_changed`, then
`homa_prios_changed` for the two priority entries, then for `action` the log action of the first
integer stored, 0 if none. -/
def SysctlCall.calls (c : SysctlCall) : List DointvecEvent :=
  if c.write then
    .incomingSysctlChanged ::
      ((if c.entry.data = .unschedCutoffs ∨ c.entry.data = .numPriorities then [.priosChanged]
        else []) ++
      if c.entry.data = .sysctlAction then actionEvents ((c.firstStored .sysctlAction).getD 0)
      else [])
  else []

/-- What a field holds after a run's writes to its own entry, in order, from `v`. -/
def writtenValues (p : HomaParam) (v : List Int) : List SysctlCall → List Int
  | [] => v
  | c :: cs => writtenValues p (c.written p v) cs

/-! ### One call -/

namespace HomaSysctlState

variable {h : HomaSysctlState} {p q : HomaParam}

@[simp] theorem store_nextOutgoingId {e : CtlEntry} {ints : List Int} :
    (h.store e ints).nextOutgoingId = h.nextOutgoingId := rfl

theorem set_values_of_ne {v : Int} (hq : q ≠ p) : (h.set p v).values q = h.values q :=
  Function.update_noteq hq _ _

theorem get_set {v : Int} : (h.set p v).get q = if q = p then v else h.get q := by
  by_cases e : q = p
  · subst e; simp [get, set]
  · simp [get, set_values_of_ne e, e]

theorem store_values {e : CtlEntry} {ints : List Int} :
    (h.store e ints).values q =
      if e.data = q then procDointvecWrite e.maxlen (h.values q) ints else h.values q := by
  by_cases e' : e.data = q
  · subst e'; simp [store]
  · simp [store, Function.update_noteq (Ne.symm e'), e']

theorem handOverNextId_get_nextId : h.handOverNextId.get .nextId = 0 := by
  unfold handOverNextId; split_ifs with hz
  · exact get_set.trans (if_pos rfl)
  · exact not_not.1 hz

theorem handOverNextId_values (hq : q ≠ .nextId) : h.handOverNextId.values q = h.values q := by
  unfold handOverNextId; split_ifs
  · exact set_values_of_ne hq
  · rfl

theorem handOverNextId_nextOutgoingId :
    h.handOverNextId.nextOutgoingId = if h.get .nextId ≠ 0 then h.get .nextId else h.nextOutgoingId := by
  unfold handOverNextId; split_ifs <;> rfl

end HomaSysctlState

section

variable {r : Refresh} {touched : HomaParam → Prop} {h : HomaSysctlState} {p : HomaParam}

theorem Refresh.Spec.after_values (hr : r.Spec touched) (t : CtlEntry) (hp : ¬touched p) :
    (r.after t h).values p = h.values p := by
  unfold Refresh.after; split_ifs
  · rw [hr.prios_values _ _ hp, hr.incoming_values _ _ hp]
  · exact hr.incoming_values _ _ hp

theorem Refresh.Spec.after_nextOutgoingId (hr : r.Spec touched) (t : CtlEntry) :
    (r.after t h).nextOutgoingId = h.nextOutgoingId := by
  unfold Refresh.after; split_ifs
  · rw [hr.prios_nextOutgoingId, hr.incoming_nextOutgoingId]
  · exact hr.incoming_nextOutgoingId _

theorem Refresh.Spec.after_cutoffVersion (hr : r.Spec touched) (t : CtlEntry) :
    (r.after t h).get .cutoffVersion = h.get .cutoffVersion +
      if t.data = .unschedCutoffs ∨ t.data = .numPriorities then 1 else 0 := by
  unfold Refresh.after; split_ifs
  · rw [hr.prios_cutoffVersion, hr.incoming_cutoffVersion]
  · rw [hr.incoming_cutoffVersion, Int.add_zero]

theorem procDointvecWrite_getD_zero (maxlen : Nat) (v ints : List Int) :
    (procDointvecWrite maxlen v ints).getD 0 0 =
      ((ints.take (maxlen / sizeofInt)).head?).getD (v.getD 0 0) := by
  unfold procDointvecWrite
  cases ints.take (maxlen / sizeofInt) <;> rfl

theorem get_store_of_zero (hz : h.get p = 0) {c : SysctlCall} (hw : c.write = true) :
    (h.store c.entry c.proc.ints).get p = (c.firstStored p).getD 0 := by
  rw [HomaSysctlState.get, HomaSysctlState.store_values]
  by_cases e : c.entry.data = p
  · rw [if_pos e, procDointvecWrite_getD_zero, SysctlCall.firstStored, if_pos ⟨hw, e⟩]
    exact congrArg _ hz
  · rw [if_neg e, SysctlCall.firstStored, if_neg (by simp [e])]
    exact hz

theorem get_after_store (hr : r.Spec touched) (hp : ¬touched p) (hz : h.get p = 0)
    {c : SysctlCall} (hw : c.write = true) :
    (r.after c.entry (h.store c.entry c.proc.ints)).get p = (c.firstStored p).getD 0 := by
  rw [← get_store_of_zero hz hw, HomaSysctlState.get, HomaSysctlState.get, hr.after_values _ hp]

/-- One call from a state where both triggers read 0: they still read 0, `next_outgoing_id` takes
the nonzero value the call stored into `next_id`, every field the refreshes leave alone holds what
the call wrote to it, `cutoff_version` goes up by one for a write to a priority entry, and the call
runs `c.calls`. -/
theorem homaDointvec_step (hr : r.Spec touched) (hn : h.get .nextId = 0)
    (ha : h.get .sysctlAction = 0) (c : SysctlCall) :
    let o := homaDointvec r h c.entry c.write c.proc
    o.state.get .nextId = 0 ∧ o.state.get .sysctlAction = 0 ∧
      o.state.nextOutgoingId = ((c.firstStored .nextId).filter (· != 0)).getD h.nextOutgoingId ∧
      (∀ p, ¬touched p → p ≠ .nextId → p ≠ .sysctlAction →
        o.state.values p = c.written p (h.values p)) ∧
      ((c.write = true → c.entry.data ≠ .cutoffVersion) →
        o.state.get .cutoffVersion = h.get .cutoffVersion + if c.changesPrios then 1 else 0) ∧
      o.events = c.calls := by
  intro o
  cases hw : c.write
  · simp [o, homaDointvec, hw, hn, ha, SysctlCall.firstStored, SysctlCall.written,
      SysctlCall.changesPrios, SysctlCall.calls]
  -- the state before the `action` test
  set h₁ := (r.after c.entry (h.store c.entry c.proc.ints)).handOverNextId with eh₁
  have hv : ∀ p, ¬touched p → p ≠ .nextId → h₁.values p = c.written p (h.values p) :=
    fun p ht hp => by
      rw [eh₁, HomaSysctlState.handOverNextId_values hp, hr.after_values _ ht,
        HomaSysctlState.store_values]
      simp only [SysctlCall.written, hw, true_and]
  have hact : h₁.get .sysctlAction = (c.firstStored .sysctlAction).getD 0 := by
    rw [← get_after_store hr hr.sysctlAction_untouched ha hw, HomaSysctlState.get,
      HomaSysctlState.get, HomaSysctlState.handOverNextId_values (by decide)]
  have hout : h₁.nextOutgoingId =
      ((c.firstStored .nextId).filter (· != 0)).getD h.nextOutgoingId := by
    rw [HomaSysctlState.handOverNextId_nextOutgoingId,
      get_after_store hr hr.nextId_untouched hn hw, hr.after_nextOutgoingId]
    cases c.firstStored .nextId with
    | none => simp
    | some v => by_cases v0 : v = 0 <;> simp [v0, Option.filter]
  have hcut : c.entry.data ≠ .cutoffVersion →
      h₁.get .cutoffVersion = h.get .cutoffVersion + if c.changesPrios then 1 else 0 := by
    intro hc
    rw [HomaSysctlState.get, HomaSysctlState.handOverNextId_values (by decide), ← HomaSysctlState.get,
      hr.after_cutoffVersion, HomaSysctlState.get, HomaSysctlState.store_values, if_neg hc]
    simp [SysctlCall.changesPrios, hw, HomaSysctlState.get]
  simp only [o, homaDointvec, hw, Bool.not_true, Bool.false_eq_true, if_false, ← eh₁]
  by_cases e : c.entry.data = .sysctlAction
  · simp only [if_pos e, HomaSysctlState.clear]
    refine ⟨by rw [HomaSysctlState.get_set, if_neg (by decide),
        HomaSysctlState.handOverNextId_get_nextId],
      by rw [HomaSysctlState.get_set, if_pos rfl], hout,
      fun p ht hp hq => by rw [HomaSysctlState.set_values_of_ne hq, hv p ht hp],
      fun hc => by rw [HomaSysctlState.get_set, if_neg (by decide), hcut (hc trivial)], ?_⟩
    simp [SysctlCall.calls, hw, e, hact]
  · simp only [if_neg e]
    refine ⟨HomaSysctlState.handOverNextId_get_nextId,
      by rw [hact, SysctlCall.firstStored, if_neg (by simp [e])]; rfl, hout,
      fun p ht hp _ => hv p ht hp, fun hc => hcut (hc trivial), ?_⟩
    simp [SysctlCall.calls, hw, e]

end

/-! ### A run -/

/-- A run of `homa_dointvec` calls, reads and writes to any entries with any `proc_dointvec`
outcomes, from a `struct homa` whose `next_id` and `action` read 0: both still read 0 after it;
`next_outgoing_id` is the last nonzero value a write stored into `next_id`, or what it was if none
did; every field the refreshes leave alone holds exactly what the writes to its own entry stored, in
order; when no write goes to the read-only `cutoff_version`, it has gone up once per write to
`unsched_cutoffs` or `num_priorities`; and the run called out, call by call, what each write's
entry and first stored integer say. -/
theorem dointvecRun_spec {r : Refresh} {touched : HomaParam → Prop} (hr : r.Spec touched)
    (calls : List SysctlCall) :
    ∀ (h : HomaSysctlState), h.get .nextId = 0 → h.get .sysctlAction = 0 →
      (dointvecRun r h calls).1.get .nextId = 0 ∧ (dointvecRun r h calls).1.get .sysctlAction = 0 ∧
      (dointvecRun r h calls).1.nextOutgoingId = lastNextId h.nextOutgoingId calls ∧
      (∀ p, ¬touched p → p ≠ .nextId → p ≠ .sysctlAction →
        (dointvecRun r h calls).1.values p = writtenValues p (h.values p) calls) ∧
      ((∀ c ∈ calls, c.write = true → c.entry.data ≠ .cutoffVersion) →
        (dointvecRun r h calls).1.get .cutoffVersion =
          h.get .cutoffVersion + calls.countP SysctlCall.changesPrios) ∧
      (dointvecRun r h calls).2 = calls.flatMap SysctlCall.calls := by
  induction calls with
  | nil => exact fun h hn ha => ⟨hn, ha, rfl, fun _ _ _ _ => rfl, fun _ => (Int.add_zero _).symm, rfl⟩
  | cons c cs ih =>
    intro h hn ha
    obtain ⟨hn', ha', ho, hv, hc, he⟩ := homaDointvec_step hr hn ha c
    obtain ⟨hn'', ha'', ho', hv', hc', he'⟩ := ih _ hn' ha'
    refine ⟨hn'', ha'', by rw [dointvecRun, ho', ho, lastNextId],
      fun p ht hp hq => by rw [dointvecRun, hv' p ht hp hq, hv p ht hp hq, writtenValues],
      fun hro => ?_, by rw [dointvecRun, he', he, List.flatMap_cons]⟩
    rw [dointvecRun, hc' fun c' hc' => hro c' (List.mem_cons_of_mem _ hc'),
      hc (hro c (List.mem_cons_self _ _)), List.countP_cons]
    cases c.changesPrios
    · simp
    · simp only [if_true]; push_cast; omega

/-- Refreshes that meet the specification: `homa_incoming_sysctl_changed` writing no entry's field,
and `homa_prios_changed` incrementing `cutoff_version` and setting `max_sched_prio` to
`num_priorities - 1`. -/
def Refresh.sample : Refresh where
  incomingSysctlChanged := id
  priosChanged h :=
    (h.set .cutoffVersion (h.get .cutoffVersion + 1)).set .maxSchedPrio (h.get .numPriorities - 1)

theorem Refresh.sample_spec : Refresh.sample.Spec (fun p => p = .cutoffVersion ∨ p = .maxSchedPrio) where
  incoming_values _ _ _ := rfl
  prios_values _ p hp := by
    rw [not_or] at hp
    simp only [sample, HomaSysctlState.set_values_of_ne hp.1, HomaSysctlState.set_values_of_ne hp.2]
  incoming_nextOutgoingId _ := rfl
  prios_nextOutgoingId _ := rfl
  nextId_untouched := by decide
  sysctlAction_untouched := by decide
  incoming_cutoffVersion _ := rfl
  prios_cutoffVersion _ := by simp [sample, HomaSysctlState.get_set]

/-- Writing 5 to `next_id`, 4 to `num_priorities` and 2 to `action` with the sample refreshes,
from every field 0. -/
theorem dointvecRun_spec_three :
    Refresh.sample.Spec (fun p => p = .cutoffVersion ∨ p = .maxSchedPrio) ∧
      (⟨fun _ => [0], 0⟩ : HomaSysctlState).get .nextId = 0 ∧
      (⟨fun _ => [0], 0⟩ : HomaSysctlState).get .sysctlAction = 0 ∧
      let calls : List SysctlCall := [⟨⟨.nextId, 4⟩, true, ⟨[5], 0⟩⟩,
        ⟨⟨.numPriorities, 4⟩, true, ⟨[4], 0⟩⟩, ⟨⟨.sysctlAction, 4⟩, true, ⟨[2], 0⟩⟩]
      let out := dointvecRun Refresh.sample ⟨fun _ => [0], 0⟩ calls
      out.1.get .nextId = 0 ∧ out.1.get .sysctlAction = 0 ∧
        out.1.nextOutgoingId = lastNextId 0 calls ∧
        (∀ p, ¬(p = .cutoffVersion ∨ p = .maxSchedPrio) → p ≠ .nextId → p ≠ .sysctlAction →
          out.1.values p = writtenValues p [0] calls) ∧
        ((∀ c ∈ calls, c.write = true → c.entry.data ≠ .cutoffVersion) →
          out.1.get .cutoffVersion = 0 + calls.countP SysctlCall.changesPrios) ∧
        out.2 = calls.flatMap SysctlCall.calls :=
  ⟨Refresh.sample_spec, rfl, rfl, dointvecRun_spec Refresh.sample_spec _ ⟨fun _ => [0], 0⟩ rfl rfl⟩

end Homa
