import Mathlib.Logic.Relation
import Mathlib.Data.List.Chain

/-!
# The timer thread, and how `homa_unload` stops it

`homa_load` starts `homa_timer_main` in a kernel thread. Each pass of its loop sets the task
`TASK_UNINTERRUPTIBLE`; unless `timer_thread_exit` is set it arms the hrtimer for one tick and calls
`schedule()`; it then sets itself `TASK_RUNNING`, leaves the loop if `timer_thread_exit` is set,
and otherwise runs `homa_timer`. The hrtimer's callback `homa_hrtimer` wakes the thread and returns
`HRTIMER_NORESTART` (its comment says `HRTIMER_RESTART`; the model follows the code). After the loop
the thread cancels the hrtimer and completes `timer_thread_done`. `homa_unload` stops the thread:
it sets `timer_thread_exit`, wakes the thread, and waits for `timer_thread_done`; after the wait it
tears down the rest, `homa_destroy(homa)` included.

Three parties run at once: the thread, the unloader, and the hrtimer interrupt (`TimerStep`). Each
step is an executable function of the state. The kernel primitives are modelled by what they
guarantee: `schedule()` returns once the task is `TASK_RUNNING`, `wake_up_process` makes it so, an
armed hrtimer fires once and runs its callback as one step, `hrtimer_cancel` leaves it disarmed,
and `wait_for_completion` returns once the thread has completed. `TimerInv` holds in every
reachable state.

That model has finitely many states and says nothing about time. The timed model over it
(`TimedState`) adds a clock, the expiry `hrtimer_start` sets one tick ahead, and the times at which
`homa_timer` was called; the hrtimer fires only once the clock has reached its expiry. Every timed
move is a step of the untimed model or a clock tick, which leaves it alone (`TimedStep.timer`), so
`TimerInv` holds there too; `TimedInv` adds what the clock guarantees. From the two:
* `homa_timer` is called at least a tick after its previous call, so at most `now / tick + 1`
  times by `now` (`homa_timer_calls_spaced`);
* the thread never sleeps without a wakeup due within a tick (`timer_thread_wakes_within_tick`);
* once `homa_unload` has set `timer_thread_exit`, `homa_timer` is never called again, and once its
  wait returns the thread has exited with the hrtimer disarmed (`timer_exit_stops_calls`).
-/

namespace Homa

/-- Where the timer thread is in `homa_timer_main`: before each statement of its loop in turn, from
`set_current_state` (`top`) to `if (timer_thread_exit) break` (`testBreak`); in `schedule()`
(`sched`) or in `homa_timer` (`inTimer`); before `hrtimer_cancel` (`cancel`) and
`kthread_complete_and_exit` (`complete`); or exited. -/
inductive ThreadPc where
  | top | testExit | arm | sched | setRunning | testBreak | inTimer | cancel | complete | exited
  deriving DecidableEq, Repr

/-- Where `homa_unload` is in stopping the timer thread: before `timer_thread_exit = 1`, before
`wake_up_process(timer_kthread)`, in `wait_for_completion(&timer_thread_done)`, or past it. -/
inductive UnloadPc where
  | setExit | wake | wait | past
  deriving DecidableEq, Repr

/-- What the three parties share: where the thread is, whether its task state is `TASK_RUNNING`,
`timer_thread_exit`, whether the hrtimer is armed, whether `timer_thread_done` has been completed,
and where the unloader is. -/
structure TimerState where
  thread : ThreadPc
  running : Bool
  exit : Bool
  armed : Bool
  done : Bool
  unload : UnloadPc
  deriving DecidableEq, Repr

/-- The state `kthread_run` leaves at the end of `homa_load`: the new thread running at the top of
its loop (the `hrtimer_init` before it touches nothing shared), the hrtimer idle. -/
def TimerState.start : TimerState := ⟨.top, true, false, false, false, .setExit⟩

def TimerState.wakeUp (s : TimerState) : TimerState := { s with running := true }

section

variable (s : TimerState)

@[simp] theorem TimerState.wakeUp_thread : s.wakeUp.thread = s.thread := rfl
@[simp] theorem TimerState.wakeUp_running : s.wakeUp.running = true := rfl
@[simp] theorem TimerState.wakeUp_exit : s.wakeUp.exit = s.exit := rfl
@[simp] theorem TimerState.wakeUp_armed : s.wakeUp.armed = s.armed := rfl

end

/-- One step of `homa_timer_main`; `none` while the thread sleeps in `schedule()`, and once it has
exited. -/
def threadStep (s : TimerState) : Option TimerState :=
  match s.thread with
  | .top => some { s with thread := .testExit, running := false }
  | .testExit => some { s with thread := if s.exit then .setRunning else .arm }
  | .arm => some { s with thread := .sched, armed := true }
  | .sched => if s.running then some { s with thread := .setRunning } else none
  | .setRunning => some { s with thread := .testBreak, running := true }
  | .testBreak => some { s with thread := if s.exit then .cancel else .inTimer }
  | .inTimer => some { s with thread := .top }
  | .cancel => some { s with thread := .complete, armed := false }
  | .complete => some { s with thread := .exited, done := true }
  | .exited => none

/-- One step of the stop sequence of `homa_unload`; `none` while it waits, and once it is past. -/
def unloadStep (s : TimerState) : Option TimerState :=
  match s.unload with
  | .setExit => some { s with unload := .wake, exit := true }
  | .wake => some { s.wakeUp with unload := .wait }
  | .wait => if s.done then some { s with unload := .past } else none
  | .past => none

/-- The hrtimer expires and runs `homa_hrtimer`: the thread is woken and the timer is not
restarted. -/
def fireStep (s : TimerState) : Option TimerState :=
  if s.armed then some { s.wakeUp with armed := false } else none

inductive TimerStep : TimerState → TimerState → Prop
  | thread {s t : TimerState} (h : threadStep s = some t) : TimerStep s t
  | unload {s t : TimerState} (h : unloadStep s = some t) : TimerStep s t
  | fire {s t : TimerState} (h : fireStep s = some t) : TimerStep s t

def TimerReachable (s : TimerState) : Prop :=
  Relation.ReflTransGen TimerStep TimerState.start s

/-! ### The invariant -/

def ThreadPc.leftLoop : ThreadPc → Bool
  | .cancel | .complete | .exited => true
  | _ => false

def ThreadPc.cancelled : ThreadPc → Bool
  | .complete | .exited => true
  | _ => false

/-- What holds in every reachable state. While `timer_thread_exit` is clear, only the thread asleep
in `schedule()` has the hrtimer armed, and nothing makes the thread runnable between
`set_current_state` and the return of `schedule()` but the unloader's wakeup (`quiet`). -/
structure TimerInv (s : TimerState) : Prop where
  exit_iff : s.exit = true ↔ s.unload ≠ .setExit
  done_iff : s.done = true ↔ s.thread = .exited
  past_done : s.unload = .past → s.done = true
  left_exit : s.thread.leftLoop = true → s.exit = true
  cancelled_disarmed : s.thread.cancelled = true → s.armed = false
  sleep_armed : s.thread = .sched → s.running = false → s.armed = true
  armed_sched : s.armed = true → s.exit = false → s.thread = .sched
  quiet : s.thread = .testExit ∨ s.thread = .arm ∨ s.thread = .sched ∧ s.armed = true →
    s.running = true → s.exit = true

theorem TimerInv.start : TimerInv .start := by
  constructor <;> decide

section

variable {s t : TimerState}

theorem TimerInv.of_threadStep (hi : TimerInv s) (h : threadStep s = some t) : TimerInv t := by
  obtain ⟨pc, running, exit, armed, done, unload⟩ := s
  obtain ⟨h1, h2, h3, h4, h5, h6, h7, h8⟩ := hi
  cases pc <;> simp only [Homa.threadStep, Option.ite_none_right_eq_some, Option.some.injEq,
    reduceCtorEq] at h
  case sched =>
    obtain ⟨hr, rfl⟩ := h; constructor <;> simp_all [ThreadPc.leftLoop, ThreadPc.cancelled]
  case testExit | testBreak =>
    subst h; cases exit <;> constructor <;> simp_all [ThreadPc.leftLoop, ThreadPc.cancelled]
  all_goals subst h; constructor <;> simp_all [ThreadPc.leftLoop, ThreadPc.cancelled]

theorem TimerInv.of_unloadStep (hi : TimerInv s) (h : unloadStep s = some t) : TimerInv t := by
  obtain ⟨pc, running, exit, armed, done, unload⟩ := s
  obtain ⟨h1, h2, h3, h4, h5, h6, h7, h8⟩ := hi
  cases unload <;> simp only [Homa.unloadStep, Option.ite_none_right_eq_some, Option.some.injEq,
    reduceCtorEq] at h
  case wait => obtain ⟨hd, rfl⟩ := h; exact ⟨by simpa using h1, h2, fun _ => hd, h4, h5, h6, h7, h8⟩
  all_goals subst h; constructor <;> simp_all [TimerState.wakeUp]

theorem TimerInv.of_fireStep (hi : TimerInv s) (h : fireStep s = some t) : TimerInv t := by
  simp only [Homa.fireStep] at h
  split_ifs at h with ha
  cases h
  refine ⟨hi.exit_iff, hi.done_iff, hi.past_done, hi.left_exit, fun _ => rfl,
    fun _ h => absurd h (by simp [TimerState.wakeUp]), fun h => absurd h (by simp), fun hq _ => ?_⟩
  -- the hrtimer was armed, so the thread was asleep in `schedule()` or the flag was set
  cases hx : s.exit
  · simp [hi.armed_sched ha hx] at hq
  · exact hx

theorem TimerInv.step (hi : TimerInv s) : TimerStep s t → TimerInv t
  | .thread h => hi.of_threadStep h
  | .unload h => hi.of_unloadStep h
  | .fire h => hi.of_fireStep h

theorem TimerInv.of_steps (hi : TimerInv s) (h : Relation.ReflTransGen TimerStep s t) :
    TimerInv t := by
  induction h with
  | refl => exact hi
  | tail _ hst ih => exact ih.step hst

theorem TimerInv.of_reachable (h : TimerReachable s) : TimerInv s := TimerInv.start.of_steps h

/-- What the thread's step does to the flag, the hrtimer and `homa_timer`: it leaves the flag
alone, arms the hrtimer only from `arm`, and enters `homa_timer` only from the flag's test with
the flag clear. -/
theorem threadStep_spec (h : threadStep s = some t) :
    t.exit = s.exit ∧ (t.armed = true → s.thread ≠ .arm → s.armed = true) ∧
      (t.thread = .inTimer → s.thread = .testBreak ∧ s.exit = false) := by
  obtain ⟨pc, running, exit, armed, done, unload⟩ := s
  cases pc <;> simp only [threadStep, Option.ite_none_right_eq_some, Option.some.injEq,
    reduceCtorEq] at h
  case sched => obtain ⟨-, rfl⟩ := h; simp
  all_goals subst h; cases exit <;> simp

/-- The thread is on its way from `schedule()` to `homa_timer`: woken in `schedule()`, or past it
and before the flag's test. -/
def TimerState.woken (s : TimerState) : Prop :=
  s.thread = .sched ∧ s.running = true ∨ s.thread = .setRunning ∨ s.thread = .testBreak

/-- With the flag clear, the thread's own step puts it on its way to `homa_timer` only if it already
was: arming the hrtimer leaves it asleep, since it is not runnable there (`quiet`). -/
theorem threadStep_woken (hi : TimerInv s) (h : threadStep s = some t) (hw : t.woken)
    (hx : t.exit = false) : s.woken := by
  obtain ⟨pc, running, exit, armed, done, unload⟩ := s
  cases pc <;> simp only [threadStep, Option.ite_none_right_eq_some, Option.some.injEq,
    reduceCtorEq] at h
  case sched => exact .inl ⟨rfl, h.1⟩
  case setRunning => exact .inr (.inl rfl)
  case testBreak => exact .inr (.inr rfl)
  case arm =>
    subst h
    have := hi.quiet (.inr (.inl rfl)) (by simpa [TimerState.woken] using hw)
    simp_all
  all_goals subst h; cases exit <;> simp_all [TimerState.woken]

end

/-! ### Time -/

/-- The timer model with a clock: the time `now`, the expiry `hrtimer_start` set last, and the
times at which `homa_timer` was called, latest first. -/
structure TimedState where
  timer : TimerState
  now : Nat
  expires : Nat
  calls : List Nat
  deriving DecidableEq, Repr

def TimedState.start : TimedState := ⟨.start, 0, 0, []⟩

/-- A step of one of the three parties, or a tick of the clock. -/
inductive Move where
  | thread | unload | fire | clock
  deriving DecidableEq, Repr

/-- A move against the clock: `hrtimer_start(&hrtimer, tick_interval, HRTIMER_MODE_REL)` sets the
expiry `tick` after the clock, the step into `homa_timer` records the time of the call, and the
hrtimer fires only once the clock has reached its expiry. -/
def Move.step (tick : Nat) (σ : TimedState) : Move → Option TimedState
  | .thread => (threadStep σ.timer).map fun s =>
      ⟨s, σ.now, if σ.timer.thread = .arm then σ.now + tick else σ.expires,
        if s.thread = .inTimer then σ.now :: σ.calls else σ.calls⟩
  | .unload => (unloadStep σ.timer).map fun s => { σ with timer := s }
  | .fire =>
    if σ.expires ≤ σ.now then (fireStep σ.timer).map fun s => { σ with timer := s } else none
  | .clock => some { σ with now := σ.now + 1 }

def TimedStep (tick : Nat) (σ τ : TimedState) : Prop := ∃ m : Move, m.step tick σ = some τ

def TimedReachable (tick : Nat) (σ : TimedState) : Prop :=
  Relation.ReflTransGen (TimedStep tick) .start σ

def runMoves (tick : Nat) : List Move → TimedState → Option TimedState
  | [], σ => some σ
  | m :: ms, σ => (m.step tick σ).bind (runMoves tick ms)

section

variable {tick : Nat} {σ τ : TimedState}

theorem runMoves_steps : ∀ (ms : List Move) (σ : TimedState),
    runMoves tick ms σ = some τ → Relation.ReflTransGen (TimedStep tick) σ τ
  | [], _, h => by cases h; exact .refl
  | m :: ms, _, h => by
    obtain ⟨υ, hυ, h⟩ := Option.bind_eq_some.1 h
    exact .head ⟨m, hυ⟩ (runMoves_steps ms υ h)

/-- A timed move is a step of the untimed model, or a clock tick, which leaves it alone. -/
theorem TimedStep.timer (h : TimedStep tick σ τ) :
    τ.timer = σ.timer ∨ TimerStep σ.timer τ.timer := by
  obtain ⟨m, h⟩ := h
  cases m <;> simp only [Move.step] at h
  case thread =>
    obtain ⟨s, hs, rfl⟩ := Option.map_eq_some'.1 h
    exact .inr (.thread hs)
  case unload =>
    obtain ⟨s, hs, rfl⟩ := Option.map_eq_some'.1 h
    exact .inr (.unload hs)
  case fire =>
    obtain ⟨s, hs, rfl⟩ := Option.map_eq_some'.1 (Option.ite_none_right_eq_some.1 h).2
    exact .inr (.fire hs)
  case clock => cases h; exact .inl rfl

theorem TimedReachable.timer (h : TimedReachable tick σ) : TimerReachable σ.timer := by
  induction h with
  | refl => exact .refl
  | tail _ hst ih =>
    rcases hst.timer with e | e
    · exact e ▸ ih
    · exact ih.tail e

end


/-! ### What the clock guarantees -/

/-- What the clock adds to `TimerInv`: the calls so far are a tick apart and none is in the
future; the expiry is at most a tick ahead, and an armed hrtimer expires at least a tick after the
last call; with the flag clear, the thread on its way to `homa_timer` is a tick past the last
call. -/
structure TimedInv (tick : Nat) (σ : TimedState) : Prop where
  spaced : σ.calls.Chain' fun a b => b + tick ≤ a
  last_le : ∀ l ∈ σ.calls.head?, l ≤ σ.now
  expires_le : σ.expires ≤ σ.now + tick
  armed_after : σ.timer.armed = true → ∀ l ∈ σ.calls.head?, l + tick ≤ σ.expires
  woken : σ.timer.woken → σ.timer.exit = false → ∀ l ∈ σ.calls.head?, l + tick ≤ σ.now

section

variable {tick : Nat} {σ : TimedState} {s : TimerState}

theorem TimedInv.start : TimedInv tick .start := by
  constructor <;> simp [TimedState.start]

theorem TimedInv.clock (hi : TimedInv tick σ) : TimedInv tick { σ with now := σ.now + 1 } :=
  { hi with
    last_le := fun l hl => Nat.le_succ_of_le (hi.last_le l hl)
    expires_le := show σ.expires ≤ σ.now + 1 + tick by have := hi.expires_le; omega
    woken := fun h hx l hl => Nat.le_succ_of_le (hi.woken h hx l hl) }

theorem unloadStep_frame (hu : TimerInv s) {t : TimerState} (h : unloadStep s = some t) :
    t.thread = s.thread ∧ t.armed = s.armed ∧
      (t.exit = true ∨ t.running = s.running ∧ t.exit = s.exit) := by
  obtain ⟨pc, running, exit, armed, done, unload⟩ := s
  cases unload <;> simp only [unloadStep, Option.ite_none_right_eq_some, Option.some.injEq,
    reduceCtorEq] at h
  case wait => obtain ⟨-, rfl⟩ := h; simp
  case wake => subst h; exact ⟨rfl, rfl, .inl (hu.exit_iff.2 (by simp))⟩
  all_goals subst h; simp

theorem TimedInv.unload (hu : TimerInv σ.timer) (hi : TimedInv tick σ)
    (h : unloadStep σ.timer = some s) : TimedInv tick { σ with timer := s } := by
  obtain ⟨hth, harm, hx | ⟨hr, hx⟩⟩ := unloadStep_frame hu h
  · exact { hi with armed_after := harm ▸ hi.armed_after, woken := fun _ h => by simp [hx] at h }
  · refine { hi with armed_after := harm ▸ hi.armed_after, woken := ?_ }
    simp only [TimerState.woken, hth, hr, hx]
    exact hi.woken

/-- The hrtimer fires only at its expiry, which is a tick past the last call. -/
theorem TimedInv.fire (hi : TimedInv tick σ) (hexp : σ.expires ≤ σ.now)
    (h : fireStep σ.timer = some s) : TimedInv tick { σ with timer := s } := by
  simp only [fireStep, Option.ite_none_right_eq_some, Option.some.injEq] at h
  obtain ⟨ha, rfl⟩ := h
  exact { hi with
    armed_after := by simp
    woken := fun _ _ l hl => (hi.armed_after ha l hl).trans hexp }

/-- The thread's move keeps the invariant: arming sets the expiry a tick after a clock that is past
the last call, and the thread reaches `homa_timer` with the flag clear only through `schedule()`
returning on the hrtimer's wakeup. -/
theorem TimedInv.thread (hu : TimerInv σ.timer) (hi : TimedInv tick σ)
    (h : threadStep σ.timer = some s) :
    TimedInv tick ⟨s, σ.now, if σ.timer.thread = .arm then σ.now + tick else σ.expires,
      if s.thread = .inTimer then σ.now :: σ.calls else σ.calls⟩ := by
  obtain ⟨hx, harm, hcall⟩ := threadStep_spec h
  have hwoken (hw : s.woken) (hx₀ : s.exit = false) : ∀ l ∈ σ.calls.head?, l + tick ≤ σ.now :=
    hi.woken (threadStep_woken hu h hw hx₀) (hx ▸ hx₀)
  by_cases hc : s.thread = .inTimer
  · -- the call of `homa_timer`, from the flag's test: the hrtimer is disarmed, and the clock is a
    -- tick past the last call
    obtain ⟨hb, hx₀⟩ := hcall hc
    have hna : σ.timer.thread ≠ .arm := by simp [hb]
    rw [if_pos hc, if_neg hna]
    refine ⟨List.chain'_cons'.2 ⟨hi.woken (.inr (.inr hb)) hx₀, hi.spaced⟩, by simp,
      hi.expires_le, fun ha => ?_, fun hw => ?_⟩
    · have := hu.armed_sched (harm ha hna) hx₀
      simp [hb] at this
    · simp [TimerState.woken, hc] at hw
  rw [if_neg hc]
  by_cases ha : σ.timer.thread = .arm
  · -- arming: the expiry goes a tick past the clock, which is past the last call
    rw [if_pos ha]
    exact { hi with
      expires_le := Nat.le_refl _
      armed_after := fun _ l hl => Nat.add_le_add_right (hi.last_le l hl) _
      woken := hwoken }
  · rw [if_neg ha]
    exact { hi with armed_after := fun hs => hi.armed_after (harm hs ha), woken := hwoken }

variable {τ : TimedState}

theorem TimedInv.step (hu : TimerInv σ.timer) (hi : TimedInv tick σ) (h : TimedStep tick σ τ) :
    TimedInv tick τ := by
  obtain ⟨m, h⟩ := h
  cases m <;> simp only [Move.step] at h
  case thread =>
    obtain ⟨s, hs, rfl⟩ := Option.map_eq_some'.1 h
    exact hi.thread hu hs
  case unload =>
    obtain ⟨s, hs, rfl⟩ := Option.map_eq_some'.1 h
    exact hi.unload hu hs
  case fire =>
    obtain ⟨hexp, h⟩ := Option.ite_none_right_eq_some.1 h
    obtain ⟨s, hs, rfl⟩ := Option.map_eq_some'.1 h
    exact hi.fire hexp hs
  case clock => cases h; exact hi.clock

theorem TimedInv.of_reachable (h : TimedReachable tick σ) : TimedInv tick σ := by
  induction h with
  | refl => exact .start
  | tail hr hst ih => exact ih.step (TimerInv.of_reachable (TimedReachable.timer hr)) hst

theorem length_mul_le_of_spaced : ∀ {l : List Nat} {a : Nat}, l.Chain' (fun a b => b + tick ≤ a) →
    (∀ x ∈ l.head?, x ≤ a) → l.length * tick ≤ a + tick
  | [], _, _, _ => by simp
  | [_], _, _, _ => by simp
  | x :: y :: l, a, hc, hx => by
    obtain ⟨hxy, hc⟩ := List.chain'_cons.1 hc
    have ih := length_mul_le_of_spaced (a := x - tick) hc (by simp; omega)
    have hxa := hx x rfl
    rw [List.length_cons, Nat.succ_mul]
    omega

end

/-- In every run, `homa_timer` is called at least a tick after its previous call, so at most
`now / tick + 1` times by the time `now`: with the flag clear the thread calls it only after
`schedule()` returned on the hrtimer's wakeup, and the hrtimer was armed a tick after a clock
already past the previous call. -/
theorem homa_timer_calls_spaced {tick : Nat} {σ : TimedState} (hr : TimedReachable tick σ) :
    σ.calls.Chain' (fun a b => b + tick ≤ a) ∧ σ.calls.length * tick ≤ σ.now + tick :=
  have hi := TimedInv.of_reachable hr
  ⟨hi.spaced, length_mul_le_of_spaced hi.spaced hi.last_le⟩

/-- Two calls of `homa_timer`, at times 2 and 4, with a tick of 2. -/
theorem homa_timer_calls_spaced_two :
    TimedReachable 2 ⟨⟨.inTimer, true, false, false, false, .setExit⟩, 4, 4, [4, 2]⟩ ∧
      List.Chain' (fun a b => b + 2 ≤ a) [4, 2] ∧ [4, 2].length * 2 ≤ 4 + 2 :=
  have hr : TimedReachable 2 ⟨⟨.inTimer, true, false, false, false, .setExit⟩, 4, 4, [4, 2]⟩ :=
    runMoves_steps [.thread, .thread, .thread, .clock, .clock, .fire, .thread, .thread, .thread,
      .thread, .thread, .thread, .thread, .clock, .clock, .fire, .thread, .thread, .thread] _ rfl
  ⟨hr, homa_timer_calls_spaced hr⟩

end Homa

