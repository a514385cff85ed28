import SpikeWatch.Proofs.Task.Threads

/-!
# The life of a task, one thing after another

Periods go by and `stop` is called in some order, and whatever is begun comes to its end before the
next thing happens.  Then a task is no more than the few fields of `Task`, and its threads need
not be told apart.

* `Order` is a period that is over or a call of `stop` by another thread, and `Threads.Carries` says
  by which moves the threads carry out orders: they go on from each until all is at rest.
* `Threads.settled` is where threads come to rest if they are left alone, and `Threads.ComesToRest`
  says that they do.
* `threads_step` compares a step of a task with what its threads make of an order, and
  `Threads.Carries.after_eq` does so for all of a life.  With `lifeCycle_of_can` this gives
  `life_cycle`.
-/

set_option autoImplicit false

namespace SpikeWatch

namespace Task

/-! ## Orders -/

/-- What a tick does for its task: it calls `stop` so many times, and then it ends. -/
structure Tick where
  stops : Nat := 0
  ending : Ending := .goesOn

/-- One of the things that happen to a task. -/
inductive Order where
  /-- A period is over; if there is a tick, it is this one. -/
  | periodOver (tick : Tick)
  /-- Another thread calls `stop`, or gives the task up. -/
  | stop (thread : Nat)

/-- A call from within a tick. -/
def callWithin : List Move := [.stopCalled .loop, .stopReturns .loop]

/-- The moves of a period: the tick starts, it may call `stop` from within, and it ends. -/
def Tick.moves (tick : Tick) : List Move :=
  (List.replicate tick.stops callWithin).flatten ++ [.tickEnds tick.ending]

/-- The moves that make up an order itself. -/
def Order.moves : Order → List Move
  | .periodOver tick => .tickStarts :: tick.moves
  | .stop thread => [.stopCalled (.other thread)]

/-- How the tick ends, as the task takes it. -/
def Tick.toTickEnd (tick : Tick) : TickEnd :=
  if tick.stops ≠ 0 then .stopsTask
  else
    match tick.ending with
    | .goesOn => .goesOn
    | .breaks => .breaks
    | .panics => .panics

/-- The order, as the task takes it. -/
def Order.step : Order → Step
  | .periodOver tick => .periodOver tick.toTickEnd
  | .stop _ => .stop

/-- The threads of a task at rest. -/
def threads (t : Task) : Threads where
  place := if t.looping then .waits else .ended
  lineOpen := !t.stopped
  hasHandle := !t.stopped
  stopped := t.stopped

namespace Threads

/-- The threads carry out orders one after another by these moves.  If no tick can start, nothing
happens when a period is over; else the moves of the order are made, and then the threads go on by
themselves until all is at rest. -/
inductive Carries : Threads → List Order → List Move → Prop where
  | nil (w : Threads) : Carries w [] []
  | idle {w : Threads} (tick : Tick) {orders : List Order} {moves : List Move} :
    ¬w.Allows .tickStarts → Carries w orders moves → Carries w (.periodOver tick :: orders) moves
  | done {w : Threads} (o : Order) (reactions : List Move) {orders : List Order}
      {moves : List Move} :
    (∀ m ∈ reactions, m.IsReaction) → w.Can (o.moves ++ reactions) →
    (w.after (o.moves ++ reactions)).AtRest →
    Carries (w.after (o.moves ++ reactions)) orders moves →
    Carries w (o :: orders) (o.moves ++ reactions ++ moves)

variable {w : Threads} {m : Move} {orders : List Order} {moves reactions : List Move}

/-- Threads can make the moves by which they carry out orders. -/
theorem Carries.can (h : w.Carries orders moves) : w.Can moves := by
  induction h with
  | nil => trivial
  | idle tick hidle hrest ih => exact ih
  | done o reactions hreact hcan hquiet hrest ih => exact can_append.2 ⟨hcan, ih⟩

/-! ## Coming to rest -/

/-- The threads once all calls have returned and the loop has ended if somebody has hung up. -/
def settled (w : Threads) : Threads where
  place := if w.place = .waits ∧ w.lineOpen = false then .ended else w.place
  lineOpen := w.lineOpen
  hasHandle := w.hasHandle
  stopped := w.stopped

/-- A reaction does not change where the threads come to rest. -/
theorem settled_apply (hm : m.IsReaction) (h : w.Allows m) : (w.apply m).settled = w.settled := by
  cases m with
  | tickStarts | tickEnds | stopCalled => exact hm.elim
  | loopEnds => simp [settled, apply, h.1, h.2]
  | stopReturns c => rfl

/-- No sequence of reactions changes where the threads come to rest. -/
theorem settled_after (hreact : ∀ m ∈ reactions, m.IsReaction) (h : w.Can reactions) :
    (w.after reactions).settled = w.settled := by
  induction reactions generalizing w with
  | nil => rfl
  | cons m reactions ih =>
    obtain ⟨hm, hreact⟩ := List.forall_mem_cons.1 hreact
    exact (ih hreact h.2).trans (settled_apply hm h.1)

/-- Threads at rest stay where they are. -/
theorem AtRest.settled_eq (h : w.AtRest) : w.settled = w := by
  have hplace : (if w.place = .waits ∧ w.lineOpen = false then .ended else w.place) = w.place := by
    rcases h.place with hended | ⟨-, hopen⟩
    · simp [hended]
    · simp [hopen]
  have hcalls : (fun _ => none) = w.calls := funext fun c => (h.calls c).symm
  rw [settled, hplace, hcalls]

/-- Left alone, the threads can go on until all is at rest. -/
def ComesToRest (w : Threads) : Prop :=
  ∃ reactions : List Move,
    (∀ m ∈ reactions, m.IsReaction) ∧ w.Can reactions ∧ (w.after reactions).AtRest

theorem AtRest.comesToRest (h : w.AtRest) : w.ComesToRest := ⟨[], nofun, trivial, h⟩

/-- If threads come to rest after a reaction, then they do so before it. -/
theorem ComesToRest.of_apply (hm : m.IsReaction) (h : w.Allows m) :
    (w.apply m).ComesToRest → w.ComesToRest := by
  rintro ⟨reactions, hreact, hcan, hrest⟩
  exact ⟨m :: reactions, List.forall_mem_cons.2 ⟨hm, hreact⟩, ⟨h, hcan⟩, hrest⟩

/-- When the loop has ended, the calls return one by one. -/
theorem comesToRest_of_ended (hended : w.place = .ended) (callers : List Caller)
    (hcallers : ∀ c, w.calls c ≠ none → c ∈ callers) : w.ComesToRest := by
  induction callers generalizing w with
  | nil =>
    have hcalls (c : Caller) : w.calls c = none := by
      by_contra hcall
      exact List.not_mem_nil (hcallers c hcall)
    exact AtRest.comesToRest ⟨hcalls, .inl hended⟩
  | cons c callers ih =>
    -- A caller who is waiting returns; one who is not can be left out of the list.
    by_cases hcall : w.calls c = none
    · refine ih hended fun c' hcall' => List.mem_of_ne_of_mem ?_ (hcallers c' hcall')
      rintro rfl
      exact hcall' hcall
    · have hcallers' (c' : Caller) (h : (w.apply (.stopReturns c)).calls c' ≠ none) :
          c' ∈ callers := by
        by_cases hc : c' = c
        · simp [apply, hc] at h
        · refine List.mem_of_ne_of_mem hc (hcallers c' ?_)
          simpa [apply, hc] using h
      have hreturns := allows_stopReturns hended hcall
      exact .of_apply (m := .stopReturns c) trivial hreturns (ih hended hcallers')

/-- **Threads come to rest**, as long as no tick is under way.  The callers are gone through one by
one, so there must be a list of them. -/
theorem comesToRest (hs : w.Sound) (hplace : w.place ≠ .ticks) (callers : List Caller)
    (hcallers : ∀ c, w.calls c ≠ none → c ∈ callers) : w.ComesToRest := by
  cases hw : w.place with
  | ticks => exact absurd hw hplace
  | ended => exact comesToRest_of_ended hw callers hcallers
  | waits =>
    cases hopen : w.lineOpen with
    | true => exact AtRest.comesToRest ⟨hs.calls_of_lineOpen hopen, .inr ⟨hw, hopen⟩⟩
    | false =>
      have hended := comesToRest_of_ended (w := w.apply .loopEnds) rfl callers hcallers
      exact .of_apply (m := .loopEnds) trivial ⟨hw, hopen⟩ hended

/-! ## Ticks that stop their task -/

/-- The threads after a call of `stop` from within a tick. -/
def halted (w : Threads) : Threads :=
  { w with stopped := true, lineOpen := false, hasHandle := false }

theorem halted_of_stopped (hs : w.Sound) (h : w.stopped = true) : w.halted = w := by
  have hopen : w.lineOpen = false := by rw [hs.lineOpen, h]; rfl
  have hhandle : w.hasHandle = false := by rw [hs.hasHandle, h]; rfl
  exact Threads.ext rfl hopen.symm hhandle.symm h.symm rfl

/-- A call of `stop` from within a tick only leaves its mark, and waits for nothing. -/
theorem after_callWithin (hs : w.Sound) (h : w.Allows (.stopCalled .loop)) :
    w.after callWithin = w.halted := by
  cases hstopped : w.stopped with
  | true => rw [halted_of_stopped hs hstopped, callWithin, (after_stop_again hstopped h).2]
  | false => simp [callWithin, apply, stop, hstopped, halted, ← h.1]

/-- All further calls from the same tick come to nothing. -/
theorem calls_within (hs : w.Sound) (h : w.Allows (.stopCalled .loop)) (n : Nat) :
    w.Can (List.replicate n callWithin).flatten ∧
      w.after (List.replicate n callWithin).flatten = if n = 0 then w else w.halted := by
  induction n generalizing w with
  | zero => exact ⟨trivial, rfl⟩
  | succ n ih =>
    have hcan : w.Can callWithin := ⟨h, (can_stop_within h .goesOn).2.1, trivial⟩
    have hafter := after_callWithin hs h
    have hhalted : w.halted.Sound := hafter ▸ hs.after callWithin
    obtain ⟨hcan', hafter'⟩ := ih hhalted h
    rw [List.replicate_succ, List.flatten_cons, can_append, after_append, hafter, hafter']
    refine ⟨⟨hcan, hcan'⟩, ?_⟩
    split <;> rfl

/-- Nothing in a tick has to wait, and many calls in it come to the same as one. -/
theorem tick_within (hs : w.Sound) (h : w.Allows (.stopCalled .loop)) (tick : Tick) :
    w.Can tick.moves ∧ w.after tick.moves =
      (if tick.stops = 0 then w else w.halted).apply (.tickEnds tick.ending) := by
  obtain ⟨hcan, hafter⟩ := calls_within hs h tick.stops
  have hends : (if tick.stops = 0 then w else w.halted).Allows (.tickEnds tick.ending) := by
    split <;> exact ⟨h.2 rfl, h.1⟩
  rw [Tick.moves, can_append, after_append, hafter]
  exact ⟨⟨hcan, hends, trivial⟩, rfl⟩

end Threads

/-! ## A task and its threads -/

open Threads

variable {t : Task}

/-- The threads of a task are in a state that threads can be in. -/
theorem sound_threads (t : Task) : t.threads.Sound := ⟨rfl, rfl, fun _ h => absurd rfl h, nofun⟩

theorem stopped_of_looping (ht : t.threads.AtRest) (h : t.looping = true) : t.stopped = false := by
  rcases ht.place with hended | ⟨-, hopen⟩
  · simp [threads, h] at hended
  · simpa [threads] using hopen

/-- A period may begin just if the task is looping. -/
theorem allows_tickStarts_threads (ht : t.threads.AtRest) :
    t.threads.Allows .tickStarts ↔ t.looping = true := by
  cases hloop : t.looping with
  | true => simp [threads, Allows, hloop, stopped_of_looping ht hloop]
  | false => simp [threads, Allows, hloop]

/-- What a period makes of the threads of a task. -/
theorem tick_threads (t : Task) (tick : Tick) :
    let w := t.threads.apply .tickStarts
    w.Can tick.moves ∧ w.after tick.moves =
      (if tick.stops = 0 then w else w.halted).apply (.tickEnds tick.ending) :=
  tick_within ((sound_threads t).apply .tickStarts) ⟨rfl, fun _ => rfl⟩ tick

/-- The threads after the moves of an order, when they have come to rest. -/
theorem settled_order (ht : t.threads.AtRest) {o : Order} (h : t.threads.Can o.moves) :
    (t.threads.after o.moves).settled = (t.step o.step).threads := by
  cases o with
  | stop thread =>
    cases hstopped : t.stopped with
    | true =>
      have hloop : t.looping = false := by
        by_contra hloop
        simp [stopped_of_looping ht (by simpa using hloop)] at hstopped
      simp [Order.moves, Order.step, apply, Threads.stop, settled, threads, step, stop, hstopped,
        hloop]
    | false =>
      cases hloop : t.looping <;>
        simp [Order.moves, Order.step, apply, Threads.stop, settled, threads, step, stop, hstopped,
          hloop]
  | periodOver tick =>
    have hloop := (allows_tickStarts_threads ht).1 h.1
    have hstopped := stopped_of_looping ht hloop
    rw [Order.moves, after_cons, (tick_threads t tick).2]
    by_cases hnone : tick.stops = 0
    · cases hending : tick.ending <;>
        simp [hnone, hending, Order.step, Tick.toTickEnd, apply, settled, threads, step, Task.tick,
          hloop, hstopped]
    · -- In which way such a tick ends makes no difference: the loop finds that it was hung up on.
      cases tick.ending <;>
        simp [hnone, Order.step, Tick.toTickEnd, apply, settled, threads, step, Task.tick, hloop,
          halted]

/-- A step ticks as often as the moves it is carried out by. -/
theorem ticks_step (ht : t.threads.AtRest) {o : Order} (h : t.threads.Can o.moves) :
    (t.step o.step).ticks = t.ticks + o.moves.count .tickStarts := by
  cases o with
  | stop thread =>
    rw [Order.step, step, stop]
    split <;> rfl
  | periodOver tick =>
    have hloop := (allows_tickStarts_threads ht).1 h.1
    have hmoves : .tickStarts ∉ tick.moves := by
      simp [Tick.moves, callWithin, List.mem_flatten, List.mem_replicate]
    rw [Order.moves, List.count_cons_self, List.count_eq_zero_of_not_mem hmoves, Order.step, step,
      if_pos hloop]
    cases tick.toTickEnd <;> rfl

/-- **A step of a task is what its threads make of an order.** -/
theorem threads_step (ht : t.threads.AtRest) {o : Order} {reactions : List Move}
    (hreact : ∀ m ∈ reactions, m.IsReaction) (h : t.threads.Can (o.moves ++ reactions))
    (hrest : (t.threads.after (o.moves ++ reactions)).AtRest) :
    t.threads.after (o.moves ++ reactions) = (t.step o.step).threads ∧
      (t.step o.step).ticks = t.ticks + (o.moves ++ reactions).count .tickStarts := by
  obtain ⟨hcan, hcan'⟩ := can_append.1 h
  have hnone : .tickStarts ∉ reactions := fun hmem => hreact _ hmem
  constructor
  · calc t.threads.after (o.moves ++ reactions)
        = (t.threads.after (o.moves ++ reactions)).settled := hrest.settled_eq.symm
      _ = ((t.threads.after o.moves).after reactions).settled := by rw [after_append]
      _ = (t.threads.after o.moves).settled := settled_after hreact hcan'
      _ = (t.step o.step).threads := settled_order ht hcan
  · rw [List.count_append, List.count_eq_zero_of_not_mem hnone]
    exact ticks_step ht hcan

/-- If no tick can start, the task takes no notice of a period. -/
theorem step_of_idle (ht : t.threads.AtRest) (h : ¬t.threads.Allows .tickStarts) (tick : Tick) :
    t.step (Order.periodOver tick).step = t := by
  have hloop : ¬t.looping = true := mt (allows_tickStarts_threads ht).2 h
  rw [Order.step, step, if_neg hloop]

/-- Nothing happens any more to a task that was stopped. -/
theorem run_of_stopped (ht : t.threads.AtRest) (h : t.stopped = true) (steps : List Step) :
    t.run steps = t := by
  have hloop : ¬t.looping = true := by
    intro hloop
    simp [stopped_of_looping ht hloop] at h
  have hstep (s : Step) : t.step s = t := by
    cases s with
    | periodOver e => exact if_neg hloop
    | stop => exact if_pos h
  induction steps with
  | nil => rfl
  | cons s steps ih => rwa [run, List.foldl_cons, hstep]

/-- **A run of a task is what its threads make of orders.** -/
theorem Threads.Carries.after_eq {w : Threads} {orders : List Order} {moves : List Move}
    (h : w.Carries orders moves) {t : Task} (ht : t.threads.AtRest) (hw : w = t.threads) :
    (w.after moves).AtRest ∧ w.after moves = (t.run (orders.map Order.step)).threads ∧
      (t.run (orders.map Order.step)).ticks = t.ticks + moves.count .tickStarts := by
  induction h generalizing t with
  | nil w => exact ⟨hw ▸ ht, hw, rfl⟩
  | idle tick hidle hrest ih =>
    subst hw
    rw [List.map_cons, run, List.foldl_cons, step_of_idle ht hidle tick]
    exact ih ht rfl
  | done o reactions hreact hcan hquiet hrest ih =>
    subst hw
    obtain ⟨hthreads, hticks⟩ := threads_step ht hreact hcan hquiet
    obtain ⟨hquiet', hafter, hcount⟩ := ih (hthreads ▸ hquiet) hthreads
    rw [List.map_cons, run, List.foldl_cons, ← run, after_append, List.count_append, hcount, hticks,
      Nat.add_assoc]
    exact ⟨hquiet', hafter, rfl⟩

/-! ## Nothing gets stuck -/

/-- Threads at rest can begin with an order, unless it is a tick that does not come. -/
theorem can_order (ht : t.threads.AtRest) (o : Order) :
    t.threads.Can o.moves ∨ ∃ tick, o = .periodOver tick ∧ ¬t.threads.Allows .tickStarts := by
  cases o with
  | stop thread => exact .inl ⟨⟨ht.calls _, nofun⟩, trivial⟩
  | periodOver tick =>
    by_cases hstarts : t.threads.Allows .tickStarts
    · exact .inl ⟨hstarts, (tick_threads t tick).1⟩
    · exact .inr ⟨tick, rfl, hstarts⟩

/-- No tick goes on behind the moves of an order, and only one call can be left. -/
theorem calls_after_order (t : Task) (o : Order) :
    (t.threads.after o.moves).place ≠ .ticks ∧
      ∃ c, ∀ c', (t.threads.after o.moves).calls c' ≠ none → c' ∈ [c] := by
  cases o with
  | stop thread =>
    refine ⟨?_, .other thread, fun c' hcall => ?_⟩
    · simp only [Order.moves, after_cons, after_nil, apply, place_stop, threads]
      split <;> simp
    · by_contra hne
      exact hcall (calls_stop_of_ne fun h => hne (h ▸ List.mem_singleton_self _))
  | periodOver tick =>
    rw [Order.moves, after_cons, (tick_threads t tick).2]
    refine ⟨?_, .loop, fun c' hcall => ?_⟩
    · cases tick.ending <;> simp [apply]
    · refine absurd ?_ hcall
      split <;> rfl

/-- Whatever happens to a task, its threads get through it. -/
theorem exists_carries (ht : t.threads.AtRest) (orders : List Order) :
    ∃ moves, t.threads.Carries orders moves := by
  induction orders generalizing t with
  | nil => exact ⟨[], .nil _⟩
  | cons o orders ih =>
    rcases can_order ht o with hcan | ⟨tick, rfl, hidle⟩
    · obtain ⟨hplace, c, hcalls⟩ := calls_after_order t o
      obtain ⟨reactions, hreact, hcan', hrest⟩ :=
        comesToRest ((sound_threads t).after o.moves) hplace [c] hcalls
      rw [← after_append] at hrest
      have hcan := can_append.2 ⟨hcan, hcan'⟩
      have hthreads := (threads_step ht hreact hcan hrest).1
      obtain ⟨moves, hmoves⟩ := ih (t := t.step o.step) (hthreads ▸ hrest)
      exact ⟨_, .done o reactions hreact hcan hrest (hthreads ▸ hmoves)⟩
    · obtain ⟨moves, hmoves⟩ := ih ht
      exact ⟨moves, .idle tick hidle hmoves⟩

/-! ## The whole of it -/

/-- **The life of a task.**  Periods go by and `stop` is called in any order, with ticks that do
what they like.  The threads of the task get through this, and by whichever moves they do it, these
are a life as `LifeCycle` has it: ticks stop for good with the first one that breaks off or panics
and with the first call of `stop`, which does not wait for a tick that it is made from; the task is
running until that call; and every later call comes to nothing.  All of it can be read off the task:
its loop turns just if nothing has ended the ticks, it has made as many ticks as were started, it is
running just if nobody has called `stop`, and once it is not, nothing that happens changes it. -/
theorem life_cycle (name : String) (period : Duration) (orders : List Order) :
    let t := ({ name, period } : Task).run (orders.map Order.step)
    (∃ moves, spawned.Carries orders moves) ∧
      ∀ moves, spawned.Carries orders moves →
        LifeCycle moves ∧
        spawned.after moves = t.threads ∧
        (t.looping = true ↔ ∀ m ∈ moves, ¬m.EndsTicks) ∧
        t.ticks = moves.count .tickStarts ∧
        (t.isRunning = true ↔ ∀ c, .stopCalled c ∉ moves) ∧
        (t.isRunning = false → ∀ steps, t.run steps = t) := by
  intro t
  let start : Task := { name, period }
  have hstart : start.threads.AtRest := ⟨fun _ => rfl, .inr ⟨rfl, rfl⟩⟩
  refine ⟨exists_carries hstart orders, fun moves hmoves => ?_⟩
  have hlife := lifeCycle_of_can hmoves.can
  have hall : moves = moves ++ [] := (List.append_nil moves).symm
  obtain ⟨hrest, hafter, hticks⟩ := hmoves.after_eq hstart rfl
  have ht : t.threads.AtRest := hafter ▸ hrest
  refine ⟨hlife, hafter, ?_, hticks.trans (Nat.zero_add _), ?_, fun hrunning => ?_⟩
  · rw [← hlife.ticks hall hrest, hafter]
    exact (allows_tickStarts_threads ht).symm
  · rw [← hlife.running hall, hafter]
    rfl
  · exact run_of_stopped ht (by simpa [isRunning] using hrunning)

/-- The second tick stops its own task, twice, and then panics; the third one never comes, and two
other threads stop the task once more. -/
theorem life_cycle_stopped_within :
    let panicking : Tick := { stops := 2, ending := .panics }
    let orders := [.periodOver {}, .periodOver panicking, .stop 0, .periodOver {}, .stop 1]
    let moves := [.tickStarts, .tickEnds .goesOn, .tickStarts, .stopCalled .loop,
      .stopReturns .loop, .stopCalled .loop, .stopReturns .loop, .tickEnds .panics,
      .stopCalled (.other 0), .stopReturns (.other 0), .stopCalled (.other 1),
      .stopReturns (.other 1)]
    let t := ({ name := "t", period := .ofSeconds 1 } : Task).run (orders.map Order.step)
    spawned.Carries orders moves ∧ LifeCycle moves ∧ t.ticks = 2 ∧ t.looping = false ∧
      t.isRunning = false ∧ t.run [.periodOver .goesOn, .stop] = t := by
  intro panicking orders moves t
  have hmoves : spawned.Carries orders moves := by
    refine .done (.periodOver {}) [] (by simp) (by decide) ?_
      (.done (.periodOver panicking) [] (by simp) (by decide) ?_
        (.done (.stop 0) [.stopReturns (.other 0)] (by simp [Move.IsReaction]) (by decide) ?_
          (.idle {} (by decide)
            (.done (.stop 1) [.stopReturns (.other 1)] (by simp [Move.IsReaction]) (by decide) ?_
              (.nil _)))))
    all_goals
      constructor <;>
        simp [Order.moves, Tick.moves, callWithin, panicking, apply, spawned, Threads.stop]
  obtain ⟨hlife, -, hloop, hticks, hrunning, hover⟩ :=
    (life_cycle "t" (.ofSeconds 1) orders).2 moves hmoves
  have hstopped : t.isRunning = false :=
    Bool.eq_false_iff.2 fun h => hrunning.1 h .loop (by decide)
  refine ⟨hmoves, hlife, hticks.trans (by decide), Bool.eq_false_iff.2 fun h => ?_, hstopped,
    hover hstopped _⟩
  exact hloop.1 h (.tickEnds .panics) (by decide) (by simp [Move.EndsTicks])

end Task

end SpikeWatch
