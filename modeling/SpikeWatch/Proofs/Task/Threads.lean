import SpikeWatch.Task
import Mathlib.Logic.Function.Basic

/-!
# The threads of a task

The loop of a task has a thread of its own.  Between its ticks it waits on a line on which nothing
is ever said: either a period goes by, and there is a tick, or the other end is hung up, and the
loop ends.  Whoever stops the task hangs up and then waits for the thread to end, unless it is that
very thread that stops it, in the midst of a tick: it would wait for itself.  Only the first call of
`stop` does any of this.

* `Threads` is what the threads share, and `Move` what each of them can do next; `Threads.Allows`
  says when, and `Threads.apply` what comes of it.  The part of a call of `stop` up to where it
  waits is one move.
* `Threads.isOver_after_iff` tells after which moves there will be no tick any more, and
  `Threads.stopped_after_iff` after which ones the task counts as stopped.
* `LifeCycle` is what holds of a task through its life, and `lifeCycle_of_can` says that it holds in
  whatever order the threads make their moves.
-/

set_option autoImplicit false

namespace SpikeWatch

namespace Task

/-! ## Threads and their moves -/

/-- How a tick ends for its loop. -/
inductive Ending where
  | goesOn
  | breaks
  | panics
  deriving DecidableEq

/-- Who calls `stop`. -/
inductive Caller where
  /-- The thread of the loop, from within a tick. -/
  | loop
  | other (thread : Nat)
  deriving DecidableEq

/-- Where the thread of the loop is. -/
inductive Place where
  /-- It waits on the line, for a period at most. -/
  | waits
  | ticks
  /-- It has left the loop, or a tick has panicked. -/
  | ended
  deriving DecidableEq

/-- How far a call of `stop` has come. -/
inductive Call where
  /-- It waits for the thread of the loop to end. -/
  | joins
  /-- Nothing is left to do. -/
  | returns
  deriving DecidableEq

/-- What the threads of a task share. -/
@[ext]
structure Threads where
  place : Place := .waits
  /-- Nobody has hung up on the loop. -/
  lineOpen : Bool := true
  /-- Nobody has taken the handle by which one waits for the thread of the loop. -/
  hasHandle : Bool := true
  stopped : Bool := false
  /-- The calls of `stop` that have not returned. -/
  calls : Caller → Option Call := fun _ => none

/-- What one of the threads does. -/
inductive Move where
  | tickStarts
  | tickEnds (e : Ending)
  /-- The loop finds that somebody has hung up. -/
  | loopEnds
  | stopCalled (c : Caller)
  | stopReturns (c : Caller)
  deriving DecidableEq

/-- No tick starts behind such a move. -/
def Move.EndsTicks : Move → Prop
  | .tickEnds e => e ≠ .goesOn
  | .stopCalled _ | .stopReturns _ => True
  | .tickStarts | .loopEnds => False

/-- The thread goes on by itself: neither is a period over, nor does anybody ask for something. -/
def Move.IsReaction : Move → Prop
  | .loopEnds | .stopReturns _ => True
  | .tickStarts | .tickEnds _ | .stopCalled _ => False

namespace Threads

/-- A task that has just been started. -/
def spawned : Threads := {}

/-- Nobody has stopped the task. -/
def isRunning (w : Threads) : Bool := !w.stopped

/-- A call of `stop`, up to where it waits.  The first one raises the flag, hangs up, takes the
handle, and waits unless the thread is its own. -/
def stop (w : Threads) (c : Caller) : Threads :=
  if w.stopped then { w with calls := Function.update w.calls c (some .returns) }
  else
    { w with
      stopped := true
      lineOpen := false
      hasHandle := false
      calls := Function.update w.calls c
        (some (if w.hasHandle = true ∧ c ≠ .loop then .joins else .returns)) }

/-- The move can be made now.  A thread makes one call of `stop` at a time and cannot end its tick
in the midst of it, and that of the loop calls `stop` in ticks only. -/
def Allows (w : Threads) : Move → Prop
  | .tickStarts => w.place = .waits ∧ w.lineOpen = true
  | .tickEnds _ => w.place = .ticks ∧ w.calls .loop = none
  | .loopEnds => w.place = .waits ∧ w.lineOpen = false
  | .stopCalled c => w.calls c = none ∧ (c = .loop → w.place = .ticks)
  | .stopReturns c => w.calls c = some .returns ∨ w.calls c = some .joins ∧ w.place = .ended

/-- What a move comes to. -/
def apply (w : Threads) : Move → Threads
  | .tickStarts => { w with place := .ticks }
  | .tickEnds e => { w with place := if e = .goesOn then .waits else .ended }
  | .loopEnds => { w with place := .ended }
  | .stopCalled c => w.stop c
  | .stopReturns c => { w with calls := Function.update w.calls c none }

/-- What moves come to, one after another. -/
def after (w : Threads) (moves : List Move) : Threads := moves.foldl apply w

/-- The moves can be made one after another. -/
def Can (w : Threads) : List Move → Prop
  | [] => True
  | m :: moves => w.Allows m ∧ (w.apply m).Can moves

instance (w : Threads) : ∀ m, Decidable (w.Allows m)
  | .tickStarts | .tickEnds _ | .loopEnds => inferInstanceAs (Decidable (_ = _ ∧ _ = _))
  | .stopCalled _ => inferInstanceAs (Decidable (_ = _ ∧ (_ → _)))
  | .stopReturns _ => inferInstanceAs (Decidable (_ = _ ∨ _ = _ ∧ _ = _))

instance decidableCan (w : Threads) : ∀ moves, Decidable (w.Can moves)
  | [] => .isTrue trivial
  | m :: moves =>
    have := decidableCan (w.apply m) moves
    inferInstanceAs (Decidable (w.Allows m ∧ _))

/-- No tick will start any more. -/
def IsOver (w : Threads) : Prop := w.place = .ended ∨ w.lineOpen = false

/-- Every call has returned and every tick has ended, and so has the loop if it is to. -/
structure AtRest (w : Threads) : Prop where
  calls : ∀ c, w.calls c = none
  place : w.place = .ended ∨ w.place = .waits ∧ w.lineOpen = true

variable {w : Threads} {m : Move} {c : Caller} {moves rest : List Move}

@[simp] theorem after_nil (w : Threads) : w.after [] = w := rfl

@[simp] theorem after_cons (w : Threads) (m : Move) (moves : List Move) :
    w.after (m :: moves) = (w.apply m).after moves := rfl

theorem after_append (w : Threads) (moves rest : List Move) :
    w.after (moves ++ rest) = (w.after moves).after rest := List.foldl_append

@[simp] theorem can_nil (w : Threads) : w.Can [] := trivial

@[simp] theorem can_cons : w.Can (m :: moves) ↔ w.Allows m ∧ (w.apply m).Can moves := Iff.rfl

theorem can_append : w.Can (moves ++ rest) ↔ w.Can moves ∧ (w.after moves).Can rest := by
  induction moves generalizing w with
  | nil => simp
  | cons m moves ih => simp [ih, and_assoc]

/-! ## A call of `stop` -/

@[simp] theorem place_stop (w : Threads) (c : Caller) : (w.stop c).place = w.place := by
  rw [stop]
  split <;> rfl

@[simp] theorem stopped_stop (w : Threads) (c : Caller) : (w.stop c).stopped = true := by
  rw [stop]
  split
  · assumption
  · rfl

theorem calls_stop_of_ne {c' : Caller} (h : c' ≠ c) : (w.stop c).calls c' = w.calls c' := by
  rw [stop]
  split <;> exact Function.update_of_ne h _ _

/-- A call that is not the first one has nothing to do. -/
theorem stop_of_stopped (h : w.stopped = true) :
    w.stop c = { w with calls := Function.update w.calls c (some .returns) } := if_pos h

/-- The thread of the loop does not wait for itself. -/
theorem calls_stop_loop (w : Threads) : (w.stop .loop).calls .loop = some .returns := by
  rw [stop]
  split <;> simp

/-! ## What holds at any time -/

/-- The first call hangs up and takes the handle along with raising the flag, and a loop never waits
for itself. -/
structure Sound (w : Threads) : Prop where
  lineOpen : w.lineOpen = !w.stopped
  hasHandle : w.hasHandle = !w.stopped
  stopped_of_call : ∀ c, w.calls c ≠ none → w.stopped = true
  own : w.calls .loop ≠ some .joins

theorem sound_spawned : spawned.Sound := ⟨rfl, rfl, fun _ h => absurd rfl h, nofun⟩

theorem Sound.stop (hs : w.Sound) (c : Caller) : (w.stop c).Sound where
  lineOpen := by
    cases hstopped : w.stopped with
    | true => simp [Threads.stop, hstopped, hs.lineOpen]
    | false => simp [Threads.stop, hstopped]
  hasHandle := by
    cases hstopped : w.stopped with
    | true => simp [Threads.stop, hstopped, hs.hasHandle]
    | false => simp [Threads.stop, hstopped]
  stopped_of_call _ _ := stopped_stop w c
  own := by
    by_cases hc : .loop = c
    · simp [← hc, calls_stop_loop]
    · rw [calls_stop_of_ne hc]
      exact hs.own

theorem Sound.apply (hs : w.Sound) (m : Move) : (w.apply m).Sound := by
  cases m with
  | tickStarts | tickEnds | loopEnds =>
    exact ⟨hs.lineOpen, hs.hasHandle, hs.stopped_of_call, hs.own⟩
  | stopCalled c => exact hs.stop c
  | stopReturns c =>
    refine ⟨hs.lineOpen, hs.hasHandle, fun c' h => ?_, ?_⟩
    · refine hs.stopped_of_call c' fun hnone => h ?_
      simp [Threads.apply, Function.update_apply, hnone]
    · simp only [Threads.apply, Function.update_apply]
      split
      · nofun
      · exact hs.own

theorem Sound.after (hs : w.Sound) (moves : List Move) : (w.after moves).Sound := by
  induction moves generalizing w with
  | nil => exact hs
  | cons m moves ih => exact ih (hs.apply m)

/-- Nobody has called `stop` while the line is open. -/
theorem Sound.calls_of_lineOpen (hs : w.Sound) (h : w.lineOpen = true) (c : Caller) :
    w.calls c = none := by
  by_contra hcall
  simp [hs.lineOpen, hs.stopped_of_call c hcall] at h

theorem Sound.stopped_of_allows (hs : w.Sound) (h : w.Allows (.stopReturns c)) :
    w.stopped = true := by
  refine hs.stopped_of_call c fun hnone => ?_
  simp [Allows, hnone] at h

/-! ## The flag -/

theorem stopped_apply_iff :
    (w.apply m).stopped = true ↔ w.stopped = true ∨ ∃ c, .stopCalled c = m := by
  cases m <;> simp [apply]

/-- The flag is raised by the first call and never comes down. -/
theorem stopped_after_iff :
    (w.after moves).stopped = true ↔ w.stopped = true ∨ ∃ c, .stopCalled c ∈ moves := by
  induction moves generalizing w with
  | nil => simp
  | cons m moves ih =>
    simp only [after_cons, ih, stopped_apply_iff, List.mem_cons, exists_or, or_assoc]

theorem isRunning_after_iff :
    (spawned.after moves).isRunning = true ↔ ∀ c, .stopCalled c ∉ moves := by
  rw [isRunning, Bool.not_eq_true', ← Bool.not_eq_true, stopped_after_iff]
  simp [spawned]

/-! ## The end of the ticks -/

theorem IsOver.not_allows (h : w.IsOver) : ¬w.Allows .tickStarts := by
  rintro ⟨hplace, hopen⟩
  rcases h with h | h
  · simp [h] at hplace
  · simp [h] at hopen

theorem Sound.isOver_of_stopped (hs : w.Sound) (h : w.stopped = true) : w.IsOver :=
  .inr (by rw [hs.lineOpen, h]; rfl)

/-- Ticks come to an end by a tick that breaks off or panics and by a call of `stop`, and by nothing
else. -/
theorem isOver_apply_iff (hs : w.Sound) (h : w.Allows m) :
    (w.apply m).IsOver ↔ w.IsOver ∨ m.EndsTicks := by
  cases m with
  | tickStarts =>
    obtain ⟨hplace, hopen⟩ := h
    simp [IsOver, apply, Move.EndsTicks, hplace, hopen]
  | tickEnds e =>
    obtain ⟨hplace, -⟩ := h
    cases e <;> simp [IsOver, apply, Move.EndsTicks, hplace]
  | loopEnds => simp [IsOver, apply, Move.EndsTicks, h.2]
  | stopCalled c =>
    have hover : (w.stop c).IsOver := (hs.stop c).isOver_of_stopped (stopped_stop w c)
    simp [apply, Move.EndsTicks, hover]
  | stopReturns c =>
    have hover : w.IsOver := hs.isOver_of_stopped (hs.stopped_of_allows h)
    exact iff_of_true hover (.inl hover)

theorem isOver_after_iff (hs : w.Sound) (h : w.Can moves) :
    (w.after moves).IsOver ↔ w.IsOver ∨ ∃ m ∈ moves, m.EndsTicks := by
  induction moves generalizing w with
  | nil => simp
  | cons m moves ih =>
    simp [ih (hs.apply m) h.2, isOver_apply_iff hs h.1, or_assoc]

theorem IsOver.notMem (hs : w.Sound) (hover : w.IsOver) (h : w.Can moves) :
    .tickStarts ∉ moves := by
  induction moves generalizing w with
  | nil => simp
  | cons m moves ih =>
    have hrest := ih (hs.apply m) ((isOver_apply_iff hs h.1).2 (.inl hover)) h.2
    have hne : .tickStarts ≠ m := by
      rintro rfl
      exact hover.not_allows h.1
    exact List.not_mem_cons_of_ne_of_not_mem hne hrest

theorem AtRest.allows_tickStarts_iff (h : w.AtRest) : w.Allows .tickStarts ↔ ¬w.IsOver := by
  rcases h.place with hended | ⟨hwaits, hopen⟩
  · simp [Allows, IsOver, hended]
  · simp [Allows, IsOver, hwaits, hopen]

/-! ## Waiting -/

/-- A call from within a tick returns at once, however the tick ends then. -/
theorem can_stop_within (h : w.Allows (.stopCalled .loop)) (e : Ending) :
    w.Can [.stopCalled .loop, .stopReturns .loop, .tickEnds e] := by
  refine ⟨h, .inl w.calls_stop_loop, ?_, trivial⟩
  simp [Allows, apply, h.2 rfl]

/-- A call that is not the first one returns at once and leaves everything as it was. -/
theorem after_stop_again (hstopped : w.stopped = true) (h : w.Allows (.stopCalled c)) :
    w.Can [.stopCalled c, .stopReturns c] ∧ w.after [.stopCalled c, .stopReturns c] = w := by
  have hstop : w.apply (.stopCalled c) = { w with
      calls := Function.update w.calls c (some .returns) } := stop_of_stopped hstopped
  refine ⟨⟨h, ?_, trivial⟩, ?_⟩
  · simp [hstop, Allows]
  · simp only [after_cons, after_nil, hstop]
    simp [apply, ← h.1]

/-- A call that waits does so until it returns. -/
theorem calls_after_of_joins (hjoins : w.calls c = some .joins) (h : w.Can moves)
    (hmoves : .stopReturns c ∉ moves) : (w.after moves).calls c = some .joins := by
  induction moves generalizing w with
  | nil => exact hjoins
  | cons m moves ih =>
    obtain ⟨hm, hmoves⟩ := not_or.1 (mt List.mem_cons.2 hmoves)
    refine ih ?_ h.2 hmoves
    cases m with
    | tickStarts | tickEnds | loopEnds => exact hjoins
    | stopCalled c' =>
      have hne : c ≠ c' := by
        rintro rfl
        exact nomatch hjoins.symm.trans h.1.1
      exact (calls_stop_of_ne hne).trans hjoins
    | stopReturns c' =>
      have hne : c ≠ c' := by
        rintro rfl
        exact hm rfl
      exact (Function.update_of_ne hne _ _).trans hjoins

/-- If the first call comes from another thread, it returns when the thread of the loop is at its
end, and not before. -/
theorem place_of_returns (hs : w.Sound) (hstopped : w.stopped = false) (hc : c ≠ .loop)
    (h : w.Can (.stopCalled c :: (moves ++ [.stopReturns c]))) (hmoves : .stopReturns c ∉ moves) :
    (w.after (.stopCalled c :: moves)).place = .ended := by
  obtain ⟨-, hrest⟩ := h
  obtain ⟨hcan, hreturns, -⟩ := can_append.1 hrest
  have hjoins : (w.stop c).calls c = some .joins := by simp [stop, hstopped, hs.hasHandle, hc]
  have hcall := calls_after_of_joins hjoins hcan hmoves
  rcases hreturns with h | ⟨-, h⟩
  · exact nomatch hcall.symm.trans h
  · exact h

/-- When the loop has ended, a call that has not returned can do so. -/
theorem allows_stopReturns (hended : w.place = .ended) (hcall : w.calls c ≠ none) :
    w.Allows (.stopReturns c) := by
  rcases hc : w.calls c with _ | _ | _
  · exact absurd hc hcall
  · exact .inr ⟨hc, hended⟩
  · exact .inl hc

/-- Unless all is at rest, some thread can go on: nobody waits for ever but for a tick. -/
theorem atRest_or_goesOn (hs : w.Sound) :
    w.AtRest ∨ (∃ m : Move, m.IsReaction ∧ w.Allows m) ∨ ∀ e, w.Allows (.tickEnds e) := by
  cases hplace : w.place with
  | waits =>
    cases hopen : w.lineOpen with
    | true => exact .inl ⟨hs.calls_of_lineOpen hopen, .inr ⟨hplace, hopen⟩⟩
    | false => exact .inr (.inl ⟨.loopEnds, trivial, hplace, hopen⟩)
  | ticks =>
    -- The tick may be in the midst of a call of its own, which has nothing to wait for.
    rcases hcall : w.calls .loop with _ | _ | _
    · exact .inr (.inr fun e => ⟨hplace, hcall⟩)
    · exact absurd hcall hs.own
    · exact .inr (.inl ⟨.stopReturns .loop, trivial, .inl hcall⟩)
  | ended =>
    by_cases hcalls : ∀ c, w.calls c = none
    · exact .inl ⟨hcalls, .inl hplace⟩
    · obtain ⟨c, hcall⟩ := not_forall.1 hcalls
      exact .inr (.inl ⟨.stopReturns c, trivial, allows_stopReturns hplace hcall⟩)

end Threads

/-! ## The whole life -/

open Threads

/-- What holds of a task from its start on. -/
structure LifeCycle (moves : List Move) : Prop where
  /-- Ticks stop for good: none starts behind one that breaks off or panics, nor behind a call of
  `stop`, much less once it has returned. -/
  ended {before m after} : moves = before ++ m :: after → m.EndsTicks → .tickStarts ∉ after
  /-- Up to then the loop is ready for the next tick whenever all is at rest. -/
  ticks {before after} : moves = before ++ after → (spawned.after before).AtRest →
    ((spawned.after before).Allows .tickStarts ↔ ∀ m ∈ before, ¬m.EndsTicks)
  /-- The task is running until `stop` is called for the first time, whatever its loop does. -/
  running {before after} : moves = before ++ after →
    ((spawned.after before).isRunning = true ↔ ∀ c, .stopCalled c ∉ before)
  /-- A call from within a tick waits for nobody, least of all for its own thread, and the tick may
  end then in any way. -/
  within {before after} : moves = before ++ .stopCalled .loop :: after →
    ∀ e, spawned.Can (before ++ [.stopCalled .loop, .stopReturns .loop, .tickEnds e])
  /-- If the first call comes from another thread, that of the loop has ended when it returns. -/
  waits {before during after n} :
    moves = before ++ .stopCalled (.other n) :: (during ++ .stopReturns (.other n) :: after) →
    (∀ c, .stopCalled c ∉ before) → .stopReturns (.other n) ∉ during →
    (spawned.after (before ++ .stopCalled (.other n) :: during)).place = .ended
  /-- Every later call waits for nobody and leaves everything as it was. -/
  again {before c after} : moves = before ++ .stopCalled c :: after →
    (∃ c', .stopCalled c' ∈ before) →
    spawned.Can (before ++ [.stopCalled c, .stopReturns c]) ∧
      spawned.after (before ++ [.stopCalled c, .stopReturns c]) = spawned.after before
  /-- Unless all is at rest, some thread can go on. -/
  goesOn {before after} : moves = before ++ after → (spawned.after before).AtRest ∨
    (∃ m : Move, m.IsReaction ∧ (spawned.after before).Allows m) ∨
      ∀ e, (spawned.after before).Allows (.tickEnds e)

/-- **The life of a task** is the same in whatever order its threads make their moves. -/
theorem lifeCycle_of_can {moves : List Move} (h : spawned.Can moves) : LifeCycle moves := by
  -- Each clause is about some point of the run, and the threads are sound there.
  have hsound (before : List Move) : (spawned.after before).Sound := sound_spawned.after before
  have hover {before : List Move} (hcan : spawned.Can before) :
      (spawned.after before).IsOver ↔ ∃ m ∈ before, m.EndsTicks := by
    rw [isOver_after_iff sound_spawned hcan]
    simp [IsOver, spawned]
  constructor
  case ended =>
    rintro before m after rfl hm
    obtain ⟨hbefore, hallows, hafter⟩ := can_append.1 h
    have hends := (isOver_apply_iff (hsound before) hallows).2 (.inr hm)
    exact hends.notMem ((hsound before).apply m) hafter
  case ticks =>
    rintro before after rfl hrest
    rw [hrest.allows_tickStarts_iff, hover (can_append.1 h).1]
    simp
  case running =>
    rintro before after rfl
    exact isRunning_after_iff
  case within =>
    rintro before after rfl e
    obtain ⟨hbefore, hallows, -⟩ := can_append.1 h
    exact can_append.2 ⟨hbefore, can_stop_within hallows e⟩
  case waits =>
    rintro before during after n rfl hfirst hduring
    obtain ⟨hbefore, hallows, hrest⟩ := can_append.1 h
    obtain ⟨hcan, hreturns, -⟩ := can_append.1 hrest
    have hrunning := isRunning_after_iff.2 hfirst
    rw [after_append]
    exact place_of_returns (hsound before) (by simpa [Threads.isRunning] using hrunning) nofun
      ⟨hallows, can_append.2 ⟨hcan, hreturns, trivial⟩⟩ hduring
  case again =>
    rintro before c after rfl hstop
    obtain ⟨hbefore, hallows, -⟩ := can_append.1 h
    obtain ⟨hcan, hafter⟩ := after_stop_again (stopped_after_iff.2 (.inr hstop)) hallows
    exact ⟨can_append.2 ⟨hbefore, hcan⟩, (after_append ..).trans hafter⟩
  case goesOn =>
    rintro before after rfl
    exact atRest_or_goesOn (hsound before)

end Task

end SpikeWatch
