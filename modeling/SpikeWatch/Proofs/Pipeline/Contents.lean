import SpikeWatch.Proofs.Ingest.Sound
import SpikeWatch.Proofs.Pipeline.Faults

/-!
# What a store can hold

Nobody looks at an event again once it is stored, so a store holds what was let through.

* `Pipeline.deposits` is what a run stores of a type, each event with the present at which it came
  in.  A table grows by them and by nothing else (`ofType_run`), and each of them came in by some
  batch of the run (`exists_of_mem_deposits`).
* `Pipeline.deposits_sound` is what holds of all that is stored: it lies in the table of its own
  type, and is sound for the present at which it came in, however the clock has moved since.
-/

set_option autoImplicit false

namespace SpikeWatch

namespace Pipeline

variable {p : Pipeline} {type : EventType}

@[simp]
theorem step_limits (p : Pipeline) (s : Step) : (p.step s).1.limits = p.limits := by
  obtain ⟨store, totals, notifier, h⟩ := p.step_eq s
  rw [h]

/-! ## Deposits -/

/-- What a run stores of a type by batches, in order, with the present at which it came in. -/
def deposits (type : EventType) (p : Pipeline) : List Step → List (Instant × Event)
  | [] => []
  | s :: steps => (p.stored type s).map (p.now, ·) ++ (p.step s).1.deposits type steps

/-- What a step stores was accepted in a batch. -/
theorem accepted_of_mem_stored {s : Step} {e : Event} (h : e ∈ p.stored type s) :
    ∃ body raws, s = .dispatch body ∧ Batch.eventsOfText body = .ok raws ∧
      e ∈ p.accepted raws ∧ e.type = type := by
  rw [stored.eq_def] at h
  split at h
  · next body =>
    split at h
    · next raws hbody =>
      split at h
      · obtain ⟨hmem, htype⟩ := List.mem_filter.1 h
        exact ⟨body, raws, rfl, hbody, hmem, of_decide_eq_true htype⟩
      · cases h
    · cases h
  · cases h

/-- A table grows by deposits only. -/
theorem ofType_run {steps : List Step}
    (hinsert : ∀ s ∈ steps, ∀ type events, s ≠ .insert type events) :
    (p.run steps).1.store.ofType type =
      p.store.ofType type ++ (p.deposits type steps).map Prod.snd := by
  induction steps generalizing p with
  | nil => exact (List.append_nil _).symm
  | cons s steps ih =>
    obtain ⟨hs, hrest⟩ := List.forall_mem_cons.1 hinsert
    have hnow : ((p.stored type s).map (p.now, ·)).map Prod.snd = p.stored type s := by
      simp [Function.comp_def]
    rw [run, deposits, List.map_append, hnow, ← List.append_assoc, ← p.ofType_step hs]
    exact ih hrest

/-- A deposit was made by some batch of the run. -/
theorem exists_of_mem_deposits {steps : List Step} {d : Instant × Event}
    (h : d ∈ p.deposits type steps) :
    ∃ before body after, steps = before ++ .dispatch body :: after ∧
      d.1 = (p.run before).1.now ∧ d.2 ∈ (p.run before).1.stored type (.dispatch body) := by
  induction steps generalizing p with
  | nil => cases h
  | cons s steps ih =>
    rcases List.mem_append.1 h with h | h
    · obtain ⟨e, he, rfl⟩ := List.mem_map.1 h
      obtain ⟨body, -, rfl, -⟩ := accepted_of_mem_stored he
      exact ⟨[], body, steps, rfl, rfl, he⟩
    · obtain ⟨before, body, after, rfl, hnow, he⟩ := ih h
      exact ⟨s :: before, body, after, rfl, hnow, he⟩

/-! ## Soundness -/

theorem sound_of_mem_stored (hage : 0 ≤ p.limits.maxAge.nanos)
    (hskew : 0 ≤ p.limits.maxSkew.nanos) {s : Step} {e : Event} (h : e ∈ p.stored type s) :
    e.type = type ∧ e.Sound p.limits p.now := by
  obtain ⟨-, raws, -, -, hmem, htype⟩ := accepted_of_mem_stored h
  obtain ⟨raw, -, hjudge⟩ := mem_accepted_iff.1 hmem
  exact ⟨htype, sound_of_judge_eq_ok hage hskew hjudge⟩

theorem sound_of_mem_deposits (hage : 0 ≤ p.limits.maxAge.nanos)
    (hskew : 0 ≤ p.limits.maxSkew.nanos) {steps : List Step} {d : Instant × Event}
    (h : d ∈ p.deposits type steps) : d.2.type = type ∧ d.2.Sound p.limits d.1 := by
  induction steps generalizing p with
  | nil => cases h
  | cons s steps ih =>
    rcases List.mem_append.1 h with h | h
    · obtain ⟨e, he, rfl⟩ := List.mem_map.1 h
      exact sound_of_mem_stored hage hskew he
    · have hsound := ih (by rwa [step_limits]) (by rwa [step_limits]) h
      rwa [step_limits] at hsound

/-- **Whatever is stored is sound.**  A pipeline begins with nothing in its store, its limits are
not negative, and nothing is stored directly.  Then after any run each table holds what batches of
the run have put there, in order, and each of these events is of the type of its table and sound for
the present at which its batch came in. -/
theorem deposits_sound (p : Pipeline) (hstore : ∀ type, p.store.ofType type = [])
    (hage : 0 ≤ p.limits.maxAge.nanos) (hskew : 0 ≤ p.limits.maxSkew.nanos) {steps : List Step}
    (hinsert : ∀ type events, .insert type events ∉ steps) (type : EventType) :
    (p.run steps).1.store.ofType type = (p.deposits type steps).map Prod.snd ∧
    ∀ d ∈ p.deposits type steps,
      (∃ before body after, steps = before ++ .dispatch body :: after ∧
        d.1 = (p.run before).1.now ∧ d.2 ∈ (p.run before).1.stored type (.dispatch body)) ∧
      d.2.type = type ∧ d.2.Sound p.limits d.1 := by
  have hsteps : ∀ s ∈ steps, ∀ type events, s ≠ .insert type events := by
    rintro s hs type events rfl
    exact hinsert type events hs
  constructor
  · rw [ofType_run hsteps, hstore, List.nil_append]
  · intro d hd
    exact ⟨exists_of_mem_deposits hd, sound_of_mem_deposits hage hskew hd⟩

/-- Two scenes are loaded a day apart.  When the second one comes in, the first would be too old. -/
theorem deposits_sound_scenes :
    let scene := Step.dispatchOne [("type", "scene_load"), ("app_version", "1"),
      ("platform", " IPhone"), ("device_id", "d"), ("session_id", "s"), ("scene_name", "m")]
    let p : Pipeline := {
      now := { nanos := 1700000000000000000 }
      limits := { maxAge := .ofDays 1, maxSkew := ⟨0⟩ } }
    let steps := [scene, .advance (.ofDays 1), scene]
    (∀ type, p.store.ofType type = []) ∧ 0 ≤ p.limits.maxAge.nanos ∧
      0 ≤ p.limits.maxSkew.nanos ∧ (∀ type events, .insert type events ∉ steps) ∧
      ((p.run steps).1.store.ofType .sceneLoad).length = 2 ∧
      ∀ e ∈ (p.run steps).1.store.ofType .sceneLoad,
        e.type = .sceneLoad ∧ platformLabel e.context.platform = e.context.platform := by
  intro scene p steps
  have hinsert : ∀ type events, .insert type events ∉ steps := by
    intro type events
    simp [steps, scene, Step.dispatchOne]
  obtain ⟨htable, hdeposits⟩ :=
    deposits_sound p Store.ofType_empty (by decide) (by decide) hinsert .sceneLoad
  refine ⟨Store.ofType_empty, by decide, by decide, hinsert, by decide +kernel, fun e he => ?_⟩
  rw [htable] at he
  obtain ⟨d, hd, rfl⟩ := List.mem_map.1 he
  obtain ⟨-, htype, hsound⟩ := hdeposits d hd
  exact ⟨htype, hsound.platformLabel⟩

end Pipeline

end SpikeWatch
