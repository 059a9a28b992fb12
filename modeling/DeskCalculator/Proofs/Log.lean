/-
This file reads what counts out of a log. A log lists the steps of a run, the
last one first. Some of its steps hold an item, and some reset what was held
before them; so the items that count are those since the last reset. One step
more either resets the items or puts its own in front of them.
-/

namespace DeskCalculator

variable {Step Item : Type}

/-- The items of a log since its last reset, the last one first. -/
def since (resets : Step → Bool) (item? : Step → Option Item) (log : List Step) : List Item :=
  (log.takeWhile fun step => !resets step).filterMap item?

section

variable {resets : Step → Bool} {item? : Step → Option Item}

@[simp] theorem since_nil : since resets item? [] = [] := rfl

theorem since_cons (step : Step) (log : List Step) :
    since resets item? (step :: log) =
      if resets step then [] else (item? step).toList ++ since resets item? log := by
  unfold since
  cases reset : resets step with
  | true => simp [reset]
  | false =>
    rw [List.takeWhile_cons_of_pos (by simp [reset]), List.filterMap_cons]
    cases item? step <;> rfl

theorem exists_of_mem_since {log : List Step} {item : Item}
    (counts : item ∈ since resets item? log) : ∃ step ∈ log, item? step = some item := by
  obtain ⟨step, member, holds⟩ := List.mem_filterMap.mp counts
  exact ⟨step, (List.takeWhile_sublist _).mem member, holds⟩

/-- Where no step both holds an item and resets, an item counts when some step holds one and no
later step resets. -/
theorem isSome_head?_since_iff (apart : ∀ step, (item? step).isSome → resets step = false)
    (log : List Step) :
    (since resets item? log).head?.isSome ↔
      ∃ later holder earlier, log = later ++ holder :: earlier ∧ (item? holder).isSome ∧
        ∀ step ∈ later, resets step = false := by
  induction log with
  | nil => simp
  | cons step log inductionHypothesis =>
    rw [since_cons]
    constructor
    · intro counts
      cases reset : resets step with
      | true => simp [reset] at counts
      | false =>
        cases held : item? step with
        | some item => exact ⟨[], step, log, rfl, by simp [held], List.forall_mem_nil _⟩
        | none =>
          have remaining : (since resets item? log).head?.isSome := by
            simpa [reset, held] using counts
          obtain ⟨later, holder, earlier, split, holds, quiet⟩ :=
            inductionHypothesis.mp remaining
          refine ⟨step :: later, holder, earlier, by rw [split]; rfl, holds, ?_⟩
          exact List.forall_mem_cons.mpr ⟨reset, quiet⟩
    · rintro ⟨later, holder, earlier, split, holds, quiet⟩
      cases later with
      | nil =>
        obtain ⟨rfl, rfl⟩ := List.cons.inj split
        obtain ⟨item, held⟩ := Option.isSome_iff_exists.mp holds
        simp [apart step holds, held]
      | cons head later =>
        obtain ⟨rfl, rfl⟩ := List.cons.inj split
        obtain ⟨unreset, quiet⟩ := List.forall_mem_cons.mp quiet
        have remaining : (since resets item? (later ++ holder :: earlier)).head?.isSome :=
          inductionHypothesis.mpr ⟨later, holder, earlier, rfl, holds, quiet⟩
        rw [if_neg (by simp [unreset])]
        cases item? step with
        | some item => rfl
        | none => exact remaining

end

end DeskCalculator
