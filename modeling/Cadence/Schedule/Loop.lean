import Cadence.Schedule.Run

/-!
# Loop — generations that go on turn by turn

A turn finds dates. After it the run is finished, stops early, or goes on from another state. Each
state has a rank, and a run goes on to states of lower rank only, so that every run ends.

- `Turn`, `Onward`: what a turn finds, and how the run goes on
- `Loop.run`: the run from a state
- `Loop.induction`, `Loop.induction_of`: prove a fact of a state from the same fact of the state
  that its turn leads to
-/

namespace Cadence
namespace Schedule

open Calendar

variable {σ τ : Type}

/-! ## Turns -/

/-- How a run goes on after a turn. -/
inductive Onward (σ : Type)
  | finished
  | stopped (why : Stop)
  | next (state : σ)

def Onward.map (f : σ → τ) : Onward σ → Onward τ
  | finished => .finished
  | stopped why => .stopped why
  | next s => .next (f s)

structure Turn (σ : Type) where
  found : List Date
  onward : Onward σ

/-! ## Runs of a loop -/

structure Loop (σ : Type) where
  turn : σ → Turn σ
  rank : σ → Nat
  rank_lt : ∀ {s t : σ} {found : List Date}, turn s = ⟨found, .next t⟩ → rank t < rank s

namespace Loop

/-- The run from a state, behind dates that were found before, the last one first. -/
def runAfter (l : Loop σ) (earlier : List Date) (s : σ) : Run :=
  match _ : l.turn s with
  | ⟨found, .finished⟩ => ⟨(found.reverseAux earlier).reverse, none⟩
  | ⟨found, .stopped why⟩ => ⟨(found.reverseAux earlier).reverse, some why⟩
  | ⟨found, .next t⟩ => l.runAfter (found.reverseAux earlier) t
  termination_by l.rank s
  decreasing_by exact l.rank_lt (by assumption)

def run (l : Loop σ) (s : σ) : Run := l.runAfter [] s

theorem induction (l : Loop σ) {motive : σ → Prop}
    (turn : ∀ s, (∀ found t, l.turn s = ⟨found, .next t⟩ → motive t) → motive s) (s : σ) :
    motive s :=
  turn s fun _ t _ => l.induction turn t
  termination_by l.rank s
  decreasing_by exact l.rank_lt (by assumption)

/-- The same induction with what is known of every turn. -/
theorem induction_of (l : Loop σ) {Spec : σ → Turn σ → Prop} (spec : ∀ s, Spec s (l.turn s))
    {motive : σ → Prop}
    (turn : ∀ s u, l.turn s = u → Spec s u → (∀ found t, u = ⟨found, .next t⟩ → motive t) →
      motive s)
    (s : σ) : motive s := by
  induction s using l.induction with
  | turn s ih => exact turn s (l.turn s) rfl (spec s) ih

theorem runAfter_eq (l : Loop σ) (s : σ) (earlier : List Date) :
    l.runAfter earlier s = (l.run s).after earlier.reverse := by
  induction s using l.induction generalizing earlier with
  | turn s ih =>
    -- Both runs take the same turn, so only the dates found before it differ.
    unfold run
    rw [runAfter, runAfter]
    split
    · simp [Run.after]
    · simp [Run.after]
    · rename_i found t h
      rw [ih found t h, ih found t h]
      simp [Run.after]

variable {l : Loop σ} {s t : σ} {found : List Date}

theorem run_of_finished (h : l.turn s = ⟨found, .finished⟩) : l.run s = ⟨found, none⟩ := by
  rw [run, runAfter]
  split <;> simp_all

theorem run_of_stopped {why : Stop} (h : l.turn s = ⟨found, .stopped why⟩) :
    l.run s = ⟨found, some why⟩ := by
  rw [run, runAfter]
  split <;> simp_all

theorem run_of_next (h : l.turn s = ⟨found, .next t⟩) : l.run s = (l.run t).after found := by
  rw [run, runAfter]
  split <;> simp_all [runAfter_eq]

end Loop

end Schedule
end Cadence
