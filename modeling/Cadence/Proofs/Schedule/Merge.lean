import Mathlib.Data.Fintype.BigOperators
import Mathlib.Data.List.Forall2
import Cadence.Proofs.Schedule.Ascending
import Cadence.Proofs.Schedule.Loose
import Cadence.Schedule.Merge
import Cadence.Service.Answer

/-!
# Merge — several rules in one list, and each of them again

Merging orders the dates of all runs, first by date and then by the place of the rule. Since every
run is in strict order, so is the whole, and the dates of one place are the run of that place again.

- `Occurrence.Before`: the strict order of the merged list
- `mem_merge_iff`, `pairwise_merge`, `dates_of_place`: the merged list
- `RunsOf`, `generateAll_eq`: several rules and their single runs
- `merged_generation_exact`: generation for several rules
-/

namespace Cadence
namespace Schedule

open Calendar Service

/-! ## Order -/

/-- The earlier date, or the same date at an earlier place. -/
def Occurrence.Before (a b : Occurrence) : Prop := a.1 < b.1 ∨ (a.1 = b.1 ∧ a.2 < b.2)

namespace Occurrence

variable {a b c : Occurrence}

theorem precedes_iff :
    a.precedes b = true ↔ a.1.serial < b.1.serial ∨ (a.1.serial = b.1.serial ∧ a.2 ≤ b.2) := by
  have hdate : a.1 = b.1 ↔ a.1.serial = b.1.serial := ⟨congrArg Date.serial, Date.ext_serial⟩
  simp [precedes, hdate, Date.lt_iff]

theorem precedes_trans (hab : a.precedes b = true) (hbc : b.precedes c = true) :
    a.precedes c = true := by
  rw [precedes_iff] at hab hbc ⊢
  omega

theorem precedes_total (a b : Occurrence) : (a.precedes b || b.precedes a) = true := by
  rw [Bool.or_eq_true, precedes_iff, precedes_iff]
  omega

theorem before_of_precedes (h : a.precedes b = true) (hne : a ≠ b) : a.Before b := by
  rcases precedes_iff.1 h with hlt | ⟨hdate, hplace⟩
  · exact .inl hlt
  · have hfst : a.1 = b.1 := Date.ext_serial hdate
    refine .inr ⟨hfst, Nat.lt_of_le_of_ne hplace ?_⟩
    intro hsnd
    exact hne (Prod.ext hfst hsnd)

end Occurrence

/-! ## Merging lists -/

section Lists

variable {lists : List (List Occurrence)}

theorem foldr_merge_perm (lists : List (List Occurrence)) :
    (lists.foldr (fun xs ys => List.merge xs ys Occurrence.precedes) []).Perm lists.flatten := by
  induction lists with
  | nil => exact .nil
  | cons xs lists ih =>
    rw [List.foldr_cons, List.flatten_cons]
    exact (List.merge_perm_append _).trans (ih.append_left xs)

theorem pairwise_foldr_merge (h : ∀ xs ∈ lists, xs.Pairwise (·.precedes · = true)) :
    (lists.foldr (fun xs ys => List.merge xs ys Occurrence.precedes) []).Pairwise
      (·.precedes · = true) := by
  induction lists with
  | nil => exact List.Pairwise.nil
  | cons xs lists ih =>
    rw [List.forall_mem_cons] at h
    refine List.pairwise_merge ?_ Occurrence.precedes_total xs _ h.1 (ih h.2)
    intro a b c hab hbc
    exact Occurrence.precedes_trans hab hbc

end Lists

/-! ## Merging runs -/

section Runs

variable {runs : List Run}

theorem mem_tagged_iff {run : Run} {place : Nat} {o : Occurrence} :
    o ∈ tagged run place ↔ o.1 ∈ run.dates ∧ o.2 = place := by
  rw [tagged, List.mem_map]
  constructor
  · rintro ⟨d, hd, rfl⟩
    exact ⟨hd, rfl⟩
  · rintro ⟨hd, rfl⟩
    exact ⟨o.1, hd, rfl⟩

theorem merge_perm (runs : List Run) :
    (merge runs).Perm (runs.zipIdx.map fun (run, place) => tagged run place).flatten :=
  foldr_merge_perm _

theorem mem_merge_iff {o : Occurrence} :
    o ∈ merge runs ↔ ∃ run, runs[o.2]? = some run ∧ o.1 ∈ run.dates := by
  simp only [(merge_perm runs).mem_iff, List.mem_flatten, List.mem_map, Prod.exists,
    List.mem_zipIdx_iff_getElem?]
  constructor
  · rintro ⟨_, ⟨run, place, hrun, rfl⟩, ho⟩
    rcases mem_tagged_iff.1 ho with ⟨hd, rfl⟩
    exact ⟨run, hrun, hd⟩
  · rintro ⟨run, hrun, hd⟩
    exact ⟨_, ⟨run, o.2, hrun, rfl⟩, mem_tagged_iff.2 ⟨hd, rfl⟩⟩

theorem nodup_merge (h : ∀ run ∈ runs, run.dates.Nodup) : (merge runs).Nodup := by
  rw [(merge_perm runs).nodup_iff, List.nodup_flatten]
  refine ⟨?_, ?_⟩
  · intro xs hxs
    rcases List.mem_map.1 hxs with ⟨⟨run, place⟩, hrun, rfl⟩
    have hmem : run ∈ runs := List.mem_of_getElem? (List.mem_zipIdx_iff_getElem?.1 hrun)
    exact (h run hmem).map fun d e hde => congrArg Prod.fst hde
  · -- No two runs have the same place.
    have hplaces : runs.zipIdx.Pairwise (fun x y => x.2 < y.2) := by
      rw [← List.pairwise_map, List.zipIdx_map_snd]
      exact List.pairwise_lt_range'
    rw [List.pairwise_map]
    refine hplaces.imp ?_
    intro x y hxy o hox hoy
    have hx := (mem_tagged_iff.1 hox).2
    have hy := (mem_tagged_iff.1 hoy).2
    omega

theorem pairwise_merge (h : ∀ run ∈ runs, run.dates.Pairwise (· < ·)) :
    (merge runs).Pairwise Occurrence.Before := by
  have hsorted : (merge runs).Pairwise (·.precedes · = true) := by
    refine pairwise_foldr_merge ?_
    intro xs hxs
    rcases List.mem_map.1 hxs with ⟨⟨run, place⟩, hrun, rfl⟩
    have hmem : run ∈ runs := List.mem_of_getElem? (List.mem_zipIdx_iff_getElem?.1 hrun)
    refine List.Pairwise.map _ ?_ (h run hmem)
    intro d e hde
    exact Occurrence.precedes_iff.2 (.inl hde)
  have hnodup : (merge runs).Nodup :=
    nodup_merge fun run hrun => nodup_of_ascending Date.serial (h run hrun)
  exact (hsorted.and hnodup).imp fun ⟨hle, hne⟩ => Occurrence.before_of_precedes hle hne

/-- The dates of one place are those of its run; a place without a run has none. -/
theorem dates_of_place (h : ∀ run ∈ runs, run.dates.Pairwise (· < ·)) (place : Nat) :
    ((merge runs).filter (·.2 = place)).map Prod.fst = runs[place]?.elim [] Run.dates := by
  refine eq_of_ascending Date.serial ?_ ?_ ?_
  · rw [List.pairwise_map, List.pairwise_filter]
    refine (pairwise_merge h).imp ?_
    rintro a b (hlt | ⟨-, hplace⟩) ha hb
    · exact hlt
    · -- Two occurrences of one place cannot share their date.
      have ha' := of_decide_eq_true ha
      have hb' := of_decide_eq_true hb
      omega
  · cases hrun : runs[place]? with
    | none => exact List.Pairwise.nil
    | some run => exact h run (List.mem_of_getElem? hrun)
  · intro d
    simp only [List.mem_map, List.mem_filter, mem_merge_iff, decide_eq_true_eq, Prod.exists]
    constructor
    · rintro ⟨_, _, ⟨⟨run, hrun, hd⟩, rfl⟩, rfl⟩
      rw [hrun]
      exact hd
    · intro hd
      cases hrun : runs[place]? with
      | none =>
        rw [hrun] at hd
        cases hd
      | some run =>
        rw [hrun] at hd
        exact ⟨d, place, ⟨⟨run, hrun, hd⟩, rfl⟩, rfl⟩

theorem dates_merge_perm (runs : List Run) :
    ((merge runs).map Prod.fst).Perm (runs.flatMap Run.dates) := by
  have hdates : (runs.zipIdx.map fun (run, place) => tagged run place).flatten.map Prod.fst =
      runs.flatMap Run.dates := by
    have htagged (run : Run) (place : Nat) : (tagged run place).map Prod.fst = run.dates := by
      rw [tagged, List.map_map]
      exact List.map_id _
    calc (runs.zipIdx.map fun (run, place) => tagged run place).flatten.map Prod.fst
        = (runs.zipIdx.map fun x => x.1.dates).flatten := by
          simp only [List.map_flatten, List.map_map, Function.comp_def, htagged]
      _ = ((runs.zipIdx.map Prod.fst).map Run.dates).flatten := by
          rw [List.map_map]
          rfl
      _ = runs.flatMap Run.dates := by
          rw [List.zipIdx_map_fst, List.flatMap_def]
  rw [← hdates]
  exact (merge_perm runs).map Prod.fst

end Runs

/-! ## Several rules -/

section Rules

variable {ls others : List LooseRule} {w : Window} {filter : Option Window} {firstWeekday : Weekday}
  {runs : List Run}

/-- The runs of several rules, each generated alone. -/
def RunsOf (ls : List LooseRule) (w : Window) (filter : Option Window) (firstWeekday : Weekday)
    (runs : List Run) : Prop :=
  List.Forall₂ (fun l run => l.generate w filter firstWeekday = .ok run) ls runs

theorem exists_runsOf_iff :
    (∃ runs, RunsOf ls w filter firstWeekday runs) ↔
      ∀ l ∈ ls, ∃ run, l.generate w filter firstWeekday = .ok run := by
  constructor
  · rintro ⟨runs, hruns⟩
    induction hruns with
    | nil => exact nofun
    | cons hrun _ ih => exact List.forall_mem_cons.2 ⟨⟨_, hrun⟩, ih⟩
  · intro h
    induction ls with
    | nil => exact ⟨[], .nil⟩
    | cons l ls ih =>
      rw [List.forall_mem_cons] at h
      rcases h.1 with ⟨run, hrun⟩
      rcases ih h.2 with ⟨runs, hruns⟩
      exact ⟨run :: runs, .cons hrun hruns⟩

theorem RunsOf.pairwise (h : RunsOf ls w filter firstWeekday runs) :
    ∀ run ∈ runs, run.dates.Pairwise (· < ·) := by
  induction h with
  | nil => exact nofun
  | cons hrun _ ih =>
    rw [List.forall_mem_cons]
    rcases generate_eq_ok hrun with ⟨r, rfl⟩
    exact ⟨pairwise_generate_dates, ih⟩

/-- The run at a place is that of the rule at this place. -/
theorem RunsOf.getElem?_eq_some_iff (h : RunsOf ls w filter firstWeekday runs) {place : Nat}
    {run : Run} :
    runs[place]? = some run ↔
      ∃ l, ls[place]? = some l ∧ l.generate w filter firstWeekday = .ok run := by
  induction h generalizing place with
  | nil => simp
  | @cons l found ls runs hfound _ ih =>
    cases place with
    | zero =>
      simp only [List.getElem?_cons_zero, Option.some.injEq]
      constructor
      · rintro rfl
        exact ⟨l, rfl, hfound⟩
      · rintro ⟨_, rfl, hrun⟩
        exact Except.ok.inj (hfound.symm.trans hrun)
    | succ place =>
      simp only [List.getElem?_cons_succ]
      exact ih

theorem generateEach_eq (h : RunsOf ls w filter firstWeekday runs) :
    generateEach w filter firstWeekday ls =
      .ok (runs, (ls.zip runs).flatMap fun (l, run) => (run.warning? l.checked.period).toList) := by
  induction h with
  | nil => rfl
  | cons hrun _ ih =>
    simp only [generateEach, hrun, ih, bind, Except.bind]
    rfl

theorem generateAll_eq (h : RunsOf ls w filter firstWeekday runs) :
    generateAll ls w filter firstWeekday =
      .ok ⟨merge runs, (ls.zip runs).flatMap fun (l, run) =>
        (run.warning? l.checked.period).toList⟩ := by
  simp only [generateAll, generateEach_eq h, bind, Except.bind]
  rfl

/-! ### Rules in another order -/

/-- Rules that stand at the places of `ls` in another order are a permutation of them. -/
theorem perm_of_places (places : Fin others.length ≃ Fin ls.length)
    (h : ∀ i, others.get i = ls.get (places i)) : others.Perm ls := by
  have hothers : Multiset.map others.get Finset.univ.val = ↑others := by
    rw [Fin.univ_val_map, List.ofFn_get]
  have hls : Multiset.map ls.get Finset.univ.val = ↑ls := by
    rw [Fin.univ_val_map, List.ofFn_get]
  have hget : others.get = ls.get ∘ places := funext h
  rw [← Multiset.coe_eq_coe, ← hothers, ← hls, hget, ← Multiset.map_map,
    Multiset.map_univ_val_equiv]

/-- The dates of the runs, told from the rules alone. -/
theorem RunsOf.flatMap_dates (h : RunsOf ls w filter firstWeekday runs) :
    runs.flatMap Run.dates =
      ls.flatMap fun l => (l.generate w filter firstWeekday).toOption.elim [] Run.dates := by
  induction h with
  | nil => rfl
  | cons hrun _ ih =>
    rw [List.flatMap_cons, List.flatMap_cons, ih, hrun]
    rfl

/-! ### Generation for several rules -/

/-- The merged dates and the warnings of some rules, told from their single runs. -/
structure IsMerge (ls : List LooseRule) (runs : List Run) (m : Merged) : Prop where
  ascending : m.occurrences.Pairwise Occurrence.Before
  placed : ∀ o ∈ m.occurrences, o.2 < ls.length
  dates : ∀ place, (m.occurrences.filter (·.2 = place)).map Prod.fst =
    runs[place]?.elim [] Run.dates
  warnings : m.warnings.map (Log.Entry.mk Log.warning) =
    (ls.zip runs).flatMap fun (l, run) => runLogs l.checked run

theorem isMerge_of_runsOf (h : RunsOf ls w filter firstWeekday runs) :
    IsMerge ls runs
      ⟨merge runs, (ls.zip runs).flatMap fun (l, run) =>
        (run.warning? l.checked.period).toList⟩ := by
  refine ⟨pairwise_merge h.pairwise, ?_, dates_of_place h.pairwise, ?_⟩
  · intro o ho
    rcases mem_merge_iff.1 ho with ⟨run, hrun, -⟩
    rcases h.getElem?_eq_some_iff.1 hrun with ⟨l, hl, -⟩
    exact (List.getElem?_eq_some_iff.1 hl).1
  · have hlogs (l : LooseRule) (run : Run) :
        (run.warning? l.checked.period).toList.map (Log.Entry.mk Log.warning) =
          runLogs l.checked run := by
      unfold runLogs
      cases run.warning? l.checked.period <;> rfl
    simp only [List.map_flatMap, hlogs]

/-- An occurrence of the merged list is a date that the rule at its place generates. -/
theorem RunsOf.mem_merge_iff (h : RunsOf ls w filter firstWeekday runs) {d : Date} {place : Nat} :
    (d, place) ∈ merge runs ↔
      ∃ l run, ls[place]? = some l ∧ l.generate w filter firstWeekday = .ok run ∧
        d ∈ run.dates := by
  simp only [Schedule.mem_merge_iff, h.getElem?_eq_some_iff]
  constructor
  · rintro ⟨run, ⟨l, hl, hrun⟩, hd⟩
    exact ⟨l, run, hl, hrun, hd⟩
  · rintro ⟨l, run, hl, hrun, hd⟩
    exact ⟨run, ⟨l, hl, hrun⟩, hd⟩

/-- Generation for several rules merges their single runs, in strict order and with their warnings.
It returns when these do, as they do for every index that is an integer or absent. Rules in another
order have the same dates, tagged with the new places. -/
theorem merged_generation_exact (ls : List LooseRule) (w : Window) (filter : Option Window)
    (firstWeekday : Weekday) :
    ((∀ l ∈ ls, l.odd = none) → ∃ runs, RunsOf ls w filter firstWeekday runs) ∧
      ∀ runs, RunsOf ls w filter firstWeekday runs →
        ∃ m, generateAll ls w filter firstWeekday = .ok m ∧ IsMerge ls runs m ∧
          ∀ (others : List LooseRule) (places : Fin others.length ≃ Fin ls.length),
            (∀ i, others.get i = ls.get (places i)) →
            ∃ m', generateAll others w filter firstWeekday = .ok m' ∧
              (∀ (d : Date) (i : Fin others.length),
                (d, i.val) ∈ m'.occurrences ↔ (d, (places i).val) ∈ m.occurrences) ∧
              (m'.occurrences.map Prod.fst).Perm (m.occurrences.map Prod.fst) := by
  refine ⟨?_, ?_⟩
  · intro hodd
    exact exists_runsOf_iff.2 fun l hl => ⟨_, generate_of_odd_eq_none (hodd l hl)⟩
  · intro runs hruns
    refine ⟨_, generateAll_eq hruns, isMerge_of_runsOf hruns, ?_⟩
    intro others places hplaces
    have hperm : others.Perm ls := perm_of_places places hplaces
    have hothers : ∃ runs', RunsOf others w filter firstWeekday runs' :=
      exists_runsOf_iff.2 fun l hl => exists_runsOf_iff.1 ⟨runs, hruns⟩ l (hperm.mem_iff.1 hl)
    rcases hothers with ⟨runs', hruns'⟩
    refine ⟨_, generateAll_eq hruns', ?_, ?_⟩
    · intro d i
      -- Both places hold the same rule.
      have hrule : others[i.val]? = ls[(places i).val]? := by
        have hget := hplaces i
        simp only [List.get_eq_getElem] at hget
        rw [List.getElem?_eq_getElem i.isLt, List.getElem?_eq_getElem (places i).isLt, hget]
      rw [hruns'.mem_merge_iff, hruns.mem_merge_iff, hrule]
    · have hdates : (runs'.flatMap Run.dates).Perm (runs.flatMap Run.dates) := by
        rw [hruns'.flatMap_dates, hruns.flatMap_dates]
        exact hperm.flatMap_right _
      exact ((dates_merge_perm runs').trans hdates).trans (dates_merge_perm runs).symm

end Rules

/-- From 2024-03-01, a Friday, to 2024-03-31. The fifteenth is a Friday, too. -/
def friday15 : Window := ⟨⟨738945, by decide⟩, ⟨738975, by decide⟩, by decide⟩

/-- Fridays and fifteenths share a date; listed the other way round they have the same dates. -/
theorem merged_generation_exact_fridays_and_fifteenths :
    ∃ m m', generateAll [⟨fridays, none⟩, ⟨fifteenths, none⟩] friday15 none .monday = .ok m ∧
      generateAll [⟨fifteenths, none⟩, ⟨fridays, none⟩] friday15 none .monday = .ok m' ∧
      m.occurrences.Pairwise Occurrence.Before ∧
      (m.occurrences.filter (·.2 = 1)).map Prod.fst =
        (fifteenths.generate friday15 none .monday).dates ∧
      (m'.occurrences.map Prod.fst).Perm (m.occurrences.map Prod.fst) := by
  rcases merged_generation_exact [⟨fridays, none⟩, ⟨fifteenths, none⟩] friday15 none .monday with
    ⟨-, hmerged⟩
  have hruns : RunsOf [⟨fridays, none⟩, ⟨fifteenths, none⟩] friday15 none .monday
      [fridays.generate friday15 none .monday, fifteenths.generate friday15 none .monday] :=
    .cons rfl (.cons rfl .nil)
  rcases hmerged _ hruns with ⟨m, hm, hmerge, hothers⟩
  rcases hothers [⟨fifteenths, none⟩, ⟨fridays, none⟩] (Equiv.swap 0 1) (by decide) with
    ⟨m', hm', -, hdates⟩
  exact ⟨m, m', hm, hm', hmerge.ascending, hmerge.dates 1, hdates⟩

end Schedule
end Cadence
