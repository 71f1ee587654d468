import Cadence.Calendar.Moment

/-!
# Written — dates read back from their written form

- `Date.ofCivil?_of_date`, `Date.ofCivil?_eq_some_iff`: the date that its own year, month and day
  name
- `civil?_iso`: the numbers of a written date
-/

namespace Cadence
namespace Calendar

open Text

/-- The length of a month is that of its number in its year. -/
theorem Month.length_eq (m : Month) : m.length = monthLength (m.year : Int) m.number := by
  have hyear : (m.year : Int) = yearOfMonth m.index := Int.natCast_succ (m.index / 12)
  rw [hyear]
  rfl

/-- A date is the one that its year, month and day name. -/
theorem Date.ofCivil?_of_date (d : Date) : Date.ofCivil? d.year d.month.number d.day = some d := by
  have hday := d.day_le
  have hpos := d.day_pos
  have hnumber : 1 ≤ d.month.number ∧ d.month.number ≤ 12 := by
    unfold Month.number
    omega
  have hlength : monthLength (d.year : Int) d.month.number = d.month.length :=
    d.month.length_eq.symm
  have hmonth : Month.ofIndex? (12 * ((d.year : Int) - 1) + ((d.month.number : Int) - 1)) =
      some d.month := by
    rw [Month.ofIndex?_eq_some_iff]
    unfold Date.year Month.year Month.number
    omega
  rw [Date.ofCivil?, if_pos ⟨hnumber.1, hnumber.2, hpos, hlength ▸ hday⟩, hmonth]
  exact congrArg some d.at_month_day

/-- A year, a month and a day name the date whose year, month and day they are, and no other. -/
theorem Date.ofCivil?_eq_some_iff {year month day : Nat} {d : Date} :
    Date.ofCivil? year month day = some d ↔
      d.year = year ∧ d.month.number = month ∧ d.day = day := by
  constructor
  · intro h
    unfold ofCivil? at h
    split at h
    · rename_i hrange
      rcases Option.map_eq_some_iff.1 h with ⟨m, hm, rfl⟩
      have hindex := Month.ofIndex?_eq_some_iff.1 hm
      have hyear : m.year = year := by
        unfold Month.year
        omega
      have hnumber : m.number = month := by
        unfold Month.number
        omega
      have hlength : m.length = monthLength year month := by
        rw [m.length_eq, hyear, hnumber]
      have hday := day_at m day
      rw [Date.year, month_at]
      exact ⟨hyear, hnumber, by omega⟩
    · cases h
  · rintro ⟨rfl, rfl, rfl⟩
    exact d.ofCivil?_of_date

theorem civil?_iso (d : Date) :
    civil? d.iso.toList = some ((d.year, d.month.number, d.day), []) := by
  have hyear : d.year < capacity 4 := by
    have hindex : d.month.index < 119988 := d.month.index_lt
    show d.month.index / 12 + 1 < 10000
    omega
  have hmonth : d.month.number < capacity 2 := by
    show d.month.index % 12 + 1 < 100
    omega
  have hday : d.day < capacity 2 := by
    have := d.day_le
    have := d.month.length_le
    show d.day < 100
    omega
  have hlast := fixed?_padded hday []
  rw [List.append_nil] at hlast
  simp only [civil?, Date.iso, String.toList_ofList, List.append_assoc, List.cons_append,
    fixed?_padded hyear, fixed?_padded hmonth, hlast, bind, Option.bind_some, pure]

end Calendar
end Cadence
