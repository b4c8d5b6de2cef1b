import Mathlib.Tactic
import LoanDesk.Time.Stamp

/-
# Days counted through the calendar

The day that is found at a place of the calendar is at that place, and the stamp that shows
microseconds on the wall shows them. So a stamp that is moved has moved by as much, whatever its
offset, and an instant in the calendar is few seconds from the epoch.

Key theorems: `Date.dayNumber_of_ofDayNumber`, `Stamp.wall_of_ofWall`,
`Stamp.epochMicros_of_plus`, `Stamp.epochSeconds_lt`.
-/

namespace LoanDesk

namespace Date

/-- The month that is found holds the day. -/
theorem monthAndDay_spec (y tries : ℕ) {m n : ℕ} (hm : m ≠ 0) :
    daysBeforeMonth y (monthAndDay y tries m n).1 + (monthAndDay y tries m n).2 =
      daysBeforeMonth y m + n := by
  induction tries generalizing m n with
  | zero => rfl
  | succ tries ih =>
    unfold monthAndDay
    split
    · rfl
    · rw [ih (Nat.succ_ne_zero m), daysBeforeMonth, if_neg hm]
      omega

/-- The year that is found starts before the day, if the one that was started from does. -/
theorem daysBeforeYear_yearFrom (tries : ℕ) {y n : ℕ} (h : daysBeforeYear y < n) :
    daysBeforeYear (yearFrom tries y n) < n := by
  induction tries generalizing y with
  | zero => exact h
  | succ tries ih =>
    unfold yearFrom
    split
    · exact h
    · exact ih (by omega)

/-- The search for the year of a day starts before it. -/
theorem daysBeforeYear_start {n : ℕ} (h : 1 ≤ n) : daysBeforeYear ((n - 1) / 366 + 1) < n := by
  unfold daysBeforeYear
  omega

/-- A day is found for places of the calendar only. -/
theorem range_of_ofDayNumber {n : ℤ} {d : Date} (h : ofDayNumber? n = some d) :
    1 ≤ n ∧ n ≤ 3652059 := by
  unfold ofDayNumber? at h
  split at h
  · cases h
  · omega

/-- The day at a place of the calendar is at that place. -/
theorem dayNumber_of_ofDayNumber {n : ℤ} {d : Date} (h : ofDayNumber? n = some d) :
    (d.dayNumber : ℤ) = n := by
  unfold ofDayNumber? at h
  split at h
  · cases h
  · rename_i hrange
    have hyear := daysBeforeYear_yearFrom 40 (daysBeforeYear_start (n := n.toNat) (by omega))
    have hmonth := monthAndDay_spec (yearFrom 40 ((n.toNat - 1) / 366 + 1) n.toNat) 12
      (n := n.toNat - daysBeforeYear (yearFrom 40 ((n.toNat - 1) / 366 + 1) n.toNat)) one_ne_zero
    simp only [make?] at h
    split at h
    · obtain rfl := Option.some.inj h
      unfold dayNumber
      simp only [daysBeforeMonth, if_true] at hmonth ⊢
      omega
    · cases h

end Date

namespace Stamp

theorem eq_of_make {date : Date} {hour minute second micro : ℕ} {o : Option Offset} {t : Stamp}
    (h : make? date hour minute second micro o = some t) : t.date = date ∧ t.offset = o ∧
      t.timeOfDay = ((hour * 60 + minute) * 60 + second) * 1000000 + micro := by
  unfold make? at h
  split at h
  · obtain rfl := Option.some.inj h
    exact ⟨rfl, rfl, rfl⟩
  · cases h

/-- The stamp that shows microseconds on the wall shows them. -/
theorem wall_of_ofWall {micros : ℤ} {o : Option Offset} {t : Stamp}
    (h : ofWall? micros o = some t) :
    t.wall = micros ∧ t.offset = o := by
  unfold ofWall? at h
  obtain ⟨date, hdate, h⟩ := Option.bind_eq_some_iff.mp h
  have hday := Date.dayNumber_of_ofDayNumber hdate
  obtain ⟨hsame, hoffset, htime⟩ := eq_of_make h
  refine ⟨?_, hoffset⟩
  have hrest : 0 ≤ micros.fmod dayMicros := Int.fmod_nonneg_of_pos micros (by decide)
  have hparts : micros.fdiv dayMicros * dayMicros + micros.fmod dayMicros = micros :=
    Int.fdiv_mul_add_fmod micros dayMicros
  unfold wall
  rw [htime, hsame, hday]
  push_cast
  omega

/-- A stamp that is moved has moved by as much, whatever its offset. -/
theorem epochMicros_of_plus {t s : Stamp} {micros : ℤ} (h : t.plus? micros = some s) :
    s.epochMicros = t.epochMicros + micros := by
  obtain ⟨hwall, hoffset⟩ := wall_of_ofWall h
  unfold epochMicros instant
  rw [hoffset, hwall]
  cases t.offset with
  | none => ring
  | some o => ring

/-- The seconds of an instant in the calendar have twelve digits at most. -/
theorem epochSeconds_lt {t s : Stamp} (h : t.universal? = some s) :
    t.epochSeconds.natAbs < 10 ^ 12 := by
  obtain ⟨date, hdate, -⟩ := Option.bind_eq_some_iff.mp h
  have hrange := Date.range_of_ofDayNumber hdate
  have hepoch : epoch.instant = 719163 * 86400000000 := by decide
  unfold epochSeconds epochMicros
  rw [hepoch, Int.fdiv_eq_ediv_of_nonneg _ (by decide)]
  rw [dayMicros, Int.fdiv_eq_ediv_of_nonneg _ (by decide)] at hrange
  omega

end Stamp
end LoanDesk
