import Mathlib.Data.List.Sort
import LoanDesk.Loan.Book

/-
# From the newest loan to the oldest

Loans whose requests all tell their offset can be put in order, and those of one instant stay
in the order in which they came. So to choose some of the loans and then to put them in order
is to put all in order and then to choose.

Key definitions: `Loan.byAge`.
Key theorems: `Loan.newestFirst_eq`, `Loan.pairwise_byAge`, `Loan.filter_byAge`,
`Loan.filter_byAge_instant`.
-/

namespace LoanDesk
namespace Loan

/-- The loans from the newest request to the oldest. -/
def byAge (ls : List Loan) : List Loan :=
  ls.mergeSort notOlder

variable {ls : List Loan}

theorem notOlder_iff (a b : Loan) :
    notOlder a b = true ↔ b.requested.instant ≤ a.requested.instant :=
  decide_eq_true_iff

theorem notOlder_trans (a b c : Loan) (hab : notOlder a b = true) (hbc : notOlder b c = true) :
    notOlder a c = true := by
  rw [notOlder_iff] at *
  exact hbc.trans hab

theorem notOlder_total (a b : Loan) : (notOlder a b || notOlder b a) = true := by
  rw [Bool.or_eq_true, notOlder_iff, notOlder_iff]
  exact le_total _ _

theorem areComparable_of_offset (h : ∀ l ∈ ls, l.requested.offset.isSome = true) :
    areComparable ls = true := by
  cases ls with
  | nil => rfl
  | cons l rest =>
    refine List.all_eq_true.mpr fun m hm => ?_
    rw [h l List.mem_cons_self, h m (List.mem_cons_of_mem l hm)]
    rfl

theorem newestFirst_eq (h : ∀ l ∈ ls, l.requested.offset.isSome = true) :
    newestFirst ls = .ok (byAge ls) := by
  unfold newestFirst
  rw [if_pos (areComparable_of_offset h)]
  rfl

theorem byAge_perm (ls : List Loan) : (byAge ls).Perm ls :=
  List.mergeSort_perm ls notOlder

theorem pairwise_byAge (ls : List Loan) :
    (byAge ls).Pairwise fun a b => b.requested.instant ≤ a.requested.instant :=
  (List.pairwise_mergeSort notOlder_trans notOlder_total ls).imp (notOlder_iff _ _).mp

/-- A loan goes before those that are no newer, and behind the others. -/
theorem byAge_cons (l : Loan) (ls : List Loan) :
    byAge (l :: ls) =
      (byAge ls).filter (!notOlder l ·) ++ l :: (byAge ls).filter (notOlder l ·) := by
  obtain ⟨before, after, hcons, hrest, hbefore⟩ :=
    List.mergeSort_cons notOlder_trans notOlder_total l ls
  have hsorted := List.pairwise_mergeSort notOlder_trans notOlder_total (l :: ls)
  rw [hcons] at hsorted
  have hafter : ∀ m ∈ after, notOlder l m = true :=
    (List.pairwise_cons.mp (List.pairwise_append.mp hsorted).2.1).1
  unfold byAge
  rw [hcons, hrest, List.filter_append, List.filter_append, List.filter_eq_self.mpr hbefore,
    List.filter_eq_nil_iff.mpr fun m hm => by simp [hafter m hm],
    List.filter_eq_nil_iff.mpr fun m hm => by simpa using hbefore m hm,
    List.filter_eq_self.mpr hafter, List.append_nil, List.nil_append]

/-- Choosing and putting in order can change places. -/
theorem filter_byAge (test : Loan → Bool) (ls : List Loan) :
    (byAge ls).filter test = byAge (ls.filter test) := by
  induction ls with
  | nil => simp [byAge]
  | cons l rest ih =>
    by_cases hl : test l = true
    · rw [List.filter_cons_of_pos hl, byAge_cons, byAge_cons, List.filter_append,
        List.filter_cons_of_pos hl, ← ih, List.filter_comm test, List.filter_comm test]
    · obtain ⟨before, after, hcons, hrest, -⟩ :=
        List.mergeSort_cons notOlder_trans notOlder_total l rest
      rw [List.filter_cons_of_neg hl, ← ih]
      unfold byAge
      rw [hcons, hrest, List.filter_append, List.filter_append, List.filter_cons_of_neg hl]

/-- Loans of one instant stay in the order in which they came. -/
theorem filter_byAge_instant (t : ℤ) (ls : List Loan) :
    (byAge ls).filter (·.requested.instant == t) = ls.filter (·.requested.instant == t) := by
  rw [filter_byAge]
  refine List.mergeSort_of_pairwise (List.pairwise_iff_forall_sublist.mpr fun {a b} hab => ?_)
  have hmem : ∀ m ∈ [a, b], m.requested.instant = t := by
    intro m hm
    have := List.mem_filter.mp (hab.subset hm)
    exact beq_iff_eq.mp this.2
  rw [notOlder_iff, hmem a (by simp), hmem b (by simp)]

end Loan
end LoanDesk
