import LoanDesk.Proofs.Desk.Lists
import LoanDesk.Proofs.Service.Run

/-
# All reads agree at any time

If the clock always tells its offset and users have ids without a zero character, then so do
the owners and the requests of all loans, whatever is done. So at any time every way of
reading loans tells the same.

Key definitions: `Service.Act.IsTimely`, `Service.OnTime`.
Key theorems: `Service.timely_of_lent`, `Service.OnTime.step`, `Service.reads_agree`.
-/

namespace LoanDesk
namespace Service

open Store Desk

/-- The act sets the clock to a time with an offset, if at all, and enlists no user whose id has a
zero character. -/
def Act.IsTimely : Act → Prop
  | enlist r => ∀ c ∈ r.id.toList, c.toNat ≠ 0
  | tick clock => clock.offset.isSome = true
  | _ => True

/-- The desk is in order, and its clock tells its offset. -/
structure OnTime (s : System) (ts : Shelves) : Prop where
  keeps : s.desk.Keeps timely ts
  clock : s.desk.clock.offset.isSome = true

/-- A loan that comes of a request can be put in order among the others (`Loan.IsTimely`). -/
theorem timely_of_lent {d : Desk} {owner : String} {r : WrittenRequest} {l : Loan}
    (hd : d.clock.offset.isSome = true) (howner : upToZero owner = owner)
    (h : Keeps.Lent d r.request owner l) : l.IsTimely := by
  refine ⟨h.isReadable r.amount r.rate, fun s hs => ?_, ?_⟩
  · obtain rfl := Value.text.inj (h.owner.symm.trans hs)
    exact howner
  · rw [h.requested]
    exact hd

namespace OnTime

variable {s : System} {ts : Shelves} {a : Act}

theorem fits (h : OnTime s ts) (ha : a.IsTimely) : a.Fits timely s.desk := by
  cases a with
  | enlist r => exact upToZero_eq_self ha
  | lend owner r => exact fun l howner hl => timely_of_lent h.clock howner hl
  | _ => trivial

theorem clock_step (h : OnTime s ts) (ha : a.IsTimely) :
    (s.step a).desk.clock.offset.isSome = true := by
  rw [(step_clock_terms s a).1]
  cases a with
  | tick clock => exact ha
  | _ => exact h.clock

theorem step (h : OnTime s ts) (ha : a.IsTimely) : ∃ ts', OnTime (s.step a) ts' := by
  obtain ⟨ts', hkeeps, -⟩ := turns_step h.keeps (fun _ hl => hl.readable) (h.fits ha)
  exact ⟨ts', hkeeps, h.clock_step ha⟩

theorem run (h : OnTime s ts) {acts : List Act} (ha : ∀ a ∈ acts, a.IsTimely) :
    ∃ ts', OnTime (s.run acts) ts' := by
  refine System.run_of_step (P := fun s => ∃ ts, OnTime s ts) ?_ ⟨ts, h⟩ ha
  rintro s a ⟨ts, h⟩ ha
  exact h.step ha

end OnTime

/-- Whatever is done at a desk that opens empty, all reads agree: the desk after every run
`ReadsAgree`. -/
theorem reads_agree (kind : Storage.Kind) (terms : Terms) {clock : Stamp}
    (hclock : clock.offset.isSome = true) {acts : List Act} (ha : ∀ a ∈ acts, a.IsTimely) :
    ∃ stored sheets,
      ReadsAgree ((System.opening kind terms clock).run acts).desk stored sheets := by
  have hopening : OnTime (System.opening kind terms clock) fun _ => [] :=
    ⟨keeps_opening kind terms clock, hclock⟩
  obtain ⟨ts, h⟩ := hopening.run ha
  exact h.keeps.readsAgree

/-! ### A season with two customers -/

/-- Another user of a first visit. -/
def neighbour : Resident where
  id := "bob"
  user := {
    id := .text "bob"
    created := .epoch
    updated := .epoch
    name := .text "Bob"
    email := .text "bob@example.com" }
  filed := ⟨rfl, trivial, trivial, trivial, trivial, false, rfl⟩

/-- Noon of the first day. -/
def firstNoon : Stamp := noonOf Stamp.epoch.date

/-- Two customers ask for loans, two of them at noon and two at midnight, the clock going forth and
back. One loan is approved and one rejected, and then the customer of the latter is dismissed. -/
def season : List Act := [
  .enlist visitor, .enlist neighbour, .lend "ann" modestRequest,
  .tick firstNoon, .lend "bob" modestRequest, .lend "ann" modestRequest,
  .tick .epoch, .lend "ann" modestRequest,
  .review "id-2" .rejected (some (Text.Torn.ofChars "Too soon".toList)),
  .review "id-4" .approved none, .dismiss "bob"]

/-- The desk after the `season`. -/
def seasoned : Desk := ((System.opening .memory visitedTerms .epoch).run season).desk

/-- The id, the owner, the date and the status of a loan. -/
def gist (l : Loan) : String × String × Stamp × Loan.Status :=
  (l.id.shown, l.owner.shown, l.requested, l.status)

/-- After the season all reads agree on four loans, of which one has no owner any more. -/
theorem reads_agree_season :
    Stamp.epoch.offset.isSome = true ∧ (∀ a ∈ season, a.IsTimely) ∧
    (∃ sheet, seasoned.perform (loanSheet (.text "id-2")) = (.ok sheet, seasoned) ∧
      sheet.ownerName.shown = "Unknown user") ∧
    ∃ stored sheets, ReadsAgree seasoned stored sheets ∧ stored.map gist = [
      ("id-1", "ann", .epoch, .pending), ("id-2", "bob", firstNoon, .rejected),
      ("id-3", "ann", firstNoon, .pending), ("id-4", "ann", .epoch, .approved)] := by
  have htimely : ∀ a ∈ season, a.IsTimely := by
    have hplain : ∀ s : String, s.toList.all (fun c => c.toNat != 0) = true →
        ∀ c ∈ s.toList, c.toNat ≠ 0 := fun s h c hc =>
      bne_iff_ne.mp (List.all_eq_true.mp h c hc)
    have hann := hplain "ann" (by decide)
    have hbob := hplain "bob" (by decide)
    intro a ha
    simp only [season, List.mem_cons, List.not_mem_nil, or_false] at ha
    rcases ha with rfl | rfl | rfl | rfl | rfl | rfl | rfl | rfl | rfl | rfl | rfl
    all_goals first | exact hann | exact hbob | exact rfl | trivial
  have hstored : (do LoanBook.readAll (← seasoned.storage.loadAll LoanBook.table)).toOption.map
      (List.map gist) = some [
      ("id-1", "ann", .epoch, .pending), ("id-2", "bob", firstNoon, .rejected),
      ("id-3", "ann", firstNoon, .pending), ("id-4", "ann", .epoch, .approved)] := by
    decide +kernel
  have hname : (seasoned.perform (loanSheet (.text "id-2"))).1.toOption.map (·.ownerName.shown) =
      some "Unknown user" := by decide +kernel
  have hclock : Stamp.epoch.offset.isSome = true := rfl
  obtain ⟨stored, sheets, h⟩ : ∃ stored sheets, ReadsAgree seasoned stored sheets :=
    reads_agree .memory visitedTerms hclock htimely
  obtain ⟨sheet, hsheet, hshown⟩ := Option.map_eq_some_iff.mp hname
  have hlook := (isLook_loanSheet (.text "id-2")).eq seasoned
  rw [eq_ok_of_toOption hsheet] at hlook
  rw [h.read] at hstored
  exact ⟨hclock, htimely, ⟨sheet, hlook, hshown⟩, stored, sheets, h, Option.some.inj hstored⟩

end Service
end LoanDesk
