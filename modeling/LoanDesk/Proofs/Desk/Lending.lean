import LoanDesk.Proofs.Annuity.Reach
import LoanDesk.Proofs.Desk.Book

/-
# Lending keeps a desk in order

A loan that is asked for comes at the end of the loans, pending, under a new id; or nothing
but counters has changed. A review that is concluded replaces a pending loan by the copy
that was read, reviewed; or it is refused, and the store is as it was. A loan that is deleted
is removed alone.

Key definitions: `Refusal.EndsReview`, `Loan.Sheet.Filed`, `Desk.Keeps.Lent`, `Desk.Keeps.Lends`,
`Desk.Keeps.Concludes`, `Desk.Keeps.Reviews`.
Key theorems: `Desk.Keeps.createLoan`, `Desk.Keeps.readLoan`, `Desk.Keeps.updateIf`,
`Desk.Keeps.concludeReview`, `Desk.Keeps.reviewLoan`, `Desk.Keeps.deleteLoan`.
-/

namespace LoanDesk

/-- The sorts of refusals that a review may meet. -/
def Refusal.EndsReview (r : Refusal) : Prop :=
  r.kind = .notFound ∨ r.kind = .conflict ∨ r.kind = .validation

namespace Loan

/-- The sheet of a loan on file, whose owner has texts for name and address. -/
structure Sheet.Filed (id : String) (sheet : Sheet) : Prop where
  loan : sheet.loan.Filed id
  ownerName : sheet.ownerName.IsText
  ownerEmail : sheet.ownerEmail.IsText

theorem Sheet.of_loan (l : Loan) (owner : Option User) : (Sheet.of l owner).loan = l := by
  cases owner <;> rfl

theorem Filed.sheet {id : String} {l : Loan} (h : l.Filed id) {owner : Option User}
    (ho : ∀ u ∈ owner, ∃ n, u.Filed n) : (Sheet.of l owner).Filed id := by
  cases owner with
  | none => exact ⟨h, trivial, trivial⟩
  | some u =>
    obtain ⟨n, hu⟩ := ho u rfl
    exact ⟨h, hu.name, hu.email⟩

/-- A review that is not refused is of a pending loan, and ends it. -/
theorem review_eq_ok {l l' : Loan} {target : Status} {comments : Value} {at_ : Stamp}
    (h : l.review target comments at_ = .ok l') :
    l.status = .pending ∧ target.isFinal = true ∧ l' = l.reviewedAs target comments at_ := by
  unfold review isPending at h
  split at h
  · cases h
  · next hp =>
    split at h
    · cases h
    · next ht =>
      refine ⟨?_, by simpa using ht, (Except.ok.inj h).symm⟩
      simpa using hp

theorem review_eq_error {l : Loan} {target : Status} {comments : Value} {at_ : Stamp}
    {r : Refusal} (h : l.review target comments at_ = .error r) : r.EndsReview := by
  unfold review at h
  split at h
  · obtain rfl := Except.error.inj h
    exact .inr (.inl rfl)
  · split at h
    · obtain rfl := Except.error.inj h
      exact .inr (.inr rfl)
    · cases h

end Loan

namespace Desk

open Store

variable {R : Rule} {d : Desk} {ts : Shelves} {id : String}

theorem isLook_sheetOf (l : Loan) : IsLook (sheetOf l) :=
  .bind (isLook_user? l.owner) fun _ => .pure _

theorem isLook_loan? (id : Value) : IsLook (loan? id) := by
  refine .bind .get fun d₀ => ?_
  cases d₀.pinned with
  | some l => exact .pure _
  | none => exact .reading _

theorem isLook_readLoan (id : Value) : IsLook (readLoan id) := by
  refine .bind (isLook_loan? id) fun l => ?_
  cases l with
  | some l => exact .pure l
  | none => exact .lifted _

theorem isLook_confirmLoan (id : Value) : IsLook (confirmLoan id) := by
  refine .bind (.reading _) fun there => ?_
  cases there with
  | true => exact .pure ()
  | false => exact .lifted (refuse (.missing "loan" id) : Except Fault Unit)

/-! ### The clock and the terms stay -/

theorem isSteady_createLoan (userId : Value) (r : Loan.Request) :
    IsSteady (createLoan userId r) := by
  refine .bind (isLook_readUser userId).isSteady fun user => ?_
  refine .bind IsLook.get.isSteady fun d => .bind (IsLook.lifted _).isSteady fun _ => ?_
  refine .bind (IsLook.lifted _).isSteady fun _ => .bind IsLook.now.isSteady fun _ => ?_
  exact .bind .freshId fun _ => .bind (.writing _) fun _ => (IsLook.pure _).isSteady

theorem isSteady_concludeReview (id : Value) (l : Loan) (target : Loan.Status)
    (comments : Value) : IsSteady (concludeReview id l target comments) := by
  refine .bind IsLook.now.isSteady fun at_ => ?_
  cases l.review target comments at_ with
  | error r => exact (IsLook.lifted _).isSteady
  | ok reviewed =>
    refine .bind (.changing _) fun done => ?_
    cases done with
    | true => exact (isLook_sheetOf reviewed).isSteady
    | false => exact (IsLook.lifted (refuse (.reviewLost id))).isSteady

theorem isSteady_reviewLoan (id : Value) (target : Loan.Status) (comments : Value) :
    IsSteady (reviewLoan id target comments) :=
  .bind (isLook_readLoan id).isSteady fun l => isSteady_concludeReview id l target comments

theorem isSteady_deleteLoan (id : Value) : IsSteady (deleteLoan id) :=
  .bind (isLook_confirmLoan id).isSteady fun _ => .changing _

namespace Keeps

/-! ### Asking for a loan -/

theorem freshId (h : d.Keeps R ts) : Keeps R { d with ids := d.ids + 1 } ts :=
  h.of_same rfl rfl (Nat.le_succ d.ids)

theorem worth_eq_ok {r : Loan.Request} {amount rate : Decimal.Extended} {months : ℕ}
    {payment : Decimal} (h : worth r = .ok (amount, rate, months, payment)) :
    Annuity.paymentFor r.amount r.rate r.term = .ok payment ∧
      Annuity.months r.term = .ok months ∧ r.amount.toDecimal = .ok amount ∧
      r.rate.toDecimal = .ok rate := by
  obtain ⟨p, hp, h⟩ := bind_eq_ok h
  obtain ⟨n, hn, h⟩ := bind_eq_ok h
  obtain ⟨a, ha, h⟩ := bind_eq_ok h
  obtain ⟨b, hb, h⟩ := bind_eq_ok h
  obtain ⟨rfl, rfl, rfl, rfl⟩ : a = amount ∧ b = rate ∧ n = months ∧ p = payment := by
    simpa using Except.ok.inj h
  exact ⟨hp, hn, ha, hb⟩

/-- The loan that an accepted request comes to. -/
structure Lent (d : Desk) (r : Loan.Request) (owner : String) (l : Loan) : Prop where
  checked : d.terms.limits.check r = .ok ()
  status : l.status = .pending
  owner : l.owner = .text owner
  reviewed : l.reviewed = none
  comments : l.comments = .null
  created : l.created = d.clock
  updated : l.updated = d.clock
  requested : l.requested = d.clock
  amount : r.amount.toDecimal = .ok l.amount
  rate : r.rate.toDecimal = .ok l.rate
  months : ∃ n : ℕ, Annuity.months r.term = .ok n ∧ l.months = n
  payment : ∃ p, Annuity.paymentFor r.amount r.rate r.term = .ok p ∧ l.payment = .finite p

/-- The numbers of a new loan can be read, if those of its request can be written. -/
theorem Lent.isReadable {r : Loan.Request} {owner : String} {l : Loan} (h : Lent d r owner l)
    (hamount : ∀ x, r.amount.toDecimal = .ok x → x.isWithinReach = true)
    (hrate : ∀ x, r.rate.toDecimal = .ok x → x.isWithinReach = true) : l.IsReadable := by
  obtain ⟨p, hp, hpayment⟩ := h.payment
  refine ⟨hamount _ h.amount, hrate _ h.rate, ?_⟩
  rw [hpayment]
  exact Annuity.paymentFor_withinReach hp

/-- What comes of asking for a loan: nothing but perhaps an id that was used up, or a new loan at
the end of the others. -/
inductive Lends (R : Rule) (d : Desk) (ts : Shelves) (owner : String) (r : Loan.Request) :
    Except Fault Loan.Sheet → Desk → Prop
  | refused (f : Fault) : Lends R d ts owner r (.error f) d
  | failed (f : Fault) : Lends R d ts owner r (.error f) { d with ids := d.ids + 1 }
  | lent {sheet : Loan.Sheet} {s : Storage} : sheet.Filed (idOf (d.ids + 1)) →
      R.loan sheet.loan → Lent d r owner sheet.loan → s.Follows d.storage .loans →
      Keeps R { d with ids := d.ids + 1, storage := s } (Function.update ts .loans
        (ts .loans ++ [(idOf (d.ids + 1), sheet.loan.document)])) →
      Lends R d ts owner r (.ok sheet) { d with ids := d.ids + 1, storage := s }

/-- A loan that can be written is added, and no other. -/
theorem addLoan (h : d.Keeps R ts) {l : Loan} (hid : l.id = .text (idOf (d.ids + 1))) :
    (l.months.natAbs < 10 ^ Value.integerRoom → l.Filed (idOf (d.ids + 1)) → R.loan l →
      ∃ s, LoanBook.add d.storage l = .ok s ∧ s.Follows d.storage .loans ∧
        Keeps R { d with ids := d.ids + 1, storage := s } (Function.update ts .loans
          (ts .loans ++ [(idOf (d.ids + 1), l.document)]))) ∧
    (¬ l.months.natAbs < 10 ^ Value.integerRoom →
      LoanBook.add d.storage l = .error .noMeaning) := by
  have hadd : LoanBook.add d.storage l =
      d.storage.save (.text Shelf.loans.name) (.text (idOf (d.ids + 1))) (.record l.record) := by
    have hhas := h.shows.has .loans (idOf (d.ids + 1))
    rw [Table.has_eq, (Table.get?_eq_none (isExact_string _)).mpr h.not_mem_next] at hhas
    have hhas' : d.storage.has LoanBook.table l.id = .ok false := hid ▸ hhas
    unfold LoanBook.add
    rw [hhas', ← hid]
    rfl
  rw [hadd]
  refine ⟨fun hm hl hP => ?_, fun hm => h.shows.save_unwritable .loans _ ?_⟩
  · obtain ⟨s, hs, hshows, hfollows⟩ :=
      h.shows.save .loans (idOf (d.ids + 1)) hl.printable hl.isWritable
    refine ⟨s, hs, hfollows, ?_⟩
    rw [← Table.put_of_not_mem (isExact_string _) h.not_mem_next]
    exact h.freshId.putLoan hl hP ⟨_, le_refl _, rfl⟩ hshows
  · rw [Bool.eq_false_iff]
    intro hw
    have hmem : ("term_in_months", Value.int l.months) ∈ l.record := by
      unfold Loan.record
      simp
    exact hm (Json.int_of_isWritable hw hmem)

theorem createLoan (h : d.Keeps R ts) (owner : String) (r : Loan.Request)
    (hP : ∀ l, R.user d.ids owner → Lent d r owner l → R.loan l) :
    d.Ends (createLoan (.text owner) r) (Lends R d ts owner r) := by
  unfold Desk.createLoan
  refine .look (isLook_readUser _) (fun user huser => ?_) .refused
  refine .look .get (fun d₀ hd₀ => ?_) .refused
  obtain rfl := Except.ok.inj hd₀
  refine .look (.lifted _) (fun _ hcheck => ?_) .refused
  refine .look (.lifted _) (fun w hw => ?_) .refused
  rw [perform_lifted] at hcheck hw
  refine .look .now (fun at_ hat => ?_) .refused
  obtain rfl := Except.ok.inj hat
  obtain ⟨amount, rate, months, payment⟩ := w
  obtain ⟨u, hu, hg, rfl⟩ := h.readUser_ok huser
  have howner := (h.user_of_get? hg).1
  obtain ⟨hpayment, hmonths, hamount, hrate⟩ := worth_eq_ok hw
  have hlent : Lent d r owner
      (loanOf (idOf (d.ids + 1)) d.clock u.kept amount rate months payment) :=
    ⟨hcheck, rfl, hu.kept_id, rfl, rfl, rfl, rfl, rfl, hamount, hrate, ⟨months, hmonths, rfl⟩,
      payment, hpayment, rfl⟩
  obtain ⟨hwritable, hunwritable⟩ := h.addLoan
    (l := loanOf (idOf (d.ids + 1)) d.clock u.kept amount rate months payment) rfl
  unfold Ends
  rw [perform_bind_ok (perform_freshId d)]
  by_cases hm : (months : ℤ).natAbs < 10 ^ Value.integerRoom
  · have hl : (loanOf (idOf (d.ids + 1)) d.clock u.kept amount rate months payment).Filed
        (idOf (d.ids + 1)) := ⟨rfl, ⟨owner, hlent.owner⟩, hm, .inl rfl⟩
    have hrule := hP _ howner hlent
    obtain ⟨s, hs, hfollows, hkeeps⟩ := hwritable hm hl hrule
    rw [perform_bind_ok (a := ()) (e := { d with ids := d.ids + 1, storage := s })
      (by rw [perform_writing]; simp only [hs])]
    exact .lent ⟨hl, hu.kept.name, hu.kept.email⟩ hrule hlent hfollows hkeeps
  · rw [perform_bind_error (f := .noMeaning) (e := { d with ids := d.ids + 1 })
      (by rw [perform_writing]; simp only [hunwritable hm])]
    exact .failed _

/-! ### Reviewing -/

/-- The copy of a loan that is on file can be had, unless its numbers cannot be read. -/
theorem readLoan (h : d.Keeps R ts) (id : String) :
    ((ts .loans).get? id = none ∧ d.perform (readLoan (.text id)) =
      (refuse (.missing "loan" (.text id)), d)) ∨
    ∃ l : Loan, l.Filed id ∧ R.loan l ∧ (ts .loans).get? id = some l.document ∧
      d.perform (Desk.readLoan (.text id)) = (Loan.ofRecord (.record l.document), d) := by
  unfold Desk.readLoan
  rcases h.loan? id with ⟨hnone, hp⟩ | ⟨l, hl, hP, hg, hp⟩
  · refine .inl ⟨hnone, ?_⟩
    rw [perform_bind_ok hp]
    exact perform_lifted d _
  · refine .inr ⟨l, hl, hP, hg, ?_⟩
    rw [perform_bind, hp]
    cases Loan.ofRecord (.record l.document) <;> rfl

/-- The sheet of a loan on file can be had. -/
theorem sheetOf (h : d.Keeps R ts) {l : Loan} (hl : l.Filed id) :
    ∃ sheet : Loan.Sheet, d.perform (sheetOf l) = (.ok sheet, d) ∧ sheet.loan = l ∧
      sheet.Filed id := by
  obtain ⟨n, hn⟩ := hl.owner
  have hu : ∃ owner, d.perform (Desk.user? l.owner) = (.ok owner, d) ∧
      ∀ u ∈ owner, ∃ n, u.Filed n := by
    rw [hn]
    rcases h.user? n with ⟨-, hp⟩ | ⟨u, hu, -, hp⟩
    · exact ⟨_, hp, by simp⟩
    · exact ⟨_, hp, fun v hv => ⟨n, Option.some.inj hv ▸ hu.kept⟩⟩
  obtain ⟨owner, hp, howner⟩ := hu
  refine ⟨.of l owner, ?_, Loan.Sheet.of_loan l owner, hl.sheet howner⟩
  unfold Desk.sheetOf
  rw [perform_bind_ok hp]
  rfl

/-- What comes of concluding the review of a copy: a refusal, and a store that has what it had; or
the copy, reviewed, in the place of a loan that was pending still. -/
inductive Concludes (R : Rule) (d : Desk) (ts : Shelves) (id : String) (l : Loan)
    (target : Loan.Status) (comments : Value) : Except Fault Loan.Sheet → Desk → Prop
  | refused {r : Refusal} {s : Storage} : r.EndsReview → Keeps R { d with storage := s } ts →
      (d.storage.IsReady .loans → s = d.storage) →
      Concludes R d ts id l target comments (.error (.refused r)) { d with storage := s }
  | reviewed {sheet : Loan.Sheet} {s : Storage} {current : Loan} :
      (ts .loans).get? id = some current.document → current.status = .pending →
      target.isFinal = true → sheet.loan = l.reviewedAs target comments d.clock →
      s.Follows d.storage .loans →
      Keeps R { d with storage := s } (Function.update ts .loans
        ((ts .loans).put id sheet.loan.document)) →
      Concludes R d ts id l target comments (.ok sheet) { d with storage := s }

/-- A loan is written down if the stored one has the expected status, and not otherwise. -/
theorem updateIf (h : d.Keeps R ts) {l : Loan} (hl : l.Filed id) (expected : Loan.Status) :
    ∃ done s, LoanBook.updateIf d.storage l expected = .ok (done, s) ∧
      d.storage.Wrote ts .loans id l.record done s ∧ (done = true → ∃ current : Loan,
        (ts .loans).get? id = some current.document ∧ current.status = expected) := by
  have hone : [("status", Value.text expected.word)].length ≤ mostConditions true :=
    Nat.le_add_left 1 996
  have hcs := conditions_texts [("status", expected.word)]
  have habsent : (ts .loans).get? id = none → _ :=
    h.shows.saveIfMatch_absent hl.isWritable hone hcs
  rw [← hl.id] at habsent
  cases hg : (ts .loans).get? id with
  | none =>
    exact ⟨false, _, habsent hg, h.shows.asked .loans id l.record, fun e => by cases e⟩
  | some fs =>
    obtain ⟨-, current, hc, -, rfl⟩ := h.loan_of_get? hg
    have hmeets := Storage.meets_text isPlainName_status hc.isFinite
      (fun _ hv => current.isFlat_status hv) d.storage expected.word
    rw [current.hasText_status] at hmeets
    obtain ⟨s, hs, hwrote⟩ := h.shows.saveIfMatch_present hl.printable hl.isWritable hone hcs hg
      hmeets
    rw [← hl.id] at hs
    exact ⟨_, s, hs, hwrote, fun e => ⟨current, rfl, of_decide_eq_true e⟩⟩

theorem concludeReview (h : d.Keeps R ts) {l : Loan} (hl : l.Filed id) (target : Loan.Status)
    {comments : Value} (hc : comments = .null ∨ comments.IsText)
    (hP : R.loan (l.reviewedAs target comments d.clock)) :
    d.Ends (concludeReview (.text id) l target comments)
      (Concludes R d ts id l target comments) := by
  have hsame : ∀ {r : Refusal}, r.EndsReview →
      Concludes R d ts id l target comments (.error (.refused r)) d := fun hr =>
    .refused (s := d.storage) hr (h.withStorage h.shows) fun _ => rfl
  unfold Desk.concludeReview Ends
  rw [perform_bind_ok (perform_now d)]
  cases hreview : l.review target comments d.clock with
  | error r =>
    rw [perform_lifted]
    exact hsame (Loan.review_eq_error hreview)
  | ok reviewed =>
    obtain ⟨-, hfinal, rfl⟩ := Loan.review_eq_ok hreview
    have hreviewed := hl.reviewedAs target hc d.clock
    obtain ⟨done, s, hupdate, hwrote, hpending⟩ := h.updateIf hreviewed .pending
    simp only
    rw [perform_bind_ok (a := done) (e := { d with storage := s })
      (by rw [perform_changing]; simp only [hupdate])]
    cases hwrote with
    | put hshows hfollows =>
      obtain ⟨current, hg, hstatus⟩ := hpending rfl
      have hkeeps := h.putLoan hreviewed hP (h.loan_of_get? hg).1 hshows
      obtain ⟨sheet, hp, hsheet, -⟩ := hkeeps.sheetOf hreviewed
      rw [if_pos rfl, hp]
      exact .reviewed hg hstatus hfinal hsheet hfollows (hsheet ▸ hkeeps)
    | left hshows hfollows hready =>
      rw [if_neg (by decide), perform_lifted]
      exact .refused (.inr (.inl rfl)) (h.withStorage hshows) hready

/-- What comes of a review from its copy to its end: an error and a store that has what it had; or
the copy that was read, reviewed, in the place of the pending loan that it was read of. -/
inductive Reviews (R : Rule) (d : Desk) (ts : Shelves) (id : String) (target : Loan.Status)
    (comments : Value) : Except Fault Loan.Sheet → Desk → Prop
  | failed (f : Fault) {s : Storage} : Keeps R { d with storage := s } ts →
      Reviews R d ts id target comments (.error f) { d with storage := s }
  | reviewed {l copy : Loan} {sheet : Loan.Sheet} {s : Storage} :
      (ts .loans).get? id = some l.document → l.Filed id → R.loan l →
      Loan.ofRecord (.record l.document) = .ok copy → l.status = .pending →
      target.isFinal = true → sheet.loan = copy.reviewedAs target comments d.clock →
      Keeps R { d with storage := s } (Function.update ts .loans
        ((ts .loans).put id sheet.loan.document)) →
      Reviews R d ts id target comments (.ok sheet) { d with storage := s }

theorem reviewLoan (h : d.Keeps R ts) (id : String) (target : Loan.Status)
    {comments : Value} (hc : comments = .null ∨ comments.IsText) :
    d.Ends (reviewLoan (.text id) target comments) (Reviews R d ts id target comments) := by
  unfold Desk.reviewLoan
  refine .look (isLook_readLoan _) (fun copy hcopy => ?_) fun f => .failed f h
  rcases h.readLoan id with ⟨-, hp⟩ | ⟨l, hl, hrule, hg, hp⟩
  · rw [hp] at hcopy
    cases hcopy
  · rw [hp] at hcopy
    have hfiled := (hl.read hcopy).1
    have hkeep := R.reviewed target comments d.clock hrule hl hcopy
    refine (h.concludeReview hfiled target hc hkeep).mono fun x d' hx => ?_
    cases hx with
    | refused _ hkeeps _ => exact .failed _ hkeeps
    | reviewed hcurrent hpending hfinal hsheet _ hkeeps =>
      have hstatus := Loan.status_of_document_eq (Option.some.inj (hg.symm.trans hcurrent))
      exact .reviewed hg hl hrule hcopy (hstatus.trans hpending) hfinal hsheet hkeeps

theorem Reviews.keeps {target : Loan.Status} {comments : Value} {x : Except Fault Loan.Sheet}
    {d' : Desk} (h : Reviews R d ts id target comments x d') : ∃ ts', d'.Keeps R ts' := by
  cases h with
  | failed _ hkeeps => exact ⟨ts, hkeeps⟩
  | reviewed _ _ _ _ _ _ _ hkeeps => exact ⟨_, hkeeps⟩

/-! ### Deleting -/

/-- A loan that is there is removed. -/
theorem deleteLoan (h : d.Keeps R ts) {fs : Fields} (hg : (ts .loans).get? id = some fs) :
    ∃ s, d.perform (deleteLoan (.text id)) = (.ok true, { d with storage := s }) ∧
      Keeps R { d with storage := s } (Function.update ts .loans ((ts .loans).erase id)) := by
  have hhas : (ts .loans).has id = true := by
    rw [Table.has_eq, hg]
    rfl
  have hconfirm := h.confirmLoan id
  rw [hhas, if_pos rfl] at hconfirm
  obtain ⟨s, hp, hkeeps, -⟩ := h.removeLoan id
  refine ⟨s, ?_, hkeeps⟩
  unfold Desk.deleteLoan
  rw [perform_bind_ok hconfirm, hp, hhas]

end Keeps
end Desk
end LoanDesk
