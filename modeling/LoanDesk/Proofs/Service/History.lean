import LoanDesk.Proofs.Service.Run

/-
# What is on record of a loan

Whatever is done at a desk, every stored loan is one that the limits of the desk accept, with
the payment that was worked out for it. While it is pending it tells of no review and all its
stamps are the one of its request; from its review on, its stamps of the review are what the
clock showed when that review succeeded, and no other review of it has succeeded. What was
asked for, when, by whom and at which payment never changes, and the status changes once.

Key definitions: `Loan.asked`, `Loan.IsAgreed`, `Loan.Continues`, `Service.System.timesOf`,
`Service.Stands`, `Service.IsOnRecord`, `Service.AllStand`, `Service.Recorded`.
Key theorems: `Service.agreed_of_lent`, `Service.Recorded.moves`, `Service.Recorded.continues`,
`Service.recorded_run`, `Service.loans_on_record`.
-/

namespace LoanDesk

namespace Loan

/-- What a loan was asked for. -/
def asked (l : Loan) : Request :=
  ⟨.decimal l.amount, .decimal l.rate, .int l.months⟩

/-- The limits accept the loan (`Limits.check`), and its payment is the one worked out for it
(`Annuity.paymentFor`). -/
structure IsAgreed (limits : Limits) (l : Loan) : Prop where
  accepted : limits.check l.asked = .ok ()
  payment : ∃ p, l.payment = .finite p ∧
    Annuity.paymentFor (.decimal l.amount) (.decimal l.rate) (.int l.months) = .ok p

/-- The second loan is the first one at a later time: all that was agreed is the same, and the
status too, unless a pending loan has been reviewed. -/
structure Continues (l l' : Loan) : Prop where
  id : l'.id = l.id
  owner : l'.owner = l.owner
  amount : l'.amount = l.amount
  rate : l'.rate = l.rate
  months : l'.months = l.months
  payment : l'.payment = l.payment
  created : l'.created = l.created
  requested : l'.requested = l.requested
  status : l'.status = l.status ∨ l.status = .pending ∧ l'.status.isFinal = true

theorem Continues.refl (l : Loan) : l.Continues l :=
  ⟨rfl, rfl, rfl, rfl, rfl, rfl, rfl, rfl, .inl rfl⟩

/-- What is read of a pending loan is continued by what is read of its review. The review is of
what was read, and it is read again, so its stamps are settled twice. -/
theorem continues_reviewedAs {id : String} {x l l' : Loan} (hx : x.Filed id) (hr : x.IsReadable)
    (hp : x.status = .pending) {target : Status} (ht : target.isFinal = true) {comments : Value}
    (hc : comments = .null ∨ comments.IsText) (at_ : Stamp)
    (hl : ofRecord (.record x.document) = .ok l)
    (hl' : ofRecord (.record (x.kept.reviewedAs target comments at_).document) = .ok l') :
    l.Continues l' := by
  have hread := hr.ofRecord_document hx
  have hreviewed := (hx.read hread).1.reviewedAs target hc at_
  rw [hread] at hl
  rw [(hr.kept.reviewedAs target comments at_).ofRecord_document hreviewed] at hl'
  obtain rfl := Except.ok.inj hl
  obtain rfl := Except.ok.inj hl'
  exact ⟨rfl, rfl, rfl, rfl, rfl, rfl, x.created.settled_settled, x.requested.settled_settled,
    .inr ⟨hp, ht⟩⟩

end Loan

namespace Service

open Store Desk Review

/-! ### Loans within limits -/

/-- The amount and the rate are given as decimals. -/
def IsInDecimals (r : Loan.Request) : Prop :=
  (∃ x, r.amount = .decimal x) ∧ ∃ x, r.rate = .decimal x

/-- Whatever the act asks for is given in decimals. -/
def Act.IsInDecimals : Act → Prop
  | lend _ r => Service.IsInDecimals r.request
  | _ => True

/-- Users may have any id; loans are as agreed on, and can be read. -/
def agreed (limits : Loan.Limits) : Rule where
  user _ _ := True
  loan l := l.IsReadable ∧ l.IsAgreed limits
  issued _ := trivial
  mono _ _ := trivial
  reviewed := by
    rintro id l l' target comments at_ ⟨hread, hagreed⟩ hfiled hl
    rw [hread.ofRecord_document hfiled] at hl
    obtain rfl := Except.ok.inj hl
    exact ⟨hread.kept.reviewedAs target comments at_, hagreed.accepted, hagreed.payment⟩

/-- A term that counts months (`Annuity.months?`) is a whole number. -/
theorem term_of_months {v : Value} {n : ℕ} (h : Annuity.months v = .ok n) : v = .int n := by
  unfold Annuity.months Annuity.months? at h
  cases v with
  | int i =>
    simp only at h
    by_cases hi : 1 ≤ i
    · rw [if_pos hi] at h
      obtain rfl := Except.ok.inj h
      rw [Int.toNat_of_nonneg (by omega)]
    · rw [if_neg hi] at h
      cases h
  | _ => cases h

/-- A request in decimals is what its loan was asked for. -/
theorem asked_of_lent {d : Desk} {r : Loan.Request} {owner : String} {l : Loan}
    (h : Keeps.Lent d r owner l) (hr : IsInDecimals r) : r = l.asked := by
  obtain ⟨⟨x, hx⟩, y, hy⟩ := hr
  obtain ⟨n, hn, hmonths⟩ := h.months
  have hamount := h.amount
  have hrate := h.rate
  rw [hx] at hamount
  rw [hy] at hrate
  obtain rfl := Except.ok.inj hamount
  obtain rfl := Except.ok.inj hrate
  unfold Loan.asked
  rw [← hx, ← hy, hmonths, ← term_of_months hn]

/-- The loan that comes of a request in decimals is as agreed on. -/
theorem agreed_of_lent {d : Desk} {r : WrittenRequest} {owner : String} {l : Loan}
    (h : Keeps.Lent d r.request owner l) (hr : IsInDecimals r.request) :
    (agreed d.terms.limits).loan l := by
  have hasked := asked_of_lent h hr
  have hchecked := h.checked
  obtain ⟨p, hp, hpayment⟩ := h.payment
  rw [hasked] at hchecked hp
  exact ⟨h.isReadable r.amount r.rate, hchecked, p, hpayment, hp⟩

/-! ### How far a loan has come -/

/-- The times at which reviews of a loan have succeeded. -/
def System.timesOf (s : System) (id : String) : List Stamp :=
  (s.reviews.filter (·.1 == id)).map (·.2)

/-- A stored loan waits for its review, or tells when it was reviewed, which has happened once. -/
inductive Stands (times : List Stamp) (l : Loan) : Prop
  | waiting : l.status = .pending → l.reviewed = none → l.comments = .null →
      l.updated = l.created → l.requested = l.created → times = [] → Stands times l
  | decided (t : Stamp) : l.status.isFinal = true → l.reviewed = some t → l.updated = t →
      times = [t] → Stands times l

/-- What is stored is the record of a loan under its id, as agreed on, which tells how far it has
come. -/
def IsOnRecord (limits : Loan.Limits) (s : System) (v : Value) : Prop :=
  ∃ (id : String) (l : Loan), v = .record l.document ∧ l.id = .text id ∧
    s.desk.storage.load LoanBook.table (.text id) = .ok (some v) ∧
    Loan.ofRecord v = .ok l.kept ∧ l.IsAgreed limits ∧ Stands (s.timesOf id) l

theorem stands_of_lent {d : Desk} {r : Loan.Request} {owner : String} {l : Loan}
    (h : Keeps.Lent d r owner l) : Stands [] l :=
  .waiting h.status h.reviewed h.comments (h.updated.trans h.created.symm)
    (h.requested.trans h.created.symm) rfl

/-- A pending loan has not been reviewed. -/
theorem Stands.times_eq_nil {times : List Stamp} {l : Loan} (h : Stands times l)
    (hl : l.status = .pending) : times = [] := by
  cases h with
  | waiting _ _ _ _ _ ht => exact ht
  | decided t hfinal =>
    rw [hl] at hfinal
    cases hfinal

namespace System

variable {s s' : System} {id other : String}

theorem timesOf_of_eq (h : s'.reviews = s.reviews) (id : String) :
    s'.timesOf id = s.timesOf id := by
  unfold timesOf
  rw [h]

theorem timesOf_reviewed {t : Stamp} (h : s'.reviews = s.reviews ++ [(id, t)]) :
    s'.timesOf id = s.timesOf id ++ [t] := by
  unfold timesOf
  rw [h, List.filter_append, List.map_append]
  simp

theorem timesOf_of_ne {t : Stamp} (h : s'.reviews = s.reviews ++ [(id, t)]) (hne : id ≠ other) :
    s'.timesOf other = s.timesOf other := by
  unfold timesOf
  rw [h, List.filter_append]
  simp [hne]

theorem timesOf_eq_nil (h : ∀ r ∈ s.reviews, r.1 ≠ id) : s.timesOf id = [] := by
  unfold timesOf
  rw [List.filter_eq_nil_iff.mpr fun r hr => by simpa using h r hr]
  rfl

end System

/-! ### The invariant -/

/-- Every document is that of a loan as agreed on, which tells how far it has come. -/
def AllStand (limits : Loan.Limits) (times : String → List Stamp) (t : Table String Fields) :
    Prop :=
  ∀ id fs, t.get? id = some fs → ∃ l : Loan, l.Filed id ∧ (agreed limits).loan l ∧
    fs = l.document ∧ Stands (times id) l

/-- The desk is in order under its terms, reviews are of loans that it knew, and every stored loan
tells how far it has come. -/
structure Recorded (terms : Terms) (s : System) (ts : Shelves) : Prop where
  keeps : s.desk.Keeps (agreed terms.limits) ts
  bound : s.desk.terms = terms
  issued : ∀ r ∈ s.reviews, IsIssued s.desk.ids r.1
  stands : AllStand terms.limits s.timesOf (ts .loans)

namespace Recorded

variable {terms : Terms} {s s' : System} {ts ts' : Shelves} {a : Act} {id : String}

theorem fits (h : Recorded terms s ts) (ha : a.IsInDecimals) :
    a.Fits (agreed terms.limits) s.desk := by
  cases a with
  | enlist r => trivial
  | lend owner r =>
    intro l _ hl
    rw [← h.bound]
    exact agreed_of_lent hl ha
  | _ => trivial

/-- No review has succeeded of a loan whose id is not given out yet, so its `timesOf` are empty. -/
theorem timesOf_next (h : Recorded terms s ts) : s.timesOf (idOf (s.desk.ids + 1)) = [] :=
  System.timesOf_eq_nil fun r hr e =>
    not_isIssued_of_lt s.desk.ids.lt_succ_self (e ▸ h.issued r hr)

/-- No review has succeeded of a loan that is pending. -/
theorem timesOf_pending (h : Recorded terms s ts) {l : Loan}
    (hg : (ts .loans).get? id = some l.document) (hp : l.status = .pending) :
    s.timesOf id = [] := by
  obtain ⟨l', -, -, hdoc, hstands⟩ := h.stands id _ hg
  exact hstands.times_eq_nil ((Loan.status_of_document_eq hdoc).symm.trans hp)

/-- A loan that is put keeps all others as they stand. -/
theorem stands_put (h : Recorded terms s ts) {l : Loan} (hl : l.Filed id)
    (hrule : (agreed terms.limits).loan l) (hstands : Stands (s'.timesOf id) l)
    (hothers : ∀ other, id ≠ other → s'.timesOf other = s.timesOf other)
    (hts : ts' .loans = (ts .loans).put id l.document) :
    AllStand terms.limits s'.timesOf (ts' .loans) := by
  intro other fs hg
  rw [hts] at hg
  by_cases he : id = other
  · subst he
    rw [Table.get?_put_self (isExact_string id)] at hg
    obtain rfl := Option.some.inj hg
    exact ⟨l, hl, hrule, rfl, hstands⟩
  · rw [Table.get?_put_of_ne (isExact_string id) (isExact_string other) he] at hg
    rw [hothers other he]
    exact h.stands other fs hg

/-- The stored loans stand as they should after an act, whichever of the `Moves` it makes. -/
theorem stands_of_moves (h : Recorded terms s ts)
    (hm : Moves (agreed terms.limits) s ts s' ts') :
    AllStand terms.limits s'.timesOf (ts' .loans) := by
  cases hm with
  | still hts hreviews =>
    intro id fs hg
    rw [hts] at hg
    rw [System.timesOf_of_eq hreviews]
    exact h.stands id fs hg
  | lent hl hrule hlent _ hts hreviews =>
    -- A new id comes at the end, as one that is put would.
    rw [← Table.put_of_not_mem (isExact_string _) h.keeps.not_mem_next] at hts
    refine h.stands_put hl hrule ?_ (fun other _ => System.timesOf_of_eq hreviews other) hts
    rw [System.timesOf_of_eq hreviews, h.timesOf_next]
    exact stands_of_lent hlent
  | @reviewed id l target comments hg hl hrule hpending hfinal hts hreviews =>
    have hread := hrule.1.ofRecord_document hl
    have hkept := (hl.read hread).1
    refine h.stands_put (hkept.reviewedAs target (commentsOf_isText comments) s.desk.clock)
      ((agreed terms.limits).reviewed target _ _ hrule hl hread) ?_
      (fun other => System.timesOf_of_ne hreviews) hts
    rw [System.timesOf_reviewed hreviews, h.timesOf_pending hg hpending]
    exact .decided s.desk.clock hfinal rfl rfl rfl
  | removed id hts hreviews =>
    intro other fs hg
    rw [hts] at hg
    rw [System.timesOf_of_eq hreviews]
    by_cases he : id = other
    · subst he
      rw [Table.get?_erase_self (isExact_string id)] at hg
      cases hg
    · rw [Table.get?_erase_of_ne (isExact_string id) (isExact_string other) he] at hg
      exact h.stands other fs hg

/-- Reviews that succeed are of loans that the desk knew. -/
theorem issued_of_moves (h : Recorded terms s ts)
    (hm : Moves (agreed terms.limits) s ts s' ts') (hids : s.desk.ids ≤ s'.desk.ids) :
    ∀ r ∈ s'.reviews, IsIssued s'.desk.ids r.1 := by
  have hsame : s'.reviews = s.reviews → ∀ r ∈ s'.reviews, IsIssued s'.desk.ids r.1 :=
    fun e r hr => (h.issued r (e ▸ hr)).mono hids
  cases hm with
  | still _ hreviews => exact hsame hreviews
  | lent _ _ _ _ _ hreviews => exact hsame hreviews
  | removed _ _ hreviews => exact hsame hreviews
  | reviewed hg _ _ _ _ _ hreviews =>
    intro r hr
    rw [hreviews, List.mem_append, List.mem_singleton] at hr
    rcases hr with hr | rfl
    · exact (h.issued r hr).mono hids
    · exact (h.keeps.loan_of_get? hg).1.mono hids

/-- What an act leaves of a stored loan `Continues` it. -/
theorem continues_of_moves (h : Recorded terms s ts)
    (hm : Moves (agreed terms.limits) s ts s' ts') {l l' : Loan}
    (hl : LoanBook.read? (((ts .loans).get? id).map .record) = .ok (some l))
    (hl' : LoanBook.read? (((ts' .loans).get? id).map .record) = .ok (some l')) :
    l.Continues l' := by
  have hsame : (ts' .loans).get? id = (ts .loans).get? id → l.Continues l' := by
    intro e
    rw [e, hl] at hl'
    obtain rfl := Option.some.inj (Except.ok.inj hl')
    exact .refl l
  cases hm with
  | still hts _ => exact hsame (by rw [hts])
  | lent _ _ _ _ hts _ =>
    refine hsame ?_
    rw [hts, Table.get?_append_of_ne (isExact_string id)]
    rintro rfl
    rw [(Table.get?_eq_none (isExact_string _)).mpr h.keeps.not_mem_next] at hl
    cases hl
  | @reviewed id' x target comments hg hx hrule hpending hfinal hts _ =>
    rw [hts] at hl' hsame
    by_cases he : id' = id
    · subst he
      rw [hg] at hl
      rw [Table.get?_put_self (isExact_string id')] at hl'
      exact Loan.continues_reviewedAs hx hrule.1 hpending hfinal (commentsOf_isText comments) _
        (LoanBook.read?_document hl) (LoanBook.read?_document hl')
    · exact hsame (Table.get?_put_of_ne (isExact_string id') (isExact_string id) he)
  | removed id' hts _ =>
    rw [hts] at hl' hsame
    by_cases he : id' = id
    · subst he
      rw [Table.get?_erase_self (isExact_string id')] at hl'
      cases hl'
    · exact hsame (Table.get?_erase_of_ne (isExact_string id') (isExact_string id) he)

theorem moves (h : Recorded terms s ts) (ha : a.IsInDecimals) :
    ∃ ts', Recorded terms (s.step a) ts' ∧
      Moves (agreed terms.limits) s ts (s.step a) ts' := by
  obtain ⟨ts', hkeeps, hids, hm⟩ := turns_step h.keeps (fun l hl => hl.1) (h.fits ha)
  exact ⟨ts', ⟨hkeeps, (step_clock_terms s a).2.trans h.bound, h.issued_of_moves hm hids,
    h.stands_of_moves hm⟩, hm⟩

/-- A loan that is there before an act and after it `Continues`. -/
theorem continues (h : Recorded terms s ts) (ha : a.IsInDecimals) {l l' : Loan}
    (hl : LoanBook.get? s.desk.storage (.text id) = .ok (some l))
    (hl' : LoanBook.get? (s.step a).desk.storage (.text id) = .ok (some l')) :
    l.Continues l' := by
  obtain ⟨ts', h', hm⟩ := h.moves ha
  rw [h.keeps.loanBook_get?] at hl
  rw [h'.keeps.loanBook_get?] at hl'
  exact h.continues_of_moves hm hl hl'

/-- Every stored loan is on record. -/
theorem isOnRecord (h : Recorded terms s ts) {v : Value}
    (hv : v ∈ (ts .loans).entries.map .record) : IsOnRecord terms.limits s v := by
  obtain ⟨fs, hfs, rfl⟩ := List.mem_map.mp hv
  obtain ⟨⟨id, fs⟩, hp, rfl⟩ := List.mem_map.mp hfs
  have hg := Table.get?_of_mem (isExact_string id) (h.keeps.shows.distinct .loans) hp
  obtain ⟨l, hl, hrule, rfl, hstands⟩ := h.stands id _ hg
  have hload := h.keeps.shows.load .loans id
  rw [hg] at hload
  exact ⟨id, l, rfl, hl.id, hload, hrule.1.ofRecord_document hl, hrule.2, hstands⟩

end Recorded

theorem recorded_opening (kind : Storage.Kind) (terms : Terms) (clock : Stamp) :
    Recorded terms (System.opening kind terms clock) fun _ => [] := by
  refine ⟨keeps_opening kind terms clock, rfl, ?_, ?_⟩
  · rintro r ⟨⟩
  · rintro id fs ⟨⟩

theorem recorded_run {terms : Terms} {s : System} {ts : Shelves} (h : Recorded terms s ts)
    {acts : List Act} (ha : ∀ a ∈ acts, a.IsInDecimals) :
    ∃ ts', Recorded terms (s.run acts) ts' := by
  refine System.run_of_step (P := fun s => ∃ ts, Recorded terms s ts) ?_ ⟨ts, h⟩ ha
  rintro s a ⟨ts, h⟩ ha
  obtain ⟨ts', h', -⟩ := h.moves ha
  exact ⟨ts', h'⟩

/-- Whatever is done at a desk that opens empty, every stored loan is on record, and whatever is
done next, every loan that stays is continued. -/
theorem loans_on_record (kind : Storage.Kind) (terms : Terms) (clock : Stamp) (acts : List Act)
    (ha : ∀ a ∈ acts, a.IsInDecimals) :
    (∃ vs, ((System.opening kind terms clock).run acts).desk.storage.loadAll LoanBook.table =
        .ok vs ∧
      ∀ v ∈ vs, IsOnRecord terms.limits ((System.opening kind terms clock).run acts) v) ∧
    ∀ a : Act, a.IsInDecimals → ∀ (id : String) (l l' : Loan),
      LoanBook.get? ((System.opening kind terms clock).run acts).desk.storage (.text id) =
        .ok (some l) →
      LoanBook.get? (((System.opening kind terms clock).run acts).step a).desk.storage
        (.text id) = .ok (some l') →
      l.Continues l' := by
  obtain ⟨ts, h⟩ := recorded_run (recorded_opening kind terms clock) ha
  exact ⟨⟨_, h.keeps.shows.loadAll .loans, fun v => h.isOnRecord⟩,
    fun a hact id l l' => h.continues hact⟩

/-- After a visit the one loan is on record, and was reviewed when it was. -/
theorem loans_on_record_visit :
    (∀ a ∈ visit, a.IsInDecimals) ∧
    ((System.opening .memory visitedTerms .epoch).run visit).timesOf "id-1" = [.epoch] ∧
    ∃ v, ((System.opening .memory visitedTerms .epoch).run visit).desk.storage.loadAll
        LoanBook.table = .ok [v] ∧
      IsOnRecord .standard ((System.opening .memory visitedTerms .epoch).run visit) v := by
  have hdecimals : ∀ a ∈ visit, a.IsInDecimals := by
    intro a ha
    simp only [visit, List.mem_cons, List.not_mem_nil, or_false] at ha
    rcases ha with rfl | rfl | rfl
    · trivial
    · exact ⟨⟨_, rfl⟩, _, rfl⟩
    · trivial
  have hone : (((System.opening .memory visitedTerms .epoch).run visit).desk.storage.loadAll
      LoanBook.table).toOption.map List.length = some 1 := by decide +kernel
  obtain ⟨⟨vs, hvs, hrecord⟩, -⟩ :=
    loans_on_record .memory visitedTerms .epoch visit hdecimals
  rw [hvs] at hone
  obtain ⟨v, rfl⟩ := List.length_eq_one_iff.mp (Option.some.inj hone)
  exact ⟨hdecimals, by decide +kernel, v, hvs, hrecord v List.mem_cons_self⟩

end Service
end LoanDesk
