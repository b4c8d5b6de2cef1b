import LoanDesk.Proofs.Review.Run

/-
# A loan is reviewed at most once

Reviewers hold copies that may be old, and deleters have seen loans that may be gone. The
invariant relates what every call has come to with the stored loans: where a review has
returned, its copy is what is stored, or the loan has been deleted; where a deletion has
succeeded, nothing is stored. A review writes only over a pending loan, and a copy that a
review has written is pending no more, so no second review can return, whatever the order
of the steps.

Key definitions: `Review.IsWinner`, `Review.Tells`, `Review.Advance`, `Review.Sound`,
`Review.Outcome`, `Review.ReviewsOnce`.
Key theorems: `Review.Tells.advance`, `Review.Sound.step`, `Review.sound_run`,
`Review.reviewed_at_most_once`, `Review.winner_read_otherwise`.
-/

namespace LoanDesk
namespace Review

open Store Desk

/-- The call is a review of the loan. -/
def Call.Reviews (c : Call) (id : String) : Prop :=
  ∃ target comments, c = .review id target comments

namespace System

/-- The review of the loan has returned to its caller: its stage is `.reviewed`. -/
def HasReviewed (calls : ℕ → Call) (s : System) (n : ℕ) (id : String) : Prop :=
  (calls n).Reviews id ∧ ∃ sheet, s.stage n = .reviewed sheet

/-- The call has removed the loan: its stage is `.deleted true`. -/
def HasDeleted (calls : ℕ → Call) (s : System) (n : ℕ) (id : String) : Prop :=
  calls n = .delete id ∧ s.stage n = .deleted true

/-- Some call has removed the loan. -/
def IsGone (calls : ℕ → Call) (s : System) (id : String) : Prop :=
  ∃ n, s.HasDeleted calls n id

end System

variable {calls : ℕ → Call} {s s' : System} {ts ts' : Shelves} {n : ℕ} {id : String}
  {stage : Stage}

/-! ### The winner's copy -/

/-- Comments in which no half stands before the half that completes it. -/
def AreParted (comments : Option Text.Torn) : Prop :=
  ∀ t ∈ comments, t.IsParted

theorem AreParted.stored {comments : Option Text.Torn} (h : AreParted comments) :
    (commentsOf comments).stored = commentsOf comments := by
  cases comments with
  | none => rfl
  | some t => exact (Value.IsSound.of_isParted (h t rfl)).stored

/-- The answer to a review: the loan with the target for its status, the comments and a date. It
would be read from its document as it is, unless halves stand together in the comments or the date
has an offset of less than a second. -/
structure IsWinner (id : String) (target : Loan.Status) (comments : Option Text.Torn)
    (sheet : Loan.Sheet) : Prop where
  filed : sheet.loan.Filed id
  readable : sheet.loan.IsReadable
  status : sheet.loan.status = target
  final : target.isFinal = true
  remarks : sheet.loan.comments = commentsOf comments
  dated : sheet.loan.reviewed.isSome = true
  kept : AreParted comments → (∀ t ∈ sheet.loan.reviewed, t.HasLastingOffset) →
    sheet.loan.kept = sheet.loan

/-- A copy that is reviewed by `Loan.reviewedAs` is the winner's. -/
theorem isWinner_of_eq {id : String} {target : Loan.Status} {comments : Option Text.Torn}
    {copy : Loan} {at_ : Stamp} {sheet : Loan.Sheet} (hfiled : copy.Filed id)
    (hread : copy.IsReadable) (hkept : copy.kept = copy) (hfinal : target.isFinal = true)
    (hsheet : sheet.loan = copy.reviewedAs target (commentsOf comments) at_) :
    IsWinner id target comments sheet := by
  refine ⟨?_, ?_, ?_, hfinal, ?_, ?_, fun hcomments hdate => ?_⟩
  · rw [hsheet]
    exact hfiled.reviewedAs target (commentsOf_isText comments) at_
  · rw [hsheet]
    exact hread.reviewedAs target _ at_
  · rw [hsheet]
    rfl
  · rw [hsheet]
    rfl
  · rw [hsheet]
    rfl
  · rw [hsheet] at hdate ⊢
    exact Loan.kept_reviewedAs hkept target (hdate at_ rfl) hcomments.stored

/-- A loan that is on record is read as it is kept, by `Loan.kept`. -/
theorem loanBook_get?_of_document {d : Desk} {ts : Shelves} (h : d.Keeps readable ts)
    {id : String} {l : Loan} (hl : l.Filed id) (hread : l.IsReadable)
    (hg : (ts .loans).get? id = some l.document) :
    LoanBook.get? d.storage (.text id) = .ok (some l.kept) := by
  have htruthy : (Value.record l.document).truthy = true := rfl
  rw [h.loanBook_get?, hg]
  change LoanBook.read? (some (.record l.document)) = _
  rw [LoanBook.read?, if_pos htruthy, hread.ofRecord_document hl]
  rfl

/-! ### What a stage tells -/

/-- What the stage of a call tells of the desk and its loans. -/
def Tells (calls : ℕ → Call) (s : System) (ts : Shelves) (n : ℕ) : Stage → Prop
  | .waiting => True
  | .reviewing copy => ∃ id, (calls n).Reviews id ∧ copy.Filed id ∧ copy.IsReadable ∧
      copy.kept = copy ∧ s.desk.storage.IsReady .loans
  | .deleting => ∃ id, calls n = .delete id
  | .created _ => ∃ owner amount rate term, calls n = .create owner amount rate term
  | .reviewed sheet => ∃ id target comments, calls n = .review id target comments ∧
      IsIssued s.desk.ids id ∧ IsWinner id target comments sheet ∧
      ((ts .loans).get? id = some sheet.loan.document ∨
        ((ts .loans).get? id = none ∧ s.IsGone calls id))
  | .deleted there => ∃ id, calls n = .delete id ∧
      (there = true → IsIssued s.desk.ids id ∧ (ts .loans).get? id = none)
  | .failed f => ∀ id, (calls n).Reviews id → ∃ r, f = .refused r ∧ r.EndsReview

/-- What one event may do to the loans: each stays as it is, or is removed by a call, or is written
over while it is pending. -/
structure Advance (calls : ℕ → Call) (s s' : System) (ts ts' : Shelves) : Prop where
  ids : s.desk.ids ≤ s'.desk.ids
  ready : s.desk.storage.IsReady .loans → s'.desk.storage.IsReady .loans
  gone : ∀ id, s.IsGone calls id → s'.IsGone calls id
  loans : ∀ id, IsIssued s.desk.ids id →
    (ts' .loans).get? id = (ts .loans).get? id ∨
    ((ts' .loans).get? id = none ∧ s'.IsGone calls id) ∨
    ∃ l : Loan, (ts .loans).get? id = some l.document ∧ l.status = .pending

/-- What a stage tells stays true under an `Advance`, since no review is over whose loan is
pending. -/
theorem Tells.advance (h : Tells calls s ts n stage) (ha : Advance calls s s' ts ts') :
    Tells calls s' ts' n stage := by
  cases stage with
  | waiting => trivial
  | reviewing copy =>
    obtain ⟨id, hcall, hfiled, hread, hkept, hready⟩ := h
    exact ⟨id, hcall, hfiled, hread, hkept, ha.ready hready⟩
  | deleting => exact h
  | created sheet => exact h
  | reviewed sheet =>
    obtain ⟨id, target, comments, hcall, hid, hwinner, hstored⟩ := h
    refine ⟨id, target, comments, hcall, hid.mono ha.ids, hwinner, ?_⟩
    rcases ha.loans id hid with hsame | hgone | ⟨l, hl, hpending⟩
    · rw [hsame]
      exact hstored.imp_right fun hs => ⟨hs.1, ha.gone id hs.2⟩
    · exact .inr hgone
    · rcases hstored with hdoc | ⟨hnone, -⟩
      · have he := Loan.status_of_document_eq (Option.some.inj (hl.symm.trans hdoc))
        have hfinal := hwinner.final
        rw [hpending, hwinner.status] at he
        rw [← he] at hfinal
        cases hfinal
      · rw [hnone] at hl
        cases hl
  | deleted there =>
    obtain ⟨id, hcall, htold⟩ := h
    refine ⟨id, hcall, fun ht => ?_⟩
    obtain ⟨hid, hnone⟩ := htold ht
    refine ⟨hid.mono ha.ids, ?_⟩
    rcases ha.loans id hid with hsame | hgone | ⟨l, hl, -⟩
    · rw [hsame, hnone]
    · exact hgone.1
    · rw [hnone] at hl
      cases hl
  | failed f => exact h

/-! ### The invariant -/

/-- The desk is in order, every stage `Tells` the truth, and no two reviews of one loan have
returned, nor two deletions succeeded. -/
structure Sound (calls : ℕ → Call) (s : System) (ts : Shelves) : Prop where
  keeps : s.desk.Keeps readable ts
  ready : ts .loans = [] ∨ s.desk.storage.IsReady .loans
  tells : ∀ n, Tells calls s ts n (s.stage n)
  oneReview : ∀ i j id, s.HasReviewed calls i id → s.HasReviewed calls j id → i = j
  oneDelete : ∀ i j id, s.HasDeleted calls i id → s.HasDeleted calls j id → i = j

namespace Sound

theorem reviewed_stored (h : Sound calls s ts) (hr : s.HasReviewed calls n id) :
    ∃ sheet : Loan.Sheet, s.stage n = .reviewed sheet ∧ sheet.loan.status.isFinal = true ∧
      ((ts .loans).get? id = some sheet.loan.document ∨
        ((ts .loans).get? id = none ∧ s.IsGone calls id)) := by
  obtain ⟨⟨target, comments, hcall⟩, sheet, hstage⟩ := hr
  have ht := h.tells n
  rw [hstage] at ht
  obtain ⟨id', target', comments', hcall', -, hwinner, hstored⟩ := ht
  obtain ⟨rfl, rfl, rfl⟩ := Call.review.inj (hcall.symm.trans hcall')
  exact ⟨sheet, hstage, hwinner.status ▸ hwinner.final, hstored⟩

/-- While a loan is pending, no review of it has returned. -/
theorem not_hasReviewed (h : Sound calls s ts) {l : Loan}
    (hl : (ts .loans).get? id = some l.document) (hp : l.status = .pending) :
    ¬ s.HasReviewed calls n id := by
  intro hr
  obtain ⟨sheet, -, hfinal, hdoc | ⟨hnone, -⟩⟩ := h.reviewed_stored hr
  · rw [← Loan.status_of_document_eq (Option.some.inj (hl.symm.trans hdoc)), hp] at hfinal
    cases hfinal
  · rw [hnone] at hl
    cases hl

/-- A loan that has been deleted is not there. -/
theorem get?_of_hasDeleted (h : Sound calls s ts) (hd : s.HasDeleted calls n id) :
    (ts .loans).get? id = none := by
  have ht := h.tells n
  rw [hd.2] at ht
  obtain ⟨id', hcall, htold⟩ := ht
  obtain rfl := Call.delete.inj (hd.1.symm.trans hcall)
  exact (htold rfl).2

/-- An event that is no step of a call. -/
theorem of_desk (h : Sound calls s ts) {d : Desk} (hk : d.Keeps readable ts')
    (hi : s.desk.ids ≤ d.ids) (hr : s.desk.storage.IsReady .loans → d.storage.IsReady .loans)
    (hl : ts' .loans = ts .loans) : Sound calls { s with desk := d } ts' := by
  refine ⟨hk, ?_, fun n => (h.tells n).advance ⟨hi, hr, fun _ hg => hg, fun id _ => ?_⟩,
    h.oneReview, h.oneDelete⟩
  · rw [hl]
    exact h.ready.imp_right hr
  · exact .inl (by rw [hl])

/-- A call that has deleted a loan has deleted it still when another one has taken a step. -/
theorem isGone_step (hopen : s.stage n ≠ .deleted true) (hg : s.IsGone calls id) :
    (s.step calls n).IsGone calls id := by
  obtain ⟨j, hcall, hj⟩ := hg
  refine ⟨j, hcall, ?_⟩
  rw [System.step_stage_of_ne, hj]
  rintro rfl
  exact hopen hj

/-- A step of a call whose outcome `Tells` the truth and is the first of its kind. -/
theorem move (h : Sound calls s ts) {r : Except Fault Stage} {d : Desk}
    (hp : s.desk.perform ((calls n).next (s.stage n)) = (r, d))
    (hk : d.Keeps readable ts') (hready : ts' .loans = [] ∨ d.storage.IsReady .loans)
    (ha : Advance calls s (s.step calls n) ts ts')
    (ht : Tells calls (s.step calls n) ts' n (stageOf r))
    (hreview : ∀ sheet, stageOf r = .reviewed sheet → ∀ id, (calls n).Reviews id →
      ∀ j, ¬ s.HasReviewed calls j id)
    (hdelete : stageOf r = .deleted true → ∀ id, calls n = .delete id →
      ∀ j, ¬ s.HasDeleted calls j id) : Sound calls (s.step calls n) ts' := by
  have hdesk : (s.step calls n).desk = d := System.step_desk hp
  have hstage : (s.step calls n).stage n = stageOf r := System.step_stage hp
  have hreviewed : ∀ {j id}, j ≠ n → (s.step calls n).HasReviewed calls j id →
      s.HasReviewed calls j id := by
    rintro j id hj ⟨hcall, sheet, hs⟩
    exact ⟨hcall, sheet, System.step_stage_of_ne hj ▸ hs⟩
  have hdeleted : ∀ {j id}, j ≠ n → (s.step calls n).HasDeleted calls j id →
      s.HasDeleted calls j id := by
    rintro j id hj ⟨hcall, hs⟩
    exact ⟨hcall, System.step_stage_of_ne hj ▸ hs⟩
  refine ⟨hdesk ▸ hk, hdesk ▸ hready, fun m => ?_, fun i j id hi hj => ?_, fun i j id hi hj => ?_⟩
  · by_cases hm : m = n
    · rw [hm, hstage]
      exact ht
    · rw [System.step_stage_of_ne hm]
      exact (h.tells m).advance ha
  · by_cases hin : i = n <;> by_cases hjn : j = n
    · rw [hin, hjn]
    · subst hin
      obtain ⟨hcall, sheet, hs⟩ := hi
      exact absurd (hreviewed hjn hj) (hreview sheet (hstage ▸ hs) id hcall j)
    · subst hjn
      obtain ⟨hcall, sheet, hs⟩ := hj
      exact absurd (hreviewed hin hi) (hreview sheet (hstage ▸ hs) id hcall i)
    · exact h.oneReview i j id (hreviewed hin hi) (hreviewed hjn hj)
  · by_cases hin : i = n <;> by_cases hjn : j = n
    · rw [hin, hjn]
    · subst hin
      exact absurd (hdeleted hjn hj) (hdelete (hstage ▸ hi.2) id hi.1 j)
    · subst hjn
      exact absurd (hdeleted hin hi) (hdelete (hstage ▸ hj.2) id hj.1 i)
    · exact h.oneDelete i j id (hdeleted hin hi) (hdeleted hjn hj)

/-- A step after which the loans are as they were. -/
theorem still (h : Sound calls s ts) {r : Except Fault Stage} {d : Desk}
    (hp : s.desk.perform ((calls n).next (s.stage n)) = (r, d))
    (hopen : s.stage n ≠ .deleted true) (hk : d.Keeps readable ts)
    (hi : s.desk.ids ≤ d.ids) (hr : s.desk.storage.IsReady .loans → d.storage.IsReady .loans)
    (ht : Tells calls (s.step calls n) ts n (stageOf r))
    (hreview : ∀ sheet, stageOf r ≠ .reviewed sheet) (hdelete : stageOf r ≠ .deleted true) :
    Sound calls (s.step calls n) ts := by
  have hdesk : (s.step calls n).desk = d := System.step_desk hp
  refine h.move hp hk (h.ready.imp_right hr) ⟨hdesk ▸ hi, hdesk ▸ hr, fun _ => isGone_step hopen,
    fun _ _ => .inl rfl⟩ ht (fun sheet hs => absurd hs (hreview sheet)) fun hs => absurd hs hdelete

/-- A step that does nothing. -/
theorem step_rest
    (hp : s.desk.perform ((calls n).next (s.stage n)) = (.ok (s.stage n), s.desk)) :
    s.step calls n = s := by
  rw [System.step_eq hp]
  change System.mk s.desk (Function.update s.stage n (s.stage n)) = s
  rw [Function.update_eq_self]

theorem ready_of_has (h : Sound calls s ts) (hh : (ts .loans).has id = true) :
    s.desk.storage.IsReady .loans := by
  refine h.ready.resolve_left fun he => ?_
  rw [he] at hh
  cases hh

end Sound

/-! ### Each kind of step -/

namespace Sound

theorem step_create (h : Sound calls s ts) {owner : String} {amount rate : Amount} {term : ℤ}
    (hc : calls n = .create owner amount rate term) (hs : s.stage n = .waiting) :
    ∃ ts', Sound calls (s.step calls n) ts' := by
  have hopen : s.stage n ≠ .deleted true := by
    rw [hs]
    intro e
    cases e
  obtain ⟨x, d, hx, hp⟩ := next_create_waiting h.keeps owner amount rate term
  rw [← hc, ← hs] at hp
  have hfailed : ∀ f, Tells calls (s.step calls n) ts n (.failed f) := by
    rintro f id ⟨target, comments, hcall⟩
    rw [hc] at hcall
    cases hcall
  cases hx with
  | refused f =>
    refine ⟨ts, h.still hp hopen h.keeps le_rfl id (hfailed f) (fun _ e => ?_) fun e => ?_⟩ <;>
      cases e
  | failed f =>
    refine ⟨ts, h.still hp hopen h.keeps.freshId (Nat.le_succ _) id (hfailed f) (fun _ e => ?_)
      fun e => ?_⟩ <;> cases e
  | @lent sheet st hfiled _ hlent hfollows hkeeps =>
    have hdesk : (s.step calls n).desk =
        { s.desk with ids := s.desk.ids + 1, storage := st } := System.step_desk hp
    refine ⟨_, h.move hp hkeeps (.inr hfollows.ready) ⟨?_, ?_, fun _ => isGone_step hopen, ?_⟩
      ⟨owner, amount, rate, term, hc⟩ (fun _ e => ?_) fun e => ?_⟩
    · rw [hdesk]
      exact Nat.le_succ _
    · rw [hdesk]
      exact hfollows.keeps .loans
    · intro id hid
      left
      rw [Function.update_self]
      refine Table.get?_append_of_ne (isExact_string id) ?_
      rintro rfl
      exact not_isIssued_of_lt (Nat.lt_succ_self _) hid
    · cases e
    · cases e

theorem step_review (h : Sound calls s ts) {target : Loan.Status} {comments : Option Text.Torn}
    (hc : calls n = .review id target comments) (hs : s.stage n = .waiting) :
    Sound calls (s.step calls n) ts := by
  have hopen : s.stage n ≠ .deleted true := by
    rw [hs]
    intro e
    cases e
  rcases next_review_waiting h.keeps id target comments with
    ⟨-, hp⟩ | ⟨l, hl, hread, hkept, hhas, hp⟩
  · rw [← hc, ← hs] at hp
    refine h.still hp hopen h.keeps le_rfl (fun hr => hr) (fun _ _ => ?_)
      (fun _ e => ?_) fun e => ?_
    · exact ⟨_, rfl, .inl rfl⟩
    · cases e
    · cases e
  · rw [← hc, ← hs] at hp
    have hdesk : (s.step calls n).desk = s.desk := System.step_desk hp
    refine h.still hp hopen h.keeps le_rfl (fun hr => hr) ?_ (fun _ e => ?_) fun e => ?_
    · exact ⟨id, ⟨target, comments, hc⟩, hl, hread, hkept, hdesk ▸ h.ready_of_has hhas⟩
    · cases e
    · cases e

theorem step_conclude (h : Sound calls s ts) {target : Loan.Status}
    {comments : Option Text.Torn} {copy : Loan} (hc : calls n = .review id target comments)
    (hs : s.stage n = .reviewing copy) : ∃ ts', Sound calls (s.step calls n) ts' := by
  have hopen : s.stage n ≠ .deleted true := by
    rw [hs]
    intro e
    cases e
  have ht := h.tells n
  rw [hs] at ht
  obtain ⟨id', ⟨target', comments', hcall⟩, hfiled, hread, hkept, hready⟩ := ht
  obtain ⟨rfl, rfl, rfl⟩ := Call.review.inj (hc.symm.trans hcall)
  obtain ⟨x, d, hx, hp⟩ :=
    next_review_reviewing h.keeps hfiled hread target comments
  rw [← hc, ← hs] at hp
  cases hx with
  | @refused r st hends hkeeps hsame =>
    obtain rfl := hsame hready
    refine ⟨ts, h.still hp hopen hkeeps le_rfl (fun hr => hr) (fun _ _ => ?_) (fun _ e => ?_)
      fun e => ?_⟩
    · exact ⟨r, rfl, hends⟩
    · cases e
    · cases e
  | @reviewed sheet st current hg hpending hfinal hsheet hfollows hkeeps =>
    have hdesk : (s.step calls n).desk = { s.desk with storage := st } := System.step_desk hp
    have hid := (h.keeps.loan_of_get? hg).1
    refine ⟨_, h.move hp hkeeps (.inr hfollows.ready) ⟨?_, ?_, fun _ => isGone_step hopen, ?_⟩ ?_
      (fun _ _ id' hr j => ?_) fun e => ?_⟩
    · rw [hdesk]
    · rw [hdesk]
      exact hfollows.keeps .loans
    · intro id' _
      rw [Function.update_self]
      by_cases he : id = id'
      · subst he
        exact .inr (.inr ⟨current, hg, hpending⟩)
      · exact .inl (Table.get?_put_of_ne (isExact_string id) (isExact_string id') he)
    · refine ⟨id, target, comments, hc, ?_,
        isWinner_of_eq hfiled hread hkept hfinal hsheet, .inl ?_⟩
      · rw [hdesk]
        exact hid
      · rw [Function.update_self, Table.get?_put_self (isExact_string id)]
    · obtain ⟨target', comments', hcall⟩ := hr
      obtain ⟨rfl, -, -⟩ := Call.review.inj (hc.symm.trans hcall)
      exact h.not_hasReviewed hg hpending
    · cases e

theorem step_delete (h : Sound calls s ts) (hc : calls n = .delete id)
    (hs : s.stage n = .waiting) : Sound calls (s.step calls n) ts := by
  have hopen : s.stage n ≠ .deleted true := by
    rw [hs]
    intro e
    cases e
  have hp := next_delete_waiting h.keeps id
  rw [← hc, ← hs] at hp
  cases hhas : (ts .loans).has id with
  | true =>
    rw [hhas] at hp
    refine h.still hp hopen h.keeps le_rfl (fun hr => hr) ⟨id, hc⟩ (fun _ e => ?_) fun e => ?_ <;>
      cases e
  | false =>
    rw [hhas] at hp
    refine h.still hp hopen h.keeps le_rfl (fun hr => hr) ?_ (fun _ e => ?_) fun e => ?_
    · rintro id' ⟨target, comments, hcall⟩
      rw [hc] at hcall
      cases hcall
    · cases e
    · cases e

theorem step_remove (h : Sound calls s ts) (hc : calls n = .delete id)
    (hs : s.stage n = .deleting) : ∃ ts', Sound calls (s.step calls n) ts' := by
  have hopen : s.stage n ≠ .deleted true := by
    rw [hs]
    intro e
    cases e
  obtain ⟨st, hp, hkeeps, hfollows⟩ := next_delete_deleting h.keeps id
  rw [← hc, ← hs] at hp
  have hdesk : (s.step calls n).desk = { s.desk with storage := st } := System.step_desk hp
  have hstage : (s.step calls n).stage n = .deleted ((ts .loans).has id) := System.step_stage hp
  have hget : ∀ id', (Function.update ts .loans ((ts .loans).erase id) .loans).get? id' =
      if Alike.alike id id' then none else (ts .loans).get? id' := by
    intro id'
    rw [Function.update_self, Table.get?_erase (isExact_string id) (isExact_string id')]
  refine ⟨_, h.move hp hkeeps (.inr hfollows.ready) ⟨?_, ?_, fun _ => isGone_step hopen, ?_⟩ ?_
    (fun _ e => ?_) fun e id' hc' j hj => ?_⟩
  · rw [hdesk]
  · rw [hdesk]
    exact hfollows.keeps .loans
  · intro id' _
    rw [hget]
    by_cases he : id = id'
    · subst he
      rw [if_pos ((isExact_string id id).mpr rfl)]
      cases hg : (ts .loans).get? id with
      | none => exact .inl rfl
      | some fs =>
        refine .inr (.inl ⟨rfl, n, hc, ?_⟩)
        rw [hstage, Table.has_eq, hg]
        rfl
    · left
      rw [if_neg fun c => he ((isExact_string id' id).mp c)]
  · refine ⟨id, hc, fun hhas => ⟨?_, ?_⟩⟩
    · rw [Table.has_eq] at hhas
      obtain ⟨fs, hg⟩ := Option.isSome_iff_exists.mp hhas
      rw [hdesk]
      exact (h.keeps.loan_of_get? hg).1
    · rw [hget, if_pos ((isExact_string id id).mpr rfl)]
  · cases e
  · obtain rfl := Call.delete.inj (hc.symm.trans hc')
    have hhas : (ts .loans).has id = true := Stage.deleted.inj e
    rw [Table.has_eq, h.get?_of_hasDeleted hj] at hhas
    cases hhas

/-- Every step of every call keeps the invariant `Sound`. -/
theorem step (h : Sound calls s ts) (n : ℕ) : ∃ ts', Sound calls (s.step calls n) ts' := by
  have hrest : s.desk.perform ((calls n).next (s.stage n)) = (.ok (s.stage n), s.desk) →
      ∃ ts', Sound calls (s.step calls n) ts' := fun hp => ⟨ts, (step_rest hp).symm ▸ h⟩
  cases hc : calls n with
  | create owner amount rate term =>
    cases hs : s.stage n with
    | waiting => exact h.step_create hc hs
    | _ => exact hrest (by rw [hc, hs]; rfl)
  | review id target comments =>
    cases hs : s.stage n with
    | waiting => exact ⟨ts, h.step_review hc hs⟩
    | reviewing copy => exact h.step_conclude hc hs
    | _ => exact hrest (by rw [hc, hs]; rfl)
  | delete id =>
    cases hs : s.stage n with
    | waiting => exact ⟨ts, h.step_delete hc hs⟩
    | deleting => exact h.step_remove hc hs
    | _ => exact hrest (by rw [hc, hs]; rfl)

end Sound

/-! ### Whole runs -/

theorem sound_opening (calls : ℕ → Call) (kind : Storage.Kind) (terms : Terms) (clock : Stamp) :
    Sound calls (.opening kind terms clock) fun _ => [] := by
  refine ⟨keeps_opening kind terms clock, .inl rfl, fun n => trivial, ?_, ?_⟩
  · rintro i j id ⟨-, sheet, hs⟩
    cases hs
  · rintro i j id ⟨-, hs⟩
    cases hs

/-- Every event keeps `Sound`. -/
theorem Sound.after (h : Sound calls s ts) (e : Event) :
    ∃ ts', Sound calls (s.after calls e) ts' := by
  cases e with
  | step n => exact h.step n
  | tick clock =>
    have hk : Keeps readable { s.desk with clock } ts := h.keeps.of_same rfl rfl le_rfl
    exact ⟨ts, h.of_desk hk le_rfl (fun hr => hr) rfl⟩
  | enlist r =>
    obtain ⟨x, d, hp, -, st, rfl, hput⟩ := (h.keeps.addUser r.filed trivial).elim
    have ha : s.after calls (.enlist r) = { s with desk := { s.desk with storage := st } } :=
      congrArg (fun x => System.mk x.2 s.stage) hp
    rw [ha]
    rcases hput with rfl | ⟨hfollows, hk⟩
    · exact ⟨ts, h⟩
    · exact ⟨_, h.of_desk hk le_rfl (hfollows.keeps .loans) (Function.update_of_ne (by decide) ..)⟩
  | register name email password =>
    obtain ⟨he, -⟩ := h.keeps.register name email password
    cases he with
    | none hsame hi hk => exact ⟨ts, h.of_desk hk hi (fun hr => hsame ▸ hr) rfl⟩
    | enrolled _ _ hfollows hi hk =>
      exact ⟨_, h.of_desk hk hi.le (hfollows.keeps .loans) (Function.update_of_ne (by decide) ..)⟩
  | dismiss id =>
    obtain ⟨st, hp, hk, hfollows⟩ := h.keeps.removeUser id
    have ha : s.after calls (.dismiss id) = { s with desk := { s.desk with storage := st } } :=
      congrArg (fun x => System.mk x.2 s.stage) hp
    rw [ha]
    exact ⟨_, h.of_desk hk le_rfl (hfollows.keeps .loans) (Function.update_of_ne (by decide) ..)⟩

/-- `Sound` holds after any events in any order. -/
theorem sound_run (h : Sound calls s ts) (events : List Event) :
    ∃ ts', Sound calls (s.run calls events) ts' := by
  induction events generalizing s ts with
  | nil => exact ⟨ts, h⟩
  | cons e events ih =>
    obtain ⟨ts', h'⟩ := h.after e
    exact ih h'

theorem Sound.load (h : Sound calls s ts) (id : String) :
    s.desk.storage.load LoanBook.table (.text id) = .ok (((ts .loans).get? id).map .record) :=
  h.keeps.shows.load .loans id

/-- What one step of a review may do: it reads a copy; it meets a refusal, and the desk is as it
was; it writes the copy over a loan that is pending, and returns; or it is over, and nothing
happens. -/
inductive Outcome (s s' : System) (id : String) (target : Loan.Status)
    (comments : Option Text.Torn) : Stage → Stage → Prop
  | reads {copy : Loan} : s'.desk = s.desk →
      Outcome s s' id target comments .waiting (.reviewing copy)
  | missing : s'.desk = s.desk → Outcome s s' id target comments .waiting
      (.failed (.refused (.missing "loan" (.text id))))
  | refused {copy : Loan} {r : Refusal} : r.EndsReview → s'.desk = s.desk →
      Outcome s s' id target comments (.reviewing copy) (.failed (.refused r))
  | returns {copy l : Loan} {sheet : Loan.Sheet} :
      s.desk.storage.load LoanBook.table (.text id) = .ok (some (Value.record l.record).stored) →
      l.status = .pending →
      sheet.loan = copy.reviewedAs target (commentsOf comments) s.desk.clock →
      LoanBook.get? s'.desk.storage (.text id) = .ok (some sheet.loan.kept) →
      (AreParted comments → s.desk.clock.HasLastingOffset →
        LoanBook.get? s'.desk.storage (.text id) = .ok (some sheet.loan)) →
      Outcome s s' id target comments (.reviewing copy) (.reviewed sheet)
  | ended {stage : Stage} : (∃ sheet, stage = .reviewed sheet) ∨
      (∃ r : Refusal, stage = .failed (.refused r) ∧ r.EndsReview) → s' = s →
      Outcome s s' id target comments stage stage

namespace Sound

variable {target : Loan.Status} {comments : Option Text.Torn}

theorem outcome_waiting (h : Sound calls s ts) (hc : calls n = .review id target comments)
    (hs : s.stage n = .waiting) :
    Outcome s (s.step calls n) id target comments .waiting ((s.step calls n).stage n) := by
  rcases next_review_waiting h.keeps id target comments with ⟨-, hp⟩ | ⟨l, -, -, -, -, hp⟩
  · rw [← hc, ← hs] at hp
    rw [System.step_stage hp]
    exact .missing (System.step_desk hp)
  · rw [← hc, ← hs] at hp
    rw [System.step_stage hp]
    exact .reads (System.step_desk hp)

theorem outcome_reviewing (h : Sound calls s ts) {copy : Loan}
    (hc : calls n = .review id target comments) (hs : s.stage n = .reviewing copy) :
    Outcome s (s.step calls n) id target comments (.reviewing copy)
      ((s.step calls n).stage n) := by
  have ht := h.tells n
  rw [hs] at ht
  obtain ⟨id', ⟨target', comments', hcall⟩, hfiled, hread, hkept, hready⟩ := ht
  obtain ⟨rfl, rfl, rfl⟩ := Call.review.inj (hc.symm.trans hcall)
  obtain ⟨x, d, hx, hp⟩ := next_review_reviewing h.keeps hfiled hread target comments
  rw [← hc, ← hs] at hp
  have hdesk := System.step_desk hp
  rw [System.step_stage hp]
  cases hx with
  | @refused r st hends _ hsame =>
    obtain rfl := hsame hready
    exact .refused hends hdesk
  | @reviewed sheet st current hg hpending hfinal hsheet _ hkeeps =>
    have hwinner := isWinner_of_eq hfiled hread hkept hfinal hsheet
    have hput := Table.get?_put_self (t := ts .loans) (a := sheet.loan.document) (isExact_string id)
    have hfound : LoanBook.get? (s.step calls n).desk.storage (.text id) =
        .ok (some sheet.loan.kept) := by
      rw [hdesk]
      exact loanBook_get?_of_document hkeeps hwinner.filed hwinner.readable
        (by rw [Function.update_self]; exact hput)
    refine .returns (l := current) ?_ hpending hsheet hfound fun hcomments hclock => ?_
    · rw [h.load, hg]
      rfl
    · have hdate : ∀ t ∈ sheet.loan.reviewed, t.HasLastingOffset := by
        rw [hsheet]
        rintro t ⟨⟩
        exact hclock
      rw [hfound, hwinner.kept hcomments hdate]

/-- A call that has come to its end stays there. -/
theorem outcome_over (hp : s.desk.perform ((calls n).next (s.stage n)) = (.ok (s.stage n), s.desk))
    (hover : (∃ sheet, s.stage n = .reviewed sheet) ∨
      ∃ r : Refusal, s.stage n = .failed (.refused r) ∧ r.EndsReview) :
    Outcome s (s.step calls n) id target comments (s.stage n) ((s.step calls n).stage n) := by
  rw [step_rest hp]
  exact .ended hover rfl

/-- A review that has failed was refused. -/
theorem refused_of_failed (h : Sound calls s ts) (hc : calls n = .review id target comments)
    {f : Fault} (hs : s.stage n = .failed f) : ∃ r, f = .refused r ∧ r.EndsReview := by
  have ht := h.tells n
  rw [hs] at ht
  exact ht id ⟨target, comments, hc⟩

/-- A review is at none of the stages of other calls. -/
theorem not_elsewhere (h : Sound calls s ts) (hc : calls n = .review id target comments) :
    s.stage n ≠ .deleting ∧ (∀ sheet, s.stage n ≠ .created sheet) ∧
      ∀ there, s.stage n ≠ .deleted there := by
  have ht := h.tells n
  refine ⟨fun hs => ?_, fun sheet hs => ?_, fun there hs => ?_⟩
  · rw [hs] at ht
    obtain ⟨id', hcall⟩ := ht
    cases hc.symm.trans hcall
  · rw [hs] at ht
    obtain ⟨owner, amount, rate, term, hcall⟩ := ht
    cases hc.symm.trans hcall
  · rw [hs] at ht
    obtain ⟨id', hcall, -⟩ := ht
    cases hc.symm.trans hcall

theorem outcome (h : Sound calls s ts) (hc : calls n = .review id target comments) :
    Outcome s (s.step calls n) id target comments (s.stage n) ((s.step calls n).stage n) := by
  obtain ⟨hdeleting, hcreated, hdeleted⟩ := h.not_elsewhere hc
  cases hs : s.stage n with
  | waiting => exact h.outcome_waiting hc hs
  | reviewing copy => exact h.outcome_reviewing hc hs
  | reviewed sheet =>
    exact hs ▸ outcome_over (by rw [hc, hs]; rfl) (.inl ⟨sheet, hs⟩)
  | failed f =>
    obtain ⟨r, rfl, hends⟩ := h.refused_of_failed hc hs
    exact hs ▸ outcome_over (by rw [hc, hs]; rfl) (.inr ⟨r, hs, hends⟩)
  | deleting => exact absurd hs hdeleting
  | created sheet => exact absurd hs (hcreated sheet)
  | deleted there => exact absurd hs (hdeleted there)

end Sound

/-- The copy of the review that has returned is stored and read as documents keep it (`Loan.kept`),
until the loan is deleted. -/
theorem Sound.winner (h : Sound calls s ts) {target : Loan.Status} {comments : Option Text.Torn}
    {sheet : Loan.Sheet} (hc : calls n = .review id target comments)
    (hs : s.stage n = .reviewed sheet) :
    IsWinner id target comments sheet ∧ (¬ s.IsGone calls id →
      s.desk.storage.load LoanBook.table (.text id) =
        .ok (some (Value.record sheet.loan.record).stored) ∧
      LoanBook.get? s.desk.storage (.text id) = .ok (some sheet.loan.kept)) := by
  have ht := h.tells n
  rw [hs] at ht
  obtain ⟨id', target', comments', hcall, -, hwinner, hstored⟩ := ht
  obtain ⟨rfl, rfl, rfl⟩ := Call.review.inj (hc.symm.trans hcall)
  refine ⟨hwinner, fun hgone => ?_⟩
  have hdoc := hstored.resolve_right fun hg => hgone hg.2
  refine ⟨?_, loanBook_get?_of_document h.keeps hwinner.filed hwinner.readable hdoc⟩
  rw [h.load, hdoc]
  rfl

/-- The reviews and deletions of each loan are as they should be. -/
structure ReviewsOnce (calls : ℕ → Call) (s : System) : Prop where
  /-- At most one review of a loan has returned. -/
  oneReview : ∀ i j id, s.HasReviewed calls i id → s.HasReviewed calls j id → i = j
  /-- At most one deletion of a loan has succeeded. -/
  oneDelete : ∀ i j id, s.HasDeleted calls i id → s.HasDeleted calls j id → i = j
  /-- The copy of the review that has returned is what is stored and read, until the loan is
  deleted. It is read as documents keep it (`Loan.kept`), and so as it is, unless halves stand
  together in the comments or the date has an offset of less than a second. -/
  winner : ∀ n id target comments sheet, calls n = .review id target comments →
    s.stage n = .reviewed sheet → IsWinner id target comments sheet ∧ (¬ s.IsGone calls id →
      s.desk.storage.load LoanBook.table (.text id) =
        .ok (some (Value.record sheet.loan.record).stored) ∧
      LoanBook.get? s.desk.storage (.text id) = .ok (some sheet.loan.kept) ∧
      (AreParted comments → (∀ t ∈ sheet.loan.reviewed, t.HasLastingOffset) →
        LoanBook.get? s.desk.storage (.text id) = .ok (some sheet.loan)))
  /-- Nothing is stored from the deletion on. -/
  gone : ∀ id, s.IsGone calls id → s.desk.storage.load LoanBook.table (.text id) = .ok none
  /-- A review that does not return is refused, and none of its steps has changed the desk. -/
  outcome : ∀ n id target comments, calls n = .review id target comments →
    Outcome s (s.step calls n) id target comments (s.stage n) ((s.step calls n).stage n)

/-- Whatever any number of callers do at one desk, on either kind of store and in any order of their
steps, each loan is reviewed once at most: every run ends in a system that `ReviewsOnce`. -/
theorem reviewed_at_most_once (kind : Storage.Kind) (terms : Terms) (clock : Stamp)
    (calls : ℕ → Call) (events : List Event) :
    ReviewsOnce calls ((System.opening kind terms clock).run calls events) := by
  obtain ⟨ts, h⟩ := sound_run (sound_opening calls kind terms clock) events
  refine ⟨h.oneReview, h.oneDelete, ?_, ?_, fun n id target comments hc => h.outcome hc⟩
  · intro n id target comments sheet hcall hstage
    obtain ⟨hwinner, hstored⟩ := h.winner hcall hstage
    refine ⟨hwinner, fun hgone => ?_⟩
    obtain ⟨hload, hfound⟩ := hstored hgone
    refine ⟨hload, hfound, fun hcomments hdate => ?_⟩
    rw [hfound, hwinner.kept hcomments hdate]
  · rintro id ⟨n, hd⟩
    rw [h.load, h.get?_of_hasDeleted hd]
    rfl

/-! ### Two reviewers -/

/-- The date of the review from which a call has returned. -/
def Stage.date? : Stage → Option Stamp
  | .reviewed sheet => sheet.loan.reviewed
  | _ => none

/-- The call has failed. -/
def Stage.isFailed : Stage → Bool
  | .failed _ => true
  | _ => false

theorem exists_reviewed {at_ : Stamp} (h : stage.date? = some at_) :
    ∃ sheet, stage = .reviewed sheet ∧ sheet.loan.reviewed = some at_ := by
  cases stage with
  | reviewed sheet => exact ⟨sheet, rfl, h⟩
  | _ => cases h

theorem exists_failed (h : stage.isFailed = true) : ∃ f, stage = .failed f := by
  cases stage with
  | failed f => exact ⟨f, rfl⟩
  | _ => cases h

/-- A review that has failed was refused. -/
theorem Outcome.refused_of_failed {target : Loan.Status} {comments : Option Text.Torn} {f : Fault}
    (h : Outcome s s' id target comments (.failed f) stage) :
    ∃ r, f = .refused r ∧ r.EndsReview := by
  cases h with
  | ended hover _ =>
    obtain ⟨sheet, hs⟩ | ⟨r, hs, hends⟩ := hover
    · cases hs
    · exact ⟨r, Stage.failed.inj hs, hends⟩

/-- A caller who asks for a loan, and two who review it, one of them with comments. -/
def rivals (comments : Text.Torn) : ℕ → Call
  | 1 => .review "id-1" .approved (some comments)
  | 2 => .review "id-1" .rejected none
  | _ => .create "ann" ⟨Decimal.ofNat 1000, by decide⟩ ⟨Decimal.ofNat 5, by decide⟩ 12

theorem not_isGone_rivals (comments : Text.Torn) (s : System) (id : String) :
    ¬ s.IsGone (rivals comments) id := by
  rintro ⟨n, hcall, -⟩
  match n with
  | 0 | 1 | 2 => cases hcall
  | n + 3 => cases hcall

/-- Both reviewers have read the loan before one of them, and then the other, concludes. -/
def race (comments : Text.Torn) (clock : Stamp) : System :=
  (System.opening .memory visitedTerms clock).run (rivals comments)
    [.enlist visitor, .step 0, .step 1, .step 2, .step 1, .step 2]

/-- The one who concludes first has reviewed the loan, the other one is refused, and what is read is
the winner's copy. -/
theorem reviewed_at_most_once_race :
    ∃ sheet r, (race [.char 'o', .char 'k'] .epoch).stage 1 = .reviewed sheet ∧
      (race [.char 'o', .char 'k'] .epoch).stage 2 = .failed (.refused r) ∧ r.EndsReview ∧
      sheet.loan.status = .approved ∧
      LoanBook.get? (race [.char 'o', .char 'k'] .epoch).desk.storage (.text "id-1") =
        .ok (some sheet.loan) := by
  have honce : ReviewsOnce _ (race [.char 'o', .char 'k'] .epoch) :=
    reviewed_at_most_once .memory visitedTerms .epoch _ _
  obtain ⟨sheet, hsheet, hdate⟩ := exists_reviewed
    (show ((race [.char 'o', .char 'k'] .epoch).stage 1).date? = some .epoch by decide +kernel)
  obtain ⟨f, hf⟩ := exists_failed
    (show ((race [.char 'o', .char 'k'] .epoch).stage 2).isFailed = true by decide +kernel)
  obtain ⟨hwinner, hstored⟩ := honce.winner 1 "id-1" _ _ sheet rfl hsheet
  have hparted : AreParted (some [.char 'o', .char 'k']) := by
    rintro t ⟨⟩
    trivial
  have hlasting : ∀ t ∈ sheet.loan.reviewed, t.HasLastingOffset := by
    rw [hdate]
    rintro t ⟨⟩
    exact Store.epoch_hasWholeOffset.hasLastingOffset
  have hover := honce.outcome 2 "id-1" _ _ rfl
  rw [hf] at hover
  obtain ⟨r, rfl, hends⟩ := hover.refused_of_failed
  exact ⟨sheet, r, hsheet, hf, hends, hwinner.status,
    (hstored (not_isGone_rivals _ _ _)).2.2 hparted hlasting⟩

/-- What is read after a review is not the winner's copy, if halves stand together in the comments
or the clock is half a second off universal time. -/
theorem winner_read_otherwise :
    (∃ sheet l, (race splitPair .epoch).stage 1 = .reviewed sheet ∧
      sheet.loan.comments = .torn splitPair ∧
      LoanBook.get? (race splitPair .epoch).desk.storage (.text "id-1") = .ok (some l) ∧
      l.comments = .text "😀") ∧
    ∃ sheet l, (race [] tiltedStamp).stage 1 = .reviewed sheet ∧
      sheet.loan.reviewed = some tiltedStamp ∧
      LoanBook.get? (race [] tiltedStamp).desk.storage (.text "id-1") = .ok (some l) ∧
      l.reviewed = some .epoch := by
  have hread : ∀ comments clock sheet, (race comments clock).stage 1 = .reviewed sheet →
      IsWinner "id-1" .approved (some comments) sheet ∧
        LoanBook.get? (race comments clock).desk.storage (.text "id-1") =
          .ok (some sheet.loan.kept) := by
    intro comments clock sheet hsheet
    obtain ⟨ts, h⟩ := sound_run (sound_opening (rivals comments) .memory visitedTerms clock)
      [.enlist visitor, .step 0, .step 1, .step 2, .step 1, .step 2]
    obtain ⟨hwinner, hstored⟩ := Sound.winner (n := 1) h rfl hsheet
    exact ⟨hwinner, (hstored (not_isGone_rivals _ _ _)).2⟩
  refine ⟨?_, ?_⟩
  · obtain ⟨sheet, hsheet, -⟩ := exists_reviewed
      (show ((race splitPair .epoch).stage 1).date? = some .epoch by decide +kernel)
    obtain ⟨hwinner, hget⟩ := hread _ _ sheet hsheet
    have hcomments : sheet.loan.comments = .torn splitPair := hwinner.remarks
    refine ⟨sheet, _, hsheet, hcomments, hget, ?_⟩
    change sheet.loan.comments.stored = _
    rw [hcomments, stored_splitPair]
  · obtain ⟨sheet, hsheet, hdate⟩ := exists_reviewed
      (show ((race [] tiltedStamp).stage 1).date? = some tiltedStamp by decide +kernel)
    obtain ⟨-, hget⟩ := hread _ _ sheet hsheet
    refine ⟨sheet, _, hsheet, hdate, hget, ?_⟩
    change sheet.loan.reviewed.map Stamp.settled = _
    rw [hdate]
    rfl

end Review
end LoanDesk
