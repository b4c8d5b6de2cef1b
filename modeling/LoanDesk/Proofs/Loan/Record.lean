import LoanDesk.Loan.Book
import LoanDesk.Proofs.Decimal.Text
import LoanDesk.Proofs.Desk.Work
import LoanDesk.Proofs.Json.Printable
import LoanDesk.Proofs.Store.Filters
import LoanDesk.Proofs.Time.Iso

/-
# Loans on file

What a store keeps of a loan is its document. A loan that is written has texts for its ids
and perhaps a text for comments, so its document can be printed; reading the document gives
the loan back, its stamps settled and its texts as documents keep them, if its numbers can
be read at all. A loan on file is one whose ids are texts without halves (`Loan.Filed`).

Key definitions: `Loan.document`, `Loan.IsWritten`, `Loan.Filed`, `Loan.IsReadable`,
`Loan.kept`.
Key theorems: `Loan.IsWritten.printable`, `Loan.IsWritten.ofRecord_document`,
`Loan.Filed.read`, `Loan.IsReadable.ofRecord_document`.
-/

namespace LoanDesk

/-- The value is a text, perhaps a torn one. -/
def Value.IsText : Value → Prop
  | .text _ | .torn _ => True
  | _ => False

namespace Value.IsText

variable {v : Value}

theorem printable (h : v.IsText) : Json.Printable v := by
  cases v <;> trivial

theorem depth (h : v.IsText) : Json.depth v = 0 := by
  cases v <;> first | rfl | exact h.elim

theorem recorded (h : v.IsText) : v.recorded = v := by
  cases v <;> first | rfl | exact h.elim

theorem ofSigns (t : Text.Torn) : (Value.ofSigns t).IsText := by
  unfold Value.ofSigns
  cases t.whole? <;> trivial

theorem stored (h : v.IsText) : v.stored.IsText := by
  cases v with
  | text s => trivial
  | torn t => exact ofSigns t.joined
  | _ => exact h.elim

end Value.IsText

namespace Loan

/-- What a store keeps of a loan. -/
def document (l : Loan) : Fields :=
  Value.storedFields l.record

/-- A loan that can be written: its ids are any texts, its months are not too long, and its comments
are nothing or a text. -/
structure IsWritten (l : Loan) : Prop where
  id : l.id.IsText
  owner : l.owner.IsText
  months : l.months.natAbs < 10 ^ Value.integerRoom
  comments : l.comments = .null ∨ l.comments.IsText

/-- A loan on file under an id, which can be written and whose ids are texts of characters. The desk
gives out no other ids (`Desk.freshId`), and a database takes no others for a key. -/
structure Filed (id : String) (l : Loan) : Prop where
  id : l.id = .text id
  owner : ∃ s, l.owner = .text s
  months : l.months.natAbs < 10 ^ Value.integerRoom
  comments : l.comments = .null ∨ l.comments.IsText

/-- The id of the owner is a text without a zero character. -/
def HasPlainOwner (l : Loan) : Prop :=
  ∀ s, l.owner = .text s → Store.upToZero s = s

/-- The numbers of the loan can be read from their texts. -/
structure IsReadable (l : Loan) : Prop where
  amount : l.amount.isWithinReach = true
  rate : l.rate.isWithinReach = true
  payment : l.payment.isWithinReach = true

/-- The loan as it is read from its document. -/
def kept (l : Loan) : Loan :=
  { l with
    created := l.created.settled
    updated := l.updated.settled
    requested := l.requested.settled
    reviewed := l.reviewed.map Stamp.settled
    comments := l.comments.stored }

variable {id : String} {l l' : Loan}

theorem get?_status (l : Loan) : Fields.get? l.document "status" = some (.text l.status.word) :=
  rfl

theorem toStatus_word (s : Status) : (Value.text s.word).toStatus = .ok s := by
  cases s <;> rfl

theorem word_injective {s t : Status} (h : s.word = t.word) : s = t := by
  have hs := toStatus_word s
  rw [h, toStatus_word t] at hs
  exact (Except.ok.inj hs).symm

/-- The status of a loan can be told from its document. -/
theorem status_of_document_eq {l l' : Loan} (h : l.document = l'.document) :
    l.status = l'.status := by
  have hw := l.get?_status
  rw [h, l'.get?_status] at hw
  exact word_injective (Value.text.inj (Option.some.inj hw)).symm

theorem upToZero_word (s : Status) : Store.upToZero s.word = s.word := by
  cases s <;> rfl

theorem isFlat_status (l : Loan) {v : Value} (h : Fields.get? l.document "status" = some v) :
    Store.IsFlat v := by
  rw [l.get?_status] at h
  obtain rfl := Option.some.inj h
  exact upToZero_word l.status

/-- A document has the word of a status if its loan has the status. -/
theorem hasText_status (l : Loan) (s : Status) :
    Store.hasText l.document "status" s.word = decide (l.status = s) := by
  rw [Bool.eq_iff_iff, Store.hasText_iff, l.get?_status, decide_eq_true_eq, Option.some.injEq,
    Value.text.injEq]
  exact ⟨word_injective, fun e => e ▸ rfl⟩

theorem toStamp_iso (t : Stamp) : (Value.text t.iso).toStamp = .ok t.settled := by
  rw [Value.toStamp, Stamp.ofIso_iso]

theorem iso_ne_empty (t : Stamp) : t.iso ≠ "" := by
  intro h
  have hr := t.ofIso_iso
  rw [h] at hr
  cases hr

theorem stampOrNone_stampValue (t : Option Stamp) :
    stampOrNone (stampValue t).stored = .ok (t.map Stamp.settled) := by
  cases t with
  | none => rfl
  | some t =>
    have ht : (Value.text t.iso).truthy = true := bne_iff_ne.mpr (iso_ne_empty t)
    change stampOrNone (.text t.iso) = _
    unfold stampOrNone
    rw [if_pos ht, toStamp_iso]
    rfl

/-- A loan whose stamps are settled and whose comments stay is read as it is. -/
theorem kept_eq_self (hcreated : l.created.settled = l.created)
    (hupdated : l.updated.settled = l.updated) (hrequested : l.requested.settled = l.requested)
    (hreviewed : l.reviewed.map Stamp.settled = l.reviewed)
    (hcomments : l.comments.stored = l.comments) : l.kept = l := by
  unfold kept
  rw [hcreated, hupdated, hrequested, hreviewed, hcomments]

namespace IsWritten

theorem comments_recorded (h : l.IsWritten) : l.comments.recorded = l.comments := by
  rcases h.comments with hc | hc
  · rw [hc]
    rfl
  · exact hc.recorded

theorem printable (h : l.IsWritten) : Json.Printable (.record l.record) := by
  have hcomments : Json.Printable l.comments := by
    rcases h.comments with hc | hc
    · rw [hc]
      trivial
    · exact hc.printable
  have hreviewed : Json.Printable (stampValue l.reviewed) := by
    cases l.reviewed <;> trivial
  refine ⟨?_, ?_⟩
  · change ["id", "created_at", "updated_at", "owner_id", "amount", "interest_rate",
      "term_in_months", "monthly_payment", "status", "request_date", "review_date",
      "admin_comments"].Nodup
    decide
  · unfold record
    rw [h.id.recorded, h.owner.recorded, h.comments_recorded]
    exact ⟨h.id.printable, trivial, trivial, h.owner.printable, trivial, trivial, h.months,
      trivial, trivial, trivial, hreviewed, hcomments, trivial⟩

theorem isFinite (h : l.IsWritten) : (Value.record l.document).isFinite = true :=
  h.printable.stored.isFinite

/-- Reading a document may fail at its numbers only. -/
theorem ofRecord_document (h : l.IsWritten) : ofRecord (.record l.document) = do
    let amount ← (Value.text l.amount.text).toDecimal
    let rate ← (Value.text l.rate.text).toDecimal
    let payment ← (Value.text l.payment.text).toDecimal
    return { l.kept with
      id := l.id.stored, owner := l.owner.stored, amount, rate, payment } := by
  have hid : Value.field l.document "id" = .ok l.id.stored :=
    congrArg (fun v => Except.ok (Value.stored v)) h.id.recorded
  have howner : Value.field l.document "owner_id" = .ok l.owner.stored :=
    congrArg (fun v => Except.ok (Value.stored v)) h.owner.recorded
  have hcomments : Fields.get l.document "admin_comments" = l.comments.stored := by
    change Value.stored l.comments.recorded = _
    rw [h.comments_recorded]
  have hcreated : Value.field l.document "created_at" = .ok (.text l.created.iso) := rfl
  have hupdated : Value.field l.document "updated_at" = .ok (.text l.updated.iso) := rfl
  have hamount : Value.field l.document "amount" = .ok (.text l.amount.text) := rfl
  have hrate : Value.field l.document "interest_rate" = .ok (.text l.rate.text) := rfl
  have hmonths : Value.field l.document "term_in_months" = .ok (.int l.months) := rfl
  have hpayment : Value.field l.document "monthly_payment" = .ok (.text l.payment.text) := rfl
  have hstatus : Value.field l.document "status" = .ok (.text l.status.word) := rfl
  have hrequested : Value.field l.document "request_date" = .ok (.text l.requested.iso) := rfl
  have hreviewed : Fields.get l.document "review_date" = (stampValue l.reviewed).stored := rfl
  have hread : (Value.int l.months).toInteger = .ok l.months := rfl
  unfold ofRecord
  simp only [fieldsOf, hid, howner, hcomments, hcreated, hupdated, hamount, hrate, hmonths,
    hpayment, hstatus, hrequested, hreviewed, hread, toStamp_iso, toStatus_word,
    stampOrNone_stampValue, bind, Except.bind]
  cases (Value.text l.amount.text).toDecimal with
  | error f => rfl
  | ok amount =>
    cases (Value.text l.rate.text).toDecimal with
    | error f => rfl
    | ok rate =>
      cases (Value.text l.payment.text).toDecimal <;> rfl

end IsWritten

namespace Filed

theorem isWritten (h : l.Filed id) : l.IsWritten := by
  obtain ⟨n, hn⟩ := h.owner
  refine ⟨?_, ?_, h.months, h.comments⟩
  · rw [h.id]
    trivial
  · rw [hn]
    trivial

theorem get?_owner (h : l.Filed id) : Fields.get? l.document "owner_id" = some l.owner := by
  obtain ⟨n, hn⟩ := h.owner
  rw [hn]
  change some (Value.stored (Value.recorded l.owner)) = _
  rw [hn]
  rfl

theorem printable (h : l.Filed id) : Json.Printable (.record l.record) :=
  h.isWritten.printable

theorem isWritable (h : l.Filed id) : (Value.record l.record).isWritable = true :=
  h.printable.isWritable

theorem isFinite (h : l.Filed id) : (Value.record l.document).isFinite = true :=
  h.isWritten.isFinite

/-- The ids of a loan on file are read as they are. -/
theorem ofRecord_document (h : l.Filed id) : ofRecord (.record l.document) = do
    let amount ← (Value.text l.amount.text).toDecimal
    let rate ← (Value.text l.rate.text).toDecimal
    let payment ← (Value.text l.payment.text).toDecimal
    return { l.kept with amount, rate, payment } := by
  obtain ⟨n, hn⟩ := h.owner
  have hid : l.id.stored = l.kept.id := congrArg Value.stored h.id |>.trans h.id.symm
  have howner : l.owner.stored = l.kept.owner := congrArg Value.stored hn |>.trans hn.symm
  rw [h.isWritten.ofRecord_document, hid, howner]

/-- What is read from a document on file is on file under the same id, with the same owner and
status. -/
theorem read (h : l.Filed id) (hr : ofRecord (.record l.document) = .ok l') :
    l'.Filed id ∧ l'.owner = l.owner ∧ l'.status = l.status := by
  rw [h.ofRecord_document] at hr
  obtain ⟨amount, -, hr⟩ := bind_eq_ok hr
  obtain ⟨rate, -, hr⟩ := bind_eq_ok hr
  obtain ⟨payment, -, hr⟩ := bind_eq_ok hr
  obtain rfl := Except.ok.inj hr
  refine ⟨⟨h.id, h.owner, h.months, ?_⟩, rfl, rfl⟩
  rcases h.comments with hc | hc
  · left
    change l.comments.stored = .null
    rw [hc]
    rfl
  · right
    exact hc.stored

/-- A review changes neither the id nor the owner. -/
theorem reviewedAs (h : l.Filed id) (target : Status) {comments : Value}
    (hc : comments = .null ∨ comments.IsText) (at_ : Stamp) :
    (l.reviewedAs target comments at_).Filed id :=
  ⟨h.id, h.owner, h.months, hc⟩

end Filed

theorem HasPlainOwner.isFlat (h : l.HasPlainOwner) (hl : l.Filed id) {v : Value}
    (hv : Fields.get? l.document "owner_id" = some v) : Store.IsFlat v := by
  obtain ⟨s, hs⟩ := hl.owner
  rw [hl.get?_owner, hs] at hv
  obtain rfl := Option.some.inj hv
  exact h s hs

namespace IsReadable

theorem toDecimal_text {x : Decimal.Extended} (h : x.isWithinReach = true) :
    (Value.text x.text).toDecimal = .ok x := by
  rw [Value.toDecimal, Decimal.Extended.ofText_text h]

theorem ofRecord_document (h : l.IsReadable) (hf : l.Filed id) :
    ofRecord (.record l.document) = .ok l.kept := by
  rw [hf.ofRecord_document, toDecimal_text h.amount, toDecimal_text h.rate,
    toDecimal_text h.payment]
  rfl

theorem kept (h : l.IsReadable) : l.kept.IsReadable :=
  ⟨h.amount, h.rate, h.payment⟩

theorem reviewedAs (h : l.IsReadable) (target : Status) (comments : Value) (at_ : Stamp) :
    (l.reviewedAs target comments at_).IsReadable :=
  ⟨h.amount, h.rate, h.payment⟩

end IsReadable
end Loan

/-- The loan that is found with a document is the one that is read from it. -/
theorem LoanBook.read?_document {x l : Loan}
    (h : LoanBook.read? (some (.record x.document)) = .ok (some l)) :
    Loan.ofRecord (.record x.document) = .ok l := by
  change (Loan.ofRecord (.record x.document)).map some = _ at h
  cases hr : Loan.ofRecord (.record x.document) with
  | error f =>
    rw [hr] at h
    cases h
  | ok m =>
    rw [hr] at h
    rw [Option.some.inj (Except.ok.inj h)]

end LoanDesk
