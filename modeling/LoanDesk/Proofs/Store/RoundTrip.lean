import LoanDesk.Proofs.Account.Record

/-
# Records come back as they were

A loan or a user goes through a store as a document: its numbers and stamps are spelled
out, the document is written as JSON, and what is read of it is put together again. Each
of these codecs gives back what it was given, to the sign of a zero and the payload of
what is not a number, but for three things: an integer of too many digits is not written
at all, two halves of a character that stand next to each other are read as the
character, and an offset of less than a second is read as none.

Key definitions: `Text.Torn.IsParted`, `Value.IsSound`, `Stamp.HasWholeOffset`,
`Loan.IsExact`, `User.IsExact`.
Key theorems: `Text.Torn.joined_of_isParted`, `Text.Torn.isParted_joined`,
`Loan.IsWritten.kept_kept`, `Loan.IsExact.ofRecord_document`,
`User.IsExact.ofRecord_document`, `Storage.Shows.carries`, `Store.records_round_trip`.
-/

namespace LoanDesk

/-! ### Texts -/

namespace Text.Torn

/-- No half stands directly before one that completes the character. -/
def IsParted : Torn → Prop
  | .half n _ :: .half m k :: rest => isPair n m = false ∧ IsParted (.half m k :: rest)
  | _ :: rest => IsParted rest
  | [] => True

/-- Where the signs are parted, `joined` has nothing to join. -/
theorem joined_of_isParted : ∀ {t : Torn}, t.IsParted → t.joined = t
  | [], _ => rfl
  | .char c :: rest, h => by simp only [joined, joined_of_isParted (t := rest) h]
  | [.half _ _], _ => rfl
  | .half n hn :: .char c :: rest, h => by simp only [joined, joined_of_isParted (t := rest) h]
  | .half n hn :: .half m hm :: rest, h => by
    rw [joined, h.1, if_neg Bool.false_ne_true, joined_of_isParted h.2]

/-- A half that comes first stays there, or is `joined` to a character. -/
theorem exists_joined_half (m : ℕ) (k : isHalf m = true) (rest : Torn) :
    ∃ t, joined (.half m k :: rest) = .half m k :: t ∨
      ∃ c, joined (.half m k :: rest) = .char c :: t := by
  cases rest with
  | nil => exact ⟨[], .inl rfl⟩
  | cons s rest =>
    cases s with
    | char c => exact ⟨joined (.char c :: rest), .inl rfl⟩
    | half n h =>
      rw [joined]
      split
      · exact ⟨joined rest, .inr ⟨_, rfl⟩⟩
      · exact ⟨_, .inl rfl⟩

/-- Where halves have been `joined`, nothing is left to join. -/
theorem isParted_joined (t : Torn) : t.joined.IsParted := by
  induction t using joined.induct with
  | case1 n h m k rest hpair ih =>
    rw [joined, if_pos hpair]
    exact ih
  | case2 n h m k rest hpair ih =>
    rw [joined, if_neg hpair]
    obtain ⟨t, ht | ⟨c, ht⟩⟩ := exists_joined_half m k rest
    · rw [ht] at ih ⊢
      exact ⟨Bool.eq_false_iff.mpr hpair, ih⟩
    · rw [ht] at ih ⊢
      exact ih
  | case3 s rest hnext ih =>
    rw [joined.eq_2 _ _ hnext]
    cases s with
    | char c => exact ih
    | half n h =>
      cases rest with
      | nil => trivial
      | cons s' rest =>
        cases s' with
        | char c => exact ih
        | half m k => exact absurd rfl (hnext n h m k rest rfl)
  | case4 => trivial

end Text.Torn

/-- The value is a text in its one spelling: of characters, or of signs among which is a half and
none completes another. -/
def Value.IsSound : Value → Prop
  | .text _ => True
  | .torn t => t.whole? = none ∧ t.IsParted
  | _ => False

namespace Value.IsSound

variable {v : Value}

theorem isText (h : v.IsSound) : v.IsText := by
  cases v <;> trivial

theorem stored (h : v.IsSound) : v.stored = v := by
  cases v with
  | text s => rfl
  | torn t =>
    change ofSigns t.joined = _
    rw [Text.Torn.joined_of_isParted h.2, ofSigns, h.1]
  | _ => exact h.elim

/-- Signs of which none completes another are a text in its one spelling. -/
theorem of_isParted {t : Text.Torn} (h : t.IsParted) : (Value.ofSigns t).IsSound := by
  unfold Value.ofSigns
  cases hwhole : t.whole? with
  | some cs => trivial
  | none => exact ⟨hwhole, h⟩

/-- A document has the text as it is. -/
theorem kept (h : v.IsSound) : v.recorded.stored = v := by
  rw [h.isText.recorded, h.stored]

end Value.IsSound

/-- What a document keeps of a text is a text in its one spelling. -/
theorem Value.IsText.isSound_stored {v : Value} (h : v.IsText) : v.stored.IsSound := by
  cases v with
  | text s => trivial
  | torn t => exact .of_isParted t.isParted_joined
  | _ => exact h.elim

/-! ### Stamps -/

namespace Stamp

/-- The stamp has no offset, or one of whole seconds. -/
def HasWholeOffset (t : Stamp) : Prop :=
  ∀ o ∈ t.offset, (1000000 : ℤ) ∣ o.micros

theorem HasWholeOffset.hasLastingOffset {t : Stamp} (h : t.HasWholeOffset) :
    t.HasLastingOffset := by
  intro o ho hlt
  have hwhole := h o ho
  omega

theorem HasWholeOffset.settled {t : Stamp} (h : t.HasWholeOffset) : t.settled = t :=
  settled_eq_self_iff.mpr h.hasLastingOffset

end Stamp

/-! ### Loans and users -/

/-- A loan that has been read once is read again as it is, so `kept` is idempotent. -/
theorem Loan.IsWritten.kept_kept {l : Loan} (h : l.IsWritten) : l.kept.kept = l.kept := by
  refine Loan.kept_eq_self l.created.settled_settled l.updated.settled_settled
    l.requested.settled_settled ?_ ?_
  · change (l.reviewed.map Stamp.settled).map Stamp.settled = l.reviewed.map Stamp.settled
    rw [Option.map_map]
    exact congrArg l.reviewed.map (funext Stamp.settled_settled)
  · change l.comments.stored.stored = l.comments.stored
    rcases h.comments with hc | hc
    · rw [hc]
      rfl
    · exact hc.isSound_stored.stored

/-- The review of a loan that is read as it is: it is read as it is as well, if the clock has an
offset that lasts and the comments stay. -/
theorem Loan.kept_reviewedAs {l : Loan} (h : l.kept = l) (target : Loan.Status) {comments : Value}
    {at_ : Stamp} (hclock : at_.HasLastingOffset) (hcomments : comments.stored = comments) :
    (l.reviewedAs target comments at_).kept = l.reviewedAs target comments at_ := by
  have hsettled := Stamp.settled_eq_self_iff.mpr hclock
  exact Loan.kept_eq_self (congrArg Loan.created h) hsettled (congrArg Loan.requested h)
    (congrArg some hsettled) hcomments

/-- A loan whose texts are sound, whose term can be written, whose numbers are ones that a decimal
can hold and whose stamps have whole offsets. -/
structure Loan.IsExact (l : Loan) : Prop where
  id : l.id.IsSound
  owner : l.owner.IsSound
  comments : l.comments = .null ∨ l.comments.IsSound
  months : l.months.natAbs < 10 ^ Value.integerRoom
  amount : l.amount.isWithinReach = true
  rate : l.rate.isWithinReach = true
  payment : l.payment.isWithinReach = true
  created : l.created.HasWholeOffset
  updated : l.updated.HasWholeOffset
  requested : l.requested.HasWholeOffset
  reviewed : ∀ t ∈ l.reviewed, t.HasWholeOffset

namespace Loan.IsExact

variable {l : Loan}

theorem isWritten (h : l.IsExact) : l.IsWritten :=
  ⟨h.id.isText, h.owner.isText, h.months, h.comments.imp_right Value.IsSound.isText⟩

theorem comments_stored (h : l.IsExact) : l.comments.stored = l.comments := by
  rcases h.comments with hc | hc
  · rw [hc]
    rfl
  · exact hc.stored

theorem reviewed_settled (h : l.IsExact) : l.reviewed.map Stamp.settled = l.reviewed := by
  cases hr : l.reviewed with
  | none => rfl
  | some t => rw [Option.map_some, (h.reviewed t hr).settled]

theorem kept_eq_self (h : l.IsExact) : l.kept = l :=
  Loan.kept_eq_self h.created.settled h.updated.settled h.requested.settled h.reviewed_settled
    h.comments_stored

/-- The document of the loan reads as the loan. -/
theorem ofRecord_document (h : l.IsExact) : ofRecord (.record l.document) = .ok l := by
  rw [h.isWritten.ofRecord_document, IsReadable.toDecimal_text h.amount,
    IsReadable.toDecimal_text h.rate, IsReadable.toDecimal_text h.payment, h.kept_eq_self,
    h.id.stored, h.owner.stored]
  rfl

end Loan.IsExact

/-- A user whose texts are sound, whose rights are a truth value and whose stamps have whole
offsets. -/
structure User.IsExact (u : User) : Prop where
  id : u.id.IsSound
  name : u.name.IsSound
  email : u.email.IsSound
  passwordHash : u.passwordHash.IsSound
  passwordSalt : u.passwordSalt.IsSound
  isAdmin : ∃ b, u.isAdmin = .bool b
  created : u.created.HasWholeOffset
  updated : u.updated.HasWholeOffset

namespace User.IsExact

variable {u : User}

theorem isWritten (h : u.IsExact) : u.IsWritten :=
  ⟨h.id.isText, h.name.isText, h.email.isText, h.passwordHash.isText, h.passwordSalt.isText,
    h.isAdmin⟩

/-- The document of the user reads as the user. -/
theorem ofRecord_document (h : u.IsExact) : ofRecord (.record u.document) = .ok u := by
  have hkept : u.kept = u := by
    unfold User.kept
    rw [h.id.kept, h.created.settled, h.updated.settled, h.name.kept, h.email.kept,
      h.passwordHash.kept, h.passwordSalt.kept, h.isWritten.isAdmin_stored]
  rw [User.ofRecord_document, hkept]

end User.IsExact

/-! ### Through a store -/

/-- A record that can be printed is found by `load` where it was put by `save`, as documents keep
it. -/
theorem Storage.Shows.carries {s : Storage} {ts : Store.Shelves} (h : s.Shows ts) (t : Store.Shelf)
    (id : String) {fs : Fields} (hfs : Json.Printable (.record fs)) :
    ∃ s', s.save (.text t.name) (.text id) (.record fs) = .ok s' ∧
      s'.load (.text t.name) (.text id) = .ok (some (.record (Value.storedFields fs))) := by
  obtain ⟨s', hsave, hshows, -⟩ := h.save t id hfs hfs.isWritable
  refine ⟨s', hsave, ?_⟩
  rw [hshows.load t id, Function.update_self, Store.Table.get?_put_self (Store.isExact_string id)]
  rfl

/-- What comes back of a loan is any loan that has the same document. -/
theorem Loan.IsExact.carried {l l' : Loan} (h : l'.IsExact)
    (hl : Json.Printable (.record l.record)) (hd : l.document = l'.document)
    (kind : Storage.Kind) (id : String) :
    ∃ s, (Storage.ofKind kind).save LoanBook.table (.text id) (.record l.record) = .ok s ∧
      LoanBook.get? s (.text id) = .ok (some l') := by
  obtain ⟨s, hsave, hload⟩ := (Storage.shows_ofKind kind).carries .loans id hl
  refine ⟨s, hsave, ?_⟩
  have htruthy : (Value.record l'.document).truthy = true := rfl
  have hread : LoanBook.read? (some (.record l'.document)) = .ok (some l') := by
    rw [LoanBook.read?, if_pos htruthy, h.ofRecord_document]
    rfl
  have hfound : s.load LoanBook.table (.text id) = .ok (some (.record l.document)) := hload
  unfold LoanBook.get?
  simp only [hfound, bind, Except.bind, hd, hread]

theorem User.IsExact.carried {u : User} (h : u.IsExact) (kind : Storage.Kind) (id : String) :
    ∃ s, (Storage.ofKind kind).save UserBook.table (.text id) (.record u.record) = .ok s ∧
      UserBook.get? s (.text id) = .ok (some u) := by
  obtain ⟨s, hsave, hload⟩ := (Storage.shows_ofKind kind).carries .users id h.isWritten.printable
  refine ⟨s, hsave, ?_⟩
  have htruthy : (Value.record u.document).truthy = true := rfl
  have hread : UserBook.read? (some (.record u.document)) = .ok (some u) := by
    rw [UserBook.read?, if_pos htruthy, h.ofRecord_document]
    rfl
  have hfound : s.load UserBook.table (.text id) = .ok (some (.record u.document)) := hload
  unfold UserBook.get?
  simp only [hfound, bind, Except.bind, hread]

theorem Loan.stored_record (l : Loan) : (Value.record l.record).stored = .record l.document := rfl

theorem User.stored_record (u : User) : (Value.record u.record).stored = .record u.document := rfl

namespace Store

/-- Loans and users come back field for field: from the text that a database writes of them, from
the copy that is kept in memory, and from a new store of either kind, under whatever id. -/
theorem records_round_trip :
    (∀ l : Loan, l.IsExact →
      Loan.ofRecord (Database.read (Database.write (.record l.record))) = .ok l ∧
      Loan.ofRecord (Value.record l.record).stored = .ok l ∧
      ∀ (kind : Storage.Kind) (id : String), ∃ s,
        (Storage.ofKind kind).save LoanBook.table (.text id) (.record l.record) = .ok s ∧
          LoanBook.get? s (.text id) = .ok (some l)) ∧
    (∀ u : User, u.IsExact →
      User.ofRecord (Database.read (Database.write (.record u.record))) = .ok u ∧
      User.ofRecord (Value.record u.record).stored = .ok u ∧
      ∀ (kind : Storage.Kind) (id : String), ∃ s,
        (Storage.ofKind kind).save UserBook.table (.text id) (.record u.record) = .ok s ∧
          UserBook.get? s (.text id) = .ok (some u)) := by
  refine ⟨fun l h => ?_, fun u h => ?_⟩
  · rw [Database.read_write h.isWritten.printable, Loan.stored_record]
    exact ⟨h.ofRecord_document, h.ofRecord_document, h.carried h.isWritten.printable rfl⟩
  · rw [Database.read_write h.isWritten.printable, User.stored_record]
    exact ⟨h.ofRecord_document, h.ofRecord_document, h.carried⟩

/-- Half past eleven at night on a leap day, far from universal time. -/
def lateStamp : Stamp :=
  ⟨⟨2024, 2, 29, by decide⟩, ⟨23, by decide⟩, ⟨30, by decide⟩, ⟨5, by decide⟩, ⟨60, by decide⟩,
    some ⟨-19815000000, by decide⟩⟩

/-- The time when machines begin to count, seen from half a second east. -/
def tiltedStamp : Stamp :=
  { Stamp.epoch with offset := some ⟨500000, by decide⟩ }

/-- A half before the half that completes it. -/
def splitPair : Text.Torn :=
  [.ofPoint 0xD83D, .ofPoint 0xDE00]

theorem stored_splitPair : (Value.torn splitPair).stored = .text "😀" := rfl

/-- A loan of minus nothing, at a rate that is not a number. -/
def oddLoan : Loan where
  id := .text "löan"
  created := Stamp.epoch
  updated := lateStamp
  owner := .text "\u0000"
  amount := .finite ⟨true, 0, -2⟩
  rate := .nan true true 7
  months := -3
  payment := .infinity true
  status := .rejected
  requested := { lateStamp with offset := none }
  reviewed := some lateStamp
  comments := .torn [.ofPoint 0xDE00, .ofPoint 0xD83D]

/-- A user whose name is half of a character. -/
def oddUser : User where
  id := .text ""
  created := lateStamp
  updated := Stamp.epoch
  name := .torn [.ofPoint 0xD83D]
  email := .text "Ö@x.y"

theorem lateStamp_hasWholeOffset : lateStamp.HasWholeOffset := by
  rintro o ⟨⟩
  decide

theorem epoch_hasWholeOffset : Stamp.epoch.HasWholeOffset := by
  rintro o ⟨⟩
  decide

theorem oddLoan_isExact : oddLoan.IsExact where
  id := trivial
  owner := trivial
  comments := .inr ⟨rfl, rfl, trivial⟩
  months := by
    have h : 3 < 10 ^ 1 := by decide
    exact h.trans_le (Nat.pow_le_pow_right (by decide) (by decide))
  amount := by decide
  rate := rfl
  payment := rfl
  created := epoch_hasWholeOffset
  updated := lateStamp_hasWholeOffset
  requested := by rintro o ⟨⟩
  reviewed := by
    rintro t ⟨⟩
    exact lateStamp_hasWholeOffset

theorem oddUser_isExact : oddUser.IsExact where
  id := trivial
  name := ⟨rfl, trivial⟩
  email := trivial
  passwordHash := trivial
  passwordSalt := trivial
  isAdmin := ⟨false, rfl⟩
  created := lateStamp_hasWholeOffset
  updated := epoch_hasWholeOffset

theorem records_round_trip_odd :
    (oddLoan.IsExact ∧
      Loan.ofRecord (Database.read (Database.write (.record oddLoan.record))) = .ok oddLoan ∧
      Loan.ofRecord (Value.record oddLoan.record).stored = .ok oddLoan ∧
      ∀ (kind : Storage.Kind) (id : String), ∃ s,
        (Storage.ofKind kind).save LoanBook.table (.text id) (.record oddLoan.record) = .ok s ∧
          LoanBook.get? s (.text id) = .ok (some oddLoan)) ∧
    (oddUser.IsExact ∧
      User.ofRecord (Database.read (Database.write (.record oddUser.record))) = .ok oddUser ∧
      User.ofRecord (Value.record oddUser.record).stored = .ok oddUser ∧
      ∀ (kind : Storage.Kind) (id : String), ∃ s,
        (Storage.ofKind kind).save UserBook.table (.text id) (.record oddUser.record) = .ok s ∧
          UserBook.get? s (.text id) = .ok (some oddUser)) :=
  ⟨⟨oddLoan_isExact, records_round_trip.1 oddLoan oddLoan_isExact⟩,
    ⟨oddUser_isExact, records_round_trip.2 oddUser oddUser_isExact⟩⟩

/-- A loan with a term of one digit more than are written is in no store; and of comments in which
a half stands before the other half of a character, every store has the character. -/
theorem round_trip_beyond_limits :
    (∀ (kind : Storage.Kind) (id : String), (Storage.ofKind kind).save LoanBook.table (.text id)
      (.record { oddLoan with months := 10 ^ Value.integerRoom : Loan }.record) =
        .error .noMeaning) ∧
    ∀ (kind : Storage.Kind) (id : String), ∃ s,
      (Storage.ofKind kind).save LoanBook.table (.text id) (.record { oddLoan with
        comments := .torn splitPair : Loan }.record) = .ok s ∧
      LoanBook.get? s (.text id) = .ok (some { oddLoan with comments := .text "😀" }) := by
  refine ⟨fun kind id => ?_, ?_⟩
  · refine (Storage.shows_ofKind kind).save_unwritable .loans id ?_
    rw [Bool.eq_false_iff]
    intro hw
    have hmem : ("term_in_months", Value.int (10 ^ Value.integerRoom)) ∈
        { oddLoan with months := 10 ^ Value.integerRoom : Loan }.record := by
      simp [Loan.record]
    have hlt := Json.int_of_isWritable hw hmem
    generalize Value.integerRoom = room at hlt
    rw [Int.natAbs_pow] at hlt
    exact lt_irrefl _ hlt
  · have hjoined : Loan.IsExact { oddLoan with comments := .text "😀" } :=
      { oddLoan_isExact with comments := .inr trivial }
    have hsplit : Loan.Filed "löan"
        { oddLoan with comments := .torn splitPair } :=
      ⟨rfl, ⟨_, rfl⟩, oddLoan_isExact.months, .inr trivial⟩
    exact hjoined.carried hsplit.printable rfl

end Store
end LoanDesk
