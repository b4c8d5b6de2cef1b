import LoanDesk.Proofs.Desk.Reads
import LoanDesk.Proofs.Loan.Order

/-
# All reads agree

The list of all loans has each stored loan once, the newest request first. The other reads
take other ways: they filter in the store before they put in order, look owners up once or one
at a time, count without reading, or fetch one loan. They all tell the same: what they list,
count and show is taken from the list of all loans.

Key definitions: `Loan.IsTimely`, `Desk.timely`, `Desk.Keeps.Reads`, `Desk.ReadsAgree`.
Key theorems: `LoanBook.ordered_filter`, `Desk.Keeps.perform_sheetsOf`,
`Desk.Keeps.readsAgree`.
-/

namespace LoanDesk

open Store

/-! ### Loans that can be put in order -/

/-- The loan can be read, found by its owner and put in order. -/
structure Loan.IsTimely (l : Loan) : Prop where
  readable : l.IsReadable
  owner : l.HasPlainOwner
  offset : l.requested.offset.isSome = true

theorem Loan.IsTimely.kept {l : Loan} (h : l.IsTimely) : l.kept.IsTimely :=
  ⟨h.readable.kept, h.owner, by
    change (l.requested.offset.map Stamp.settledOffset).isSome = true
    rw [Option.isSome_map]
    exact h.offset⟩

/-- Users have ids without a zero character, and loans can be read and put in order. -/
def Desk.timely : Desk.Rule where
  user _ id := upToZero id = id
  loan := Loan.IsTimely
  issued := upToZero_idOf
  mono h _ := h
  reviewed := by
    intro id l l' target comments at_ h hfiled hl
    rw [h.readable.ofRecord_document hfiled] at hl
    obtain rfl := Except.ok.inj hl
    exact ⟨h.kept.readable.reviewedAs target comments at_, h.kept.owner, h.kept.offset⟩

theorem Loan.isOwnedBy_iff (l : Loan) (s : String) :
    l.isOwnedBy (.text s) = true ↔ l.owner = .text s :=
  isExact_text s l.owner

namespace LoanBook

variable {ls : List Loan}

theorem readAll_documents (ls : List Loan) (h : ∀ l ∈ ls, ∃ id, l.Filed id ∧ l.IsReadable) :
    readAll ((ls.map Loan.document).map .record) = .ok (ls.map Loan.kept) := by
  induction ls with
  | nil => rfl
  | cons l rest ih =>
    obtain ⟨id, hl, hread⟩ := h l List.mem_cons_self
    have hrest := ih fun m hm => h m (List.mem_cons_of_mem l hm)
    rw [List.map_cons, List.map_cons, readAll, hread.ofRecord_document hl, hrest]
    rfl

/-- To choose among documents and put in order is to put in order and choose: `LoanBook.ordered`
commutes with a filter. -/
theorem ordered_filter (h : ∀ l ∈ ls, ∃ id, l.Filed id ∧ l.IsTimely) (test : Fields → Bool)
    (pick : Loan → Bool) (htest : ∀ l ∈ ls, test l.document = pick l.kept) :
    ordered (((ls.map Loan.document).filter test).map .record) =
      .ok ((Loan.byAge (ls.map Loan.kept)).filter pick) := by
  have hpick : (ls.map Loan.document).filter test =
      (ls.filter (pick ∘ Loan.kept)).map Loan.document := by
    rw [List.filter_map]
    exact congrArg (List.map Loan.document) (List.filter_congr htest)
  have hread := readAll_documents (ls.filter (pick ∘ Loan.kept)) fun l hl => by
    obtain ⟨id, hl, htimely⟩ := h l (List.mem_of_mem_filter hl)
    exact ⟨id, hl, htimely.readable⟩
  unfold ordered
  rw [hpick, hread, ← List.filter_map, Loan.filter_byAge]
  refine Loan.newestFirst_eq fun l hl => ?_
  obtain ⟨m, hm, rfl⟩ := List.mem_map.mp (List.mem_of_mem_filter hl)
  obtain ⟨id, -, htimely⟩ := h m hm
  exact htimely.kept.offset

end LoanBook

namespace Desk

variable {d : Desk} {ts : Shelves}

/-! ### Owners -/

/-- The user that an owner field leads to. -/
def ownerOf (d : Desk) (owner : Value) : Option User :=
  (d.perform (user? owner)).1.toOption.join

/-- The sheet of a loan and the owner that it has now. -/
def sheet (d : Desk) (l : Loan) : Loan.Sheet :=
  .of l (d.ownerOf l.owner)

@[simp]
theorem loan_sheet (d : Desk) (l : Loan) : (d.sheet l).loan = l :=
  Loan.Sheet.of_loan l _

namespace Keeps

variable {R : Rule}

theorem perform_user? (h : d.Keeps R ts) (owner : String) :
    d.perform (Desk.user? (.text owner)) = (.ok (d.ownerOf (.text owner)), d) := by
  unfold ownerOf
  rcases h.user? owner with ⟨-, hp⟩ | ⟨u, -, -, hp⟩ <;> rw [hp] <;> rfl

theorem perform_sheetOf (h : d.Keeps R ts) {l : Loan} {owner : String}
    (hl : l.owner = .text owner) : d.perform (Desk.sheetOf l) = (.ok (d.sheet l), d) := by
  unfold Desk.sheetOf sheet
  rw [hl, perform_bind_ok (h.perform_user? owner)]
  rfl

/-- Owners that were looked up before are the ones that would be looked up now, so `sheetsOf` gives
the `sheet` of every loan. -/
theorem perform_sheetsOf (h : d.Keeps R ts) (ls : List Loan)
    (hls : ∀ l ∈ ls, ∃ s, l.owner = .text s) (seen : Table Value (Option User))
    (hseen : ∀ s u, seen.get? (.text s) = some u → u = d.ownerOf (.text s)) :
    d.perform (sheetsOf seen ls) = (.ok (ls.map d.sheet), d) := by
  induction ls generalizing seen with
  | nil => rfl
  | cons l rest ih =>
    obtain ⟨s, hs⟩ := hls l List.mem_cons_self
    have howner : d.perform (ownerAmong seen (.text s)) = (.ok (d.ownerOf (.text s)), d) := by
      unfold ownerAmong
      rw [perform_bind_ok (perform_lifted d (Value.text s).asKey)]
      cases hg : seen.get? (.text s) with
      | none => exact h.perform_user? s
      | some u =>
        rw [hseen s u hg]
        rfl
    have hrest := ih (fun m hm => hls m (List.mem_cons_of_mem l hm))
      (seen.put (.text s) (d.ownerOf (.text s))) fun t u hg => by
        by_cases he : s = t
        · subst he
          rw [Table.get?_put_self (isExact_text s)] at hg
          exact (Option.some.inj hg).symm
        · rw [Table.get?_put_of_ne (isExact_text s) (isExact_text t)
            fun e => he (Value.text.inj e)] at hg
          exact hseen t u hg
    unfold sheetsOf
    rw [hs, perform_bind_ok howner, perform_bind_ok hrest, List.map_cons, sheet, hs]
    rfl

/-! ### The stored loans -/

/-- The stored loans, in the order in which they came. -/
structure Reads (ts : Shelves) (ls : List Loan) : Prop where
  entries : (ts .loans).entries = ls.map Loan.document
  ids : (ts .loans).ids.map .text = ls.map Loan.id
  filed : ∀ l ∈ ls, ∃ id, (id, l.document) ∈ ts .loans ∧ l.Filed id ∧ l.IsTimely

theorem exists_reads (h : d.Keeps timely ts) : ∃ ls, Reads ts ls := by
  suffices ∀ t : Table String Fields, HoldsLoans timely d.ids t → ∃ ls : List Loan,
      t.entries = ls.map Loan.document ∧ t.ids.map .text = ls.map Loan.id ∧
      ∀ l ∈ ls, ∃ id, (id, l.document) ∈ t ∧ l.Filed id ∧ l.IsTimely by
    obtain ⟨ls, hentries, hids, hfiled⟩ := this _ h.loans
    exact ⟨ls, hentries, hids, hfiled⟩
  intro t ht
  induction t with
  | nil => exact ⟨[], rfl, rfl, by simp⟩
  | cons p rest ih =>
    obtain ⟨id, fs⟩ := p
    obtain ⟨-, l, hl, htimely, rfl⟩ := ht (id, fs) List.mem_cons_self
    obtain ⟨ls, hentries, hids, hfiled⟩ := ih fun q hq => ht q (List.mem_cons_of_mem _ hq)
    refine ⟨l :: ls, ?_, ?_, ?_⟩
    · rw [List.map_cons, ← hentries]
      rfl
    · rw [List.map_cons, ← hids, hl.id]
      rfl
    · intro m hm
      rcases List.mem_cons.mp hm with rfl | hm
      · exact ⟨id, List.mem_cons_self, hl, htimely⟩
      · obtain ⟨other, hmem, hm⟩ := hfiled m hm
        exact ⟨other, List.mem_cons_of_mem _ hmem, hm⟩

variable {ls : List Loan}

theorem Reads.isTimely (hr : Reads ts ls) : ∀ l ∈ ls, ∃ id, l.Filed id ∧ l.IsTimely := by
  intro l hl
  obtain ⟨id, -, hfiled⟩ := hr.filed l hl
  exact ⟨id, hfiled⟩

theorem Reads.owner (hr : Reads ts ls) {l : Loan} (hl : l ∈ Loan.byAge (ls.map Loan.kept)) :
    ∃ s, l.owner = .text s := by
  obtain ⟨m, hm, rfl⟩ := List.mem_map.mp ((Loan.byAge_perm _).mem_iff.mp hl)
  obtain ⟨id, hfiled, -⟩ := hr.isTimely m hm
  exact hfiled.owner

/-- A loan on record can be read under its id. -/
theorem readLoan_of_reads (h : d.Keeps timely ts) (hr : Reads ts ls) {l : Loan} (hl : l ∈ ls) :
    ∃ id, l.id = .text id ∧ d.perform (Desk.readLoan (.text id)) = (.ok l.kept, d) := by
  obtain ⟨id, hmem, hfiled, htimely⟩ := hr.filed l hl
  have hget := Table.get?_of_mem (isExact_string id) (h.shows.distinct .loans) hmem
  refine ⟨id, hfiled.id, ?_⟩
  rcases h.readLoan id with ⟨hnone, -⟩ | ⟨m, -, -, hg, hp⟩
  · rw [hget] at hnone
    cases hnone
  · rw [← Option.some.inj (hget.symm.trans hg), htimely.readable.ofRecord_document hfiled] at hp
    exact hp

/-! ### What the book of loans lists -/

theorem readAll_loadAll (h : d.Keeps timely ts) (hr : Reads ts ls) :
    (do LoanBook.readAll (← d.storage.loadAll LoanBook.table)) = .ok (ls.map Loan.kept) := by
  have hload : d.storage.loadAll LoanBook.table = _ := h.shows.loadAll .loans
  rw [hload, hr.entries]
  refine LoanBook.readAll_documents ls fun l hl => ?_
  obtain ⟨id, hfiled, htimely⟩ := hr.isTimely l hl
  exact ⟨id, hfiled, htimely.readable⟩

theorem loanBook_all (h : d.Keeps timely ts) (hr : Reads ts ls) :
    LoanBook.all d.storage = .ok (Loan.byAge (ls.map Loan.kept)) := by
  have hload : d.storage.loadAll LoanBook.table = _ := h.shows.loadAll .loans
  have hall := LoanBook.ordered_filter hr.isTimely (fun _ => true) (fun _ => true) fun _ _ => rfl
  rw [List.filter_true, List.filter_true] at hall
  unfold LoanBook.all
  rw [hload, hr.entries]
  exact hall

/-- The documents that have a text, as far as a store can tell. -/
theorem find_loans (h : d.Keeps timely ts) (hr : Reads ts ls) {name : String}
    (hn : IsPlainName name) (hflat : ∀ l : Loan, ∀ id, l.Filed id → l.IsTimely →
      ∀ v, Fields.get? l.document name = some v → IsFlat v) (wanted : String) :
    d.storage.find LoanBook.table [(name, .text wanted)] =
      .ok (((ls.map Loan.document).filter fun fs => hasText fs name wanted).map .record) := by
  rw [← hr.entries]
  refine h.shows.find_text .loans hn (fun fs hfs => ?_) wanted
  rw [hr.entries] at hfs
  obtain ⟨l, hl, rfl⟩ := List.mem_map.mp hfs
  obtain ⟨id, hfiled, htimely⟩ := hr.isTimely l hl
  exact ⟨hfiled.isFinite, hflat l id hfiled htimely⟩

theorem find_status (h : d.Keeps timely ts) (hr : Reads ts ls) (status : Loan.Status) :
    d.storage.find LoanBook.table (LoanBook.statusFilter status) =
      .ok (((ls.map Loan.document).filter fun fs => hasText fs "status" status.word).map
        .record) :=
  h.find_loans hr isPlainName_status (fun l _ _ _ _ hv => l.isFlat_status hv) status.word

theorem loanBook_ofStatus (h : d.Keeps timely ts) (hr : Reads ts ls) (status : Loan.Status) :
    LoanBook.ofStatus d.storage status =
      .ok ((Loan.byAge (ls.map Loan.kept)).filter (·.status == status)) := by
  unfold LoanBook.ofStatus
  rw [h.find_status hr status]
  exact LoanBook.ordered_filter hr.isTimely _ _ fun l _ => l.hasText_status status

theorem loanBook_ofOwner (h : d.Keeps timely ts) (hr : Reads ts ls) (owner : String) :
    LoanBook.ofOwner d.storage (.text owner) =
      .ok ((Loan.byAge (ls.map Loan.kept)).filter (·.isOwnedBy (.text owner))) := by
  have hfind := h.find_loans hr isPlainName_owner
    (fun l _ hl htimely _ hv => htimely.owner.isFlat hl hv) owner
  unfold LoanBook.ofOwner
  rw [hfind]
  refine LoanBook.ordered_filter hr.isTimely _ _ fun l hl => ?_
  obtain ⟨id, hfiled, -⟩ := hr.isTimely l hl
  rw [Bool.eq_iff_iff, hasText_iff, hfiled.get?_owner, Option.some.injEq, Loan.isOwnedBy_iff]
  rfl

theorem loanBook_countPending (h : d.Keeps timely ts) (hr : Reads ts ls) :
    LoanBook.countPending d.storage =
      .ok ((Loan.byAge (ls.map Loan.kept)).filter (·.status == .pending)).length := by
  have hsame : ((ls.map Loan.document).filter fun fs =>
      hasText fs "status" Loan.Status.pending.word).length =
      ((ls.map Loan.kept).filter (·.status == .pending)).length := by
    rw [List.filter_map, List.filter_map, List.length_map, List.length_map]
    exact congrArg List.length (List.filter_congr fun l _ => l.hasText_status .pending)
  unfold LoanBook.countPending
  rw [h.find_status hr .pending, ((Loan.byAge_perm _).filter _).length_eq, ← hsame]
  exact congrArg Except.ok (List.length_map _)

/-! ### What the desk lists -/

/-- The sheets of all loans on record, the newest request first. -/
def sheets (d : Desk) (ls : List Loan) : List Loan.Sheet :=
  (Loan.byAge (ls.map Loan.kept)).map d.sheet

theorem filter_sheets (d : Desk) (ls : List Loan) (pick : Loan → Bool) :
    (sheets d ls).filter (fun s => pick s.loan) =
      ((Loan.byAge (ls.map Loan.kept)).filter pick).map d.sheet := by
  unfold sheets
  rw [List.filter_map]
  refine congrArg (List.map d.sheet) (List.filter_congr fun l _ => ?_)
  rw [Function.comp_apply, loan_sheet]

theorem loans_sheets (d : Desk) (ls : List Loan) :
    (sheets d ls).map (·.loan) = Loan.byAge (ls.map Loan.kept) := by
  have hloan : (fun s : Loan.Sheet => s.loan) ∘ d.sheet = id := funext (loan_sheet d)
  unfold sheets
  rw [List.map_map, hloan, List.map_id]

theorem perform_allLoans (h : d.Keeps timely ts) (hr : Reads ts ls) :
    d.perform (allLoans none) = (.ok (sheets d ls), d) := by
  have hp := h.perform_sheetsOf _ (fun l hl => hr.owner hl) [] fun s u hg => by cases hg
  unfold allLoans
  rw [perform_bind_ok (a := Loan.byAge (ls.map Loan.kept)) (e := d)
    (by rw [perform_reading, h.loanBook_all hr])]
  exact hp

theorem perform_allLoans_status (h : d.Keeps timely ts) (hr : Reads ts ls)
    (status : Loan.Status) : d.perform (allLoans (some status)) =
      (.ok ((sheets d ls).filter (·.loan.status == status)), d) := by
  have hp := h.perform_sheetsOf ((Loan.byAge (ls.map Loan.kept)).filter (·.status == status))
    (fun l hl => hr.owner (List.mem_of_mem_filter hl)) [] fun s u hg => by cases hg
  unfold allLoans
  rw [perform_bind_ok (a := (Loan.byAge (ls.map Loan.kept)).filter (·.status == status)) (e := d)
    ((perform_reading d _).trans (congrArg (·, d) (h.loanBook_ofStatus hr status))),
    filter_sheets d ls (·.status == status)]
  exact hp

theorem perform_loansOfUser (h : d.Keeps timely ts) (hr : Reads ts ls) (owner : String) :
    d.perform (loansOfUser (.text owner)) =
      (.ok ((sheets d ls).filter (·.loan.isOwnedBy (.text owner))), d) := by
  unfold loansOfUser
  rw [perform_bind_ok (h.perform_user? owner),
    perform_bind_ok (a := (Loan.byAge (ls.map Loan.kept)).filter (·.isOwnedBy (.text owner)))
      (e := d) (by rw [perform_reading, h.loanBook_ofOwner hr]),
    filter_sheets d ls (·.isOwnedBy (.text owner))]
  refine congrArg (fun ss => (Except.ok ss, d)) (List.map_congr_left fun l hl => ?_)
  rw [sheet, (l.isOwnedBy_iff owner).mp (List.mem_filter.mp hl).2]

theorem perform_loanSheet (h : d.Keeps timely ts) (hr : Reads ts ls) {s : Loan.Sheet}
    (hs : s ∈ sheets d ls) :
    ∃ id, s.loan.id = .text id ∧ d.perform (loanSheet (.text id)) = (.ok s, d) := by
  obtain ⟨l, hl, rfl⟩ := List.mem_map.mp hs
  obtain ⟨m, hm, rfl⟩ := List.mem_map.mp ((Loan.byAge_perm _).mem_iff.mp hl)
  obtain ⟨id, hid, hp⟩ := h.readLoan_of_reads hr hm
  obtain ⟨owner, howner⟩ := hr.owner hl
  refine ⟨id, ?_, ?_⟩
  · rw [loan_sheet]
    exact hid
  · unfold loanSheet
    rw [perform_bind_ok hp, h.perform_sheetOf howner]

/-- The summary of a user on file counts, by `countOf`, the loans that the user has in the list. -/
theorem perform_summarize (h : d.Keeps timely ts) (hr : Reads ts ls) {id : String} {u : User}
    (hu : (d.perform (Desk.readUser (.text id))).1 = .ok u) {own : List Loan}
    (hown : own = (Loan.byAge (ls.map Loan.kept)).filter (·.isOwnedBy (.text id))) :
    d.perform (summarize (.text id)) = (.ok ⟨u, own.length, countOf .pending own,
      countOf .approved own, countOf .rejected own⟩, d) := by
  have hp := (isLook_readUser (.text id)).eq d
  rw [hu] at hp
  unfold summarize
  rw [perform_bind_ok hp, perform_bind_ok (a := own) (e := d)
    (by rw [perform_reading, h.loanBook_ofOwner hr, hown])]
  rfl

end Keeps

/-- Every loan is pending, approved or rejected. -/
theorem length_eq_counts (ls : List Loan) :
    ls.length = countOf .pending ls + countOf .approved ls + countOf .rejected ls := by
  unfold countOf
  induction ls with
  | nil => rfl
  | cons l rest ih =>
    rw [List.length_cons, List.countP_cons, List.countP_cons, List.countP_cons, ih]
    cases l.status <;> simp <;> omega

/-- All that can be read at a desk agrees with the list of all loans: `stored` are the loans as they
are stored, and `sheets` is the list. -/
structure ReadsAgree (d : Desk) (stored : List Loan) (sheets : List Loan.Sheet) : Prop where
  read : (do LoanBook.readAll (← d.storage.loadAll LoanBook.table)) = .ok stored
  all : d.perform (allLoans none) = (.ok sheets, d)
  /-- Each stored loan is in the list once. -/
  once : (sheets.map (·.loan)).Perm stored ∧ (stored.map (·.id)).Nodup
  newestFirst : (sheets.map (·.loan)).Pairwise fun a b =>
    b.requested.instant ≤ a.requested.instant
  /-- Loans of one instant are in the stored order. -/
  sameInstant : ∀ t, (sheets.map (·.loan)).filter (·.requested.instant == t) =
    stored.filter (·.requested.instant == t)
  ofStatus : ∀ status, d.perform (allLoans (some status)) =
    (.ok (sheets.filter (·.loan.status == status)), d)
  ofUser : ∀ user : String, d.perform (loansOfUser (.text user)) =
    (.ok (sheets.filter (·.loan.isOwnedBy (.text user))), d)
  /-- Each sheet is the one that is shown for its id. -/
  alone : ∀ s ∈ sheets, ∃ id, s.loan.id = .text id ∧
    d.perform (loanSheet (.text id)) = (.ok s, d)
  pending : d.perform countPending =
    (.ok (sheets.filter (·.loan.status == .pending)).length, d)
  /-- The summary of a stored user counts what is listed for the user. -/
  summary : ∀ (user : String) (v : Value),
    d.storage.load UserBook.table (.text user) = .ok (some v) →
    ∃ (summary : Summary) (listed : List Loan.Sheet),
      d.perform (summarize (.text user)) = (.ok summary, d) ∧
      d.perform (loansOfUser (.text user)) = (.ok listed, d) ∧
      summary.user.id = .text user ∧
      summary.total = summary.pending + summary.approved + summary.rejected ∧
      summary.pending = (listed.filter (·.loan.status == .pending)).length ∧
      summary.approved = (listed.filter (·.loan.status == .approved)).length ∧
      summary.rejected = (listed.filter (·.loan.status == .rejected)).length

namespace Keeps

/-- The loans of a user, counted by status as the list shows them. -/
theorem countOf_listed (d : Desk) (ls : List Loan) (user : String) (status : Loan.Status) :
    countOf status ((Loan.byAge (ls.map Loan.kept)).filter (·.isOwnedBy (.text user))) =
      (((sheets d ls).filter (·.loan.isOwnedBy (.text user))).filter
        (·.loan.status == status)).length := by
  rw [filter_sheets d ls (·.isOwnedBy (.text user)), List.filter_map, List.length_map]
  unfold countOf
  rw [List.countP_eq_length_filter]
  exact congrArg List.length (List.filter_congr fun l _ => by rw [Function.comp_apply, loan_sheet])

/-- Whatever way loans are read, they are taken from one list. -/
theorem readsAgree (h : d.Keeps timely ts) : ∃ stored sheets, ReadsAgree d stored sheets := by
  obtain ⟨ls, hr⟩ := h.exists_reads
  refine ⟨ls.map Loan.kept, sheets d ls, h.readAll_loadAll hr, h.perform_allLoans hr, ⟨?_, ?_⟩,
    ?_, fun t => ?_, h.perform_allLoans_status hr, h.perform_loansOfUser hr,
    fun s => h.perform_loanSheet hr, ?_, fun user v hv => ?_⟩
  · rw [loans_sheets]
    exact Loan.byAge_perm _
  · have hids : (ls.map Loan.kept).map (·.id) = (ts .loans).ids.map .text := by
      rw [hr.ids, List.map_map]
      rfl
    rw [hids]
    exact (h.shows.distinct .loans).map fun _ _ => Value.text.inj
  · rw [loans_sheets]
    exact Loan.pairwise_byAge _
  · rw [loans_sheets]
    exact Loan.filter_byAge_instant t _
  · have hlength := congrArg List.length (filter_sheets d ls (·.status == .pending))
    rw [List.length_map] at hlength
    unfold countPending
    rw [perform_reading, h.loanBook_countPending hr, hlength]
  · have hload := h.shows.load .users user
    have hsome : (ts .users).get? user ≠ none := by
      intro hnone
      rw [hnone] at hload
      exact absurd (hload.symm.trans hv) (by simp)
    rcases h.user? user with ⟨hnone, -⟩ | ⟨u, hu, -, hp⟩
    · exact absurd hnone hsome
    · have hread : d.perform (Desk.readUser (.text user)) = (.ok u.kept, d) := by
        unfold Desk.readUser
        rw [perform_bind_ok hp]
        rfl
      refine ⟨_, _, h.perform_summarize hr (congrArg Prod.fst hread) rfl,
        h.perform_loansOfUser hr user, hu.kept_id, length_eq_counts _, ?_, ?_, ?_⟩ <;>
        exact countOf_listed d ls user _

end Keeps
end Desk
end LoanDesk
