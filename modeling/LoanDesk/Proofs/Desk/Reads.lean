import LoanDesk.Proofs.Desk.Lending

/-
# What reads find

Whoever asks the desk for sheets, lists and summaries changes nothing, and is told of users
and loans on file: a sheet of the stored loan of its id, lists of an owner of the loans with
that owner.

Key theorems: `Desk.isLook_loanSheet`, `Desk.isLook_allLoans`, `Desk.Keeps.loanSheet_ok`,
`Desk.Keeps.loansOfUser_ok`, `Desk.Keeps.summarize_ok`.
-/

namespace LoanDesk
namespace Desk

open Store

variable {R : Rule} {d : Desk} {ts : Shelves} {id owner : String}

/-! ### Reading changes nothing -/

theorem isLook_loanSheet (id : Value) : IsLook (loanSheet id) :=
  .bind (isLook_readLoan id) isLook_sheetOf

theorem isLook_loansOfUser (userId : Value) : IsLook (loansOfUser userId) :=
  .bind (isLook_user? userId) fun _ => .bind (.reading _) fun _ => .pure _

theorem isLook_ownerAmong (seen : Table Value (Option User)) (owner : Value) :
    IsLook (ownerAmong seen owner) := by
  refine .bind (.lifted _) fun key => ?_
  cases seen.get? key with
  | some u => exact .pure u
  | none => exact isLook_user? owner

theorem isLook_sheetsOf (seen : Table Value (Option User)) (ls : List Loan) :
    IsLook (sheetsOf seen ls) := by
  induction ls generalizing seen with
  | nil => exact .pure []
  | cons l rest ih =>
    exact .bind (isLook_ownerAmong seen l.owner) fun u => .bind (ih _) fun _ => .pure _

theorem isLook_allLoans (status : Option Loan.Status) : IsLook (allLoans status) :=
  .bind (.reading _) fun ls => isLook_sheetsOf [] ls

theorem isLook_summarize (userId : Value) : IsLook (summarize userId) :=
  .bind (isLook_readUser userId) fun _ => .bind (.reading _) fun _ => .pure _

theorem isLook_quoteFor (r : Loan.Request) : IsLook (quoteFor r) :=
  .bind .get fun _ => .bind (.lifted _) fun _ => .lifted _

theorem isLook_scheduleFor (r : Loan.Request) : IsLook (scheduleFor r) :=
  .bind .get fun _ => .bind (.lifted _) fun _ => .lifted _

/-! ### What is found is on file -/

theorem upToZero_idOf (n : ℕ) : upToZero (idOf n) = idOf n := by
  have hdigit : ∀ c : Char, c.isDigit = true → c.toNat ≠ 0 := by
    intro c hc
    have hle : 48 ≤ c.toNat := (Char.isDigit_iff_toNat.mp hc).1
    omega
  refine upToZero_eq_self fun c hc => ?_
  unfold idOf at hc
  rw [String.toList_append, List.mem_append] at hc
  rcases hc with hc | hc
  · have hall : "id-".toList.all (fun c => c.toNat != 0) = true := by decide
    exact bne_iff_ne.mp (List.all_eq_true.mp hall c hc)
  · rw [String.toList_ofList] at hc
    exact hdigit c (Text.isDigits_natDigits n c hc)

theorem mem_readAll {vs : List Value} {ls : List Loan} (h : LoanBook.readAll vs = .ok ls) :
    ∀ l ∈ ls, ∃ v ∈ vs, Loan.ofRecord v = .ok l := by
  induction vs generalizing ls with
  | nil =>
    obtain rfl := Except.ok.inj h
    simp
  | cons v rest ih =>
    obtain ⟨here, hhere, h⟩ := bind_eq_ok h
    obtain ⟨others, hothers, h⟩ := bind_eq_ok h
    obtain rfl := Except.ok.inj h
    intro l hl
    rcases List.mem_cons.mp hl with rfl | hl
    · exact ⟨v, List.mem_cons_self, hhere⟩
    · obtain ⟨w, hw, hread⟩ := ih hothers l hl
      exact ⟨w, List.mem_cons_of_mem v hw, hread⟩

/-- Loans in order are loans that were read. -/
theorem mem_ordered {vs : List Value} {ls : List Loan} (h : LoanBook.ordered vs = .ok ls) :
    ∀ l ∈ ls, ∃ v ∈ vs, Loan.ofRecord v = .ok l := by
  obtain ⟨read, hread, h⟩ := bind_eq_ok h
  unfold Loan.newestFirst at h
  split at h
  · obtain rfl := Except.ok.inj h
    exact fun l hl => mem_readAll hread l (List.mem_mergeSort.mp hl)
  · cases h

namespace Keeps

/-- The sheet of a loan is of the one that is stored: what `loanSheet` gives is on file. -/
theorem loanSheet_ok (h : d.Keeps R ts) {sheet : Loan.Sheet}
    (hs : (d.perform (loanSheet (.text id))).1 = .ok sheet) :
    sheet.Filed id ∧ ∃ l : Loan, l.Filed id ∧ (ts .loans).get? id = some l.document ∧
      sheet.loan.owner = l.owner := by
  obtain ⟨copy, hcopy, hs⟩ := (isLook_readLoan (.text id)).bind_ok hs
  rcases h.readLoan id with ⟨-, hp⟩ | ⟨l, hl, -, hg, hp⟩
  · rw [hp] at hcopy
    cases hcopy
  · rw [hp] at hcopy
    obtain ⟨hfiled, howner, -⟩ := hl.read hcopy
    obtain ⟨sheet', hp', hsheet, hsheetFiled⟩ := h.sheetOf hfiled
    rw [hp'] at hs
    obtain rfl := Except.ok.inj hs
    exact ⟨hsheetFiled, l, hl, hg, hsheet ▸ howner⟩

/-- The loans of an owner are found by the text of the owner's id. -/
theorem ofOwner_ok (h : d.Keeps R ts) (hR : ∀ l, R.loan l → l.HasPlainOwner) {ls : List Loan}
    (hl : LoanBook.ofOwner d.storage (.text owner) = .ok ls) :
    ∀ l ∈ ls, (∃ id, l.Filed id) ∧ l.owner = .text owner := by
  obtain ⟨vs, hfind, hordered⟩ := bind_eq_ok hl
  have hdocs : ∀ fs ∈ (ts .loans).entries, (Value.record fs).isFinite = true ∧
      ∀ v, Fields.get? fs "owner_id" = some v → IsFlat v := by
    intro fs hfs
    obtain ⟨p, hp, rfl⟩ := List.mem_map.mp hfs
    obtain ⟨-, l, hl, hP, hdoc⟩ := h.loans p hp
    rw [hdoc]
    exact ⟨hl.isFinite, fun v hv => (hR l hP).isFlat hl hv⟩
  have hfound := h.shows.find_text .loans isPlainName_owner hdocs owner
  obtain rfl := Except.ok.inj (hfound.symm.trans hfind)
  intro l hmem
  obtain ⟨v, hv, hread⟩ := mem_ordered hordered l hmem
  obtain ⟨fs, hfs, rfl⟩ := List.mem_map.mp hv
  obtain ⟨hfs, hget⟩ := List.mem_filter.mp hfs
  rw [hasText_iff] at hget
  obtain ⟨p, hp, rfl⟩ := List.mem_map.mp hfs
  obtain ⟨-, m, hm, -, hdoc⟩ := h.loans p hp
  rw [hdoc] at hread hget
  obtain ⟨hfiled, howner, -⟩ := hm.read hread
  rw [hm.get?_owner] at hget
  exact ⟨⟨p.1, hfiled⟩, howner.trans (Option.some.inj hget)⟩

theorem loansOfUser_ok (h : d.Keeps R ts) (hR : ∀ l, R.loan l → l.HasPlainOwner)
    {sheets : List Loan.Sheet} (hs : (d.perform (loansOfUser (.text owner))).1 = .ok sheets) :
    ∀ s ∈ sheets, (∃ id, s.Filed id) ∧ s.loan.owner = .text owner := by
  obtain ⟨user, huser, hs⟩ := (isLook_user? (.text owner)).bind_ok hs
  obtain ⟨ls, hls, hs⟩ := (IsLook.reading _).bind_ok hs
  rw [perform_reading] at hls
  obtain rfl := Except.ok.inj hs
  intro s hmem
  obtain ⟨l, hl, rfl⟩ := List.mem_map.mp hmem
  obtain ⟨⟨id, hid⟩, howner⟩ := h.ofOwner_ok hR hls l hl
  refine ⟨⟨id, hid.sheet fun u hu => ?_⟩, ?_⟩
  · rw [Option.mem_def.mp hu] at huser
    obtain ⟨n, -, hn⟩ := h.filed_of_user? huser
    exact ⟨n, hn⟩
  · rw [Loan.Sheet.of_loan, howner]

/-- A summary is of a user on file, whom `readUser` has found. -/
theorem summarize_ok (h : d.Keeps R ts) {summary : Summary}
    (hs : (d.perform (summarize (.text id))).1 = .ok summary) : summary.user.Filed id := by
  obtain ⟨user, huser, hs⟩ := (isLook_readUser (.text id)).bind_ok hs
  obtain ⟨ls, -, hs⟩ := (IsLook.reading _).bind_ok hs
  obtain rfl := Except.ok.inj hs
  obtain ⟨v, hv, -, rfl⟩ := h.readUser_ok huser
  exact hv.kept

end Keeps
end Desk
end LoanDesk
