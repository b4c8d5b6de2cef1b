import LoanDesk.Proofs.Desk.Lending
import LoanDesk.Web.Accounts
import LoanDesk.Web.Lending

/-
# What a reply tells of

A loan in a reply is a record with an owner, however deep it stands in the body. Replies
about users, quotes and schedules hold none. The problems with a form tell what was found,
and what was found was in the request.

Key definitions: `Value.records`, `Web.Body.loans`, `Web.Body.found`, `Web.Request.records`,
`Form.Echoes`.
Key theorems: `Web.loans_sheet`, `Web.loans_sheets`, `Web.loans_pass`, `Web.loans_summary`,
`Web.Content.echoes`.
-/

namespace LoanDesk

namespace Value

mutual

/-- All records within a value, itself among them. -/
def records : Value → List Fields
  | list items => recordsOfItems items
  | record fields => fields :: recordsOfFields fields
  | _ => []

/-- All records within items. -/
def recordsOfItems : List Value → List Fields
  | [] => []
  | v :: rest => records v ++ recordsOfItems rest

/-- All records within fields. -/
def recordsOfFields : List (String × Value) → List Fields
  | [] => []
  | (_, v) :: rest => records v ++ recordsOfFields rest

end

variable {v : Value} {fs : Fields}

theorem IsText.records (h : v.IsText) : v.records = [] := by
  cases v <;> first | rfl | exact h.elim

theorem recordsOfFields_eq_nil (h : ∀ f ∈ fs, f.2.records = []) : recordsOfFields fs = [] := by
  induction fs with
  | nil => rfl
  | cons f rest ih =>
    obtain ⟨name, v⟩ := f
    rw [recordsOfFields, h (name, v) List.mem_cons_self,
      ih fun f hf => h f (List.mem_cons_of_mem _ hf)]
    rfl

theorem mem_recordsOfItems {items : List Value} (h : fs ∈ recordsOfItems items) :
    ∃ v ∈ items, fs ∈ v.records := by
  induction items with
  | nil => cases h
  | cons v rest ih =>
    rcases List.mem_append.mp h with h | h
    · exact ⟨v, List.mem_cons_self, h⟩
    · obtain ⟨w, hw, hfs⟩ := ih h
      exact ⟨w, List.mem_cons_of_mem v hw, hfs⟩

/-- What is within a field is within the record, as `records` counts. -/
theorem mem_records_of_get? {name : String} {gs : Fields} (hg : Fields.get? fs name = some v)
    (h : gs ∈ v.records) : gs ∈ (record fs).records := by
  refine List.mem_cons_of_mem fs ?_
  induction fs with
  | nil => cases hg
  | cons f rest ih =>
    obtain ⟨n, w⟩ := f
    unfold Fields.get? at hg ih
    rw [List.find?_cons] at hg
    rw [recordsOfFields, List.mem_append]
    split at hg
    · obtain rfl := Option.some.inj hg
      exact .inl h
    · exact .inr (ih hg)

end Value

/-! ### The problems of a form -/

namespace Form

variable {α β : Type} {seen : List Fields} {x : Checked α} {y : Checked β} {fs : Fields}

/-- The problems of the form show no other `records` than these. -/
def Echoes (seen : List Fields) (x : Checked α) : Prop :=
  ∀ ps, x = .error ps → ∀ p ∈ ps, ∀ fs ∈ p.found.records, fs ∈ seen

theorem echoes_ok (a : α) : Echoes seen (.ok a) := by
  intro ps hps
  cases hps

theorem echoes_problem (sort : String) {found : Value} (h : ∀ fs ∈ found.records, fs ∈ seen) :
    Echoes seen (problem sort found : Checked α) := by
  intro ps hps p hp
  obtain rfl := Except.error.inj hps
  obtain rfl := List.mem_singleton.mp hp
  exact h

/-- A value that is not as it should be is what is shown. -/
theorem echoes_orProblem (v : Value) (x : Except String α) : Echoes v.records (orProblem v x) := by
  cases x with
  | ok a => exact echoes_ok a
  | error sort => exact echoes_problem sort fun fs h => h

theorem Echoes.within (h : Echoes seen x) (place : Value) : Echoes seen (within place x) := by
  cases x with
  | ok a => exact echoes_ok a
  | error qs =>
    intro ps hps p hp
    obtain rfl := Except.error.inj hps
    obtain ⟨q, hq, rfl⟩ := List.mem_map.mp hp
    exact h qs rfl q hq

theorem Echoes.both (hx : Echoes seen x) (hy : Echoes seen y) : Echoes seen (both x y) := by
  intro ps hps p hp
  cases x with
  | ok a =>
    cases y with
    | ok b => cases hps
    | error qs =>
      obtain rfl := Except.error.inj hps
      exact hy _ rfl p hp
  | error qs =>
    cases y with
    | ok b =>
      obtain rfl := Except.error.inj hps
      exact hx _ rfl p hp
    | error rs =>
      obtain rfl := Except.error.inj hps
      rcases List.mem_append.mp hp with hp | hp
      · exact hx qs rfl p hp
      · exact hy rs rfl p hp

theorem Echoes.bind (hx : Echoes seen x) {k : α → Checked β} (hk : ∀ a, Echoes seen (k a)) :
    Echoes seen (x >>= k) := by
  cases x with
  | ok a => exact hk a
  | error qs =>
    intro ps hps
    exact hx ps (Except.error.inj hps ▸ rfl)

theorem Echoes.mono {more : List Fields} (h : Echoes seen x) (hm : ∀ fs ∈ seen, fs ∈ more) :
    Echoes more x :=
  fun ps hps p hp fs hfs => hm fs (h ps hps p hp fs hfs)

theorem echoes_required {read : Value → Checked α} (h : ∀ v, Echoes v.records (read v))
    (fs : Fields) (name : String) : Echoes (Value.record fs).records (required fs name read) := by
  unfold required
  refine Echoes.within ?_ _
  cases hg : Fields.get? fs name with
  | none => exact echoes_problem _ fun gs hgs => hgs
  | some v => exact (h v).mono fun gs hgs => Value.mem_records_of_get? hg hgs

theorem echoes_optional {read : Value → Checked α} (h : ∀ v, Echoes v.records (read v))
    (fs : Fields) (name : String) (otherwise : α) :
    Echoes (Value.record fs).records
      (optional name (Fields.get? fs name) read otherwise) := by
  unfold optional
  cases hg : Fields.get? fs name with
  | none => exact echoes_ok otherwise
  | some v =>
    exact Echoes.within ((h v).mono fun gs hgs => Value.mem_records_of_get? hg hgs) _

theorem echoes_text (v : Value) : Echoes v.records (text v) := by
  cases v with
  | text s => exact echoes_ok s
  | torn t => exact echoes_ok _
  | status s => exact echoes_ok _
  | _ => exact echoes_problem _ fun fs h => h

theorem echoes_anyText (v : Value) : Echoes v.records (anyText v) := by
  have htext : Echoes v.records ((text v).map Value.text) :=
    (echoes_text v).bind fun s => echoes_ok (Value.text s)
  cases v with
  | torn t => exact echoes_ok _
  | _ => exact htext

end Form

namespace Web

open Desk Form

/-! ### Loans in bodies -/

/-- The loans that a body tells of: all records in it that have an owner. -/
def Body.loans : Body → List Fields
  | .value v => v.records.filter fun fs => (Fields.get? fs "owner_id").isSome
  | _ => []

/-- The records that a body shows with the problems of a form. -/
def Body.found : Body → List Fields
  | .problems ps => ps.flatMap fun p => p.found.records
  | _ => []

theorem Body.loans_value (v : Value) :
    (Body.value v).loans = v.records.filter fun fs => (Fields.get? fs "owner_id").isSome := rfl

variable {fs : Fields} {id : String}

/-- A record of plain values that has no owner is no loan and holds none. -/
theorem loans_plain (hp : ∀ f ∈ fs, f.2.records = []) (ho : Fields.get? fs "owner_id" = none) :
    (Body.value (.record fs)).loans = [] := by
  rw [Body.loans_value, Value.records, Value.recordsOfFields_eq_nil hp, List.filter_cons, ho]
  rfl

theorem records_sheet {sheet : Loan.Sheet} (h : sheet.Filed id) :
    (Value.record sheet.record).records = [sheet.record] := by
  obtain ⟨n, hn⟩ := h.loan.owner
  have hreviewed : (Loan.stampValue sheet.loan.reviewed).records = [] := by
    cases sheet.loan.reviewed <;> rfl
  have hcomments : sheet.loan.comments.records = [] := by
    rcases h.loan.comments with hc | hc
    · rw [hc]
      rfl
    · exact hc.records
  have hplain : Value.recordsOfFields sheet.record = [] := by
    refine Value.recordsOfFields_eq_nil fun f hf => ?_
    simp only [Loan.Sheet.record, h.loan.id, hn, List.mem_cons, List.not_mem_nil, or_false] at hf
    rcases hf with rfl | rfl | rfl | rfl | rfl | rfl | rfl | rfl | rfl | rfl | rfl | rfl | rfl
    all_goals first
      | rfl
      | exact hreviewed
      | exact hcomments
      | exact h.ownerName.records
      | exact h.ownerEmail.records
  rw [Value.records, hplain]

/-- The sheet of a loan tells of that loan alone: the `Body.loans` of its record. -/
theorem loans_sheet {sheet : Loan.Sheet} (h : sheet.Filed id) :
    ∀ fs ∈ (Body.value (.record sheet.record)).loans,
      Fields.get? fs "owner_id" = some sheet.loan.owner := by
  intro fs hfs
  rw [Body.loans_value, records_sheet h] at hfs
  obtain rfl := List.mem_singleton.mp (List.mem_of_mem_filter hfs)
  rfl

/-- A list of sheets tells of their loans. -/
theorem loans_sheets {sheets : List Loan.Sheet} (h : ∀ s ∈ sheets, ∃ id, s.Filed id) :
    ∀ fs ∈ (Body.value (sheetsBody sheets)).loans,
      ∃ s ∈ sheets, Fields.get? fs "owner_id" = some s.loan.owner := by
  intro fs hfs
  obtain ⟨hfs, ho⟩ := List.mem_filter.mp hfs
  obtain ⟨v, hv, hfs⟩ := Value.mem_recordsOfItems hfs
  obtain ⟨s, hs, rfl⟩ := List.mem_map.mp hv
  obtain ⟨id, hid⟩ := h s hs
  exact ⟨s, hs, loans_sheet hid fs (List.mem_filter.mpr ⟨hfs, ho⟩)⟩

/-- What is told of a user is no loan. -/
theorem loans_pass {pass : Account.Pass} (h : pass.user.Filed id) (more : Fields)
    (hm : ∀ f ∈ more, f.2.records = []) (ho : Fields.get? more "owner_id" = none) :
    (Body.value (.record (pass.record ++ more))).loans = [] := by
  obtain ⟨b, hb⟩ := h.isAdmin
  refine loans_plain (fun f hf => ?_) ho
  rcases List.mem_append.mp hf with hf | hf
  · simp only [Account.Pass.record, h.id, hb, List.mem_cons, List.not_mem_nil, or_false] at hf
    rcases hf with rfl | rfl | rfl | rfl | rfl
    · rfl
    · exact h.name.records
    · exact h.email.records
    · rfl
    · rfl
  · exact hm f hf

theorem loans_summary {summary : Summary} (h : summary.user.Filed id) (more : Fields)
    (hm : ∀ f ∈ more, f.2.records = []) (ho : Fields.get? more "owner_id" = none) :
    (Body.value (.record (summary.record ++ more))).loans = [] := by
  obtain ⟨b, hb⟩ := h.isAdmin
  refine loans_plain (fun f hf => ?_) ho
  rcases List.mem_append.mp hf with hf | hf
  · simp only [Summary.record, h.id, hb, List.mem_cons, List.not_mem_nil, or_false] at hf
    rcases hf with rfl | rfl | rfl | rfl | rfl | rfl | rfl | rfl | rfl
    · rfl
    · exact h.name.records
    · exact h.email.records
    all_goals rfl
  · exact hm f hf

theorem loans_schedule (entries : List Annuity.Entry) :
    (Body.value (.record [("schedule",
      .list (entries.map fun e => .record (scheduleRecord e)))])).loans = [] := by
  refine List.filter_eq_nil_iff.mpr fun fs hfs ho => ?_
  rcases List.mem_cons.mp hfs with rfl | hfs
  · cases ho
  · rw [Value.recordsOfFields, Value.recordsOfFields, List.append_nil] at hfs
    obtain ⟨v, hv, hfs⟩ := Value.mem_recordsOfItems hfs
    obtain ⟨e, -, rfl⟩ := List.mem_map.mp hv
    obtain rfl := List.mem_singleton.mp hfs
    cases ho

/-! ### What a form echoes -/

/-- All records that a request carries. -/
def Content.records : Content → List Fields
  | .json v => v.records
  | _ => []

theorem Registration.echoes (fs : Fields) :
    Echoes (Value.record fs).records (Registration.read fs) := by
  have hfield := fun name => echoes_required echoes_anyText fs name
  exact ((hfield _).both ((hfield _).both (hfield _))).bind fun _ => echoes_ok _

theorem Credentials.echoes (fs : Fields) :
    Echoes (Value.record fs).records (Credentials.read fs) := by
  have hfield := fun name => echoes_required echoes_anyText fs name
  exact ((hfield _).both (hfield _)).bind fun _ => echoes_ok _

theorem LoanForm.echoes (fs : Fields) : Echoes (Value.record fs).records (LoanForm.read fs) := by
  have hamount : ∀ name, Echoes (Value.record fs).records (required fs name Form.amount) :=
    echoes_required (fun v => echoes_orProblem v _) fs
  have hterm : Echoes (Value.record fs).records (required fs "term_in_months" whole) :=
    echoes_required (fun v => echoes_orProblem v _) fs _
  exact ((hamount _).both ((hamount _).both hterm)).bind fun _ => echoes_ok _

theorem ReviewForm.echoes_statusWord (v : Value) : Echoes v.records (ReviewForm.statusWord v) := by
  refine (echoes_text v).bind fun s => ?_
  cases Loan.Status.ofLooseWord? s with
  | some _ => exact echoes_ok s
  | none => exact echoes_problem _ fun fs h => h

theorem ReviewForm.echoes_comment (v : Value) : Echoes v.records (ReviewForm.comment v) := by
  have htext : Echoes v.records (do
      let s ← text v
      if longestComment < s.length then problem "string_too_long" v else return some s) := by
    refine (echoes_text v).bind fun s => ?_
    split
    · exact echoes_problem _ fun fs h => h
    · exact echoes_ok _
  cases v with
  | null => exact echoes_ok none
  | torn t => exact echoes_problem _ fun fs h => h
  | _ => exact htext

theorem ReviewForm.echoes (fs : Fields) :
    Echoes (Value.record fs).records (ReviewForm.read fs) := by
  have hstatus := echoes_required ReviewForm.echoes_statusWord fs "status"
  have hcomment := echoes_optional ReviewForm.echoes_comment fs "admin_comments" none
  exact (hstatus.both hcomment).bind fun _ => echoes_ok _

/-- The problems with the content of a request, read by `Content.checked`, show what was in it. -/
theorem Content.echoes {α : Type} {read : Fields → Checked α}
    (h : ∀ fs, Echoes (Value.record fs).records (read fs)) (c : Content) :
    Echoes c.records (c.checked read) := by
  unfold Content.checked
  refine Echoes.within ?_ _
  cases c with
  | nothing => exact echoes_problem _ fun fs hfs => hfs
  | unread s => exact echoes_problem _ fun fs hfs => hfs
  | json v =>
    cases v with
    | record fs => exact h fs
    | _ => exact echoes_problem _ fun fs hfs => hfs

end Web
end LoanDesk
