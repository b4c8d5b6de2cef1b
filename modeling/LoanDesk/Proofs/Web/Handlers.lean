import LoanDesk.Proofs.Desk.Accounts
import LoanDesk.Proofs.Web.Access
import LoanDesk.Web.Site

/-
# What each route does

One lemma for each handler: its reply is fair, and what it does is a deed of its sender's.
The site only picks the handler, so every reply of the site is as it should be. None of them
changes the clock or the terms of the desk (`Web.isSteady_handle`).

Key theorems: `Web.ends_register`, `Web.ends_createLoan`, `Web.ends_myLoans`,
`Web.ends_deleteLoan`, `Web.ends_reviewLoan`, `Web.ends_handle`, `Web.ends_replyTo`.
-/

namespace LoanDesk
namespace Web

open Store Desk

variable {d : Desk} {ts : Shelves} {r : Request} {who : Option User}

/-! ### Accounts -/

theorem ends_register (h : d.Keeps plainOwners ts) :
    d.Ends (register r) (Answers r who ts) := by
  refine ends_withContent h fun c hc => ends_withBody h hc Registration.echoes fun form => ?_
  have hwork : d.Ends (Desk.register form.name form.email form.password)
      (Works who ts fun pass => ∃ id, pass.user.Filed id) := by
    refine (h.register form.name form.email form.password).mono fun x d' hx => ⟨?_, hx.2⟩
    cases hx.1 with
    | none _ _ hkeeps => exact ⟨ts, hkeeps, .nothing⟩
    | enrolled hu hadmin _ hids hkeeps =>
      have hnew := h.user_not_mem (fun _ _ hid => hid) hids
      rw [Table.put_of_not_mem (isExact_string _) hnew] at hkeeps
      exact ⟨_, hkeeps, .enrolled hu hadmin hnew⟩
  refine ends_attempt hwork (fun refusal d' ts' hkeeps hd => ?_) fun pass d' ts' hkeeps hd hu => ?_
  · exact Works.of_deed hkeeps hd (isFair_saying _)
  · obtain ⟨id, hid⟩ := hu
    have hloans := loans_pass hid [] (by simp) rfl
    rw [List.append_nil] at hloans
    exact Works.of_deed hkeeps hd (.of_value hloans)

theorem ends_login (h : d.Keeps plainOwners ts) : d.Ends (login r) (Answers r who ts) := by
  refine ends_withContent h fun c hc => ends_withBody h hc Credentials.echoes fun form => ?_
  refine .look (.attempt (isLook_login _ _)) (fun x hx => ?_) fun f => .of_error h f
  cases x with
  | error refusal => exact Works.of_same h (isFair_saying _)
  | ok pass =>
    obtain ⟨id, hid⟩ := h.login_ok (of_attempt_ok hx)
    exact Works.of_same h (.of_value (loans_pass hid _ (by simp [Value.records]) rfl))

theorem ends_showCaller (h : d.Keeps plainOwners ts) :
    d.Ends (showCaller r) (Answers r (sender d r) ts) := by
  refine ends_withCaller h fun u id _ hid => ?_
  refine .look (isLook_summarize u.id) (fun summary hs => ?_) fun f => .of_error h f
  rw [hid.id] at hs
  have hsummary := h.summarize_ok hs
  exact Works.of_same h (.of_value (loans_summary hsummary _ (by simp [Value.records]) rfl))

/-! ### Lending -/

theorem ends_createLoan (h : d.Keeps plainOwners ts) :
    d.Ends (createLoan r) (Answers r (sender d r) ts) := by
  refine ends_withContent h fun c hc => ends_withCaller h fun u id hs hid =>
    ends_withBody h hc LoanForm.echoes fun form => ?_
  have hwork : d.Ends (do Desk.createLoan u.id (← lifted form.request))
      (Works (sender d r) ts fun sheet => ∃ n, sheet.Filed n ∧ sheet.loan.owner = u.id) := by
    refine .look (.lifted _) (fun q _ => ?_) fun f => .of_error h f
    rw [hid.id]
    refine (h.createLoan id q fun _ => plainOwner_of_lent).mono fun x d' hx => ?_
    cases hx with
    | refused f => exact .of_error h f
    | failed f => exact .of_error h.freshId f
    | lent hsheet _ hlent _ hkeeps =>
      have howner := hlent.owner.trans hid.id.symm
      have hd := Deed.lent hs hsheet.loan hlent.status howner h.not_mem_next
      exact .of_deed hkeeps hd ⟨_, hsheet, hlent.owner⟩
  refine ends_attempt hwork (fun refusal d' ts' hkeeps hd => ?_) fun sheet d' ts' hkeeps hd hx => ?_
  · exact Works.of_deed hkeeps hd (isFair_saying _)
  · obtain ⟨n, hn, howner⟩ := hx
    -- The entry about the loan may fail, and the loan stays.
    refine .look (.lifted _) (fun e _ => ?_) fun f => .of_fault hkeeps hd f
    refine Works.of_deed hkeeps hd (.of_owner hs fun fs hfs => .inr ?_)
    rw [loans_sheet hn fs hfs, howner]

theorem ends_myLoans (h : d.Keeps plainOwners ts) :
    d.Ends (myLoans r) (Answers r (sender d r) ts) := by
  refine ends_withCaller h fun u id hs hid => ?_
  refine .look (isLook_loansOfUser u.id) (fun sheets hsheets => ?_) fun f => .of_error h f
  rw [hid.id] at hsheets
  have hown := h.loansOfUser_ok (fun _ hl => hl) hsheets
  refine Works.of_same h (.of_owner hs fun fs hfs => .inr ?_)
  obtain ⟨s, hmem, howner⟩ := loans_sheets (fun s hs => (hown s hs).1) fs hfs
  rw [howner, (hown s hmem).2, hid.id]

theorem ends_calculate (h : d.Keeps plainOwners ts) :
    d.Ends (calculate r) (Answers r who ts) := by
  refine ends_withContent h fun c hc => ends_withBody h hc LoanForm.echoes fun form => ?_
  refine .look (.attempt (.bind (.lifted _) isLook_quoteFor)) (fun x _ => ?_) fun f => .of_error h f
  cases x with
  | error refusal => exact Works.of_same h (isFair_saying _)
  | ok quote => exact Works.of_same h (.of_value rfl)

theorem ends_schedule (h : d.Keeps plainOwners ts) :
    d.Ends (schedule r) (Answers r who ts) := by
  refine ends_withContent h fun c hc => ends_withBody h hc LoanForm.echoes fun form => ?_
  refine .look (.attempt (.bind (.lifted _) isLook_scheduleFor)) (fun x _ => ?_)
    fun f => .of_error h f
  cases x with
  | error refusal => exact Works.of_same h (isFair_saying _)
  | ok entries => exact Works.of_same h (.of_value (loans_schedule entries))

theorem ends_listLoans (h : d.Keeps plainOwners ts) :
    d.Ends (listLoans r) (Answers r (sender d r) ts) := by
  refine ends_withAdmin h fun u hs hadmin => ?_
  refine .look (.attempt (.lifted _)) (fun x _ => ?_) fun f => .of_error h f
  cases x with
  | error refusal => exact Works.of_same h (isFair_saying _)
  | ok status =>
    refine .look (isLook_allLoans status) (fun sheets _ => ?_) fun f => .of_error h f
    exact Works.of_same h (.of_owner hs fun fs _ => .inl hadmin)

theorem ends_showLoan (h : d.Keeps plainOwners ts) (id : String) :
    d.Ends (showLoan id r) (Answers r (sender d r) ts) := by
  refine ends_withCaller h fun u userId hs hu => ends_withOwnLoan h hu ?_
  intro sheet l hsheet _ _ howner hmay
  refine Works.of_same h (.of_owner hs fun fs hfs => hmay.imp_right fun hown => ?_)
  rw [loans_sheet hsheet fs hfs, howner, hown]

theorem ends_deleteLoan (h : d.Keeps plainOwners ts) (id : String) :
    d.Ends (deleteLoan id r) (Answers r (sender d r) ts) := by
  refine ends_withCaller h fun u userId hs hu => ends_withOwnLoan h hu ?_
  intro sheet l _ hl hg _ hmay
  obtain ⟨s, hp, hkeeps⟩ := h.deleteLoan hg
  refine .next (a := .ok true) (e := { d with storage := s }) (by rw [perform_attempt, hp]) ?_
  refine Works.of_deed hkeeps ?_ isFair_nothing
  rcases hmay with hadmin | hown
  · exact .privileged hs hadmin
  · exact .removed hs hg (hown ▸ hl.get?_owner)

theorem ends_reviewLoan (h : d.Keeps plainOwners ts) (id : String) :
    d.Ends (reviewLoan id r) (Answers r (sender d r) ts) := by
  refine ends_withContent h fun c hc => ends_withAdmin h fun u hs hadmin =>
    ends_withBody h hc ReviewForm.echoes fun form => ?_
  have hcomments : form.commentsValue = .null ∨ form.commentsValue.IsText := by
    unfold ReviewForm.commentsValue
    cases form.comments with
    | none => exact .inl rfl
    | some s => exact .inr trivial
  have hwork : d.Ends (do
      let status ← lifted (Loan.Status.parse (.text form.status))
      Desk.reviewLoan (.text id) status form.commentsValue)
      (Works (sender d r) ts fun _ => True) := by
    refine .look (.lifted _) (fun status _ => ?_) fun f => .of_error h f
    refine (h.reviewLoan id status hcomments).mono fun x d' hx => ?_
    obtain ⟨ts', hkeeps⟩ := hx.keeps
    exact ⟨⟨ts', hkeeps, .privileged hs hadmin⟩, fun _ _ => trivial⟩
  refine ends_attempt hwork (fun refusal d' ts' hkeeps hd => ?_) fun sheet d' ts' hkeeps hd _ => ?_
  · exact Works.of_deed hkeeps hd (isFair_saying _)
  · exact Works.of_deed hkeeps hd (.of_owner hs fun fs _ => .inl hadmin)

/-! ### The site -/

theorem ends_handle (h : d.Keeps plainOwners ts) (route : Route) :
    d.Ends (handle route r) (Answers r (sender d r) ts) := by
  cases route with
  | manual => exact Works.of_same h isFair_nothing
  | home => exact Works.of_same h (.of_value rfl)
  | health => exact Works.of_same h (.of_value rfl)
  | register => exact ends_register h
  | login => exact ends_login h
  | me => exact ends_showCaller h
  | createLoan => exact ends_createLoan h
  | listLoans => exact ends_listLoans h
  | myLoans => exact ends_myLoans h
  | calculate => exact ends_calculate h
  | schedule => exact ends_schedule h
  | showLoan id => exact ends_showLoan h id
  | deleteLoan id => exact ends_deleteLoan h id
  | reviewLoan id => exact ends_reviewLoan h id

theorem ends_answer (h : d.Keeps plainOwners ts) :
    d.Ends (answer r) (Answers r (sender d r) ts) := by
  unfold answer
  cases destination r.method r.path with
  | route route => exact ends_handle h route
  | otherMethod => exact Works.of_same h (isFair_saying _)
  | elsewhere => exact Works.of_same h isFair_nothing
  | nowhere => exact Works.of_same h (isFair_saying _)

/-- A browser that asks is told by a text: the body of every `preflight?`. -/
theorem preflight_body {origins : List String} {reply : Reply}
    (h : preflight? origins r = some reply) : ∃ text, reply.body = .value (.text text) := by
  have htold : ∀ refused : List String,
      (if refused.isEmpty then some (Reply.ok (.text "OK"))
        else some { code := 400
                    body := .value (.text ("Disallowed CORS " ++ ", ".intercalate refused)) }) =
        some reply → ∃ text, reply.body = .value (.text text) := by
    intro refused hr
    split at hr
    · obtain rfl := Option.some.inj hr
      exact ⟨_, rfl⟩
    · obtain rfl := Option.some.inj hr
      exact ⟨_, rfl⟩
  unfold preflight? at h
  obtain ⟨origin, -, h⟩ := Option.bind_eq_some_iff.mp h
  obtain ⟨method, -, h⟩ := Option.bind_eq_some_iff.mp h
  by_cases hm : r.method ≠ "OPTIONS"
  · rw [if_pos hm] at h
    cases h
  · rw [if_neg hm] at h
    exact htold _ h

theorem ends_replyTo (h : d.Keeps plainOwners ts) :
    d.Ends (replyTo r) (Answers r (sender d r) ts) := by
  unfold replyTo
  refine .next (perform_get d) ?_
  cases hp : preflight? d.terms.origins r with
  | none => exact ends_answer h
  | some reply =>
    obtain ⟨text, htext⟩ := preflight_body hp
    refine Works.of_same h ?_
    rw [htext]
    exact .of_value rfl

/-! ### Clock and terms -/

section Steady

variable {α : Type}

theorem isLook_caller (r : Request) : IsLook (caller r) := fun d => by
  rw [perform_caller]

theorem isSteady_withContent {k : Content → Work Reply} (hk : ∀ c, IsSteady (k c)) :
    IsSteady (withContent r k) := by
  unfold withContent
  split
  · exact hk _
  · exact (IsLook.pure _).isSteady
  · exact (IsLook.pure _).isSteady

theorem isSteady_withBody {c : Content} {read : Fields → Form.Checked α} {k : α → Work Reply}
    (hk : ∀ a, IsSteady (k a)) : IsSteady (withBody c read k) := by
  unfold withBody
  split
  · exact (IsLook.pure _).isSteady
  · exact hk _

theorem isSteady_withCaller {k : User → Work Reply} (hk : ∀ u, IsSteady (k u)) :
    IsSteady (withCaller r k) := by
  refine .bind (isLook_caller r).isSteady fun found => ?_
  cases found with
  | error reply => exact (IsLook.pure _).isSteady
  | ok u => exact hk u

theorem isSteady_withOwnLoan {id : String} {u : User} {k : Loan.Sheet → Work Reply}
    (hk : ∀ sheet, IsSteady (k sheet)) : IsSteady (withOwnLoan id u k) := by
  refine .bind (isLook_loanSheet _).attempt.isSteady fun found => ?_
  cases found with
  | error refusal => exact (IsLook.pure _).isSteady
  | ok sheet =>
    simp only
    split
    · exact hk sheet
    · exact (IsLook.pure _).isSteady

/-- Work whose refusal is kept by `attempt`, and a reply that is made without the desk. -/
theorem isSteady_attempt {w : Work α} {k : Except Refusal α → Work Reply} (hw : IsSteady w)
    (hk : ∀ x, IsLook (k x)) : IsSteady (attempt w >>= k) :=
  .bind hw.attempt fun x => (hk x).isSteady

theorem isLook_pure (reply : Reply) : IsLook (pure reply : Work Reply) :=
  .pure reply

theorem register_isSteady (r : Request) : IsSteady (register r) := by
  refine isSteady_withContent fun c => isSteady_withBody fun form => ?_
  exact isSteady_attempt (isSteady_register _ _ _) fun x => by cases x <;> exact isLook_pure _

theorem login_isSteady (r : Request) : IsSteady (login r) := by
  refine isSteady_withContent fun c => isSteady_withBody fun form => ?_
  exact isSteady_attempt (isLook_login _ _).isSteady fun x => by cases x <;> exact isLook_pure _

theorem showCaller_isSteady (r : Request) : IsSteady (showCaller r) :=
  isSteady_withCaller fun _ => ((isLook_summarize _).bind fun _ => isLook_pure _).isSteady

theorem createLoan_isSteady (r : Request) : IsSteady (createLoan r) := by
  refine isSteady_withContent fun c => isSteady_withCaller fun u =>
    isSteady_withBody fun form => ?_
  refine isSteady_attempt (.bind (IsLook.lifted _).isSteady fun q => isSteady_createLoan _ q)
    fun x => ?_
  cases x with
  | error refusal => exact isLook_pure _
  | ok sheet => exact (IsLook.lifted _).bind fun e => isLook_pure _

theorem listLoans_isSteady (r : Request) : IsSteady (listLoans r) := by
  refine isSteady_withCaller fun u => ?_
  split
  · refine isSteady_attempt (IsLook.lifted _).isSteady fun x => ?_
    cases x with
    | error refusal => exact isLook_pure _
    | ok status => exact (isLook_allLoans status).bind fun _ => isLook_pure _
  · exact (isLook_pure _).isSteady

theorem myLoans_isSteady (r : Request) : IsSteady (myLoans r) :=
  isSteady_withCaller fun _ => ((isLook_loansOfUser _).bind fun _ => isLook_pure _).isSteady

theorem calculate_isSteady (r : Request) : IsSteady (calculate r) := by
  refine isSteady_withContent fun c => isSteady_withBody fun form => ?_
  exact isSteady_attempt ((IsLook.lifted _).bind fun q => isLook_quoteFor q).isSteady
    fun x => by cases x <;> exact isLook_pure _

theorem schedule_isSteady (r : Request) : IsSteady (schedule r) := by
  refine isSteady_withContent fun c => isSteady_withBody fun form => ?_
  exact isSteady_attempt ((IsLook.lifted _).bind fun q => isLook_scheduleFor q).isSteady
    fun x => by cases x <;> exact isLook_pure _

theorem showLoan_isSteady (id : String) (r : Request) : IsSteady (showLoan id r) :=
  isSteady_withCaller fun _ => isSteady_withOwnLoan fun _ => (isLook_pure _).isSteady

theorem deleteLoan_isSteady (id : String) (r : Request) : IsSteady (deleteLoan id r) := by
  refine isSteady_withCaller fun u => isSteady_withOwnLoan fun sheet => ?_
  exact isSteady_attempt (isSteady_deleteLoan _) fun x => by cases x <;> exact isLook_pure _

theorem reviewLoan_isSteady (id : String) (r : Request) : IsSteady (reviewLoan id r) := by
  refine isSteady_withContent fun c => isSteady_withCaller fun u => ?_
  split
  · refine isSteady_withBody fun form => ?_
    exact isSteady_attempt (.bind (IsLook.lifted _).isSteady fun status =>
      isSteady_reviewLoan _ status _) fun x => by cases x <;> exact isLook_pure _
  · exact (isLook_pure _).isSteady

/-- No route changes the clock or the terms: `handle` is steady, case by case of `Route`. -/
theorem isSteady_handle (route : Route) (r : Request) : IsSteady (handle route r) := by
  cases route with
  | manual => exact (isLook_pure _).isSteady
  | home => exact (isLook_pure _).isSteady
  | health => exact (isLook_pure _).isSteady
  | register => exact register_isSteady r
  | login => exact login_isSteady r
  | me => exact showCaller_isSteady r
  | createLoan => exact createLoan_isSteady r
  | listLoans => exact listLoans_isSteady r
  | myLoans => exact myLoans_isSteady r
  | calculate => exact calculate_isSteady r
  | schedule => exact schedule_isSteady r
  | showLoan id => exact showLoan_isSteady id r
  | deleteLoan id => exact deleteLoan_isSteady id r
  | reviewLoan id => exact reviewLoan_isSteady id r

end Steady

end Web
end LoanDesk
