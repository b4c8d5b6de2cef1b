import LoanDesk.Proofs.Account.Token
import LoanDesk.Proofs.Desk.Reads
import LoanDesk.Proofs.Text.Case
import LoanDesk.Proofs.Web.Replies

/-
# Who may do what

The sender of a request is the user whom the site takes for its caller. What a request may
do to a desk is a deed: one of few, told by what the sender is. A reply is fair if it tells
its sender of no loan but the sender's own, unless the sender is an administrator. What a
handler must settle first is settled here once, so that each handler needs to account for
its own part only.

Key definitions: `Web.sender`, `Web.Deed`, `Web.IsFair`, `Web.Works`, `Web.Answers`.
Key theorems: `Web.perform_caller`, `Web.callerOf_of_standsFor`, `Web.filed_of_sender`,
`Web.ends_attempt`,
`Web.ends_withContent`, `Web.ends_withBody`, `Web.ends_withCaller`, `Web.ends_withAdmin`,
`Web.ends_withOwnLoan`.
-/

namespace LoanDesk
namespace Web

open Store Desk

/-- The desk gives out the ids of its users, so its loans have owners without zero characters. -/
def plainOwners : Rule where
  user := IsIssued
  loan := Loan.HasPlainOwner
  issued := isIssued_self
  mono := IsIssued.mono
  reviewed := by
    intro id l l' target comments at_ hl hfiled hread s hs
    exact hl s ((hfiled.read hread).2.1 ▸ hs)

theorem plainOwner_of_lent {d : Desk} {owner : String} {q : Loan.Request} {l : Loan}
    (ho : IsIssued d.ids owner) (h : Keeps.Lent d q owner l) : l.HasPlainOwner := by
  obtain ⟨n, -, rfl⟩ := ho
  intro s hs
  obtain rfl := Value.text.inj (h.owner.symm.trans hs)
  exact upToZero_idOf n

/-- The user who sends a request: the `caller`, if there is one. -/
def sender (d : Desk) (r : Request) : Option User :=
  match (d.perform (caller r)).1 with
  | .ok (.ok u) => some u
  | _ => none

variable {d : Desk} {ts ts' : Shelves} {r : Request} {u : User} {who : Option User} {id : String}

/-! ### The sender -/

theorem perform_readToken (d : Desk) (token : String) :
    d.perform (readToken (.text token)) =
      (Account.Token.userId d.terms.tokens d.clock token, d) := by
  unfold readToken
  rw [perform_bind_ok (perform_get d), perform_bind_ok (perform_now d), perform_lifted]

/-- What comes of looking for the `caller`. -/
def callerOf (d : Desk) (r : Request) : Except Fault (Except Reply User) :=
  match r.bearer? with
  | none => .ok (.error (.saying 401 "Not authenticated"))
  | some token =>
    match Account.Token.userId d.terms.tokens d.clock token with
    | .error (.refused refusal) => .ok (.error (.saying 401 refusal.message))
    | .error f => .error f
    | .ok id =>
      match UserBook.get? d.storage id with
      | .error f => .error f
      | .ok none => .ok (.error (.saying 401 Refusal.tokenInvalid.message))
      | .ok (some u) => .ok (.ok u)

theorem perform_caller (d : Desk) (r : Request) : d.perform (caller r) = (callerOf d r, d) := by
  unfold caller callerOf
  cases r.bearer? with
  | none => rfl
  | some token =>
    have hread := perform_attempt d (readToken (.text token))
    rw [perform_readToken] at hread
    simp only
    rw [perform_bind, hread]
    cases Account.Token.userId d.terms.tokens d.clock token with
    | error f => cases f <;> rfl
    | ok id =>
      have huser : d.perform (user? id) = (UserBook.get? d.storage id, d) := perform_reading d _
      simp only
      rw [perform_bind, huser]
      rcases UserBook.get? d.storage id with f | found
      · rfl
      · cases found <;> rfl

theorem sender_eq (d : Desk) (r : Request) : sender d r =
    match callerOf d r with
    | .ok (.ok u) => some u
    | _ => none := by
  unfold sender
  rw [perform_caller]

/-- The number of requests does not matter to who sends one. -/
theorem sender_requests (d : Desk) (n : ℕ) (r : Request) :
    sender { d with requests := n } r = sender d r := by
  rw [sender_eq, sender_eq]
  rfl

theorem sender_of_callerOf (h : callerOf d r = .ok (.ok u)) : sender d r = some u := by
  rw [sender_eq, h]

/-- The token of a header that says so, if nothing would be trimmed off it: what `Request.bearer?`
finds. -/
theorem bearer_of_header {token : String}
    (hheader : r.header? "authorization" = some ("Bearer " ++ token))
    (hbare : ∀ c ∈ token.toList, Text.isBlank c = false) (hne : token ≠ "") :
    r.bearer? = some token := by
  have hcut : cut ' ' ("Bearer " ++ token).toList = ("Bearer".toList, token.toList) := by
    rw [String.toList_append]
    rfl
  have hscheme : Text.lower "Bearer".toList = "bearer".toList := by decide +kernel
  unfold Request.bearer?
  rw [hheader]
  simp only [hcut, Text.Torn.trim_of_forall hbare, String.ofList_toList]
  exact if_pos ⟨hscheme, hne⟩

/-- A user on file whose token stands at the time (`Token.StandsFor`) is the caller. -/
theorem callerOf_of_standsFor {token : String} {issued expires : ℤ}
    (hbearer : r.bearer? = some token)
    (hstands : Account.Token.StandsFor d.terms.tokens token (.text id) issued expires)
    (hclock : d.clock.IsCountable) (hissued : issued * 1000000 ≤ d.clock.epochMicros)
    (hexpires : d.clock.epochMicros < expires * 1000000)
    (hfile : UserBook.get? d.storage (.text id) = .ok (some u)) : callerOf d r = .ok (.ok u) := by
  have htoken := (hstands.accepted d.clock hclock).mpr ⟨hissued, hexpires⟩
  unfold callerOf
  rw [hbearer]
  simp only [htoken, hfile]

/-- Work under `withCaller` is done for the caller, where there is one. -/
theorem perform_withCaller (h : callerOf d r = .ok (.ok u)) (k : User → Work Reply) :
    d.perform (withCaller r k) = d.perform (k u) := by
  unfold withCaller
  exact perform_bind_ok (by rw [perform_caller, h]) _

/-- A sender is on file. -/
theorem filed_of_sender {R : Rule} (h : d.Keeps R ts) (hs : sender d r = some u) :
    ∃ id, u.Filed id := by
  rw [sender_eq] at hs
  have hcaller : callerOf d r = .ok (.ok u) := by
    split at hs
    · next v hv =>
      rw [hv, Option.some.inj hs]
    · cases hs
  unfold callerOf at hcaller
  split at hcaller
  · cases hcaller
  · split at hcaller
    · cases hcaller
    · cases hcaller
    · next v _ =>
      split at hcaller
      · cases hcaller
      · cases hcaller
      · next w hw =>
        obtain rfl := Except.ok.inj (Except.ok.inj hcaller)
        have huser : (d.perform (user? v)).1 = .ok (some w) := by
          unfold user?
          rw [perform_reading]
          exact hw
        obtain ⟨id, -, hid⟩ := h.filed_of_user? huser
        exact ⟨id, hid⟩

/-- Where there is no `caller`, the reply says so and no more. -/
theorem callerOf_error {reply : Reply} (h : callerOf d r = .ok (.error reply)) :
    ∃ code text, reply = .saying code text := by
  unfold callerOf at h
  split at h
  · obtain rfl := Except.error.inj (Except.ok.inj h)
    exact ⟨_, _, rfl⟩
  · split at h
    · obtain rfl := Except.error.inj (Except.ok.inj h)
      exact ⟨_, _, rfl⟩
    · cases h
    · split at h
      · cases h
      · obtain rfl := Except.error.inj (Except.ok.inj h)
        exact ⟨_, _, rfl⟩
      · cases h

/-! ### Deeds -/

/-- What a request may do to the documents of a desk: nothing; anything, for an administrator;
enrol a user without rights; or, for its sender, lend or remove a loan of the sender's. -/
inductive Deed (who : Option User) (ts : Shelves) : Shelves → Prop
  | nothing : Deed who ts ts
  | privileged {u : User} {ts' : Shelves} : who = some u → u.isAdministrator = true →
      Deed who ts ts'
  | enrolled {id : String} {u : User} : u.Filed id → u.isAdmin = .bool false →
      id ∉ (ts .users).ids →
      Deed who ts (Function.update ts .users (ts .users ++ [(id, u.document)]))
  | lent {id : String} {l : Loan} {u : User} : who = some u → l.Filed id → l.status = .pending →
      l.owner = u.id → id ∉ (ts .loans).ids →
      Deed who ts (Function.update ts .loans (ts .loans ++ [(id, l.document)]))
  | removed {id : String} {fs : Fields} {u : User} : who = some u →
      (ts .loans).get? id = some fs → Fields.get? fs "owner_id" = some u.id →
      Deed who ts (Function.update ts .loans ((ts .loans).erase id))

/-- A body that tells a sender of no loan but the sender's own, unless the sender is an
administrator, and that shows of problems what was in the request. -/
structure IsFair (r : Request) (who : Option User) (body : Body) : Prop where
  loans : ∀ fs ∈ body.loans, ∃ u, who = some u ∧
    (u.isAdministrator = true ∨ Fields.get? fs "owner_id" = some u.id)
  found : ∀ fs ∈ body.found, ∃ c, r.content = .ok c ∧ fs ∈ c.records

/-- What comes of work for a request: the desk is in order and has changed by a deed, and the
result, if there is one, is as told. -/
structure Works {α : Type} (who : Option User) (ts : Shelves) (B : α → Prop) (x : Except Fault α)
    (d' : Desk) : Prop where
  deed : ∃ ts', d'.Keeps plainOwners ts' ∧ Deed who ts ts'
  result : ∀ a, x = .ok a → B a

/-- What comes of a request is as it should be: the reply, if there is one, is fair. -/
abbrev Answers (r : Request) (who : Option User) (ts : Shelves) :
    Except Fault Reply → Desk → Prop :=
  Works who ts fun reply => IsFair r who reply.body

/-! ### Fair bodies -/

/-- A value that tells of no loans is fair. -/
theorem IsFair.of_value {v : Value} (h : (Body.value v).loans = []) :
    IsFair r who (.value v) := by
  refine ⟨fun fs hfs => ?_, fun fs hfs => ?_⟩
  · rw [h] at hfs
    cases hfs
  · cases hfs

theorem isFair_nothing : IsFair r who .nothing := by
  refine ⟨fun fs hfs => ?_, fun fs hfs => ?_⟩ <;> cases hfs

theorem isFair_saying (text : String) :
    IsFair r who (.value (.record [("detail", .text text)])) :=
  .of_value rfl

/-- What tells of loans of the sender's is fair. -/
theorem IsFair.of_owner {v : Value} (hu : who = some u)
    (h : ∀ fs ∈ (Body.value v).loans,
      u.isAdministrator = true ∨ Fields.get? fs "owner_id" = some u.id) :
    IsFair r who (.value v) :=
  ⟨fun fs hfs => ⟨u, hu, h fs hfs⟩, fun fs hfs => by cases hfs⟩

/-- Problems with what a request carries are fair, for they echo it (`Echoes`). -/
theorem IsFair.of_echoes {c : Content} {α : Type} {x : Form.Checked α} {ps : List Problem}
    (hc : r.content = .ok c) (h : Form.Echoes c.records x) (hx : x = .error ps) :
    IsFair r who (Reply.malformed ps).body := by
  refine ⟨fun fs hfs => ?_, fun fs hfs => ⟨c, hc, ?_⟩⟩
  · cases hfs
  · obtain ⟨p, hp, hfs⟩ := List.mem_flatMap.mp hfs
    exact h ps hx p hp fs hfs

namespace Works

variable {α : Type} {B : α → Prop} {a : α}

/-- A result as told, after a `Deed`. -/
theorem of_deed (h : d.Keeps plainOwners ts') (hd : Deed who ts ts') (ha : B a) :
    Works who ts B (.ok a) d :=
  ⟨⟨ts', h, hd⟩, fun _ e => Except.ok.inj e ▸ ha⟩

theorem of_fault (h : d.Keeps plainOwners ts') (hd : Deed who ts ts') (f : Fault) :
    Works who ts B (.error f) d :=
  ⟨⟨ts', h, hd⟩, fun _ e => nomatch e⟩

/-- A result as told, from a desk that has not changed its documents. -/
theorem of_same (h : d.Keeps plainOwners ts) (ha : B a) : Works who ts B (.ok a) d :=
  of_deed h .nothing ha

theorem of_error (h : d.Keeps plainOwners ts) (f : Fault) : Works who ts B (.error f) d :=
  of_fault h .nothing f

end Works

/-! ### What handlers settle first -/

section Settled

variable {α : Type}

/-- Work whose refusal is kept for the reply by `attempt`, and the reply after it. -/
theorem ends_attempt {B : α → Prop} {w : Work α} (h : d.Ends w (Works who ts B))
    {k : Except Refusal α → Work Reply}
    (hrefused : ∀ refusal (d' : Desk) ts', d'.Keeps plainOwners ts' → Deed who ts ts' →
      d'.Ends (k (.error refusal)) (Answers r who ts))
    (hok : ∀ a (d' : Desk) ts', d'.Keeps plainOwners ts' → Deed who ts ts' → B a →
      d'.Ends (k (.ok a)) (Answers r who ts)) :
    d.Ends (attempt w >>= k) (Answers r who ts) := by
  have hattempt : d.Ends (attempt w) fun x d' =>
      (∃ ts', d'.Keeps plainOwners ts' ∧ Deed who ts ts') ∧ ∀ a, x = .ok (.ok a) → B a := by
    refine h.attempt (fun a d' hx => ⟨hx.deed, fun b e => ?_⟩)
      (fun refusal d' hx => ⟨hx.deed, fun b e => ?_⟩) fun f d' hx => ⟨hx.deed, fun b e => ?_⟩
    · obtain rfl := Except.ok.inj (Except.ok.inj e)
      exact hx.result a rfl
    · cases e
    · cases e
  refine hattempt.bind (fun x d' hx => ?_) fun f d' hx => ?_
  · obtain ⟨⟨ts', hkeeps, hd⟩, hresult⟩ := hx
    cases x with
    | error refusal => exact hrefused refusal d' ts' hkeeps hd
    | ok a => exact hok a d' ts' hkeeps hd (hresult a rfl)
  · obtain ⟨⟨ts', hkeeps, hd⟩, -⟩ := hx
    exact .of_fault hkeeps hd f

theorem ends_withContent (h : d.Keeps plainOwners ts) {k : Content → Work Reply}
    (hk : ∀ c, r.content = .ok c → d.Ends (k c) (Answers r who ts)) :
    d.Ends (withContent r k) (Answers r who ts) := by
  unfold withContent
  split
  · next c hc => exact hk c hc
  · refine Works.of_same h ⟨fun fs hfs => ?_, fun fs hfs => ?_⟩
    · cases hfs
    · obtain ⟨p, hp, hfs⟩ := List.mem_flatMap.mp hfs
      obtain rfl := List.mem_singleton.mp hp
      cases hfs
  · exact Works.of_same h (isFair_saying _)

theorem ends_withBody (h : d.Keeps plainOwners ts) {c : Content} (hc : r.content = .ok c)
    {read : Fields → Form.Checked α}
    (hread : ∀ fs, Form.Echoes (Value.record fs).records (read fs)) {k : α → Work Reply}
    (hk : ∀ a, d.Ends (k a) (Answers r who ts)) :
    d.Ends (withBody c read k) (Answers r who ts) := by
  unfold withBody
  split
  · next ps hps => exact Works.of_same h (.of_echoes hc (c.echoes hread) hps)
  · next a _ => exact hk a

theorem ends_withCaller (h : d.Keeps plainOwners ts) {k : User → Work Reply}
    (hk : ∀ u id, sender d r = some u → u.Filed id →
      d.Ends (k u) (Answers r (sender d r) ts)) :
    d.Ends (withCaller r k) (Answers r (sender d r) ts) := by
  unfold withCaller
  rcases hcaller : callerOf d r with f | reply | u
  · refine .intro (r := .error f) (e := d) ?_ (Works.of_error h f)
    exact perform_bind_error (by rw [perform_caller, hcaller]) _
  · obtain ⟨code, text, rfl⟩ := callerOf_error hcaller
    refine .next (a := .error (.saying code text)) (e := d) (by rw [perform_caller, hcaller]) ?_
    exact Works.of_same h (isFair_saying text)
  · have hs := sender_of_callerOf hcaller
    obtain ⟨id, hid⟩ := filed_of_sender h hs
    exact .next (a := .ok u) (e := d) (by rw [perform_caller, hcaller]) (hk u id hs hid)

/-- Whoever is no administrator is turned away by `withAdmin`. -/
theorem ends_withAdmin (h : d.Keeps plainOwners ts) {k : User → Work Reply}
    (hk : ∀ u, sender d r = some u → u.isAdministrator = true →
      d.Ends (k u) (Answers r (sender d r) ts)) :
    d.Ends (withAdmin r k) (Answers r (sender d r) ts) := by
  refine ends_withCaller h fun u id hs _ => ?_
  split
  · next hadmin => exact hk u hs hadmin
  · exact Works.of_same h (isFair_saying _)

/-- Whoever is handed the sheet of a loan by `withOwnLoan` is its owner or an administrator. -/
theorem ends_withOwnLoan (h : d.Keeps plainOwners ts) {userId : String} (hu : u.Filed userId)
    {k : Loan.Sheet → Work Reply}
    (hk : ∀ (sheet : Loan.Sheet) (l : Loan), sheet.Filed id → l.Filed id →
      (ts .loans).get? id = some l.document → sheet.loan.owner = l.owner →
      (u.isAdministrator = true ∨ l.owner = u.id) → d.Ends (k sheet) (Answers r who ts)) :
    d.Ends (withOwnLoan id u k) (Answers r who ts) := by
  unfold withOwnLoan
  refine .look (.attempt (isLook_loanSheet _)) (fun x hx => ?_) fun f => .of_error h f
  cases x with
  | error refusal => exact Works.of_same h (isFair_saying _)
  | ok sheet =>
    obtain ⟨hsheet, l, hl, hg, howner⟩ := h.loanSheet_ok (of_attempt_ok hx)
    simp only
    split
    · next hmay =>
      refine hk sheet l hsheet hl hg howner ?_
      rw [Bool.or_eq_true] at hmay
      refine hmay.imp_right fun hown => ?_
      obtain ⟨n, hn⟩ := hl.owner
      unfold Loan.isOwnedBy at hown
      rw [howner, hn, hu.id, Value.same, beq_iff_eq] at hown
      rw [hn, hu.id, hown]
    · exact Works.of_same h (isFair_saying _)

end Settled
end Web
end LoanDesk
