import LoanDesk.Proofs.Web.Handlers

/-
# Loans belong to their owners

A site that is opened and then asked, whatever it is asked, is always in order. In every
such state a request whose sender is no administrator does no more to the loans than to add
one, pending and the sender's, or to remove one of the sender's; it does no more to the
users than to add one without rights; and all loans in its reply are the sender's. Without
a sender no loan is added, removed or told of.

The rest follows two customers of a branch, each with a loan. Their tokens are not computed: that
they stand for their users is `Account.Token.Issued.standsFor`, and with it
`Web.IsPass.exists_served` takes a signed request to the work of its route.

Key definitions: `Web.Reachable`, `Web.LoansChange`, `Web.UsersChange`, `Web.Unprivileged`,
`Web.IsBranch`, `Web.IsPass`.
Key theorems: `Web.ends_serve`, `Web.isSteady_serve`, `Web.perform_serve`, `Web.keeps_of_reachable`,
`Web.serve_unprivileged`.
-/

namespace LoanDesk
namespace Web

open Store Desk

variable {d d' : Desk} {ts ts' : Shelves} {r : Request} {who : Option User}

/-! ### Serving -/

theorem perform_requestId (d : Desk) (r : Request) :
    ∃ id n, d.perform (requestId r) = (.ok id, { d with requests := n }) := by
  unfold requestId
  split
  · exact ⟨_, _, perform_freshRequest d⟩
  · exact ⟨_, _, perform_freshRequest d⟩
  · exact ⟨_, d.requests, rfl⟩

theorem isFair_servedBroken (id : String) (entries : List Journal.Entry) :
    IsFair r who (servedBroken r id entries).reply.body := by
  unfold servedBroken Reply.sentTo
  split
  · exact isFair_nothing
  · exact .of_value rfl

/-- What is `served` is what was replied, or less. -/
theorem IsFair.served {reply : Reply} (h : IsFair r who reply.body) (id : String) (clock : Stamp) :
    IsFair r who (served r id clock reply).reply.body := by
  unfold Web.served
  split
  · unfold Reply.sentTo
    split
    · exact isFair_nothing
    · exact h
  · exact isFair_servedBroken id _

/-- Every request is served, and what comes of it is as it should be: the reply `IsFair` after a
`Deed`. -/
theorem ends_serve (h : d.Keeps plainOwners ts) (r : Request) :
    ∃ s d' ts', d.perform (serve r) = (.ok s, d') ∧ d'.Keeps plainOwners ts' ∧
      Deed (sender d r) ts ts' ∧ IsFair r (sender d r) s.reply.body := by
  obtain ⟨id, n, hid⟩ := perform_requestId d r
  have h₁ : Keeps plainOwners { d with requests := n } ts := h.of_same rfl rfl le_rfl
  have hreply := ends_replyTo (r := r) h₁
  rw [sender_requests] at hreply
  obtain ⟨x, d', hp, hx⟩ := hreply.elim
  obtain ⟨ts', hkeeps, hdeed⟩ := hx.deed
  unfold serve
  rw [perform_bind_ok hid, perform_bind_ok (perform_now _), perform_tryCatch]
  cases x with
  | error f =>
    rw [perform_bind_error hp]
    exact ⟨_, d', ts', rfl, hkeeps, hdeed, isFair_servedBroken id []⟩
  | ok reply =>
    rw [perform_bind_ok hp]
    exact ⟨_, d', ts', rfl, hkeeps, hdeed, (hx.result reply rfl).served id d.clock⟩

theorem isSteady_requestId (r : Request) : IsSteady (requestId r) := fun d => by
  obtain ⟨id, n, hid⟩ := perform_requestId d r
  rw [hid]
  exact ⟨rfl, rfl⟩

theorem isSteady_replyTo (r : Request) : IsSteady (replyTo r) := by
  refine .bind IsLook.get.isSteady fun d => ?_
  split
  · exact (IsLook.pure _).isSteady
  · unfold answer
    cases destination r.method r.path with
    | route route => exact isSteady_handle route r
    | otherMethod => exact (IsLook.pure _).isSteady
    | elsewhere => exact (IsLook.pure _).isSteady
    | nowhere => exact (IsLook.pure _).isSteady

/-- Serving leaves the clock and the terms. -/
theorem isSteady_serve (r : Request) : IsSteady (serve r) := by
  have hreply : ∀ id clock, IsSteady (do return served r id clock (← replyTo r)) :=
    fun id clock => .bind (isSteady_replyTo r) fun reply => (IsLook.pure _).isSteady
  exact .bind (isSteady_requestId r) fun id => .bind IsLook.now.isSteady fun clock =>
    .tryCatch (hreply id clock) fun f => (IsLook.pure _).isSteady

/-- A request without an id of its own and without an origin is served by its route, that is by
`handle`. -/
theorem perform_serve {route : Route} {reply : Reply} (hid : r.header? "x-request-id" = none)
    (horigin : r.header? "origin" = none) (hroute : destination r.method r.path = .route route)
    (h : Desk.perform { d with requests := d.requests + 1 } (handle route r) = (.ok reply, d')) :
    ∃ id, d.perform (serve r) = (.ok (served r id d.clock reply), d') := by
  have hpreflight : ∀ origins, preflight? origins r = none := fun origins => by
    unfold preflight?
    rw [horigin]
    rfl
  have hreply : Desk.perform { d with requests := d.requests + 1 } (replyTo r) =
      (.ok reply, d') := by
    unfold replyTo answer
    rw [perform_bind_ok (perform_get _), hpreflight, hroute]
    exact h
  obtain ⟨id, hrequest⟩ : ∃ id, d.perform (requestId r) =
      (.ok id, { d with requests := d.requests + 1 }) := by
    unfold requestId
    rw [hid]
    exact ⟨_, perform_freshRequest d⟩
  refine ⟨id, ?_⟩
  unfold serve
  rw [perform_bind_ok hrequest, perform_bind_ok (perform_now _), perform_tryCatch,
    perform_bind_ok hreply]
  rfl

/-! ### States of a site -/

/-- The states of a site: opened by any settings, the time moving, any requests served. -/
inductive Reachable : Desk → Prop
  | opened {settings : Settings} {clock : Stamp} {d : Desk} :
      Desk.ofSettings settings clock = .ok d → Reachable (d.perform (Desk.seed settings)).2
  | ticked {d : Desk} (clock : Stamp) : Reachable d → Reachable { d with clock }
  | served {d : Desk} (r : Request) : Reachable d → Reachable (d.perform (serve r)).2

theorem keeps_ofSettings {settings : Settings} {clock : Stamp}
    (h : Desk.ofSettings settings clock = .ok d) : d.Keeps plainOwners fun _ => [] := by
  obtain ⟨kind, -, h⟩ := bind_eq_ok h
  obtain rfl := Except.ok.inj h
  exact keeps_opening kind settings.terms clock

/-- A site is always in order: `Keeps` holds in every `Reachable` state. -/
theorem keeps_of_reachable (h : Reachable d) : ∃ ts, d.Keeps plainOwners ts := by
  induction h with
  | opened hopen => exact (keeps_ofSettings hopen).seed _
  | ticked clock _ ih =>
    obtain ⟨ts, h⟩ := ih
    exact ⟨ts, h.of_same rfl rfl le_rfl⟩
  | served r _ ih =>
    obtain ⟨ts, h⟩ := ih
    obtain ⟨s, d', ts', hp, h', -⟩ := ends_serve h r
    rw [hp]
    exact ⟨ts', h'⟩

/-! ### What becomes of loans and users -/

/-- What a sender may make of the loans: the same; one more at the end, new, pending and the
sender's; or one less, which was the sender's. -/
inductive LoansChange (who : Option User) (t : Table Value Value) : Table Value Value → Prop
  | same : LoansChange who t t
  | lent {l : Loan} {u : User} : who = some u → l.owner = u.id → l.status = .pending →
      l.id ∉ t.ids → LoansChange who t (t ++ [(l.id, (Value.record l.record).stored)])
  | removed {before after : Table Value Value} {id : Value} {fs : Fields} {u : User} :
      who = some u → Fields.get? fs "owner_id" = some u.id →
      t = before ++ (id, .record fs) :: after → LoansChange who t (before ++ after)

/-- What anybody may make of the users: the same, or one more at the end, new and without rights. -/
inductive UsersChange (t : Table Value Value) : Table Value Value → Prop
  | same : UsersChange t t
  | enrolled {u : User} : u.isAdmin = .bool false → u.id ∉ t.ids →
      UsersChange t (t ++ [(u.id, (Value.record u.record).stored)])

theorem not_mem_read {t : Table String Fields} {id : String} (h : id ∉ t.ids) :
    Value.text id ∉ (t.read Value.text Value.record).ids := by
  intro hm
  obtain ⟨p, hp, he⟩ := List.mem_map.mp hm
  obtain ⟨q, hq, rfl⟩ := List.mem_map.mp hp
  obtain rfl := Value.text.inj he
  exact h (List.mem_map_of_mem hq)

/-- A deed of one who is no administrator changes the loans as it may, by a `LoansChange`. -/
theorem Deed.loans (h : Deed who ts ts') (hd : d.Keeps plainOwners ts)
    (hd' : d'.Keeps plainOwners ts')
    (hwho : ∀ u, who = some u → u.isAdministrator = false) :
    LoansChange who (d.storage.rows "loans") (d'.storage.rows "loans") := by
  have hrows := hd.shows.rows .loans
  have hrows' := hd'.shows.rows .loans
  change d.storage.rows "loans" = _ at hrows
  change d'.storage.rows "loans" = _ at hrows'
  rw [hrows, hrows']
  cases h with
  | nothing => exact .same
  | privileged hu hadmin =>
    rw [hwho _ hu] at hadmin
    cases hadmin
  | enrolled _ _ _ =>
    rw [Function.update_of_ne (by decide)]
    exact .same
  | lent hu hl hpending howner hnew =>
    have hlent := LoansChange.lent hu howner hpending (hl.id ▸ not_mem_read hnew)
    rw [hl.id] at hlent
    rw [Function.update_self, Table.read_append]
    exact hlent
  | @removed id fs u hu hg howner =>
    obtain ⟨before, after, hsplit, herase⟩ :=
      Table.erase_of_get? (isExact_string id) (hd.shows.distinct .loans) hg
    have hread : (ts .loans).read Value.text Value.record =
        before.read .text .record ++ (.text id, .record fs) :: after.read .text .record := by
      rw [hsplit, Table.read_append]
      rfl
    rw [Function.update_self, herase, Table.read_append]
    exact .removed hu howner hread

theorem Deed.users (h : Deed who ts ts') (hd : d.Keeps plainOwners ts)
    (hd' : d'.Keeps plainOwners ts')
    (hwho : ∀ u, who = some u → u.isAdministrator = false) :
    UsersChange (d.storage.rows "users") (d'.storage.rows "users") := by
  have hrows := hd.shows.rows .users
  have hrows' := hd'.shows.rows .users
  change d.storage.rows "users" = _ at hrows
  change d'.storage.rows "users" = _ at hrows'
  rw [hrows, hrows']
  cases h with
  | nothing => exact .same
  | privileged hu hadmin =>
    rw [hwho _ hu] at hadmin
    cases hadmin
  | enrolled hu hadmin hnew =>
    have henrolled := UsersChange.enrolled hadmin (hu.id ▸ not_mem_read hnew)
    rw [hu.id] at henrolled
    rw [Function.update_self, Table.read_append]
    exact henrolled
  | lent _ _ _ _ _ =>
    rw [Function.update_of_ne (by decide)]
    exact .same
  | removed _ _ _ =>
    rw [Function.update_of_ne (by decide)]
    exact .same

/-- What comes of a request without privilege. -/
structure Unprivileged (d : Desk) (r : Request) (s : Served) (d' : Desk) : Prop where
  /-- The loans change by one of the sender's at most. -/
  loans : LoansChange (sender d r) (d.storage.rows "loans") (d'.storage.rows "loans")
  /-- The users change by a new one without rights at most. -/
  users : UsersChange (d.storage.rows "users") (d'.storage.rows "users")
  /-- Every loan in the reply is the sender's. -/
  shown : ∀ fs ∈ s.reply.body.loans,
    ∃ u, sender d r = some u ∧ Fields.get? fs "owner_id" = some u.id
  /-- What is shown of problems was in the request. -/
  echoed : ∀ fs ∈ s.reply.body.found, ∃ c, r.content = .ok c ∧ fs ∈ c.records
  /-- Without a sender no loan changes and none is told of. -/
  turnedAway : sender d r = none →
    d'.storage.rows "loans" = d.storage.rows "loans" ∧ s.reply.body.loans = []

/-- In every `Reachable` state of a site a request whose sender is no administrator is served, and
neither touches nor sees the loans of others. -/
theorem serve_unprivileged (hd : Reachable d)
    (hr : ∀ u, sender d r = some u → u.isAdministrator = false) :
    ∃ s d', d.perform (serve r) = (.ok s, d') ∧ Unprivileged d r s d' := by
  obtain ⟨ts, h⟩ := keeps_of_reachable hd
  obtain ⟨s, d', ts', hp, h', hdeed, hfair⟩ := ends_serve h r
  have hloans := hdeed.loans h h' hr
  refine ⟨s, d', hp, hloans, hdeed.users h h' hr, fun fs hfs => ?_, hfair.found, fun hnone => ?_⟩
  · obtain ⟨u, hu, hadmin | howner⟩ := hfair.loans fs hfs
    · rw [hr u hu] at hadmin
      cases hadmin
    · exact ⟨u, hu, howner⟩
  · rw [hnone] at hloans hfair
    refine ⟨?_, List.eq_nil_iff_forall_not_mem.mpr fun fs hfs => ?_⟩
    · generalize d'.storage.rows "loans" = t at hloans
      cases hloans with
      | same => rfl
      | lent hu => cases hu
      | removed hu => cases hu
    · obtain ⟨u, hu, -⟩ := hfair.loans fs hfs
      cases hu

/-! ### Two customers -/

/-- Noon of a day in May. -/
def noon : Stamp := noonOf Account.Token.mayFirst

/-- The settings of a small branch. -/
def branch : Settings :=
  { storageBackend := "memory", tokenSecret := "secret", seedDemoUsers := false }

/-- The branch at noon. -/
def opened : Desk :=
  { terms := branch.terms, storage := .ofKind .memory, clock := noon }

/-- A request with a body in JSON. -/
def posting (path body : String) : Request :=
  ⟨"POST", path, [], [("Content-Type", "application/json")], body⟩

/-- Somebody registers. -/
def registering (name email : String) : Request :=
  posting "/api/auth/register" ("\x7b\"full_name\": \"" ++ name ++ "\", \"email\": \"" ++ email ++
    "\", \"password\": \"secret1\"\x7d")

/-- A loan is asked for. -/
def lending : Request :=
  posting "/api/loans" "\x7b\"amount\": 1000, \"interest_rate\": 5, \"term_in_months\": 12\x7d"

/-- The request with a token. -/
def Request.signed (r : Request) (token : String) : Request :=
  { r with headers := ("Authorization", "Bearer " ++ token) :: r.headers }

/-- The branch after Jane and Joe have registered, by `registering`. -/
def peopled : Desk :=
  ((opened.perform (serve (registering "Jane" "jane@example.com"))).2.perform
    (serve (registering "Joe" "joe@example.com"))).2

/-- What comes of work for the user of an id, done as the next request. -/
def workFor (d : Desk) (id : String) (k : User → Work Reply) : Except Fault Reply × Desk :=
  match UserBook.get? d.storage (.text id) with
  | .ok (some u) => Desk.perform { d with requests := d.requests + 1 } (k u)
  | _ => (.error .noMeaning, d)

/-- What the request for a loan carries. -/
def wish : Content :=
  lending.content.toOption.getD .nothing

/-- The branch after Jane has asked for a loan. -/
def afterJane : Desk := (workFor peopled "id-1" (lend wish)).2

/-- The branch after Joe has asked for one, too. -/
def afterBoth : Desk := (workFor afterJane "id-2" (lend wish)).2

/-- The loans of a desk by id, owner and status. -/
def shownLoans (d : Desk) : List (List String) :=
  (d.storage.rows "loans").map fun p =>
    match p.2 with
    | .record fs => [p.1.shown, (Fields.get fs "owner_id").shown, (Fields.get fs "status").shown]
    | _ => []

/-- The work ends in a reply, which passes a check together with the desk. -/
def passes (check : Reply → Desk → Bool) : Except Fault Reply × Desk → Bool
  | (.ok reply, d) => check reply d
  | (.error _, _) => false

theorem exists_of_passes {check : Reply → Desk → Bool} {x : Except Fault Reply × Desk}
    (h : passes check x = true) : ∃ reply d, x = (.ok reply, d) ∧ check reply d = true := by
  obtain ⟨f | reply, d⟩ := x
  · cases h
  · exact ⟨reply, d, rfl, h⟩

/-- The branch in some state at noon. -/
structure IsBranch (d : Desk) : Prop where
  reachable : Reachable d
  clock : d.clock = noon
  terms : d.terms = branch.terms

theorem IsBranch.served (h : IsBranch d) (r : Request) : IsBranch (d.perform (serve r)).2 where
  reachable := h.reachable.served r
  clock := (isSteady_serve r d).1.trans h.clock
  terms := (isSteady_serve r d).2.trans h.terms

theorem isBranch_opened : IsBranch opened where
  reachable := .opened (show Desk.ofSettings branch noon = .ok opened from rfl)
  clock := rfl
  terms := rfl

theorem isBranch_peopled : IsBranch peopled :=
  (isBranch_opened.served _).served _

/-- A token that was issued at noon for the user of an id. -/
structure IsPass (id token : String) : Prop where
  bare : ∀ c ∈ token.toList, Text.isBlank c = false
  ne : token ≠ ""
  stands : Account.Token.StandsFor branch.terms.tokens token (.text id) noon.epochSeconds
    (noon.epochSeconds + 86400 * 30)

/-- A user on file can be given a token, and so an `IsPass`. -/
theorem exists_pass {u : User} {id : String} (hu : u.Filed id) (hne : id.toList ≠ []) :
    ∃ token, Account.Token.issue branch.terms.tokens u noon = .ok token ∧ IsPass id token := by
  obtain ⟨token, htoken⟩ : ∃ token, Account.Token.issue branch.terms.tokens u noon = .ok token :=
    ⟨_, rfl⟩
  obtain ⟨signing, key, micros, hissued⟩ := Account.Token.issued_of_issue htoken
  obtain ⟨hbare, hnonempty⟩ := hissued.isBare
  have hid : u.id.IsText := hu.isWritten.id
  have hsigns : u.id.signs ≠ [] := by
    rw [hu.id]
    exact fun h => hne (List.map_eq_nil_iff.mp h)
  have hstands := hissued.standsFor (by decide) hid hsigns hu.name hu.email
    (Account.Token.recognizes_self rfl)
  rw [Account.lifetime_days hissued.lasts, Account.Token.expiry_days, hu.id] at hstands
  exact ⟨token, htoken, hbare, hnonempty, hstands⟩

theorem header_signed_authorization (r : Request) (token : String) :
    (r.signed token).header? "authorization" = some ("Bearer " ++ token) := by
  have hname : ("Authorization".toLower == "authorization") = true := by decide +kernel
  unfold Request.header? Request.signed
  simp only [List.find?_cons, hname]
  rfl

theorem header_signed {name : String} (h : ("Authorization".toLower == name) = false) (r : Request)
    (token : String) : (r.signed token).header? name = r.header? name := by
  unfold Request.header? Request.signed
  simp only [List.find?_cons, h]

/-- With a pass the user of the id is the `callerOf` the request. -/
theorem IsPass.isCaller {id token : String} (h : IsPass id token) (hclock : d.clock = noon)
    (hterms : d.terms = branch.terms) {u : User}
    (hfile : UserBook.get? d.storage (.text id) = .ok (some u)) (r : Request) :
    callerOf d (r.signed token) = .ok (.ok u) := by
  have hbearer := bearer_of_header (header_signed_authorization r token) h.bare h.ne
  have hstands := h.stands
  have hcountable : noon.IsCountable := ⟨rfl, by decide, by decide⟩
  rw [← hclock] at hcountable
  rw [← hterms] at hstands
  refine callerOf_of_standsFor hbearer hstands hcountable ?_ ?_ hfile
  · rw [hclock]
    decide
  · rw [hclock]
    decide

theorem exists_of_workFor {id : String} {k : User → Work Reply} {reply : Reply}
    (h : workFor d id k = (.ok reply, d')) :
    ∃ u, UserBook.get? d.storage (.text id) = .ok (some u) ∧
      Desk.perform { d with requests := d.requests + 1 } (k u) = (.ok reply, d') := by
  unfold workFor at h
  split at h
  · next u hu => exact ⟨u, hu, h⟩
  · cases h

/-- A reply that can be sent at noon is what is sent. -/
theorem served_eq {reply : Reply} (hbody : reply.body.isSendable = true)
    (hmethod : r.method ≠ "HEAD") (id : String) : (served r id noon reply).reply.code = reply.code ∧
      (served r id noon reply).reply.body = reply.body := by
  have hsent : (reply.body.isSendable && noon.isMeasurable) = true := by
    rw [hbody]
    decide +kernel
  unfold served Reply.sentTo
  rw [if_pos hsent, if_neg hmethod]
  exact ⟨rfl, rfl⟩

/-- The request leads to a route, wants a body in reply, and has neither an id nor an origin. -/
def leadsTo (r : Request) (route : Route) : Bool :=
  r.header? "x-request-id" == none && r.header? "origin" == none && r.method != "HEAD" &&
    destination r.method r.path == .route route

/-- A request with a pass, on a route for callers, is served as the work for the user of the id
(`workFor`). -/
theorem IsPass.exists_served {id token : String} (h : IsPass id token) (hd : IsBranch d)
    (r : Request) (route : Route) {k : User → Work Reply} (check : Reply → Desk → Bool)
    (hleads : leadsTo r route = true)
    (hhandle : handle route (r.signed token) = withCaller (r.signed token) k)
    (hcheck : passes (fun reply d => reply.body.isSendable && check reply d) (workFor d id k) =
      true) :
    ∃ s d' reply, d.perform (serve (r.signed token)) = (.ok s, d') ∧ d' = (workFor d id k).2 ∧
      s.reply.code = reply.code ∧ s.reply.body = reply.body ∧ check reply d' = true := by
  obtain ⟨⟨⟨hid, horigin⟩, hmethod⟩, hroute⟩ : ((r.header? "x-request-id" = none ∧
      r.header? "origin" = none) ∧ r.method ≠ "HEAD") ∧
      destination r.method r.path = .route route := by
    simpa only [leadsTo, Bool.and_eq_true, beq_iff_eq, bne_iff_ne] using hleads
  obtain ⟨reply, d', hwork, hpasses⟩ := exists_of_passes hcheck
  obtain ⟨hbody, hchecked⟩ := Bool.and_eq_true_iff.mp hpasses
  obtain ⟨u, hfile, hperform⟩ := exists_of_workFor hwork
  have hcaller : callerOf { d with requests := d.requests + 1 } (r.signed token) = .ok (.ok u) :=
    h.isCaller (d := { d with requests := d.requests + 1 }) hd.clock hd.terms hfile r
  rw [← perform_withCaller hcaller k, ← hhandle] at hperform
  obtain ⟨requestId, hserve⟩ := perform_serve
    ((header_signed (by decide +kernel) r token).trans hid)
    ((header_signed (by decide +kernel) r token).trans horigin) hroute hperform
  rw [hd.clock] at hserve
  obtain ⟨hcode, hsent⟩ := served_eq hbody hmethod requestId
  exact ⟨_, d', reply, hserve, by rw [hwork], hcode, hsent, hchecked⟩

theorem content_signed (r : Request) (token : String) : (r.signed token).content = r.content := by
  have hname : ("Authorization".toLower == "content-type") = false := by decide +kernel
  have htype := header_signed hname r token
  unfold Request.content
  rw [htype]
  rfl

theorem handle_lending (token : String) : handle .createLoan (lending.signed token) =
    withCaller (lending.signed token) (lend wish) := by
  have hread : lending.content.toOption.isSome = true := by decide +kernel
  obtain ⟨c, hc⟩ := Option.isSome_iff_exists.mp hread
  have hwish : wish = c := by
    unfold wish
    rw [hc]
    rfl
  have hcontent : (lending.signed token).content = .ok wish := by
    rw [content_signed, hwish]
    exact eq_ok_of_toOption hc
  unfold handle createLoan withContent
  rw [hcontent]

/-- A customer of the branch, who has a pass. -/
theorem IsBranch.exists_customer (h : IsBranch d) (id : String) (hne : id.toList ≠ [])
    (hfile : (UserBook.get? d.storage (.text id)).toOption.join.isSome = true) :
    ∃ token u, IsPass id token ∧ u.id = .text id ∧
      UserBook.get? d.storage (.text id) = .ok (some u) := by
  obtain ⟨ts, hkeeps⟩ := keeps_of_reachable h.reachable
  have hperform : d.perform (Desk.user? (.text id)) = (UserBook.get? d.storage (.text id), d) :=
    perform_reading d _
  rcases hkeeps.user? id with ⟨-, hnone⟩ | ⟨u, hu, -, hsome⟩
  · rw [hperform] at hnone
    rw [(Prod.mk.inj hnone).1] at hfile
    cases hfile
  · rw [hperform] at hsome
    obtain ⟨token, -, hpass⟩ := exists_pass hu.kept hne
    exact ⟨token, u.kept, hpass, hu.kept_id, (Prod.mk.inj hsome).1⟩

/-- The branch after a customer has asked for a loan, which went well. -/
theorem IsBranch.lent (h : IsBranch d) {id token : String} (hpass : IsPass id token)
    (hcheck : passes (fun reply _ => reply.body.isSendable && reply.code == 201)
      (workFor d id (lend wish)) = true) : IsBranch (workFor d id (lend wish)).2 := by
  obtain ⟨s, d', reply, hserve, hd', -⟩ := hpass.exists_served h lending .createLoan
    (fun reply _ => reply.code == 201) (by decide +kernel) (handle_lending token) hcheck
  have hserved := h.served (lending.signed token)
  rw [hserve, hd'] at hserved
  exact hserved

theorem isBranch_afterBoth : IsBranch afterBoth := by
  obtain ⟨token, u, hpass, -⟩ := isBranch_peopled.exists_customer "id-1" (by decide)
    (by decide +kernel)
  have hjane : IsBranch afterJane := isBranch_peopled.lent hpass (by decide +kernel)
  obtain ⟨other, v, hother, -⟩ := hjane.exists_customer "id-2" (by decide) (by decide +kernel)
  exact hjane.lent hother (by decide +kernel)

/-- The request to remove a loan. -/
def removing (id : String) : Request :=
  ⟨"DELETE", "/api/loans/" ++ id, [], [], ""⟩

/-- The request for the loans of the caller. -/
def listing : Request :=
  ⟨"GET", "/api/loans/my-loans", [], [], ""⟩

/-- Where each of two customers has a loan, one of them removes the own loan, is turned away from
the other's, and sees the own loan alone. -/
theorem serve_unprivileged_neighbours :
    shownLoans afterBoth = [["id-3", "id-1", "pending"], ["id-4", "id-2", "pending"]] ∧
    ∃ (token : String) (u : User), Reachable afterBoth ∧ u.id = .text "id-1" ∧
      u.isAdministrator = false ∧ (∀ r : Request, sender afterBoth (r.signed token) = some u) ∧
      (∃ s d', afterBoth.perform (serve ((removing "id-3").signed token)) = (.ok s, d') ∧
        Unprivileged afterBoth ((removing "id-3").signed token) s d' ∧
        s.reply.code = 204 ∧ shownLoans d' = [["id-4", "id-2", "pending"]]) ∧
      (∃ s d', afterBoth.perform (serve ((removing "id-4").signed token)) = (.ok s, d') ∧
        Unprivileged afterBoth ((removing "id-4").signed token) s d' ∧
        s.reply.code = 403 ∧ shownLoans d' = shownLoans afterBoth) ∧
      ∃ s d', afterBoth.perform (serve (listing.signed token)) = (.ok s, d') ∧
        Unprivileged afterBoth (listing.signed token) s d' ∧
        s.reply.code = 200 ∧
        (s.reply.body.loans.map fun fs => (Fields.get fs "id").shown) = ["id-3"] := by
  obtain ⟨token, u, hpass, hid, hfile⟩ := isBranch_afterBoth.exists_customer "id-1" (by decide)
    (by decide +kernel)
  have hadmin : u.isAdministrator = false := by
    have hfound : (UserBook.get? afterBoth.storage (.text "id-1")).toOption.join.map
        User.isAdministrator = some false := by decide +kernel
    rw [hfile] at hfound
    exact Option.some.inj hfound
  have hsender : ∀ r : Request, sender afterBoth (r.signed token) = some u := fun r =>
    sender_of_callerOf (hpass.isCaller isBranch_afterBoth.clock isBranch_afterBoth.terms hfile r)
  have hreach := isBranch_afterBoth.reachable
  have hfair : ∀ (r : Request) s d', afterBoth.perform (serve (r.signed token)) = (.ok s, d') →
      Unprivileged afterBoth (r.signed token) s d' := by
    intro r s d' hserve
    obtain ⟨s₁, d₁, hserve₁, hun⟩ := serve_unprivileged (r := r.signed token) hreach fun v hv => by
      rw [hsender r] at hv
      exact Option.some.inj hv ▸ hadmin
    obtain ⟨hs, rfl⟩ := Prod.mk.inj (hserve₁.symm.trans hserve)
    exact Except.ok.inj hs ▸ hun
  refine ⟨by decide +kernel, token, u, hreach, hid, hadmin, hsender, ?own, ?foreign, ?list⟩
  case own =>
    obtain ⟨s, d', reply, hserve, -, hcode, -, hcheck⟩ := hpass.exists_served isBranch_afterBoth
      (removing "id-3") (.deleteLoan "id-3")
      (fun reply d => reply.code == 204 && shownLoans d == [["id-4", "id-2", "pending"]])
      (by decide +kernel) rfl (by decide +kernel)
    simp only [Bool.and_eq_true, beq_iff_eq] at hcheck
    exact ⟨s, d', hserve, hfair _ s d' hserve, hcode.trans hcheck.1, hcheck.2⟩
  case foreign =>
    obtain ⟨s, d', reply, hserve, -, hcode, -, hcheck⟩ := hpass.exists_served isBranch_afterBoth
      (removing "id-4") (.deleteLoan "id-4")
      (fun reply d => reply.code == 403 && shownLoans d == shownLoans afterBoth)
      (by decide +kernel) rfl (by decide +kernel)
    simp only [Bool.and_eq_true, beq_iff_eq] at hcheck
    exact ⟨s, d', hserve, hfair _ s d' hserve, hcode.trans hcheck.1, hcheck.2⟩
  case list =>
    obtain ⟨s, d', reply, hserve, -, hcode, hbody, hcheck⟩ := hpass.exists_served isBranch_afterBoth
      listing .myLoans
      (fun reply _ => reply.code == 200 &&
        (reply.body.loans.map fun fs => (Fields.get fs "id").shown) == ["id-3"])
      (by decide +kernel) rfl (by decide +kernel)
    simp only [Bool.and_eq_true, beq_iff_eq] at hcheck
    rw [← hbody] at hcheck
    exact ⟨s, d', hserve, hfair _ s d' hserve, hcode.trans hcheck.1, hcheck.2⟩

end Web
end LoanDesk
