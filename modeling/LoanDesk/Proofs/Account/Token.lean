import LoanDesk.Account.Token
import LoanDesk.Proofs.Json.Bytes
import LoanDesk.Proofs.Store.RoundTrip
import LoanDesk.Proofs.Time.Calendar
import LoanDesk.Proofs.Time.Measured

/-
# Tokens from the second of their issue until they expire

Whatever is written into a token is read from it: the points part it where they were put, each
part is read back from the alphabet of web addresses, and a document keeps of the claims what they
say of the user and the issuer, but for halves of a pair, which it joins. A signature made with a
key passes the check with that key. What is left are the times: a token stands for its user from
the second in which it was issued up to the second in which it expires, and for nobody to whoever
goes by another name than its issuer.

Key definitions: `Account.Token.stated`, `Account.Token.sealed`, `Account.Token.Issued`,
`Account.Token.Names`, `Account.Token.Recognizes`, `Account.Token.StandsFor`.
Key theorems: `Account.Token.parts_sealed`, `Account.Token.issued_of_issue`,
`Account.Token.Names.verdict`, `Account.Token.Issued.standsFor`, `Account.Token.userId_of_issue`.
-/

namespace LoanDesk

open Text

theorem Text.Torn.eq_nil_of_joined {t : Torn} (h : t.joined = []) : t = [] := by
  unfold joined at h
  split at h
  · split at h <;> cases h
  · cases h
  · rfl

/-- What a document keeps of a text that has signs is not empty. -/
theorem Value.IsText.truthy_stored {v : Value} (h : v.IsText) (hne : v.signs ≠ []) :
    v.stored.truthy = true := by
  cases v with
  | text s =>
    have hs : s ≠ "" := by
      rintro rfl
      exact hne rfl
    simpa [Value.stored, Value.truthy] using hs
  | torn t =>
    change (Value.ofSigns t.joined).truthy = true
    cases hjoined : t.joined with
    | nil => exact absurd (Torn.eq_nil_of_joined hjoined) hne
    | cons s rest =>
      unfold Value.ofSigns
      cases s with
      | half n hn => rfl
      | char c =>
        rw [Torn.whole?]
        cases Torn.whole? rest with
        | none => rfl
        | some cs => simp [Value.truthy]
  | _ => exact h.elim

namespace Account

/-! ### Keys and lifetimes -/

theorem Signing.verifies_sign {s : Signing} (h : s ≠ .unsigned) (key message : Bytes) :
    s.verifies key message (s.sign key message) = true := by
  cases s with
  | unsigned => exact absurd rfl h
  | keyed base => exact beq_self_eq_true _

theorem Signing.ne_unsigned {name : String} {s : Signing} (h : Signing.named? name = some s)
    (hne : name ≠ "none") : s ≠ .unsigned := by
  rintro rfl
  unfold Signing.named? at h
  split at h <;> first | exact hne rfl | cases h

theorem lifetime_days {days micros : ℤ} (h : lifetime (.int days) = .ok micros) :
    micros = days * dayMicros := by
  change countable (days * dayMicros) = .ok micros at h
  unfold countable at h
  split at h
  · exact (Except.ok.inj h).symm
  · cases h

namespace Token

/-! ### What is written is read -/

/-- The claims of a token, with the seconds in which it was issued and in which it expires. -/
def stated (terms : TokenTerms) (u : User) (issued expires : ℤ) : Fields := [
  ("sub", u.id), ("email", u.email), ("name", u.name), ("role", .text u.role),
  ("iss", terms.issuer), ("iat", .int issued), ("exp", .int expires)]

/-- Those claims as they are written. -/
def payloadBytes (terms : TokenTerms) (u : User) (issued expires : ℤ) : Bytes :=
  Scrypt.textBytes (Json.print .narrow (.record (stated terms u issued expires)))

/-- The second in which so many microseconds from a stamp are over. -/
def expiry (start : Stamp) (micros : ℤ) : ℤ :=
  (start.epochMicros + micros).fdiv 1000000

/-- The parts that are signed when a token for so many microseconds is issued. -/
def signedParts (terms : TokenTerms) (u : User) (start : Stamp) (micros : ℤ) : List Char :=
  part (header terms.algorithm) ++
    '.' :: part (.record (stated terms u start.epochSeconds (expiry start micros)))

/-- The parts that are signed, and the signature behind them. -/
def sealed (signing : Signing) (key : Bytes) (signed : List Char) : String :=
  String.ofList (signed ++ '.' :: Base64Url.encode (signing.sign key (signedBytes signed)))

theorem splitPoint_append {cs : List Char} (h : ∀ c ∈ cs, c ≠ '.') (rest : List Char) :
    splitPoint? (cs ++ '.' :: rest) = some (cs, rest) := by
  have hall : ∀ c ∈ cs, (c != '.') = true := fun c hc => by simpa using h c hc
  unfold splitPoint?
  rw [List.dropWhile_append_of_pos hall, List.takeWhile_append_of_pos hall]
  simp

/-- A token is taken apart by `parts?` where it was put together. -/
theorem parts_sealed {header payload : Value} {fs : Fields}
    (hheader : valueOf? (Scrypt.textBytes (Json.print .narrow header)) = some (.record fs))
    (husable : isUsableHeader fs = true) (signing : Signing) (key : Bytes) :
    parts? (sealed signing key (part header ++ '.' :: part payload)) =
      some ⟨part header ++ '.' :: part payload, fs,
        Scrypt.textBytes (Json.print .narrow payload),
        signing.sign key (signedBytes (part header ++ '.' :: part payload))⟩ := by
  have hplain : ∀ bs : Bytes, ∀ c ∈ Base64Url.encode bs, c ≠ '.' := fun bs c hc =>
    (Base64Url.mem_encode hc).1
  unfold sealed
  generalize hs : signing.sign key (signedBytes (part header ++ '.' :: part payload)) = signature
  -- From behind, the first point is the one that was put last, since no part holds a point.
  have hlast : splitPoint? (part header ++ '.' :: part payload ++
      '.' :: Base64Url.encode signature).reverse =
      some ((Base64Url.encode signature).reverse,
        (part header ++ '.' :: part payload).reverse) := by
    rw [List.reverse_append, List.reverse_cons, List.append_assoc, List.singleton_append]
    exact splitPoint_append (fun c hc => hplain _ c (List.mem_reverse.mp hc)) _
  have hfirst : splitPoint? (part header ++ '.' :: part payload) =
      some (part header, part payload) := splitPoint_append (hplain _) _
  unfold parts?
  rw [String.toList_ofList, hlast]
  simp only [Option.bind_eq_bind, Option.bind_some, List.reverse_reverse, hfirst]
  unfold part
  simp only [Base64Url.decode_encode, Option.bind_some, hheader, husable, if_true]
  rfl

/-- A record that is part of a token is read back as a document keeps it. -/
theorem valueOf_print {f : String × Value} {fields : Fields}
    (h : Json.Printable (.record (f :: fields)))
    (hdepth : Json.depth (.record (f :: fields)) ≤ Json.deepest) :
    valueOf? (Scrypt.textBytes (Json.print .narrow (.record (f :: fields)))) =
      some (.record (Value.storedFields (f :: fields))) := by
  unfold valueOf?
  rw [Json.readBytes_print Json.isStyle_narrow h hdepth]
  rfl

/-- The fields of a header. -/
def headerFields (algorithm : String) : Fields :=
  [("alg", .text algorithm), ("typ", .text "JWT")]

theorem valueOf_header (algorithm : String) :
    valueOf? (Scrypt.textBytes (Json.print .narrow (header algorithm))) =
      some (.record (headerFields algorithm)) := by
  have hnames : ["alg", "typ"].Nodup := by decide
  have hdepth : 1 ≤ Json.deepest := by decide
  exact valueOf_print ⟨hnames, trivial, trivial, trivial⟩ hdepth

/-- The claims that are `stated` are read back as documents keep them. -/
theorem payloadClaims_stated {terms : TokenTerms} {u : User} {issued expires : ℤ}
    (hid : u.id.IsText) (hname : u.name.IsText) (hemail : u.email.IsText)
    (hissuer : terms.issuer.IsText) (hissued : issued.natAbs < 10 ^ 12)
    (hexpires : expires.natAbs < 10 ^ 12) :
    payloadClaims? (payloadBytes terms u issued expires) =
      some (Value.storedFields (stated terms u issued expires)) := by
  -- Seconds of the calendar have few digits, so they can be written; no claim nests.
  have hroom : 10 ^ 12 ≤ 10 ^ Value.integerRoom := Nat.pow_le_pow_right (by decide) (by decide)
  have hnames : ["sub", "email", "name", "role", "iss", "iat", "exp"].Nodup := by decide
  have hprintable : Json.Printable (.record (stated terms u issued expires)) :=
    ⟨hnames, hid.printable, hemail.printable, hname.printable, trivial, hissuer.printable,
      hissued.trans_le hroom, hexpires.trans_le hroom, trivial⟩
  have hdepth : Json.depth (.record (stated terms u issued expires)) ≤ Json.deepest := by
    simp only [stated, Json.depth, Json.fieldsDepth, hid.depth, hemail.depth, hname.depth,
      hissuer.depth]
    decide
  have hread : valueOf? (payloadBytes terms u issued expires) =
      some (.record (Value.storedFields (stated terms u issued expires))) :=
    valueOf_print hprintable hdepth
  unfold payloadClaims?
  rw [hread]
  rfl

/-! ### Issuing -/

/-- How a token came about: the terms sign with a key in some way, name their issuer by a text and
give it a lifetime, and both its ends lie in the calendar. -/
structure Issued (terms : TokenTerms) (u : User) (now : Stamp) (token : String)
    (signing : Signing) (key : Bytes) (micros : ℤ) : Prop where
  named : Signing.named? terms.algorithm = some signing
  keyed : signing.key terms.secret = .ok key
  issuer : terms.issuer.IsText
  lasts : lifetime terms.days = .ok micros
  start : now.epochSeconds.natAbs < 10 ^ 12
  stop : (expiry now micros).natAbs < 10 ^ 12
  text : token = sealed signing key (signedParts terms u now micros)

theorem secondsOf_eq_ok {t : Stamp} {i : ℤ} (h : secondsOf t = .ok i) :
    i = t.epochSeconds ∧ t.epochSeconds.natAbs < 10 ^ 12 := by
  unfold secondsOf at h
  split at h
  · rename_i s hs
    exact ⟨(Except.ok.inj h).symm, Stamp.epochSeconds_lt hs⟩
  · cases h

theorem issuerOf_eq_ok {terms : TokenTerms} {v : Value} (h : issuerOf terms = .ok v) :
    v = terms.issuer ∧ terms.issuer.IsText := by
  unfold issuerOf at h
  split at h
  · rename_i s hs
    exact ⟨(Except.ok.inj h).symm, hs ▸ trivial⟩
  · rename_i s hs
    exact ⟨(Except.ok.inj h).symm, hs ▸ trivial⟩
  · cases h

theorem claims_eq_ok {terms : TokenTerms} {u : User} {now : Stamp} {v : Value}
    (h : claims terms u now = .ok v) : ∃ micros, lifetime terms.days = .ok micros ∧
      terms.issuer.IsText ∧ now.epochSeconds.natAbs < 10 ^ 12 ∧
      (expiry now micros).natAbs < 10 ^ 12 ∧
      v = .record (stated terms u now.epochSeconds (expiry now micros)) := by
  obtain ⟨micros, hlasts, h⟩ := bind_eq_ok h
  cases hplus : now.plus? micros with
  | none =>
    rw [hplus] at h
    cases h
  | some stop =>
    rw [hplus] at h
    obtain ⟨expires, hexpires, h⟩ := bind_eq_ok h
    obtain ⟨issued, hissued, h⟩ := bind_eq_ok h
    obtain ⟨issuer, hissuer, h⟩ := bind_eq_ok h
    obtain ⟨rfl, hstop⟩ := secondsOf_eq_ok hexpires
    obtain ⟨rfl, hstart⟩ := secondsOf_eq_ok hissued
    obtain ⟨rfl, htext⟩ := issuerOf_eq_ok hissuer
    -- The end is counted from the start, whatever offset either is shown with.
    have hseconds : stop.epochSeconds = expiry now micros :=
      congrArg (Int.fdiv · 1000000) (Stamp.epochMicros_of_plus hplus)
    rw [hseconds] at hstop h
    exact ⟨micros, hlasts, htext, hstart, hstop, (Except.ok.inj h).symm⟩

theorem sign_eq_ok {terms : TokenTerms} {v : Value} {token : String}
    (h : sign terms v = .ok token) : ∃ signing key, Signing.named? terms.algorithm = some signing ∧
      signing.key terms.secret = .ok key ∧
      token = sealed signing key (part (header terms.algorithm) ++ '.' :: part v) := by
  unfold sign at h
  cases hnamed : Signing.named? terms.algorithm with
  | none =>
    rw [hnamed] at h
    cases h
  | some signing =>
    rw [hnamed] at h
    obtain ⟨key, hkeyed, h⟩ := bind_eq_ok h
    exact ⟨signing, key, rfl, hkeyed, (Except.ok.inj h).symm⟩

theorem issued_of_issue {terms : TokenTerms} {u : User} {now : Stamp} {token : String}
    (h : issue terms u now = .ok token) :
    ∃ signing key micros, Issued terms u now token signing key micros := by
  obtain ⟨v, hclaims, hsign⟩ := bind_eq_ok h
  obtain ⟨micros, hlasts, hissuer, hstart, hstop, rfl⟩ := claims_eq_ok hclaims
  obtain ⟨signing, key, hnamed, hkeyed, htoken⟩ := sign_eq_ok hsign
  exact ⟨signing, key, micros, hnamed, hkeyed, hissuer, hlasts, hstart, hstop, htoken⟩

/-! ### Checking -/

theorem isIssuer_iff {issuer claimed : Value} (h : issuer.IsText) (hclaimed : claimed.IsText) :
    isIssuer issuer (some claimed) = true ↔ claimed = issuer := by
  cases issuer <;> cases claimed <;> first | exact h.elim | exact hclaimed.elim | simp [isIssuer]

theorem isTextOrAbsent_of_isText {v : Value} (h : v.IsText) : isTextOrAbsent (some v) = true := by
  cases v <;> first | rfl | exact h.elim

/-- At a time that can be measured, seconds are over just if they are not after it. -/
theorem notAfter_iff {now : Stamp} (h : now.IsCountable) : ∃ present, now.measured? = some present ∧
    ∀ i, notAfter present i = true ↔ i * 1000000 ≤ now.epochMicros := by
  obtain ⟨present, hmeasured, horder⟩ := Stamp.order_measured h
  refine ⟨present, hmeasured, fun i => ?_⟩
  rw [← not_lt, ← horder i]
  unfold notAfter
  split <;> simp_all

/-- What the checks of a token find in claims: whom and by whom, from when and until when, and
nothing else that they look for. -/
structure Names (fs : Fields) (subject issuer : Value) (issued expires : ℤ) : Prop where
  subject : Fields.get? fs "sub" = some subject
  issuer : Fields.get? fs "iss" = some issuer
  issued : Fields.get? fs "iat" = some (.int issued)
  expires : Fields.get? fs "exp" = some (.int expires)
  begins : Fields.get? fs "nbf" = none
  audience : Fields.get? fs "aud" = none
  serial : Fields.get? fs "jti" = none

theorem names_stated (terms : TokenTerms) (u : User) (issued expires : ℤ) :
    Names (Value.storedFields (stated terms u issued expires)) u.id.stored terms.issuer.stored
      issued expires :=
  ⟨rfl, rfl, rfl, rfl, rfl, rfl, rfl⟩

section

variable {terms : TokenTerms} {fs : Fields} {user : Value} {issued expires : ℤ}

/-- Claims under the issuer's name pass `checkClaims` from the second of their issue until they
expire. -/
theorem Names.checked (h : Names fs user terms.issuer issued expires) (huser : user.IsText)
    (htruthy : user.truthy = true) (hissuer : terms.issuer.IsText) (present : Binary64) :
    checkClaims terms present fs =
      if notAfter present issued then
        if notAfter present expires then .error .tokenExpired else .ok user
      else .error .tokenInvalid := by
  have hidentities : identitiesHold terms fs = true := by
    unfold identitiesHold
    rw [h.issuer, h.subject, h.serial, Fields.get, h.audience,
      (isIssuer_iff hissuer hissuer).mpr rfl,
      isTextOrAbsent_of_isText huser]
    rfl
  unfold checkClaims Token.subject
  rw [h.issued, h.begins, Fields.get, Fields.get, h.expires, h.subject, hidentities]
  simp only [hasBegun, seconds?, Value.toInteger, Option.getD_some, htruthy, Bool.not_true,
    Bool.false_eq_true, if_false, if_true]
  by_cases hissued : notAfter present issued <;> simp [hissued]

theorem Names.complete (h : Names fs user terms.issuer issued expires) (huser : user.IsText)
    (hissuer : terms.issuer.IsText) : isComplete fs = true := by
  have hpresent : ∀ {name : String} {v : Value}, Fields.get? fs name = some v → v.IsText →
      isPresent fs name = true := by
    intro name v hname hv
    unfold isPresent
    rw [hname]
    cases v <;> first | rfl | exact hv.elim
  unfold isComplete
  rw [hpresent h.subject huser, hpresent h.issuer hissuer, isPresent, h.expires]
  rfl

/-- What comes of them at a time that can be measured. -/
theorem Names.verdict (h : Names fs user terms.issuer issued expires) (huser : user.IsText)
    (htruthy : user.truthy = true) (hissuer : terms.issuer.IsText) {payload : Bytes}
    (hread : payloadClaims? payload = some fs) {now : Stamp} (hnow : now.IsCountable) :
    userOf terms now payload =
      if issued * 1000000 ≤ now.epochMicros then
        if expires * 1000000 ≤ now.epochMicros then refuse .tokenExpired else .ok user
      else refuse .tokenInvalid := by
  obtain ⟨present, hmeasured, hnotAfter⟩ := notAfter_iff hnow
  have hcheck := h.checked huser htruthy hissuer present
  simp only [hnotAfter] at hcheck
  unfold userOf
  simp only [hread, h.complete huser hissuer, hmeasured, hcheck, Bool.not_true,
    Bool.false_eq_true, if_false]
  by_cases hissued : issued * 1000000 ≤ now.epochMicros
  · rw [if_pos hissued, if_pos hissued]
    by_cases hexpires : expires * 1000000 ≤ now.epochMicros
    · rw [if_pos hexpires, if_pos hexpires]
    · rw [if_neg hexpires, if_neg hexpires]
  · rw [if_neg hissued, if_neg hissued]

end

/-- Whoever takes claims finds the identities in them in order: `checkClaims` has asked
`identitiesHold`. -/
theorem identitiesHold_of_checkClaims {terms : TokenTerms} {present : Binary64} {fs : Fields}
    {v : Value} (h : checkClaims terms present fs = .ok v) : identitiesHold terms fs = true := by
  unfold checkClaims at h
  split at h
  · cases h
  split at h
  · cases h
  split at h
  · cases h
  split at h
  · cases h
  split at h
  · cases h
  · rename_i hhold
    simpa using hhold

theorem identitiesHold_of_userOf {terms : TokenTerms} {now : Stamp} {payload : Bytes} {fs : Fields}
    {v : Value} (hfs : payloadClaims? payload = some fs) (h : userOf terms now payload = .ok v) :
    identitiesHold terms fs = true := by
  unfold userOf at h
  rw [hfs] at h
  simp only at h
  split at h
  · cases h
  split at h
  · cases h
  split at h
  · rename_i id hchecked
    exact identitiesHold_of_checkClaims hchecked
  · cases h

theorem userOf_of_userId {terms : TokenTerms} {now : Stamp} {token : String} {p : Parts} {v : Value}
    (hp : parts? token = some p) (h : userId terms now token = .ok v) :
    userOf terms now p.payload = .ok v := by
  unfold userId at h
  rw [hp] at h
  simp only at h
  split at h
  · cases h
  · obtain ⟨key, -, h⟩ := bind_eq_ok h
    split at h
    · exact h
    · cases h

/-! ### Tokens that were issued -/

/-- So many days from a stamp end in the same fraction of a second. -/
theorem expiry_days (start : Stamp) (days : ℤ) :
    expiry start (days * dayMicros) = start.epochSeconds + 86400 * days := by
  unfold expiry Stamp.epochSeconds dayMicros
  rw [Int.fdiv_eq_ediv_of_nonneg _ (by decide), Int.fdiv_eq_ediv_of_nonneg _ (by decide)]
  omega

section

variable {terms : TokenTerms} {u : User} {now : Stamp} {token : String} {signing : Signing}
  {key : Bytes} {micros : ℤ}

/-- A token that was issued is taken apart by `parts?` into what went into it. -/
theorem Issued.parts (h : Issued terms u now token signing key micros) :
    parts? token = some ⟨signedParts terms u now micros, headerFields terms.algorithm,
      payloadBytes terms u now.epochSeconds (expiry now micros),
      signing.sign key (signedBytes (signedParts terms u now micros))⟩ := by
  rw [h.text]
  exact parts_sealed (valueOf_header terms.algorithm) rfl signing key

/-- No blank stands in a token, and there is something in it. -/
theorem Issued.isBare (h : Issued terms u now token signing key micros) :
    (∀ c ∈ token.toList, isBlank c = false) ∧ token ≠ "" := by
  rw [h.text]
  unfold sealed signedParts part
  refine ⟨fun c hc => ?_, fun hempty => ?_⟩
  · simp only [String.toList_ofList, List.mem_append, List.mem_cons] at hc
    rcases hc with (hc | rfl | hc) | rfl | hc
    · exact Base64Url.isBlank_of_mem_encode hc
    · rfl
    · exact Base64Url.isBlank_of_mem_encode hc
    · rfl
    · exact Base64Url.isBlank_of_mem_encode hc
  · have hnil := congrArg String.toList hempty
    simp at hnil

theorem signingOf_of_header {p : Parts} (hp : p.header = headerFields terms.algorithm) :
    signingOf? terms p = Signing.named? terms.algorithm := by
  unfold signingOf?
  rw [hp]
  exact if_pos rfl

/-- Others have the secret and the way of signing, and go by the name that is in the tokens. -/
structure Recognizes (other terms : TokenTerms) : Prop where
  secret : other.secret = terms.secret
  algorithm : other.algorithm = terms.algorithm
  issuer : other.issuer = terms.issuer.stored

/-- Whoever issues tokens `Recognizes` them, if documents keep the name. -/
theorem recognizes_self (h : terms.issuer.stored = terms.issuer) : Recognizes terms terms :=
  ⟨rfl, rfl, h.symm⟩

/-- Whoever has the secret takes the signature, if a key made it, and looks at the claims: `userId`
comes to `userOf`. -/
theorem Issued.userId_eq (h : Issued terms u now token signing key micros)
    (hsigned : terms.algorithm ≠ "none") {other : TokenTerms} (hother : Recognizes other terms)
    (t : Stamp) :
    userId other t token =
      userOf other t (payloadBytes terms u now.epochSeconds (expiry now micros)) := by
  have hsigning : signingOf? other ⟨signedParts terms u now micros, headerFields terms.algorithm,
      payloadBytes terms u now.epochSeconds (expiry now micros),
      signing.sign key (signedBytes (signedParts terms u now micros))⟩ = some signing := by
    rw [signingOf_of_header (congrArg headerFields hother.algorithm.symm), hother.algorithm,
      h.named]
  unfold userId
  rw [h.parts]
  simp only [hsigning, hother.secret]
  rw [h.keyed]
  exact if_pos (Signing.verifies_sign (Signing.ne_unsigned h.named hsigned) key _)

/-- The claims in a token that was issued are those that documents keep, and `Names` tells them. -/
theorem Issued.names (h : Issued terms u now token signing key micros) (hid : u.id.IsText)
    (hname : u.name.IsText) (hemail : u.email.IsText) :
    ∃ fs, payloadClaims? (payloadBytes terms u now.epochSeconds (expiry now micros)) = some fs ∧
      Names fs u.id.stored terms.issuer.stored now.epochSeconds (expiry now micros) :=
  ⟨_, payloadClaims_stated hid hname hemail h.issuer h.start h.stop, names_stated terms u _ _⟩

/-- The answer is that nobody is known by the token, in these words. -/
def IsDenied (answer : Except Fault Value) (words : String) : Prop :=
  ∃ r : Refusal, answer = refuse r ∧ r.kind = .authentication ∧ r.message = words

/-- A token that no key signs is not taken. -/
theorem Issued.denied (h : Issued terms u now token signing key micros)
    (hunsigned : terms.algorithm = "none") (t : Stamp) :
    IsDenied (userId terms t token) "invalid token" := by
  have hsigning : signing = .unsigned := by
    have hnamed := h.named
    rw [hunsigned] at hnamed
    exact (Option.some.inj hnamed).symm
  refine ⟨.tokenInvalid, ?_, rfl, rfl⟩
  unfold userId
  rw [h.parts]
  simp only [signingOf_of_header, h.named]
  rw [h.keyed, hsigning]
  rfl

/-- A token stands for a user in a stretch of whole seconds: before it the token is not valid, and
from its end on it has expired. -/
structure StandsFor (terms : TokenTerms) (token : String) (user : Value) (issued expires : ℤ) :
    Prop where
  accepted : ∀ now : Stamp, now.IsCountable → (userId terms now token = .ok user ↔
    issued * 1000000 ≤ now.epochMicros ∧ now.epochMicros < expires * 1000000)
  expired : ∀ now : Stamp, now.IsCountable → issued * 1000000 ≤ now.epochMicros →
    expires * 1000000 ≤ now.epochMicros → IsDenied (userId terms now token) "token expired"
  early : ∀ now : Stamp, now.IsCountable → now.epochMicros < issued * 1000000 →
    IsDenied (userId terms now token) "invalid token"

/-- What comes of a token that a key signs, at a time that can be measured: one of three answers of
`userId`. -/
theorem Issued.verdict (h : Issued terms u now token signing key micros)
    (hsigned : terms.algorithm ≠ "none") (hid : u.id.IsText) (hne : u.id.signs ≠ [])
    (hname : u.name.IsText) (hemail : u.email.IsText) {other : TokenTerms}
    (hother : Recognizes other terms) {t : Stamp} (ht : t.IsCountable) :
    userId other t token =
      if now.epochSeconds * 1000000 ≤ t.epochMicros then
        if expiry now micros * 1000000 ≤ t.epochMicros then refuse .tokenExpired
        else .ok u.id.stored
      else refuse .tokenInvalid := by
  obtain ⟨fs, hread, hnames⟩ := h.names hid hname hemail
  have hissuer : other.issuer.IsText := hother.issuer ▸ h.issuer.stored
  rw [← hother.issuer] at hnames
  rw [h.userId_eq hsigned hother]
  exact hnames.verdict hid.stored (hid.truthy_stored hne) hissuer hread ht

/-- So it stands for its user from the second of its issue until it expires. -/
theorem Issued.standsFor (h : Issued terms u now token signing key micros)
    (hsigned : terms.algorithm ≠ "none") (hid : u.id.IsText) (hne : u.id.signs ≠ [])
    (hname : u.name.IsText) (hemail : u.email.IsText) {other : TokenTerms}
    (hother : Recognizes other terms) :
    StandsFor other token u.id.stored now.epochSeconds (expiry now micros) := by
  have hverdict := fun {t} => h.verdict hsigned hid hne hname hemail hother (t := t)
  constructor
  case accepted =>
    intro t ht
    rw [hverdict ht]
    split
    · rename_i hissued
      split
      · rename_i hexpires
        exact ⟨fun h => (by cases h), fun h => absurd h.2 (not_lt.mpr hexpires)⟩
      · rename_i hexpires
        exact ⟨fun _ => ⟨hissued, not_le.mp hexpires⟩, fun _ => rfl⟩
    · rename_i hissued
      exact ⟨fun h => (by cases h), fun h => absurd h.1 hissued⟩
  case expired =>
    intro t ht hissued hexpires
    rw [hverdict ht, if_pos hissued, if_pos hexpires]
    exact ⟨.tokenExpired, rfl, rfl, rfl⟩
  case early =>
    intro t ht hearly
    rw [hverdict ht, if_neg (not_le.mpr hearly)]
    exact ⟨.tokenInvalid, rfl, rfl, rfl⟩

/-- Nobody who goes by another name than the one in a token takes it. -/
theorem Issued.issuer_eq (h : Issued terms u now token signing key micros) (hid : u.id.IsText)
    (hname : u.name.IsText) (hemail : u.email.IsText) {other : TokenTerms}
    (hother : other.issuer.IsText) {t : Stamp} {v : Value}
    (haccepted : userId other t token = .ok v) :
    other.issuer = terms.issuer.stored := by
  obtain ⟨fs, hread, hnames⟩ := h.names hid hname hemail
  have hhold := identitiesHold_of_userOf hread (userOf_of_userId h.parts haccepted)
  unfold identitiesHold at hhold
  simp only [Bool.and_eq_true, hnames.issuer] at hhold
  exact ((isIssuer_iff hother h.issuer.stored).mp hhold.1.1.1).symm

end

/-- A token that is issued for a user holds the id and the issuer as documents keep them, which
joins halves of a pair. If a key signs it, it stands for that id from the second of its issue until
its lifetime is over, to whoever `Recognizes` the terms; so it does to the issuer, if documents keep
the issuer's name. Unsigned it is never taken. Whoever goes by another name never takes it. -/
theorem userId_of_issue {terms : TokenTerms} {u : User} {start : Stamp} {token : String}
    (hid : u.id.IsText) (hne : u.id.signs ≠ []) (hname : u.name.IsText) (hemail : u.email.IsText)
    (h : issue terms u start = .ok token) :
    ∃ micros, lifetime terms.days = .ok micros ∧
      (∀ days, terms.days = .int days →
        expiry start micros = start.epochSeconds + 86400 * days) ∧
      (terms.algorithm ≠ "none" → terms.issuer.stored = terms.issuer →
        StandsFor terms token u.id.stored start.epochSeconds (expiry start micros)) ∧
      (terms.algorithm ≠ "none" → ∀ other, Recognizes other terms →
        StandsFor other token u.id.stored start.epochSeconds (expiry start micros)) ∧
      (terms.algorithm = "none" → ∀ now, IsDenied (userId terms now token) "invalid token") ∧
      (∀ other : TokenTerms, other.issuer.IsText → other.issuer ≠ terms.issuer.stored →
        ∀ now v, userId other now token ≠ .ok v) ∧
      (u.id.IsSound → u.id.stored = u.id) ∧
      (terms.issuer.IsSound → terms.issuer.stored = terms.issuer) := by
  obtain ⟨signing, key, micros, hissued⟩ := issued_of_issue h
  refine ⟨micros, hissued.lasts, fun days hdays => ?_,
    fun hsigned hissuer =>
      hissued.standsFor hsigned hid hne hname hemail (recognizes_self hissuer),
    fun hsigned other hother => hissued.standsFor hsigned hid hne hname hemail hother,
    hissued.denied,
    fun other hother hdiffers now v haccepted =>
      hdiffers (hissued.issuer_eq hid hname hemail hother haccepted),
    fun hsound => hsound.stored, fun hsound => hsound.stored⟩
  have hlasts := hissued.lasts
  rw [hdays] at hlasts
  rw [lifetime_days hlasts, expiry_days]

/-! ### Issued at half a second past ten -/

/-- A time of day in May 2024. -/
def inMay (date : Date) (hour : Fin 24) (minute second : Fin 60) (micro : Fin 1000000) : Stamp :=
  ⟨date, hour, minute, second, micro, some Offset.zero⟩

/-- The first of May. -/
def mayFirst : Date := ⟨2024, 5, 1, by decide⟩

/-- The second of May. -/
def maySecond : Date := ⟨2024, 5, 2, by decide⟩

/-- Terms of a day. -/
def dayTerms : TokenTerms := { secret := .text "secret", days := .int 1 }

/-- A user under an id. -/
def holder (id : Value) : User where
  id := id
  created := .epoch
  updated := .epoch
  name := .text "José"
  email := .text "jose@example.com"

/-- Such a token is taken to the last microsecond of its day, and then no more; and by nobody who
goes by another name. -/
theorem userId_of_issue_within_day : ∃ token,
    issue dayTerms (holder (.text "josé")) (inMay mayFirst 10 0 0 500000) = .ok token ∧
    userId dayTerms (inMay maySecond 9 59 59 999999) token = .ok (.text "josé") ∧
    IsDenied (userId dayTerms (inMay maySecond 10 0 0 0) token) "token expired" ∧
    ∀ now v, userId { dayTerms with issuer := .text "another" } now token ≠ .ok v := by
  obtain ⟨token, htoken⟩ : ∃ token,
      issue dayTerms (holder (.text "josé")) (inMay mayFirst 10 0 0 500000) = .ok token := ⟨_, rfl⟩
  obtain ⟨micros, -, hexpiry, hstands, -, -, hothers, -⟩ :=
    userId_of_issue (u := holder (.text "josé")) trivial (by decide) trivial trivial htoken
  have hstands := hstands (by decide) rfl
  rw [hexpiry 1 rfl] at hstands
  have hlast : (inMay maySecond 9 59 59 999999).IsCountable := ⟨rfl, by decide, by decide⟩
  have hover : (inMay maySecond 10 0 0 0).IsCountable := ⟨rfl, by decide, by decide⟩
  have hanother : Value.text "another" ≠ dayTerms.issuer.stored :=
    fun h => absurd (Value.text.inj h) (by decide)
  exact ⟨token, htoken, (hstands.accepted _ hlast).mpr (by decide),
    hstands.expired _ hover (by decide) (by decide), hothers _ trivial hanother⟩

/-- Terms of an issuer who goes by two halves of a character. -/
def tornTerms : TokenTerms := { secret := .text "secret", issuer := .torn Store.splitPair }

/-- Terms of less than a second. -/
def briefTerms : TokenTerms :=
  { secret := .text "secret", days := .float ((Binary64.ofText? "0.00001").getD .nan) }

/-- The lifetime on these terms is 864 milliseconds. -/
theorem lifetime_brief : lifetime briefTerms.days = .ok 864000 :=
  eq_ok_of_toOption (by decide +kernel)

/-- Not every token that is issued stands for its user, to its issuer alone, and for its lifetime
from the second of its issue: one for an id of two halves of a character names the character; one of
an issuer who goes by them is taken by the issuer of the character's name in place of its own; and
one of 864 milliseconds that was issued in the middle of a second is taken at the end of that
second. -/
theorem issue_not_userId :
    (∃ token, issue dayTerms (holder (.torn Store.splitPair)) (inMay mayFirst 10 0 0 0) =
        .ok token ∧
      userId dayTerms (inMay mayFirst 10 0 0 0) token = .ok (.text "😀")) ∧
    (∃ token, issue tornTerms (holder (.text "josé")) (inMay mayFirst 10 0 0 0) = .ok token ∧
      (∀ now v, userId tornTerms now token ≠ .ok v) ∧
      userId { tornTerms with issuer := .text "😀" } (inMay mayFirst 10 0 0 0) token =
        .ok (.text "josé")) ∧
    ∃ token, issue briefTerms (holder (.text "josé")) (inMay mayFirst 10 0 0 500000) = .ok token ∧
      userId briefTerms (inMay mayFirst 10 0 0 900000) token = .ok (.text "josé") := by
  have hstart : (inMay mayFirst 10 0 0 0).IsCountable := ⟨rfl, by decide, by decide⟩
  refine ⟨?id, ?issuer, ?brief⟩
  case id =>
    obtain ⟨token, htoken⟩ : ∃ token, issue dayTerms (holder (.torn Store.splitPair))
        (inMay mayFirst 10 0 0 0) = .ok token := ⟨_, rfl⟩
    obtain ⟨signing, key, micros, hissued⟩ := issued_of_issue htoken
    have hstands := hissued.standsFor (by decide) trivial (by decide) trivial trivial
      (recognizes_self rfl)
    rw [lifetime_days hissued.lasts, expiry_days] at hstands
    exact ⟨token, htoken, (hstands.accepted _ hstart).mpr (by decide)⟩
  case issuer =>
    obtain ⟨token, htoken⟩ : ∃ token, issue tornTerms (holder (.text "josé"))
        (inMay mayFirst 10 0 0 0) = .ok token := ⟨_, rfl⟩
    obtain ⟨signing, key, micros, hissued⟩ := issued_of_issue htoken
    have htext : tornTerms.issuer.IsText := trivial
    have hother : Recognizes { tornTerms with issuer := .text "😀" } tornTerms := ⟨rfl, rfl, rfl⟩
    have hstands := hissued.standsFor (by decide) trivial (by decide) trivial trivial hother
    rw [lifetime_days hissued.lasts, expiry_days] at hstands
    refine ⟨token, htoken, fun now v haccepted => ?_, (hstands.accepted _ hstart).mpr (by decide)⟩
    have hissuer := hissued.issuer_eq trivial trivial trivial htext haccepted
    cases hissuer
  case brief =>
    obtain ⟨token, htoken⟩ : ∃ token, issue briefTerms (holder (.text "josé"))
        (inMay mayFirst 10 0 0 500000) = .ok token := ⟨_, rfl⟩
    obtain ⟨signing, key, micros, hissued⟩ := issued_of_issue htoken
    obtain rfl := Except.ok.inj (hissued.lasts.symm.trans lifetime_brief)
    have hstands := hissued.standsFor (by decide) trivial (by decide) trivial trivial
      (recognizes_self rfl)
    have hnow : (inMay mayFirst 10 0 0 900000).IsCountable := ⟨rfl, by decide, by decide⟩
    exact ⟨token, htoken, (hstands.accepted _ hnow).mpr (by decide)⟩

end Token
end Account
end LoanDesk
