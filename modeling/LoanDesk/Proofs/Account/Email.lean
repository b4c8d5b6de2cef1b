import LoanDesk.Account.Email
import LoanDesk.Proofs.Store.RoundTrip
import LoanDesk.Proofs.Text.Case

/-
# Forms of addresses

The form of an address is what is left of it between the blanks at its ends, in small letters. It
is its own form, so that an address which is kept in it is found by whatever has that form. It is
sound if the address is, so that stores keep it as it is, and it has no zero character unless the
address has one.

Key definitions: `Value.IsSpelt`, `Value.HasNoZero`, `Value.IsAddress`.
Key theorems: `Text.Torn.isParted_normal`, `Account.normalEmail_normalEmail`,
`Account.normalAddress_ofSigns`, `Account.normalAddress_settled`, `Value.IsSpelt.normalAddress`,
`Value.IsSound.normalAddress`.
-/

namespace LoanDesk

/-! ### Halves stay apart -/

namespace Text.Torn

theorem isParted_append_right {s t : Torn} (h : IsParted (s ++ t)) : t.IsParted := by
  induction s with
  | nil => exact h
  | cons x rest ih =>
    refine ih ?_
    cases x with
    | char c => exact h
    | half n k =>
      rw [List.cons_append] at h
      generalize rest ++ t = u at h ⊢
      cases u with
      | nil => trivial
      | cons y ys =>
        cases y with
        | char d => exact h
        | half m l => exact h.2

theorem isParted_append_left {s t : Torn} (h : IsParted (s ++ t)) : s.IsParted := by
  induction s with
  | nil => trivial
  | cons x rest ih =>
    cases x with
    | char c => exact ih h
    | half n k =>
      cases rest with
      | nil => trivial
      | cons y ys =>
        cases y with
        | char d => exact ih h
        | half m l => exact ⟨h.1, ih h.2⟩

theorem isParted_trimmed {t : Torn} (h : t.IsParted) : t.trimmed.IsParted := by
  obtain ⟨front, back, ht, -⟩ := t.exists_trimmed
  rw [ht] at h
  exact isParted_append_right (isParted_append_left h)

theorem isParted_ofChars_append (cs : List Char) {t : Torn} (h : t.IsParted) :
    IsParted (ofChars cs ++ t) := by
  induction cs with
  | nil => exact h
  | cons c rest ih => exact ih

/-- Small forms are characters, and there is one for each character, so no two halves come to stand
together. -/
theorem isParted_loweredAfter {before : List Char} {t : Torn} (h : t.IsParted) :
    (loweredAfter before t).IsParted := by
  induction t generalizing before with
  | nil => trivial
  | cons x rest ih =>
    have hrest : IsParted rest := isParted_append_right (s := [x]) h
    cases x with
    | char c => exact isParted_ofChars_append _ (ih hrest)
    | half n k =>
      cases rest with
      | nil => trivial
      | cons y ys =>
        have hlow : IsParted (loweredAfter [] (y :: ys)) := ih hrest
        cases y with
        | half m l => exact ⟨h.1, hlow⟩
        | char d =>
          obtain ⟨e, es, he⟩ := List.exists_cons_of_ne_nil (smallBetween_ne_nil [] (front ys) d)
          rw [loweredAfter, loweredAfter, he]
          rw [loweredAfter, he] at hlow
          exact hlow

theorem isParted_normal {t : Torn} (h : t.IsParted) : t.normal.IsParted :=
  isParted_loweredAfter (isParted_trimmed h)

theorem whole?_eq_none_iff {t : Torn} : t.whole? = none ↔ ∃ n k, .half n k ∈ t := by
  induction t with
  | nil => simp [whole?]
  | cons x rest ih =>
    cases x with
    | char c => simp [whole?, ih]
    | half n k => exact ⟨fun _ => ⟨n, k, List.mem_cons_self⟩, fun _ => rfl⟩

theorem eq_ofChars_of_whole? {t : Torn} {cs : List Char} (h : t.whole? = some cs) :
    t = ofChars cs := by
  induction t generalizing cs with
  | nil =>
    obtain rfl := Option.some.inj h
    rfl
  | cons x rest ih =>
    cases x with
    | char c =>
      obtain ⟨ds, hds, rfl⟩ := Option.map_eq_some_iff.mp h
      exact congrArg (Sign.char c :: ·) (ih hds)
    | half n k => cases h

/-- A form has a half if its text has one, so `whole?` fails for both or for neither. -/
theorem whole?_normal {t : Torn} (h : t.whole? = none) : t.normal.whole? = none := by
  obtain ⟨n, k, hk⟩ := whole?_eq_none_iff.mp h
  exact whole?_eq_none_iff.mpr ⟨n, k, half_mem_loweredAfter (half_mem_trimmed hk)⟩

end Text.Torn

/-! ### Values -/

namespace Account

open Text

theorem toList_normalEmail (s : String) : (normalEmail s).toList = lower (trim s.toList) := by
  unfold normalEmail lowered trimmed
  rw [String.toList_ofList, String.toList_ofList]

/-- The form of an address is its own form: `normalEmail` is idempotent. -/
theorem normalEmail_normalEmail (s : String) : normalEmail (normalEmail s) = normalEmail s := by
  refine String.toList_injective (Torn.ofChars_injective ?_)
  rw [toList_normalEmail (normalEmail s), ← Torn.normal_ofChars, toList_normalEmail,
    ← Torn.normal_ofChars, Torn.normal_normal]

/-- The form of an address is the `normal` form of its signs, whether halves are among them or
not. -/
theorem normalAddress_ofSigns (t : Torn) :
    normalAddress (.ofSigns t) = .ok (.ofSigns t.normal) := by
  cases hwhole : t.whole? with
  | none =>
    have hsigns : Value.ofSigns t = .torn t := by rw [Value.ofSigns, hwhole]
    have hform : Value.ofSigns t.normal = .torn t.normal := by
      rw [Value.ofSigns, Torn.whole?_normal hwhole]
    rw [hsigns, hform]
    rfl
  | some cs =>
    obtain rfl := Torn.eq_ofChars_of_whole? hwhole
    have hform : (normalEmail (String.ofList cs)).toList = lower (trim cs) := by
      rw [toList_normalEmail, String.toList_ofList]
    have hsigns : Value.ofSigns (Torn.ofChars cs) = .text (String.ofList cs) := by
      rw [Value.ofSigns, hwhole]
    rw [hsigns, Torn.normal_ofChars, ← hform, Json.ofSigns_ofChars]
    rfl

/-- **The form of an address is settled.** It is the small form of what is left of the address
when the blanks at its ends are taken off. Such a form begins and ends with no blank, every
character of it is small whatever stands around it, and it is its own form. -/
theorem normalAddress_settled (t : Torn) :
    ∃ front middle back : Torn, t = front ++ middle ++ back ∧
      (∀ s ∈ front ++ back, s.isBlank = true) ∧ middle.IsBare ∧
      normalAddress (.ofSigns t) = .ok (.ofSigns middle.lowered) ∧
      middle.lowered.IsBare ∧ middle.lowered.IsLow ∧
      normalAddress (.ofSigns middle.lowered) = .ok (.ofSigns middle.lowered) := by
  obtain ⟨front, back, ht, hblank⟩ := t.exists_trimmed
  have hsame : normalAddress (.ofSigns t.normal) = .ok (.ofSigns t.normal) := by
    rw [normalAddress_ofSigns, Torn.normal_normal]
  exact ⟨front, t.trimmed, back, ht, hblank, t.isBare_trimmed, normalAddress_ofSigns t,
    t.isBare_normal, t.isLow_normal, hsame⟩

/-- A capital sigma at the end of a word, one within a word, and a capital with two small signs. -/
example : normalEmail "\u2003ΣΑΣ@İ.GR " = "σας@i\u0307.gr" := by
  decide +kernel

end Account

/-- A text in its one spelling: of characters, or of signs among which is a half. -/
def Value.IsSpelt : Value → Prop
  | .text _ => True
  | .torn t => t.whole? = none
  | _ => False

theorem Value.IsSpelt.isText {v : Value} (h : v.IsSpelt) : v.IsText := by
  cases v <;> trivial

/-- If the value is a whole text, no character of it is zero. -/
def Value.HasNoZero : Value → Prop
  | .text s => ∀ c ∈ s.toList, c.toNat ≠ 0
  | _ => True

/-- An address that a store of the kind keeps as it is, or does not take at all: a text in its one
spelling (`Value.IsSpelt`), in memory with no half of a character directly before the half that
completes it, and for a database with no zero character. -/
structure Value.IsAddress (kind : Storage.Kind) (v : Value) : Prop where
  isSpelt : v.IsSpelt
  isSound : kind = .memory → v.IsSound
  hasNoZero : kind ≠ .memory → v.HasNoZero

namespace Value

open Account

variable {v w : Value}

/-- The form of an address is in its one spelling, and its own form. -/
theorem IsSpelt.normalAddress (h : v.IsSpelt) (hw : Account.normalAddress v = .ok w) :
    w.IsSpelt ∧ Account.normalAddress w = .ok w := by
  cases v with
  | text s =>
    obtain rfl := Except.ok.inj hw
    exact ⟨trivial, congrArg (fun s => Except.ok (Value.text s)) (normalEmail_normalEmail s)⟩
  | torn t =>
    obtain rfl := Except.ok.inj hw
    exact ⟨Text.Torn.whole?_normal h, congrArg (fun t => Except.ok (Value.torn t)) t.normal_normal⟩
  | _ => exact h.elim

/-- The form of a sound address is sound. -/
theorem IsSound.normalAddress (h : v.IsSound) (hw : Account.normalAddress v = .ok w) :
    w.IsSound := by
  cases v with
  | text s =>
    obtain rfl := Except.ok.inj hw
    trivial
  | torn t =>
    obtain rfl := Except.ok.inj hw
    exact ⟨Text.Torn.whole?_normal h.1, Text.Torn.isParted_normal h.2⟩
  | _ => exact h.elim

theorem HasNoZero.normalAddress (h : v.HasNoZero) (hw : Account.normalAddress v = .ok w) :
    w.HasNoZero := by
  cases v with
  | text s =>
    obtain rfl := Except.ok.inj hw
    intro c hc
    rw [toList_normalEmail] at hc
    have hmem : .char c ∈ Text.Torn.normal (Text.Torn.ofChars s.toList) := by
      rw [Text.Torn.normal_ofChars]
      exact Text.Torn.mem_ofChars.mpr ⟨c, hc, rfl⟩
    refine Text.Torn.ne_zero_of_mem_normal (fun d hd => ?_) c hmem
    obtain ⟨e, he, hed⟩ := Text.Torn.mem_ofChars.mp hd
    exact Text.Sign.char.inj hed ▸ h e he
  | torn t =>
    obtain rfl := Except.ok.inj hw
    trivial
  | _ => cases hw

/-- Texts are the same in memory if they are equal. -/
theorem IsText.same_iff (hv : v.IsText) (hw : w.IsText) : v.same w = true ↔ v = w := by
  cases v with
  | text s =>
    cases w with
    | text t => simp [Value.same]
    | torn t => simp [Value.same, Value.sameAmount, Value.amount?]
    | _ => exact hw.elim
  | torn s =>
    cases w with
    | text t => simp [Value.same, Value.sameAmount, Value.amount?]
    | torn t => simp [Value.same]
    | _ => exact hw.elim
  | _ => exact hv.elim

end Value
end LoanDesk
