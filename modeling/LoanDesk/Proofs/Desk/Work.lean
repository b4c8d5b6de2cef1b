import LoanDesk.Proofs.Text.Digits
import LoanDesk.Web.Access

/-
# Work performed

What comes of work at a desk, and the desk after it, step by step. Work that only looks
leaves the desk as it was, whatever comes of it; so does work made of such work. Most other
work leaves the clock and the terms.

Key definitions: `Desk.perform`, `Desk.idOf`, `Desk.IsLook`, `Desk.IsSteady`, `Desk.Ends`.
Key theorems: `Desk.perform_bind`, `Desk.perform_changing`, `Desk.perform_attempt`,
`Desk.IsLook.bind`, `Desk.IsSteady.bind`, `Desk.Ends.bind`.
-/

namespace LoanDesk
namespace Desk

variable {α β : Type} {d : Desk}

/-- What comes of work at a desk, and the desk after it. -/
def perform (d : Desk) (w : Work α) : Except Fault α × Desk :=
  w.run d

/-- The id that a desk gives out under a number. -/
def idOf (n : ℕ) : String :=
  "id-" ++ String.ofList (Text.natDigits n)

theorem idOf_injective {m n : ℕ} (h : idOf m = idOf n) : m = n := by
  unfold idOf at h
  rw [← String.toList_inj, String.toList_append, String.toList_append, List.append_cancel_left_eq,
    String.toList_ofList, String.toList_ofList] at h
  exact Text.natDigits_injective h

/-! ### The parts of work -/

theorem perform_bind (d : Desk) (w : Work α) (k : α → Work β) :
    d.perform (w >>= k) =
      match d.perform w with
      | (.ok a, d') => d'.perform (k a)
      | (.error f, d') => (.error f, d') := by
  unfold perform
  rw [ExceptT.run_bind]
  cases h : w.run d with
  | mk r d' =>
    simp only [bind, StateT.bind, h]
    cases r <;> rfl

theorem perform_bind_ok {w : Work α} {a : α} {e : Desk} (h : d.perform w = (.ok a, e))
    (k : α → Work β) : d.perform (w >>= k) = e.perform (k a) := by
  rw [perform_bind, h]

theorem perform_bind_error {w : Work α} {f : Fault} {e : Desk}
    (h : d.perform w = (.error f, e)) (k : α → Work β) :
    d.perform (w >>= k) = (.error f, e) := by
  rw [perform_bind, h]

@[simp]
theorem perform_get (d : Desk) : d.perform (get : Work Desk) = (.ok d, d) := rfl

@[simp]
theorem perform_lifted (d : Desk) (x : Except Fault α) : d.perform (lifted x) = (x, d) := by
  cases x <;> rfl

@[simp]
theorem perform_reading (d : Desk) (look : Storage → Except Fault α) :
    d.perform (reading look) = (look d.storage, d) := by
  unfold reading
  rw [perform_bind_ok (perform_get d)]
  cases look d.storage <;> rfl

theorem perform_changing (d : Desk) (change : Storage → Except Fault (α × Storage)) :
    d.perform (changing change) =
      match change d.storage with
      | .ok (a, s) => (.ok a, { d with storage := s })
      | .error f => (.error f, d) := by
  unfold changing
  rw [perform_bind_ok (perform_get d)]
  cases change d.storage <;> rfl

theorem perform_writing (d : Desk) (change : Storage → Except Fault Storage) :
    d.perform (writing change) =
      match change d.storage with
      | .ok s => (.ok (), { d with storage := s })
      | .error f => (.error f, d) := by
  unfold writing
  rw [perform_changing]
  cases change d.storage <;> rfl

@[simp]
theorem perform_now (d : Desk) : d.perform now = (.ok d.clock, d) := rfl

@[simp]
theorem perform_freshId (d : Desk) :
    d.perform freshId = (.ok (idOf (d.ids + 1)), { d with ids := d.ids + 1 }) := rfl

@[simp]
theorem perform_freshSalt (d : Desk) : d.perform freshSalt =
    (.ok (String.ofList (Text.hexDigits 32 (d.salts + 1))), { d with salts := d.salts + 1 }) := rfl

@[simp]
theorem perform_freshRequest (d : Desk) : d.perform freshRequest =
    (.ok ("req-" ++ String.ofList (Text.natDigits (d.requests + 1))),
      { d with requests := d.requests + 1 }) := rfl

theorem perform_tryCatch (d : Desk) (w : Work α) (handler : Fault → Work α) :
    d.perform (tryCatch w handler) =
      match d.perform w with
      | (.ok a, d') => (.ok a, d')
      | (.error f, d') => d'.perform (handler f) := by
  unfold perform
  change (ExceptT.tryCatch w handler).run d = _
  simp only [ExceptT.tryCatch, ExceptT.run_mk, bind, StateT.bind]
  cases h : w.run d with
  | mk r d' =>
    have hw : w d = (r, d') := h
    rw [hw]
    cases r <;> rfl

theorem perform_attempt (d : Desk) (w : Work α) :
    d.perform (Web.attempt w) =
      match d.perform w with
      | (.ok a, d') => (.ok (.ok a), d')
      | (.error (.refused r), d') => (.ok (.error r), d')
      | (.error f, d') => (.error f, d') := by
  unfold Web.attempt perform
  rfl

/-! ### Work that only looks -/

/-- The work leaves every desk as it was, so `perform` changes nothing by it. -/
def IsLook (w : Work α) : Prop :=
  ∀ d : Desk, (d.perform w).2 = d

namespace IsLook

variable {w : Work α} {k : α → Work β}

theorem eq (h : IsLook w) (d : Desk) : d.perform w = ((d.perform w).1, d) :=
  Prod.ext rfl (h d)

theorem pure (a : α) : IsLook (Pure.pure a : Work α) := fun _ => rfl

theorem lifted (x : Except Fault α) : IsLook (Desk.lifted x) := fun d => by
  rw [perform_lifted]

theorem reading (look : Storage → Except Fault α) : IsLook (Desk.reading look) := fun d => by
  rw [perform_reading]

theorem get : IsLook (MonadState.get : Work Desk) := fun _ => rfl

theorem now : IsLook Desk.now := fun _ => rfl

theorem bind (hw : IsLook w) (hk : ∀ a, IsLook (k a)) : IsLook (w >>= k) := by
  intro d
  rw [perform_bind, hw.eq d]
  cases (d.perform w).1 with
  | ok a => exact hk a d
  | error f => rfl

theorem attempt (hw : IsLook w) : IsLook (Web.attempt w) := by
  intro d
  rw [perform_attempt, hw.eq d]
  rcases (d.perform w).1 with (f | a)
  · cases f <;> rfl
  · rfl

/-- Work that succeeds after a look has what the look found. -/
theorem bind_ok (hw : IsLook w) {b : β} (h : (d.perform (w >>= k)).1 = .ok b) :
    ∃ a, (d.perform w).1 = .ok a ∧ (d.perform (k a)).1 = .ok b := by
  rw [perform_bind, hw.eq d] at h
  cases hr : (d.perform w).1 with
  | ok a =>
    rw [hr] at h
    exact ⟨a, rfl, h⟩
  | error f =>
    rw [hr] at h
    cases h

end IsLook

theorem of_attempt_ok {w : Work α} {a : α} (h : (d.perform (Web.attempt w)).1 = .ok (.ok a)) :
    (d.perform w).1 = .ok a := by
  rw [perform_attempt] at h
  rcases hr : d.perform w with ⟨f | b, d'⟩
  · rw [hr] at h
    cases f <;> cases h
  · rw [hr] at h
    exact congrArg _ (Except.ok.inj (Except.ok.inj h))

/-! ### Work that leaves clock and terms -/

/-- The work leaves the clock and the terms of every desk. -/
def IsSteady (w : Work α) : Prop :=
  ∀ d : Desk, (d.perform w).2.clock = d.clock ∧ (d.perform w).2.terms = d.terms

theorem IsLook.isSteady {w : Work α} (h : IsLook w) : IsSteady w := fun d => by
  rw [h d]
  exact ⟨rfl, rfl⟩

namespace IsSteady

variable {w : Work α} {k : α → Work β}

theorem changing (change : Storage → Except Fault (α × Storage)) :
    IsSteady (Desk.changing change) := fun d => by
  rw [perform_changing]
  cases change d.storage <;> exact ⟨rfl, rfl⟩

theorem writing (change : Storage → Except Fault Storage) : IsSteady (Desk.writing change) :=
  changing _

theorem freshId : IsSteady Desk.freshId := fun _ => ⟨rfl, rfl⟩

theorem freshSalt : IsSteady Desk.freshSalt := fun _ => ⟨rfl, rfl⟩

theorem bind (hw : IsSteady w) (hk : ∀ a, IsSteady (k a)) : IsSteady (w >>= k) := by
  intro d
  obtain ⟨hclock, hterms⟩ := hw d
  rw [perform_bind]
  cases hp : d.perform w with
  | mk r e =>
    rw [hp] at hclock hterms
    cases r with
    | ok a => exact ⟨(hk a e).1.trans hclock, (hk a e).2.trans hterms⟩
    | error f => exact ⟨hclock, hterms⟩

theorem attempt (hw : IsSteady w) : IsSteady (Web.attempt w) := by
  intro d
  have hsteady := hw d
  rw [perform_attempt]
  rcases hp : d.perform w with ⟨f | a, e⟩
  · rw [hp] at hsteady
    cases f <;> exact hsteady
  · rw [hp] at hsteady
    exact hsteady

theorem tryCatch {handler : Fault → Work α} (hw : IsSteady w)
    (hhandler : ∀ f, IsSteady (handler f)) :
    IsSteady (MonadExcept.tryCatch w handler) := by
  intro d
  have hsteady := hw d
  rw [perform_tryCatch]
  rcases hp : d.perform w with ⟨f | a, e⟩
  · rw [hp] at hsteady
    exact ⟨(hhandler f e).1.trans hsteady.1, (hhandler f e).2.trans hsteady.2⟩
  · rw [hp] at hsteady
    exact hsteady

end IsSteady

/-! ### What work comes to -/

/-- Whatever comes of the work, it and the desk after it are as told. -/
def Ends (d : Desk) (w : Work α) (Q : Except Fault α → Desk → Prop) : Prop :=
  Q (d.perform w).1 (d.perform w).2

namespace Ends

variable {w : Work α} {k : α → Work β} {Q R : Except Fault α → Desk → Prop}
  {S : Except Fault β → Desk → Prop}

theorem intro {r : Except Fault α} {e : Desk} (hp : d.perform w = (r, e)) (h : Q r e) :
    d.Ends w Q := by
  unfold Ends
  rw [hp]
  exact h

theorem elim (h : d.Ends w Q) : ∃ r d', d.perform w = (r, d') ∧ Q r d' :=
  ⟨_, _, rfl, h⟩

theorem mono (h : d.Ends w Q) (hr : ∀ r d', Q r d' → R r d') : d.Ends w R :=
  hr _ _ h

theorem bind (h : d.Ends w Q) (hok : ∀ a d', Q (.ok a) d' → d'.Ends (k a) S)
    (herror : ∀ f d', Q (.error f) d' → S (.error f) d') : d.Ends (w >>= k) S := by
  obtain ⟨r, d', hp, hq⟩ := h.elim
  cases r with
  | ok a =>
    unfold Ends
    rw [perform_bind_ok hp]
    exact hok a d' hq
  | error f =>
    unfold Ends
    rw [perform_bind_error hp]
    exact herror f d' hq

/-- Work with a known outcome comes first. -/
theorem next {a : α} {e : Desk} (hp : d.perform w = (.ok a, e)) (h : e.Ends (k a) S) :
    d.Ends (w >>= k) S := by
  unfold Ends at h ⊢
  rw [perform_bind_ok hp]
  exact h

/-- Work that only looks comes first. -/
theorem look (hw : IsLook w) (hok : ∀ a, (d.perform w).1 = .ok a → d.Ends (k a) S)
    (herror : ∀ f, S (.error f) d) : d.Ends (w >>= k) S := by
  refine bind (Q := fun r d' => r = (d.perform w).1 ∧ d' = d) ⟨rfl, hw d⟩ ?_ ?_
  · rintro a _ ⟨ha, rfl⟩
    exact hok a ha.symm
  · rintro f _ ⟨-, rfl⟩
    exact herror f

/-- Refusals are kept by `Web.attempt`, and the desk with them. -/
theorem attempt {S : Except Fault (Except Refusal α) → Desk → Prop} (h : d.Ends w Q)
    (hok : ∀ a d', Q (.ok a) d' → S (.ok (.ok a)) d')
    (hrefused : ∀ r d', Q (.error (.refused r)) d' → S (.ok (.error r)) d')
    (herror : ∀ f d', Q (.error f) d' → S (.error f) d') : d.Ends (Web.attempt w) S := by
  obtain ⟨r, d', hp, hq⟩ := h.elim
  unfold Ends
  rw [perform_attempt, hp]
  rcases r with (f | a)
  · cases f with
    | refused r => exact hrefused r d' hq
    | _ => exact herror _ d' hq
  · exact hok a d' hq

end Ends
end Desk
end LoanDesk
