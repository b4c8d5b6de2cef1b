import LoanDesk.Proofs.Json.RoundTrip

/-
# Values that can be printed

A value that can be printed can be written and is finite, and what a document keeps of it
can be printed again and is kept as it is from then on.

Key theorems: `Json.Printable.isWritable`, `Json.Printable.isFinite`,
`Json.Printable.stored`, `Json.obstacle_int`.
-/

namespace LoanDesk
namespace Json

theorem printableFields_of_forall {fields : List (String × Value)}
    (h : ∀ f ∈ fields, Printable f.2) : PrintableFields fields := by
  induction fields with
  | nil => trivial
  | cons f rest ih =>
    exact ⟨h f List.mem_cons_self, ih fun g hg => h g (List.mem_cons_of_mem f hg)⟩

theorem printable_ofSigns (t : Text.Torn) : Printable (Value.ofSigns t) := by
  unfold Value.ofSigns
  cases t.whole? <;> trivial

mutual

/-- What a document keeps of a value can be printed if the value can. -/
theorem Printable.stored : ∀ {v : Value}, Printable v → Printable v.stored
  | .null, _ | .bool _, _ | .decimal _, _ | .text _, _ | .moment _, _ | .status _, _ => trivial
  | .int _, h => h
  | .float _, h => h.elim
  | .torn t, _ => printable_ofSigns t.joined
  | .list _, h => printableItems_stored h
  | .record fields, h => by
    refine ⟨?_, printableFields_stored h.2⟩
    rw [Fields.names_stored]
    exact h.1

theorem printableItems_stored : ∀ {items : List Value}, PrintableItems items →
    PrintableItems (Value.storedItems items)
  | [], _ => trivial
  | _ :: _, h => ⟨h.1.stored, printableItems_stored h.2⟩

theorem printableFields_stored : ∀ {fields : List (String × Value)}, PrintableFields fields →
    PrintableFields (Value.storedFields fields)
  | [], _ => trivial
  | (_, _) :: _, h => ⟨h.1.stored, printableFields_stored h.2⟩

end

section
variable {test : Value → Bool}

mutual

/-- A test that no number of two kinds fails holds for every part of a value that can be
printed. -/
theorem everyPart_of_printable (hint : ∀ i : ℤ, i.natAbs < 10 ^ Value.integerRoom →
    test (.int i) = true) (hother : ∀ v : Value, (∀ i, v ≠ .int i) → (∀ x, v ≠ .float x) →
    test v = true) : ∀ {v : Value}, Printable v → v.everyPart test = true
  | .null, _ | .bool _, _ | .decimal _, _ | .text _, _ | .torn _, _ | .moment _, _
  | .status _, _ => by simp [Value.everyPart, hother]
  | .int i, h => by
    rw [Value.everyPart]
    · exact hint i h
    · intro items e
      cases e
    · intro fields e
      cases e
  | .float _, h => h.elim
  | .list _, h => by
    rw [Value.everyPart]
    exact everyItem_of_printable hint hother h
  | .record _, h => by
    rw [Value.everyPart]
    exact everyField_of_printable hint hother h.2

theorem everyItem_of_printable (hint : ∀ i : ℤ, i.natAbs < 10 ^ Value.integerRoom →
    test (.int i) = true) (hother : ∀ v : Value, (∀ i, v ≠ .int i) → (∀ x, v ≠ .float x) →
    test v = true) : ∀ {items : List Value}, PrintableItems items →
    Value.everyItem test items = true
  | [], _ => by rw [Value.everyItem]
  | _ :: _, h => by
    rw [Value.everyItem, everyPart_of_printable hint hother h.1,
      everyItem_of_printable hint hother h.2, Bool.and_self]

theorem everyField_of_printable (hint : ∀ i : ℤ, i.natAbs < 10 ^ Value.integerRoom →
    test (.int i) = true) (hother : ∀ v : Value, (∀ i, v ≠ .int i) → (∀ x, v ≠ .float x) →
    test v = true) : ∀ {fields : List (String × Value)}, PrintableFields fields →
    Value.everyField test fields = true
  | [], _ => by rw [Value.everyField]
  | (_, _) :: _, h => by
    rw [Value.everyField, everyPart_of_printable hint hother h.1,
      everyField_of_printable hint hother h.2, Bool.and_self]

end
end

variable {v : Value}

theorem Printable.isWritable (h : Printable v) : v.isWritable = true := by
  refine everyPart_of_printable (fun i hi => ?_) (fun v hv _ => ?_) h
  · generalize Value.integerRoom = room at hi ⊢
    exact decide_eq_true hi
  · cases v with
    | int i => exact absurd rfl (hv i)
    | _ => rfl

theorem Printable.isFinite (h : Printable v) : v.isFinite = true := by
  refine everyPart_of_printable (fun i _ => rfl) (fun v _ hv => ?_) h
  cases v with
  | float x => exact absurd rfl (hv x)
  | _ => rfl

theorem everyPart_of_mem {test : Value → Bool} {fs : List (String × Value)} {f : String × Value}
    (h : Value.everyField test fs = true) (hm : f ∈ fs) : f.2.everyPart test = true := by
  induction fs with
  | nil => cases hm
  | cons g rest ih =>
    obtain ⟨n, v⟩ := g
    rw [Value.everyField, Bool.and_eq_true] at h
    rcases List.mem_cons.mp hm with rfl | hm
    · exact h.1
    · exact ih h.2 hm

/-- A record that can be written has values that can be. -/
theorem isWritable_of_mem {fs : Fields} {f : String × Value}
    (h : (Value.record fs).isWritable = true) (hm : f ∈ fs) : f.2.isWritable = true := by
  unfold Value.isWritable at h ⊢
  rw [Value.everyPart] at h
  exact everyPart_of_mem h hm

/-- A record that can be written has integers that can be. -/
theorem int_of_isWritable {fs : Fields} {name : String} {i : ℤ}
    (h : (Value.record fs).isWritable = true) (hm : (name, .int i) ∈ fs) :
    i.natAbs < 10 ^ Value.integerRoom := by
  have hi := isWritable_of_mem h hm
  dsimp only at hi
  unfold Value.isWritable at hi
  rw [Value.everyPart] at hi
  · generalize Value.integerRoom = room at hi ⊢
    exact of_decide_eq_true hi
  · intro items e
    cases e
  · intro fields e
    cases e

/-! ### Obstacles -/

theorem obstacle_int {room : ℕ} {i : ℤ} : obstacle? room (.int i) = none ↔
    i.natAbs < 10 ^ Value.integerRoom := by
  unfold obstacle?
  generalize Value.integerRoom = digits
  simp

end Json
end LoanDesk
