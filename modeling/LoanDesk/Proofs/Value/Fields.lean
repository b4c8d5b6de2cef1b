import LoanDesk.Value

/-
# Outcomes and fields

What an operation in steps has come to when it succeeds, and how named values are kept:
fields that are named once each keep their order, and what a document keeps of them has
the same names.

Key theorems: `bind_eq_ok`, `map_eq_ok`, `Fields.ofPairs_of_nodup`, `Fields.names_stored`.
-/

namespace LoanDesk

/-- An operation in two steps that succeeds has succeeded in both. -/
theorem bind_eq_ok {ε α β : Type} {x : Except ε α} {f : α → Except ε β} {b : β}
    (h : x >>= f = .ok b) : ∃ a, x = .ok a ∧ f a = .ok b := by
  cases x with
  | ok a => exact ⟨a, rfl, h⟩
  | error e => cases h

theorem map_eq_ok {ε α β : Type} {x : Except ε α} {f : α → β} {b : β} (h : x.map f = .ok b) :
    ∃ a, x = .ok a ∧ f a = b := by
  cases x with
  | ok a => exact ⟨a, rfl, Except.ok.inj h⟩
  | error e => cases h

theorem eq_ok_of_toOption {ε α : Type} {x : Except ε α} {a : α} (h : x.toOption = some a) :
    x = .ok a := by
  cases x with
  | ok b => exact congrArg Except.ok (Option.some.inj h)
  | error e => cases h

namespace Fields

theorem put_of_not_mem {fs : Fields} {name : String} (h : name ∉ fs.map (·.1)) (v : Value) :
    Fields.put fs name v = fs ++ [(name, v)] := by
  induction fs with
  | nil => rfl
  | cons f fs ih =>
    obtain ⟨n, w⟩ := f
    simp only [List.map_cons, List.mem_cons, not_or] at h
    rw [Fields.put, if_neg (Ne.symm h.1), ih h.2]
    rfl

/-- Fields that are named once each are kept in their order. -/
theorem ofPairs_of_nodup {fs : List (String × Value)} (h : (fs.map (·.1)).Nodup) :
    Fields.ofPairs fs = fs := by
  have key : ∀ (fs acc : Fields), ((acc ++ fs).map (·.1)).Nodup →
      fs.foldl (fun fs p => Fields.put fs p.1 p.2) acc = acc ++ fs := by
    intro fs
    induction fs with
    | nil => intro acc _; simp
    | cons f fs ih =>
      intro acc hacc
      have hf : f.1 ∉ acc.map (·.1) := by
        rw [List.map_append, List.nodup_append] at hacc
        intro hmem
        exact hacc.2.2 f.1 hmem f.1 (by simp) rfl
      rw [List.foldl_cons, put_of_not_mem hf, ih _ (by simpa using hacc)]
      simp
  exact key fs [] (by simpa using h)

theorem names_stored (fs : List (String × Value)) :
    (Value.storedFields fs).map (·.1) = fs.map (·.1) := by
  induction fs with
  | nil => rfl
  | cons f fs ih => simpa [Value.storedFields] using ih

end Fields
end LoanDesk
