import Mathlib.Tactic
import LoanDesk.Text.Digit

/-
# Written numbers

The digits of a number read back as the number, from as many places as there are digits
or from a fixed number of places filled with zeros.

Key definitions: `Text.IsDigits`.
Key theorems: `Text.isDigits_natDigits`, `Text.ofDigits_natDigits`,
`Text.natDigits_injective`, `Text.isDigits_padded`, `Text.ofDigits_padded`.
-/

namespace LoanDesk
namespace Text

/-- The number that a digit from `0` to `9` stands for. -/
def digitOf (c : Char) : ℕ := c.toNat - 48

/-- The characters are all digits from `0` to `9`. -/
def IsDigits (cs : List Char) : Prop := ∀ c ∈ cs, c.isDigit = true

theorem isDigits_zeros (k : ℕ) : IsDigits (List.replicate k '0') := by
  intro c hc
  rw [List.eq_of_mem_replicate hc]
  rfl

theorem IsDigits.append {as bs : List Char} (ha : IsDigits as) (hb : IsDigits bs) :
    IsDigits (as ++ bs) := by
  intro c hc
  rcases List.mem_append.mp hc with hc | hc
  · exact ha c hc
  · exact hb c hc

theorem isDigit_digitChar (n : ℕ) : (digitChar n).isDigit = true := by
  have h : ∀ d < 10, (Char.ofNat (48 + d)).isDigit = true := by decide
  exact h (n % 10) (Nat.mod_lt n (by norm_num))

theorem digitOf_digitChar (n : ℕ) : digitOf (digitChar n) = n % 10 := by
  have h : ∀ d < 10, digitOf (Char.ofNat (48 + d)) = d := by decide
  exact h (n % 10) (Nat.mod_lt n (by norm_num))

/-! ### Digits of a number -/

theorem digitsOnto_eq (n : ℕ) (rest : List Char) : digitsOnto n rest = natDigits n ++ rest := by
  unfold natDigits
  induction n using Nat.strong_induction_on generalizing rest with
  | _ n ih =>
    rw [digitsOnto.eq_def n rest, digitsOnto.eq_def n []]
    split
    · rfl
    · rw [ih (n / 10) (by omega), ih (n / 10) (by omega) [_], List.append_assoc]
      rfl

theorem natDigits_of_lt {n : ℕ} (h : n < 10) : natDigits n = [digitChar n] := by
  rw [natDigits, digitsOnto, if_pos h]

theorem natDigits_of_le {n : ℕ} (h : 10 ≤ n) :
    natDigits n = natDigits (n / 10) ++ [digitChar n] := by
  have hmod : digitChar (n % 10) = digitChar n := by rw [digitChar, digitChar, Nat.mod_mod]
  rw [natDigits, digitsOnto, if_neg (by omega), digitsOnto_eq, hmod]

theorem natDigits_ne_nil (n : ℕ) : natDigits n ≠ [] := by
  rcases Nat.lt_or_ge n 10 with h | h
  · simp [natDigits_of_lt h]
  · simp [natDigits_of_le h]

theorem isDigits_natDigits (n : ℕ) : IsDigits (natDigits n) := by
  induction n using Nat.strong_induction_on with
  | _ n ih =>
    intro c hc
    rcases Nat.lt_or_ge n 10 with h | h
    · rw [natDigits_of_lt h, List.mem_singleton] at hc
      rw [hc]
      exact isDigit_digitChar n
    · rw [natDigits_of_le h, List.mem_append, List.mem_singleton] at hc
      rcases hc with hc | rfl
      · exact ih (n / 10) (by omega) c hc
      · exact isDigit_digitChar n

theorem ofDigits_append (as bs : List ℕ) :
    ofDigits (as ++ bs) = ofDigits as * 10 ^ bs.length + ofDigits bs := by
  unfold ofDigits
  rw [List.foldl_append]
  generalize as.foldl (fun n d => n * 10 + d) 0 = a
  induction bs using List.reverseRecOn with
  | nil => simp
  | append_singleton bs b ih =>
    rw [List.foldl_append, List.foldl_append, ih, List.length_append]
    simp only [List.foldl_cons, List.foldl_nil, List.length_singleton, pow_succ]
    ring

/-- The digits of a number read back as the number. -/
theorem ofDigits_natDigits (n : ℕ) : ofDigits ((natDigits n).map digitOf) = n := by
  induction n using Nat.strong_induction_on with
  | _ n ih =>
    rcases Nat.lt_or_ge n 10 with h | h
    · rw [natDigits_of_lt h]
      simp [ofDigits, digitOf_digitChar, Nat.mod_eq_of_lt h]
    · rw [natDigits_of_le h, List.map_append, ofDigits_append, ih (n / 10) (by omega)]
      simp [ofDigits, digitOf_digitChar]
      omega

theorem natDigits_injective : Function.Injective natDigits := by
  intro m n h
  rw [← ofDigits_natDigits m, h, ofDigits_natDigits]

theorem length_natDigits_le {n k : ℕ} (hk : 1 ≤ k) (h : n < 10 ^ k) : (natDigits n).length ≤ k := by
  induction k generalizing n with
  | zero => omega
  | succ k ih =>
    rcases Nat.lt_or_ge n 10 with hn | hn
    · rw [natDigits_of_lt hn]
      exact hk
    · have hk' : 1 ≤ k := by
        by_contra hcon
        obtain rfl : k = 0 := by omega
        omega
      have := ih hk' (n := n / 10) (by rw [pow_succ] at h; omega)
      rw [natDigits_of_le hn, List.length_append, List.length_singleton]
      omega

/-- Only zero is written with a zero in front. -/
theorem head_natDigits {n : ℕ} {rest : List Char} (h : natDigits n = '0' :: rest) : n = 0 := by
  induction n using Nat.strong_induction_on generalizing rest with
  | _ n ih =>
    rcases Nat.lt_or_ge n 10 with hn | hn
    · rw [natDigits_of_lt hn] at h
      have hdigit : digitChar n = '0' := by injection h
      have := digitOf_digitChar n
      rw [hdigit, Nat.mod_eq_of_lt hn] at this
      exact this.symm
    · rw [natDigits_of_le hn] at h
      cases hd : natDigits (n / 10) with
      | nil => exact absurd hd (natDigits_ne_nil _)
      | cons c cs =>
        rw [hd, List.cons_append] at h
        injection h with hc _
        rw [hc] at hd
        have := ih (n / 10) (by omega) hd
        omega

/-! ### Digits at a fixed width -/

theorem length_padded {k n : ℕ} (hk : 1 ≤ k) (h : n < 10 ^ k) : (padded k n).length = k := by
  have := length_natDigits_le hk h
  unfold padded
  rw [List.length_append, List.length_replicate]
  omega

theorem isDigits_padded (k n : ℕ) : IsDigits (padded k n) :=
  (isDigits_zeros _).append (isDigits_natDigits n)

theorem ofDigits_zeros (k : ℕ) : ofDigits ((List.replicate k '0').map digitOf) = 0 := by
  induction k with
  | zero => rfl
  | succ k ih =>
    rw [List.replicate_succ', List.map_append, ofDigits_append, ih]
    rfl

theorem ofDigits_padded (k n : ℕ) : ofDigits ((padded k n).map digitOf) = n := by
  rw [padded, List.map_append, ofDigits_append, ofDigits_zeros, ofDigits_natDigits,
    zero_mul, zero_add]

/-! ### Digits in front of a text -/

/-- What passes a test up to the first character that does not. -/
theorem span_append {p : Char → Bool} {as rest : List Char} (ha : ∀ c ∈ as, p c = true)
    (hr : ∀ c ∈ rest.head?, p c = false) :
    (as ++ rest).takeWhile p = as ∧ (as ++ rest).dropWhile p = rest := by
  rw [List.takeWhile_append_of_pos ha, List.dropWhile_append_of_pos ha]
  cases rest with
  | nil => simp
  | cons c rest => simp [hr c rfl]

end Text
end LoanDesk
