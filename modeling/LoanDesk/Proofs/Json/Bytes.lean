import LoanDesk.Proofs.Json.RoundTrip
import LoanDesk.Proofs.Text.Bytes

/-
# Written values as bytes

A value is written in printable plain characters only, so it stands on one line and goes out as a
byte for each; and a record that has fields is read back from its bytes, since no form of text but
UTF-8 begins as it does.

Key definitions: `Json.ArePrintable`.
Key theorems: `Json.arePrintable_print`, `Json.readBytes_print`.
-/

namespace LoanDesk
namespace Json

open LoanDesk.Text

/-! ### Printable characters -/

/-- All characters are printable ones of the plain 128, so that none of them ends a line. -/
def ArePrintable (cs : List Char) : Prop :=
  ∀ c ∈ cs, 32 ≤ c.toNat ∧ c.toNat < 127

instance (cs : List Char) : Decidable (ArePrintable cs) :=
  List.decidableBAll (fun c : Char => 32 ≤ c.toNat ∧ c.toNat < 127) cs

namespace ArePrintable

variable {c : Char} {cs ds : List Char}

theorem append (hc : ArePrintable cs) (hd : ArePrintable ds) : ArePrintable (cs ++ ds) :=
  fun c h => (List.mem_append.mp h).elim (hc c) (hd c)

theorem cons (hc : 32 ≤ c.toNat ∧ c.toNat < 127) (h : ArePrintable cs) : ArePrintable (c :: cs) :=
  fun d hd => (List.mem_cons.mp hd).elim (fun e => e ▸ hc) (h d)

theorem arePlain (h : ArePrintable cs) : ArePlain cs :=
  fun c hc => (h c hc).2.trans (by decide)

theorem halfMark_notMem (h : ArePrintable cs) : Encoding.halfMark ∉ cs :=
  fun hmark => absurd (h _ hmark).1 (by decide)

end ArePrintable

theorem arePrintable_digitChar (n : ℕ) :
    32 ≤ (Nat.digitChar (n % 16)).toNat ∧ (Nat.digitChar (n % 16)).toNat < 127 := by
  have key : ∀ d < 16, 32 ≤ (Nat.digitChar d).toNat ∧ (Nat.digitChar d).toNat < 127 := by decide
  exact key _ (Nat.mod_lt n (by decide))

theorem arePrintable_spelledUnit (n : ℕ) : ArePrintable (spelledUnit n) := by
  unfold spelledUnit
  rw [hexDigits_four]
  intro c hc
  simp only [List.mem_cons, List.not_mem_nil, or_false] at hc
  rcases hc with rfl | rfl | rfl | rfl | rfl | rfl
  · decide
  · decide
  · exact arePrintable_digitChar _
  · exact arePrintable_digitChar _
  · exact arePrintable_digitChar _
  · exact arePrintable_digitChar _

theorem arePrintable_escaped (c : Char) : ArePrintable (escaped c) := by
  unfold escaped
  split
  · decide
  split
  · decide
  split
  · rename_i h
    exact .cons h (fun _ hd => by cases hd)
  split
  · decide
  split
  · decide
  split
  · decide
  split
  · decide
  split
  · decide
  split
  · exact arePrintable_spelledUnit _
  · exact .append (arePrintable_spelledUnit _) (arePrintable_spelledUnit _)

theorem arePrintable_escapedSign (s : Sign) : ArePrintable (escapedSign s) := by
  cases s with
  | char c => exact arePrintable_escaped c
  | half n _ => exact arePrintable_spelledUnit n

theorem arePrintable_quotedTorn (t : Torn) : ArePrintable (quotedTorn t) := by
  refine .cons (by decide) (.append (fun c hc => ?_) (by decide))
  obtain ⟨s, -, hc⟩ := List.mem_flatMap.mp hc
  exact arePrintable_escapedSign s c hc

theorem arePrintable_quoted (s : String) : ArePrintable (quoted s) := by
  have h := arePrintable_quotedTorn (Torn.ofChars s.toList)
  unfold quotedTorn at h
  rwa [← escape_eq] at h

theorem arePrintable_intDigits (i : ℤ) : ArePrintable (intDigits i) := by
  have hdigits : ∀ n, ArePrintable (natDigits n) := fun n c hc => by
    have hdigit := isDigits_natDigits n c hc
    simp only [Char.isDigit, Bool.and_eq_true, decide_eq_true_eq] at hdigit
    have hge : 48 ≤ c.toNat := hdigit.1
    have hle : c.toNat ≤ 57 := hdigit.2
    omega
  unfold intDigits
  split
  · exact .cons (by decide) (hdigits _)
  · exact hdigits _

theorem IsStyle.arePrintable {style : Style} (hs : IsStyle style) :
    ArePrintable style.between ∧ ArePrintable style.afterName := by
  obtain ⟨⟨m, hm⟩, ⟨n, hn⟩⟩ := hs
  have hblanks : ∀ k, ArePrintable (List.replicate k ' ') := fun k c hc => by
    rw [List.eq_of_mem_replicate hc]
    decide
  rw [hm, hn]
  exact ⟨.cons (by decide) (hblanks m), .cons (by decide) (hblanks n)⟩

section

variable {style : Style}

mutual

/-- What is written for a value without measured numbers are printable characters. -/
theorem arePrintable_chars (hs : IsStyle style) : ∀ {v : Value}, Printable v →
    ArePrintable (chars style v)
  | .null, _ => (by decide : ArePrintable "null".toList)
  | .bool true, _ => (by decide : ArePrintable "true".toList)
  | .bool false, _ => (by decide : ArePrintable "false".toList)
  | .int i, _ => arePrintable_intDigits i
  | .float _, h => absurd h (by simp [Printable])
  | .decimal x, _ => arePrintable_quoted x.text
  | .text s, _ => arePrintable_quoted s
  | .torn t, _ => arePrintable_quotedTorn t
  | .moment t, _ => arePrintable_quoted t.spaced
  | .status s, _ => arePrintable_quoted s.qualified
  | .list items, h => .cons (by decide) (arePrintable_itemChars hs h)
  | .record _, h => .cons (by decide) (arePrintable_fieldChars hs h.2)

theorem arePrintable_itemChars (hs : IsStyle style) : ∀ {items : List Value},
    PrintableItems items → ArePrintable (itemChars style items)
  | [], _ => (by decide : ArePrintable [']'])
  | _ :: _, h => .append (arePrintable_chars hs h.1) (arePrintable_moreItemChars hs h.2)

theorem arePrintable_moreItemChars (hs : IsStyle style) : ∀ {items : List Value},
    PrintableItems items → ArePrintable (moreItemChars style items)
  | [], _ => (by decide : ArePrintable [']'])
  | _ :: _, h => .append hs.arePrintable.1
    (.append (arePrintable_chars hs h.1) (arePrintable_moreItemChars hs h.2))

theorem arePrintable_fieldChars (hs : IsStyle style) : ∀ {fields : List (String × Value)},
    PrintableFields fields → ArePrintable (fieldChars style fields)
  | [], _ => (by decide : ArePrintable ['\x7d'])
  | (n, _) :: _, h => .append (arePrintable_quoted n) (.append hs.arePrintable.2
    (.append (arePrintable_chars hs h.1) (arePrintable_moreFieldChars hs h.2)))

theorem arePrintable_moreFieldChars (hs : IsStyle style) : ∀ {fields : List (String × Value)},
    PrintableFields fields → ArePrintable (moreFieldChars style fields)
  | [], _ => (by decide : ArePrintable ['\x7d'])
  | (n, _) :: _, h => .append hs.arePrintable.1 (.append (arePrintable_quoted n)
    (.append hs.arePrintable.2
      (.append (arePrintable_chars hs h.1) (arePrintable_moreFieldChars hs h.2))))

end

/-- A record with fields is read back from its bytes as what a document keeps of it, if it is not
too deep. -/
theorem readBytes_print (hs : IsStyle style) {f : String × Value} {fields : List (String × Value)}
    (h : Printable (.record (f :: fields))) (hdepth : depth (.record (f :: fields)) ≤ deepest) :
    readBytes (Scrypt.textBytes (print style (.record (f :: fields)))) =
      .ok (Value.stored (.record (f :: fields))) := by
  have hprintable := arePrintable_chars hs h
  obtain ⟨tail, hbegins⟩ := fieldChars_begins style f fields []
  have hchars : chars style (.record (f :: fields)) = '\x7b' :: '"' :: tail := by
    rw [chars, ← hbegins, List.append_nil]
  have hread := readWithin_chars hs h hdepth
  unfold readBytes print
  rw [Scrypt.textBytes_of_plain hprintable.arePlain]
  rw [hchars] at hprintable hread ⊢
  rw [Encoding.ofBytes_of_plain hprintable.arePlain hprintable.halfMark_notMem]
  exact hread

end

end Json
end LoanDesk
