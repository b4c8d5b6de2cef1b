import Mathlib.Tactic
import LoanDesk.Crypto.Scrypt
import LoanDesk.Text.Base64Url
import LoanDesk.Text.Blank
import LoanDesk.Text.Encoding

/-
# Bytes and what is written for them

A text of plain characters has a byte for each of them, and one without control characters is read
back from its bytes unless its first two look like a mark or like units of more than a byte, which
those of a record in JSON do not. A row of bytes written in the alphabet of web addresses is read
back too, whatever is left over after its threes, and neither a point nor an equals sign nor a
blank is in what is written.

Key definitions: `Text.ArePlain`, `Text.plainBytes`.
Key theorems: `Scrypt.textBytes_of_plain`, `Encoding.ofBytes_of_plain`, `Base64Url.decode_encode`,
`Base64Url.mem_encode`, `Base64Url.isBlank_of_mem_encode`.
-/

namespace LoanDesk

/-! ### Plain texts -/

/-- All characters are of the plain 128. -/
def Text.ArePlain (cs : List Char) : Prop :=
  ∀ c ∈ cs, c.toNat < 128

/-- The bytes of plain characters. -/
def Text.plainBytes (cs : List Char) : Bytes :=
  cs.map fun c => UInt8.ofNat c.toNat

open Text

theorem toList_loop_eq (bs : ByteArray) (i : ℕ) (r : List UInt8) :
    ByteArray.toList.loop bs i r = r.reverse ++ bs.data.toList.drop i := by
  fun_induction ByteArray.toList.loop bs i r with
  | case1 i r hlt ih =>
    have hlen : i < bs.data.toList.length := by simpa using hlt
    have hget : bs.get! i = bs.data.toList[i] := by
      cases bs
      exact getElem!_pos _ i hlt
    rw [ih, List.drop_eq_getElem_cons hlen, hget, List.reverse_cons, List.append_assoc,
      List.singleton_append]
  | case2 i r hlt =>
    rw [List.drop_eq_nil_of_le (by simpa using Nat.le_of_not_lt hlt), List.append_nil]

theorem toList_toByteArray (l : List UInt8) : l.toByteArray.toList = l := by
  unfold ByteArray.toList
  rw [toList_loop_eq, List.toList_data_toByteArray]
  rfl

theorem utf8EncodeChar_of_plain {c : Char} (h : c.toNat < 128) :
    String.utf8EncodeChar c = [UInt8.ofNat c.toNat] :=
  if_pos (Nat.le_of_lt_succ h)

/-- A plain text has a byte for each character. -/
theorem Scrypt.textBytes_of_plain {cs : List Char} (h : ArePlain cs) :
    textBytes (String.ofList cs) = plainBytes cs := by
  have hencode : cs.flatMap String.utf8EncodeChar = plainBytes cs := by
    unfold plainBytes
    rw [List.map_eq_flatMap]
    exact List.flatMap_congr fun c hc => utf8EncodeChar_of_plain (h c hc)
  rw [← hencode]
  exact toList_toByteArray _

namespace Encoding

theorem utf8_of_plain {ns : List ℕ} (h : ∀ n ∈ ns, n < 128) : utf8? ns = some ns := by
  induction ns with
  | nil => rfl
  | cons n ns ih =>
    have hn : n < 0x80 := h n List.mem_cons_self
    rw [utf8?.eq_def]
    simp only [hn, if_true, ih fun m hm => h m (List.mem_cons_of_mem n hm)]
    rfl

theorem charsOf_of_plain {c : Char} (h : c.toNat < 128) (hmark : c ≠ halfMark) :
    charsOf c.toNat = [c] := by
  have hhalf : isHalf c.toNat = false := by
    unfold isHalf
    rw [decide_eq_false (by omega), Bool.false_and]
  unfold charsOf
  rw [hhalf, if_neg Bool.false_ne_true, if_neg (fun hn => hmark (Char.toNat_inj.mp hn)),
    Char.ofNat_toNat]

/-- Bytes that start with a brace and a quote are taken for UTF-8. -/
theorem detect_record (rest : List ℕ) :
    detect (0x7B :: 0x22 :: rest) = (.utf8, 0x7B :: 0x22 :: rest) := by
  cases rest with
  | nil => rfl
  | cons c rest => cases rest <;> rfl

/-- Plain characters that start with a brace and a quote are read back from their bytes, if
`halfMark` is not among them. -/
theorem ofBytes_of_plain {cs : List Char} (h : ArePlain ('\x7b' :: '"' :: cs))
    (hmark : halfMark ∉ '\x7b' :: '"' :: cs) :
    ofBytes? (plainBytes ('\x7b' :: '"' :: cs)) = some ('\x7b' :: '"' :: cs) := by
  have hnat : (plainBytes ('\x7b' :: '"' :: cs)).map UInt8.toNat =
      ('\x7b' :: '"' :: cs).map Char.toNat := by
    unfold plainBytes
    rw [List.map_map]
    refine List.map_congr_left fun c hc => ?_
    have hc := h c hc
    simp only [Function.comp_apply, UInt8.toNat_ofNat']
    omega
  have hchars : (('\x7b' :: '"' :: cs).map Char.toNat).flatMap charsOf = '\x7b' :: '"' :: cs := by
    rw [List.flatMap_map]
    refine (List.flatMap_congr fun c hc =>
      charsOf_of_plain (h c hc) fun heq => hmark (heq ▸ hc)).trans ?_
    exact List.flatMap_singleton' _
  have hutf8 : utf8? (('\x7b' :: '"' :: cs).map Char.toNat) =
      some (('\x7b' :: '"' :: cs).map Char.toNat) := utf8_of_plain fun n hn => by
    obtain ⟨c, hc, rfl⟩ := List.mem_map.mp hn
    exact h c hc
  have hdetect : detect (('\x7b' :: '"' :: cs).map Char.toNat) =
      (.utf8, ('\x7b' :: '"' :: cs).map Char.toNat) := detect_record _
  unfold ofBytes?
  rw [hnat, hdetect]
  simp only [decode?, hutf8, Option.map_some, hchars]

end Encoding

/-! ### The alphabet of web addresses -/

namespace Base64Url

theorem valueOf_charOf (n : ℕ) : valueOf? (charOf n) = some (n % 64) := by
  have key : ∀ v < 64, valueOf? (alphabet.getD v 'A') = some v := by decide +kernel
  exact key _ (Nat.mod_lt n (by decide))

theorem charOf_ne (n : ℕ) : charOf n ≠ '.' ∧ charOf n ≠ '=' := by
  have key : ∀ v < 64, alphabet.getD v 'A' ≠ '.' ∧ alphabet.getD v 'A' ≠ '=' := by decide +kernel
  exact key _ (Nat.mod_lt n (by decide))

/-- Every character that is written stands for a value. -/
theorem exists_charOf (bs : Bytes) : ∀ c ∈ encode bs, ∃ n, c = charOf n := by
  fun_induction encode bs with
  | case1 a b c rest n ih =>
    intro x hx
    simp only [List.mem_cons] at hx
    rcases hx with rfl | rfl | rfl | rfl | hx
    · exact ⟨_, rfl⟩
    · exact ⟨_, rfl⟩
    · exact ⟨_, rfl⟩
    · exact ⟨_, rfl⟩
    · exact ih x hx
  | case2 a b n =>
    intro x hx
    simp only [List.mem_cons, List.not_mem_nil, or_false] at hx
    rcases hx with rfl | rfl | rfl <;> exact ⟨_, rfl⟩
  | case3 a n =>
    intro x hx
    simp only [List.mem_cons, List.not_mem_nil, or_false] at hx
    rcases hx with rfl | rfl <;> exact ⟨_, rfl⟩
  | case4 => simp

/-- Neither a point nor an equals sign is written. -/
theorem mem_encode {bs : Bytes} {c : Char} (hc : c ∈ encode bs) : c ≠ '.' ∧ c ≠ '=' := by
  obtain ⟨n, rfl⟩ := exists_charOf bs c hc
  exact charOf_ne n

/-- Nor is a blank. -/
theorem isBlank_of_mem_encode {bs : Bytes} {c : Char} (hc : c ∈ encode bs) : isBlank c = false := by
  have key : ∀ v < 64, isBlank (alphabet.getD v 'A') = false := by decide +kernel
  obtain ⟨n, rfl⟩ := exists_charOf bs c hc
  exact key _ (Nat.mod_lt n (by decide))

theorem ofNat_eq {n : ℕ} {b : UInt8} (h : n % 256 = b.toNat) : UInt8.ofNat n = b := by
  rw [← UInt8.toNat_inj, UInt8.toNat_ofNat', h]

/-- The characters that are written stand for values that make up the bytes. -/
theorem exists_values (bs : Bytes) :
    ∃ values, (encode bs).mapM valueOf? = some values ∧ ofValues values = some bs := by
  fun_induction encode bs with
  | case1 a b c rest n ih =>
    obtain ⟨values, hvalues, hbytes⟩ := ih
    have ha := a.toNat_lt
    have hb := b.toNat_lt
    have hc := c.toNat_lt
    refine ⟨n / 262144 % 64 :: n / 4096 % 64 :: n / 64 % 64 :: n % 64 :: values, ?_, ?_⟩
    · simp only [List.mapM_cons, valueOf_charOf, hvalues]
      rfl
    · have hn : ((n / 262144 % 64 * 64 + n / 4096 % 64) * 64 + n / 64 % 64) * 64 + n % 64 = n := by
        omega
      simp only [ofValues, hbytes, hn]
      rw [ofNat_eq (b := a) (by omega), ofNat_eq (b := b) (by omega), ofNat_eq (b := c) (by omega)]
      rfl
  | case2 a b n =>
    have ha := a.toNat_lt
    have hb := b.toNat_lt
    refine ⟨[n / 4096 % 64, n / 64 % 64, n % 64], ?_, ?_⟩
    · simp only [List.mapM_cons, List.mapM_nil, valueOf_charOf]
      rfl
    · have hn : (n / 4096 % 64 * 64 + n / 64 % 64) * 64 + n % 64 = n := by omega
      simp only [ofValues, hn]
      rw [if_pos (by omega), ofNat_eq (b := a) (by omega), ofNat_eq (b := b) (by omega)]
  | case3 a n =>
    have ha := a.toNat_lt
    refine ⟨[n / 64 % 64, n % 64], ?_, ?_⟩
    · simp only [List.mapM_cons, List.mapM_nil, valueOf_charOf]
      rfl
    · have hn : n / 64 % 64 * 64 + n % 64 = n := by omega
      simp only [ofValues, hn]
      rw [if_pos (by omega), ofNat_eq (b := a) (by omega)]
  | case4 => exact ⟨[], rfl, rfl⟩

/-- Characters without an equals sign are not filled up. -/
theorem unfilled_eq_self {cs : List Char} (h : ∀ c ∈ cs, c ≠ '=') : unfilled cs = some cs := by
  have hdrop : cs.reverse.dropWhile (· == '=') = cs.reverse := by
    cases hr : cs.reverse with
    | nil => rfl
    | cons c rest =>
      have hc : c ∈ cs := List.mem_reverse.mp (hr ▸ List.mem_cons_self)
      exact List.dropWhile_cons_of_neg (by simpa using h c hc)
  unfold unfilled
  simp only [hdrop, List.reverse_reverse, Nat.sub_self, if_true]

/-- A row of bytes is read back from what is written for it. -/
theorem decode_encode (bs : Bytes) : decode? (encode bs) = some bs := by
  obtain ⟨values, hvalues, hbytes⟩ := exists_values bs
  unfold decode?
  rw [unfilled_eq_self fun c hc => (mem_encode hc).2]
  simp only [Option.bind_eq_bind, Option.bind_some, hvalues, hbytes]

end Base64Url
end LoanDesk
