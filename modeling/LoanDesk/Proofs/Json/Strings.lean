import Mathlib.Tactic
import LoanDesk.Json.Parser
import LoanDesk.Json.Printer

/-
# JSON strings read back

A string is written as characters, escapes and spelled units, and read as pieces, which
are plain characters and units. Two units that form a pair are joined on the way back;
so a character outside the first plane comes back whole, and halves that stood next to
each other come back as one character.

Key definitions: `Json.piecesOf`.
Key theorems: `Json.readPieces_quoted`, `Json.join_pieces`, `Json.readString_torn`,
`Json.readString_half`, `Json.readString_text`.
-/

namespace LoanDesk
namespace Json

open LoanDesk.Text

/-! ### Units -/

theorem hexValue_digitChar {d : ℕ} (h : d < 16) : hexValue? (Nat.digitChar d) = some d := by
  have key : ∀ d < 16, hexValue? (Nat.digitChar d) = some d := by decide
  exact key d h

theorem hexDigits_four (n : ℕ) : hexDigits 4 n =
    [Nat.digitChar (n / 4096 % 16), Nat.digitChar (n / 256 % 16), Nat.digitChar (n / 16 % 16),
      Nat.digitChar (n % 16)] := by
  simp [hexDigits, Nat.div_div_eq_div_mul]

theorem unit_hexDigits {n : ℕ} (h : n < 65536) :
    unit? (Nat.digitChar (n / 4096 % 16)) (Nat.digitChar (n / 256 % 16))
      (Nat.digitChar (n / 16 % 16)) (Nat.digitChar (n % 16)) = some n := by
  have hmod (m : ℕ) : hexValue? (Nat.digitChar (m % 16)) = some (m % 16) :=
    hexValue_digitChar (Nat.mod_lt m (by norm_num))
  unfold unit?
  rw [hmod, hmod, hmod, hmod]
  simp only [bind, Option.bind, pure]
  congr 1
  omega

theorem isHalf_toNat (c : Char) : isHalf c.toNat = false := by
  have h : c.toNat < 0xD800 ∨ 0xDFFF < c.toNat ∧ c.toNat < 0x110000 := c.valid
  simp only [isHalf, Bool.and_eq_false_iff, decide_eq_false_iff_not]
  omega

theorem toNat_lt (c : Char) : c.toNat < 0x110000 := by
  have h : c.toNat < 0xD800 ∨ 0xDFFF < c.toNat ∧ c.toNat < 0x110000 := c.valid
  omega

theorem ofPoint_toNat (c : Char) : Sign.ofPoint c.toNat = .char c := by
  unfold Sign.ofPoint
  rw [dif_neg (by simp [isHalf_toNat]), Char.ofNat_toNat]

theorem ofPoint_half {n : ℕ} (h : isHalf n = true) : Sign.ofPoint n = .half n h := by
  unfold Sign.ofPoint
  rw [dif_pos h]

/-- The first unit of a character outside the first plane. -/
def highUnit (c : Char) : ℕ := 55296 + (c.toNat - 65536) / 1024

/-- The second unit of a character outside the first plane. -/
def lowUnit (c : Char) : ℕ := 56320 + (c.toNat - 65536) % 1024

theorem highUnit_lt (c : Char) : highUnit c < 56320 := by
  have := toNat_lt c
  unfold highUnit
  omega

theorem isPair_iff {n m : ℕ} :
    isPair n m = true ↔ 55296 ≤ n ∧ n < 56320 ∧ 56320 ≤ m ∧ m < 57344 := by
  simp [isPair, and_assoc]

theorem isPair_units (c : Char) : isPair (highUnit c) (lowUnit c) = true := by
  refine isPair_iff.mpr ⟨Nat.le_add_right _ _, highUnit_lt c, Nat.le_add_right _ _, ?_⟩
  unfold lowUnit
  omega

theorem ofPair_units {c : Char} (h : 65536 ≤ c.toNat) : ofPair (highUnit c) (lowUnit c) = c := by
  unfold ofPair highUnit lowUnit
  rw [show 65536 + (55296 + (c.toNat - 65536) / 1024 - 55296) * 1024 +
    (56320 + (c.toNat - 65536) % 1024 - 56320) = c.toNat by omega, Char.ofNat_toNat]

/-! ### Pieces -/

/-- The character is written as itself or by a letter. -/
def isPlainlyWritten (c : Char) : Bool :=
  (32 ≤ c.toNat && c.toNat < 127) || [8, 9, 10, 12, 13].contains c.toNat

/-- The pieces that a sign is read back as. -/
def piecesOf : Sign → List Piece
  | .char c =>
    if isPlainlyWritten c then [.plain c]
    else if c.toNat < 65536 then [.unit c.toNat]
    else [.unit (highUnit c), .unit (lowUnit c)]
  | .half n _ => [.unit n]

/-- The pieces of a sign that is a character. -/
theorem piecesOf_char (c : Char) : piecesOf (.char c) =
    if isPlainlyWritten c then [.plain c]
    else if c.toNat < 65536 then [.unit c.toNat]
    else [.unit (highUnit c), .unit (lowUnit c)] := rfl

theorem readPieces_quote (rest : List Char) : readPieces ('"' :: rest) = some ([], rest) := by
  rw [readPieces.eq_def]
  simp

theorem readPieces_plain {c : Char} (h1 : c ≠ '"') (h2 : c ≠ '\\') (h3 : 32 ≤ c.toNat)
    (rest : List Char) :
    readPieces (c :: rest) = (readPieces rest).map fun t => (.plain c :: t.1, t.2) := by
  have hmark : c ≠ Encoding.halfMark := fun hc => by
    rw [hc] at h3
    exact absurd h3 (by decide)
  rw [readPieces.eq_def]
  simp [h1, h2, hmark, show ¬c.toNat < 32 by omega]

theorem readPieces_letter {e x : Char} (hu : e ≠ 'u') (h : ofEscape? e = some x)
    (rest : List Char) :
    readPieces ('\\' :: e :: rest) = (readPieces rest).map fun t => (.plain x :: t.1, t.2) := by
  rw [readPieces.eq_def]
  simp [hu, h]

theorem readPieces_unit {n : ℕ} (h : n < 65536) (rest : List Char) :
    readPieces (spelledUnit n ++ rest) =
      (readPieces rest).map fun t => (.unit n :: t.1, t.2) := by
  rw [spelledUnit, hexDigits_four, readPieces.eq_def]
  simp [unit_hexDigits h]

theorem eq_ofNat {c : Char} {n : ℕ} (h : c.toNat = n) : c = Char.ofNat n := by
  rw [← h, Char.ofNat_toNat]

/-- A half that stands in the bytes of a text reads as a piece of its own. -/
theorem readPieces_half {n : ℕ} (h : isHalf n = true) (rest : List Char) :
    readPieces (Encoding.charsOf n ++ rest) =
      (readPieces rest).map fun t => (.lone n :: t.1, t.2) := by
  have hn : n < 65536 := by
    simp only [isHalf, Bool.and_eq_true, decide_eq_true_eq] at h
    omega
  unfold Encoding.charsOf
  rw [if_pos h, hexDigits_four, readPieces.eq_def]
  simp [Encoding.halfMark, unit_hexDigits hn]

theorem readPieces_escaped (c : Char) (rest : List Char) :
    readPieces (escaped c ++ rest) =
      (readPieces rest).map fun t => (piecesOf (.char c) ++ t.1, t.2) := by
  rw [piecesOf_char]
  unfold escaped isPlainlyWritten
  by_cases h1 : c = '"'
  · subst h1
    exact readPieces_letter (by decide) rfl rest
  by_cases h2 : c = '\\'
  · subst h2
    exact readPieces_letter (by decide) rfl rest
  rw [if_neg h1, if_neg h2]
  by_cases h3 : 32 ≤ c.toNat ∧ c.toNat < 127
  · rw [if_pos h3, List.singleton_append, readPieces_plain h1 h2 h3.1]
    simp [h3]
  rw [if_neg h3]
  by_cases h8 : c.toNat = 8
  · rw [eq_ofNat h8]
    exact readPieces_letter (by decide) rfl rest
  by_cases h9 : c.toNat = 9
  · rw [eq_ofNat h9]
    exact readPieces_letter (by decide) rfl rest
  by_cases h10 : c.toNat = 10
  · rw [eq_ofNat h10]
    exact readPieces_letter (by decide) rfl rest
  by_cases h12 : c.toNat = 12
  · rw [eq_ofNat h12]
    exact readPieces_letter (by decide) rfl rest
  by_cases h13 : c.toNat = 13
  · rw [eq_ofNat h13]
    exact readPieces_letter (by decide) rfl rest
  rw [if_neg h8, if_neg h9, if_neg h10, if_neg h12, if_neg h13]
  have hplain : (32 ≤ c.toNat && c.toNat < 127 || [8, 9, 10, 12, 13].contains c.toNat) = false := by
    simp [h8, h9, h10, h12, h13]
    omega
  rw [hplain]
  by_cases hc : c.toNat < 65536
  · rw [if_pos hc, if_pos hc, readPieces_unit hc]
    simp
  · rw [if_neg hc, if_neg hc, List.append_assoc]
    have hhigh := highUnit_lt c
    have hlow : lowUnit c < 65536 := by unfold lowUnit; omega
    rw [← highUnit, ← lowUnit, readPieces_unit (by omega), readPieces_unit hlow]
    cases readPieces rest <;> simp

theorem readPieces_sign (s : Sign) (rest : List Char) :
    readPieces (escapedSign s ++ rest) =
      (readPieces rest).map fun t => (piecesOf s ++ t.1, t.2) := by
  cases s with
  | char c => exact readPieces_escaped c rest
  | half n h =>
    have hn : n < 65536 := by
      simp only [isHalf, Bool.and_eq_true, decide_eq_true_eq] at h
      omega
    exact readPieces_unit hn rest

/-- What is written for signs reads back as their pieces. -/
theorem readPieces_quoted (t : Torn) (rest : List Char) :
    readPieces (t.flatMap escapedSign ++ '"' :: rest) = some (t.flatMap piecesOf, rest) := by
  induction t with
  | nil => exact readPieces_quote rest
  | cons s t ih =>
    rw [List.flatMap_cons, List.append_assoc, readPieces_sign, ih]
    rfl

/-! ### Joining -/

/-- A unit that does not begin a pair stands for itself. -/
theorem join_unit {n : ℕ} {ps : List Piece}
    (h : ∀ m, Piece.unit m ∈ ps.head? → isPair n m = false) :
    join (.unit n :: ps) = .ofPoint n :: join ps := by
  cases ps with
  | nil => simp [join]
  | cons p ps =>
    cases p with
    | plain c => simp [join]
    | lone m => simp [join]
    | unit m =>
      rw [join, h m rfl]
      rfl

theorem isHalf_eq_false {n : ℕ} : isHalf n = false ↔ n < 55296 ∨ 57344 ≤ n := by
  simp [isHalf]
  omega

theorem isPair_of_not_isHalf {n m : ℕ} (h : isHalf n = false) : isPair n m = false := by
  rw [isHalf_eq_false] at h
  rw [← Bool.not_eq_true, isPair_iff]
  omega

theorem isPair_of_lt {n m : ℕ} (h : m < 56320 ∨ 57344 ≤ m) : isPair n m = false := by
  rw [← Bool.not_eq_true, isPair_iff]
  omega

/-- The pieces of a character do not end a pair. -/
theorem not_isPair_pieces (n : ℕ) (c : Char) (ps : List Piece) :
    ∀ m, Piece.unit m ∈ (piecesOf (.char c) ++ ps).head? → isPair n m = false := by
  intro m hm
  rw [piecesOf_char] at hm
  split at hm
  · simp at hm
  · split at hm
    · simp only [List.singleton_append, List.head?_cons, Option.mem_some_iff,
        Piece.unit.injEq] at hm
      have h := isHalf_eq_false.mp (isHalf_toNat c)
      exact isPair_of_lt (by omega)
    · simp only [List.cons_append, List.head?_cons, Option.mem_some_iff, Piece.unit.injEq] at hm
      have := highUnit_lt c
      exact isPair_of_lt (by omega)

theorem join_char (c : Char) (ps : List Piece) :
    join (piecesOf (.char c) ++ ps) = .char c :: join ps := by
  rw [piecesOf_char]
  split
  · simp [join]
  · split
    · rw [List.singleton_append, join_unit fun m _ => isPair_of_not_isHalf (isHalf_toNat c),
        ofPoint_toNat]
    · rename_i hc
      rw [List.cons_append, List.singleton_append, join, isPair_units, if_pos rfl,
        ofPair_units (by omega)]

/-- The pieces of signs are joined to the signs, and halves that form a pair to a character. -/
theorem join_pieces (t : Torn) : join (t.flatMap piecesOf) = t.joined := by
  induction t using Torn.joined.induct with
  | case1 n h m k rest hpair ih =>
    rw [Torn.joined, if_pos hpair]
    simp only [List.flatMap_cons, piecesOf, List.singleton_append]
    rw [join, if_pos hpair, ih]
  | case2 n h m k rest hpair ih =>
    rw [Torn.joined, if_neg hpair]
    rw [Bool.not_eq_true] at hpair
    rw [List.flatMap_cons, piecesOf, List.singleton_append, join_unit ?_, ofPoint_half h, ih]
    intro m' hm'
    simp only [List.flatMap_cons, piecesOf, List.singleton_append, List.head?_cons,
      Option.mem_some_iff, Piece.unit.injEq] at hm'
    rwa [← hm']
  | case3 s rest hnext ih =>
    rw [Torn.joined.eq_2 _ _ hnext, List.flatMap_cons]
    cases s with
    | char c => rw [join_char, ih]
    | half n h =>
      rw [piecesOf, List.singleton_append, join_unit ?_, ofPoint_half h, ih]
      cases rest with
      | nil => intro m hm; simp at hm
      | cons s' rest =>
        cases s' with
        | char c => exact not_isPair_pieces n c _
        | half m k => exact absurd rfl (hnext n h m k rest rfl)
  | case4 => rfl

/-! ### Whole strings -/

theorem readString_torn (t : Torn) (rest : List Char) :
    readString (t.flatMap escapedSign ++ '"' :: rest) = .ok (t.joined, rest) := by
  unfold readString
  rw [readPieces_quoted]
  simp only [join_pieces]

/-- A half that stands in the bytes of a text stays by itself, also before one that would complete
it. -/
theorem readString_half {n : ℕ} (h : isHalf n = true) (cs : List Char) :
    readString (Encoding.charsOf n ++ cs) =
      (readString cs).map fun t => (.half n h :: t.1, t.2) := by
  unfold readString
  rw [readPieces_half h]
  cases readPieces cs with
  | none => rfl
  | some t =>
    simp only [Option.map_some, Except.map, join, ofPoint_half h]

theorem joined_ofChars (cs : List Char) : (Torn.ofChars cs).joined = Torn.ofChars cs := by
  induction cs with
  | nil => rfl
  | cons c cs ih =>
    change Torn.joined (.char c :: Torn.ofChars cs) = .char c :: Torn.ofChars cs
    rw [Torn.joined, ih]
    intro n h m k rest heq
    cases heq

theorem whole_ofChars (cs : List Char) : (Torn.ofChars cs).whole? = some cs := by
  induction cs with
  | nil => rfl
  | cons c cs ih =>
    change (Torn.whole? (Torn.ofChars cs)).map (c :: ·) = some (c :: cs)
    rw [ih]
    rfl

theorem escape_eq (cs : List Char) : escape cs = (Torn.ofChars cs).flatMap escapedSign := by
  unfold escape Torn.ofChars
  rw [List.flatMap_map]
  rfl

/-- A text without halves reads back as it is. -/
theorem readString_text (s : String) (rest : List Char) :
    readString (escape s.toList ++ '"' :: rest) = .ok (Torn.ofChars s.toList, rest) := by
  rw [escape_eq, readString_torn, joined_ofChars]

theorem ofSigns_ofChars (s : String) : Value.ofSigns (Torn.ofChars s.toList) = .text s := by
  unfold Value.ofSigns
  rw [whole_ofChars]
  simp

theorem fieldOf_text (s : String) (v : Value) : fieldOf (Torn.ofChars s.toList) v = (s, v) := by
  unfold fieldOf
  rw [whole_ofChars]
  simp

end Json
end LoanDesk
