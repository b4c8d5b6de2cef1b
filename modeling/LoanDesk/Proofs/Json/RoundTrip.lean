import LoanDesk.Proofs.Json.Strings
import LoanDesk.Proofs.Text.Digits
import LoanDesk.Proofs.Value.Fields

/-
# Written values read back

What is written for a value reads back as what a document keeps of it, in either style:
decimals, stamps and statuses as texts, halves joined, everything else unchanged. That
holds of values without measured numbers, whose integers can be written and whose
records name each field once.

Key definitions: `Json.Printable`, `Json.depth`, `Json.IsStyle`.
Key theorems: `Json.readNumber_intDigits`, `Json.readValue_chars`, `Json.readWithin_chars`,
`Json.parse_print`.
-/

namespace LoanDesk
namespace Json

open LoanDesk.Text

mutual

/-- The value has no measured numbers, its integers can be written, and no record in it names a
field twice. -/
def Printable : Value → Prop
  | .float _ => False
  | .int i => i.natAbs < 10 ^ Value.integerRoom
  | .list items => PrintableItems items
  | .record fields => (fields.map (·.1)).Nodup ∧ PrintableFields fields
  | _ => True

/-- The items can be printed. -/
def PrintableItems : List Value → Prop
  | [] => True
  | v :: rest => Printable v ∧ PrintableItems rest

/-- The values of the fields can be printed. -/
def PrintableFields : List (String × Value) → Prop
  | [] => True
  | (_, v) :: rest => Printable v ∧ PrintableFields rest

end

mutual

/-- How deep lists and records lie within each other. -/
def depth : Value → ℕ
  | .list items => itemsDepth items + 1
  | .record fields => fieldsDepth fields + 1
  | _ => 0

/-- How deep they lie within the deepest of the items. -/
def itemsDepth : List Value → ℕ
  | [] => 0
  | v :: rest => max (depth v) (itemsDepth rest)

/-- How deep they lie within the deepest of the values of the fields. -/
def fieldsDepth : List (String × Value) → ℕ
  | [] => 0
  | (_, v) :: rest => max (depth v) (fieldsDepth rest)

end

/-! ### Blanks -/

/-- A comma and a colon, each perhaps with blanks behind it. -/
structure IsStyle (style : Style) : Prop where
  between : ∃ n, style.between = ',' :: List.replicate n ' '
  afterName : ∃ n, style.afterName = ':' :: List.replicate n ' '

theorem isStyle_wide : IsStyle .wide := ⟨⟨1, rfl⟩, ⟨1, rfl⟩⟩

theorem isStyle_narrow : IsStyle .narrow := ⟨⟨0, rfl⟩, ⟨0, rfl⟩⟩

theorem skip_cons {c : Char} (h : isSpace c = false) (cs : List Char) :
    skip (c :: cs) = c :: cs := by
  simp [skip, h]

theorem skip_blanks (n : ℕ) (cs : List Char) : skip (List.replicate n ' ' ++ cs) = skip cs := by
  induction n with
  | zero => rfl
  | succ n ih =>
    rw [List.replicate_succ, List.cons_append]
    exact ih

/-- The rest after a value: nothing, or what follows in a list or a record. -/
def Follows (rest : List Char) : Prop := ∀ c ∈ rest.head?, c = ',' ∨ c = ']' ∨ c = '\x7d'

theorem follows_nil : Follows [] := by simp [Follows]

theorem follows_cons {c : Char} (h : c = ',' ∨ c = ']' ∨ c = '\x7d') (cs : List Char) :
    Follows (c :: cs) := by simpa [Follows] using h

/-- A character that a value starts with. -/
def Begins (c : Char) : Prop := isSpace c = false ∧ c ≠ ']'

instance (c : Char) : Decidable (Begins c) := inferInstanceAs (Decidable (_ ∧ _))

section

variable (style : Style)

theorem begins_of_isDigit {c : Char} (h : c.isDigit = true) : Begins c := by
  unfold Begins isSpace
  refine ⟨?_, ?_⟩
  · simp only [Bool.or_eq_false_iff, beq_eq_false_iff_ne]
    refine ⟨⟨⟨?_, ?_⟩, ?_⟩, ?_⟩ <;> rintro rfl <;> revert h <;> decide
  · rintro rfl
    revert h
    decide

theorem intDigits_begins (i : ℤ) :
    ∃ c cs, intDigits i = c :: cs ∧ (c = '-' ∨ c.isDigit = true) := by
  unfold intDigits
  split
  · exact ⟨'-', _, rfl, .inl rfl⟩
  · cases hd : natDigits i.natAbs with
    | nil => exact absurd hd (natDigits_ne_nil _)
    | cons c cs => exact ⟨c, cs, rfl, .inr (isDigits_natDigits _ c (by rw [hd]; simp))⟩

theorem chars_begins (v : Value) (h : Printable v) :
    ∃ c cs, chars style v = c :: cs ∧ Begins c := by
  cases v with
  | null => exact ⟨'n', _, rfl, by decide⟩
  | bool b => cases b <;> exact ⟨_, _, rfl, by decide⟩
  | int i =>
    obtain ⟨c, cs, heq, rfl | hc⟩ := intDigits_begins i
    · exact ⟨'-', cs, heq, by decide⟩
    · exact ⟨c, cs, heq, begins_of_isDigit hc⟩
  | float x => exact absurd h (by simp [Printable])
  | decimal x => exact ⟨'"', _, rfl, by decide⟩
  | text s => exact ⟨'"', _, rfl, by decide⟩
  | torn t => exact ⟨'"', _, rfl, by decide⟩
  | moment t => exact ⟨'"', _, rfl, by decide⟩
  | status s => exact ⟨'"', _, rfl, by decide⟩
  | list items => exact ⟨'[', _, rfl, by decide⟩
  | record fields => exact ⟨'\x7b', _, rfl, by decide⟩

theorem chars_length_pos (v : Value) (h : Printable v) : 1 ≤ (chars style v).length := by
  obtain ⟨c, cs, heq, -⟩ := chars_begins style v h
  simp [heq]

theorem skip_chars (v : Value) (h : Printable v) (rest : List Char) :
    skip (chars style v ++ rest) = chars style v ++ rest := by
  obtain ⟨c, cs, heq, hc, -⟩ := chars_begins style v h
  rw [heq, List.cons_append, skip_cons hc]

end

/-! ### Numbers -/

theorem readWhole_natDigits (n : ℕ) {rest : List Char} (hr : ∀ c ∈ rest.head?, c.isDigit = false) :
    readWhole (natDigits n ++ rest) = some (natDigits n, rest) := by
  cases hd : natDigits n with
  | nil => exact absurd hd (natDigits_ne_nil n)
  | cons c cs =>
    rw [List.cons_append]
    by_cases hc : c = '0'
    · rw [hc] at hd
      have hn := head_natDigits hd
      rw [hn, natDigits_of_lt (by norm_num)] at hd
      injection hd with _ hcs
      rw [hc, ← hcs]
      rfl
    · obtain ⟨h1, h2⟩ := span_append (isDigits_natDigits n) hr
      rw [hd, List.cons_append] at h1 h2
      unfold readWhole
      split
      · rename_i heq
        injection heq with h0 _
        exact absurd h0 hc
      · rw [digitsAndRest, h1, h2]

theorem Follows.isDigit {rest : List Char} (h : Follows rest) :
    ∀ c ∈ rest.head?, c.isDigit = false := by
  intro c hc
  rcases h c hc with rfl | rfl | rfl <;> rfl

theorem Follows.readPoint {rest : List Char} (h : Follows rest) : readPoint rest = ([], rest) := by
  cases rest with
  | nil => rfl
  | cons c cs => rcases h c rfl with rfl | rfl | rfl <;> rfl

theorem Follows.readPower {rest : List Char} (h : Follows rest) : readPower rest = ([], rest) := by
  cases rest with
  | nil => rfl
  | cons c cs => rcases h c rfl with rfl | rfl | rfl <;> rfl

theorem readMagnitude_natDigits (negative : Bool) {n : ℕ} (hn : n < 10 ^ Value.integerRoom)
    {rest : List Char} (hr : Follows rest) :
    readMagnitude negative (natDigits n ++ rest) =
      .ok (.int (if negative then -(n : ℤ) else n), rest) := by
  have hroom : ¬Value.integerRoom < (natDigits n).length :=
    not_lt.mpr (length_natDigits_le (by decide) hn)
  have hvalue : ofDigits ((natDigits n).map fun c => c.toNat - 48) = n := ofDigits_natDigits n
  unfold readMagnitude
  rw [readWhole_natDigits n hr.isDigit]
  simp only [hr.readPoint, hr.readPower, List.isEmpty_nil, Bool.and_self, if_true, if_neg hroom,
    hvalue]

/-- An integer that can be written reads back as itself. -/
theorem readNumber_intDigits {i : ℤ} (hi : i.natAbs < 10 ^ Value.integerRoom) {rest : List Char}
    (hr : Follows rest) : readNumber (intDigits i ++ rest) = .ok (.int i, rest) := by
  unfold intDigits
  split
  · rename_i hneg
    rw [List.cons_append]
    change readMagnitude true (natDigits i.natAbs ++ rest) = _
    rw [readMagnitude_natDigits true hi hr, if_pos rfl]
    congr 3
    omega
  · rename_i hpos
    have hdash : readNumber (natDigits i.natAbs ++ rest) =
        readMagnitude false (natDigits i.natAbs ++ rest) := by
      cases hd : natDigits i.natAbs with
      | nil => exact absurd hd (natDigits_ne_nil _)
      | cons c cs =>
        have hc := isDigits_natDigits i.natAbs c (by rw [hd]; simp)
        unfold readNumber
        split
        · rename_i heq
          injection heq with h0 _
          rw [h0] at hc
          exact absurd hc (by decide)
        · rfl
    rw [hdash, readMagnitude_natDigits false hi hr]
    simp only [Bool.false_eq_true, if_false]
    congr 3
    omega

theorem readWord_digit {c : Char} (hc : c.isDigit = true) (cs : List Char) :
    readWord (c :: cs) = none := by
  have hne (d : Char) (hd : d.isDigit = false) : d ≠ c := by
    rintro rfl
    rw [hc] at hd
    cases hd
  simp [readWord, words, afterWord?, hne 'n' rfl, hne 't' rfl, hne 'f' rfl, hne 'N' rfl,
    hne 'I' rfl, hne '-' rfl]

theorem readWord_minus {c : Char} (hc : c.isDigit = true) (cs : List Char) :
    readWord ('-' :: c :: cs) = none := by
  have hne : 'I' ≠ c := by
    rintro rfl
    exact absurd hc (by decide)
  simp [readWord, words, afterWord?, hne]

/-- No word begins like an integer. -/
theorem readWord_intDigits (i : ℤ) (rest : List Char) : readWord (intDigits i ++ rest) = none := by
  unfold intDigits
  cases hd : natDigits i.natAbs with
  | nil => exact absurd hd (natDigits_ne_nil _)
  | cons c cs =>
    have hc := isDigits_natDigits i.natAbs c (by rw [hd]; simp)
    split
    · exact readWord_minus hc _
    · exact readWord_digit hc _

/-! ### Strings, lists and records -/

theorem readValue_torn (fuel room : ℕ) (t : Torn) (rest : List Char) :
    readValue (fuel + 1) room (quotedTorn t ++ rest) = .ok (.ofSigns t.joined, rest) := by
  have happ : quotedTorn t ++ rest = '"' :: (t.flatMap escapedSign ++ '"' :: rest) := by
    simp [quotedTorn]
  rw [happ, readValue]
  simp only [if_true, readString_torn]
  rfl

theorem quoted_append (s : String) (rest : List Char) :
    quoted s ++ rest = '"' :: (escape s.toList ++ '"' :: rest) := by
  simp [quoted]

theorem readValue_text (fuel room : ℕ) (s : String) (rest : List Char) :
    readValue (fuel + 1) room (quoted s ++ rest) = .ok (.text s, rest) := by
  rw [quoted_append, readValue]
  simp only [if_true, readString_text]
  rw [← ofSigns_ofChars]
  rfl

variable {style : Style}

/-! ### Values -/

/-- What starts neither a string nor a list nor a record is a word or a number. -/
theorem readValue_other {c : Char} (h1 : c ≠ '"') (h2 : c ≠ '[') (h3 : c ≠ '\x7b') (fuel room : ℕ)
    (cs : List Char) : readValue (fuel + 1) room (c :: cs) =
      match readWord (c :: cs) with
      | some r => .ok r
      | none => readNumber (c :: cs) := by
  have hread : readValue (fuel + 1) room (c :: cs) =
      (readWord (c :: cs)).elim (readNumber (c :: cs)) .ok := by
    rw [readValue, if_neg h1, if_neg h2, if_neg h3]
    cases readWord (c :: cs) <;> rfl
  rw [hread]
  cases readWord (c :: cs) <;> rfl

theorem readValue_null (fuel room : ℕ) (rest : List Char) :
    readValue (fuel + 1) room ("null".toList ++ rest) = .ok (.null, rest) :=
  readValue_other (by decide) (by decide) (by decide) fuel room _

theorem readValue_true (fuel room : ℕ) (rest : List Char) :
    readValue (fuel + 1) room ("true".toList ++ rest) = .ok (.bool true, rest) :=
  readValue_other (by decide) (by decide) (by decide) fuel room _

theorem readValue_false (fuel room : ℕ) (rest : List Char) :
    readValue (fuel + 1) room ("false".toList ++ rest) = .ok (.bool false, rest) :=
  readValue_other (by decide) (by decide) (by decide) fuel room _

theorem readValue_int (fuel room : ℕ) {i : ℤ} (hi : i.natAbs < 10 ^ Value.integerRoom)
    {rest : List Char} (hr : Follows rest) :
    readValue (fuel + 1) room (intDigits i ++ rest) = .ok (.int i, rest) := by
  obtain ⟨c, cs, heq, hc⟩ := intDigits_begins i
  have hne (d : Char) (h : d ≠ '-' ∧ d.isDigit = false) : c ≠ d := by
    rintro rfl
    rcases hc with hc | hc
    · exact h.1 hc
    · rw [hc] at h
      exact absurd h.2 (by decide)
  have hword := readWord_intDigits i rest
  have hnumber := readNumber_intDigits hi hr
  rw [heq, List.cons_append] at hword hnumber ⊢
  rw [readValue_other (hne _ (by decide)) (hne _ (by decide)) (hne _ (by decide)), hword]
  exact hnumber

/-- A list is read item by item unless it ends at once. -/
theorem readValue_list (fuel : ℕ) {room : ℕ} (hroom : 1 ≤ room) {cs : List Char}
    (h : ∃ c tail, cs = c :: tail ∧ Begins c) :
    readValue (fuel + 1) room ('[' :: cs) =
      (readItems fuel (room - 1) cs).map fun p => (.list p.1, p.2) := by
  obtain ⟨c, tail, rfl, hc, hne⟩ := h
  rw [readValue]
  simp only [Char.reduceEq, if_false, if_true, if_neg (by omega : ¬room = 0), skip_cons hc]
  split
  · rename_i heq
    injection heq with h0 _
    exact absurd h0 hne
  · rfl

/-- A record is read field by field unless it ends at once. -/
theorem readValue_record (fuel : ℕ) {room : ℕ} (hroom : 1 ≤ room) (cs : List Char) :
    readValue (fuel + 1) room ('\x7b' :: '"' :: cs) =
      (readFields fuel (room - 1) ('"' :: cs)).map fun p =>
        (.record (Fields.ofPairs p.1), p.2) := by
  rw [readValue]
  simp only [Char.reduceEq, if_false, if_true, if_neg (by omega : ¬room = 0),
    skip_cons (by decide : isSpace '"' = false)]
  rfl

/-- After an item comes the end of the list. -/
theorem readItems_last {fuel room : ℕ} {cs rest : List Char} {v : Value}
    (h : readValue fuel room cs = .ok (v, ']' :: rest)) :
    readItems (fuel + 1) room cs = .ok ([v], rest) := by
  rw [readItems, h]
  rfl

/-- After an item come a comma and more items. -/
theorem readItems_more {fuel room n : ℕ} {cs rest : List Char} {v : Value}
    (h : readValue fuel room cs = .ok (v, ',' :: (List.replicate n ' ' ++ rest)))
    (hrest : skip rest = rest) :
    readItems (fuel + 1) room cs = (readItems fuel room rest).map fun p => (v :: p.1, p.2) := by
  rw [readItems, h]
  simp only [bind, Except.bind, skip_cons (by decide : isSpace ',' = false), skip_blanks, hrest]

/-- After the value of a field comes the end of the record. -/
theorem readFields_last {fuel room n : ℕ} {name : String} {cs rest : List Char} {v : Value}
    (hcs : skip cs = cs) (h : readValue fuel room cs = .ok (v, '\x7d' :: rest)) :
    readFields (fuel + 1) room (quoted name ++ (':' :: List.replicate n ' ' ++ cs)) =
      .ok ([(name, v)], rest) := by
  rw [quoted_append, readFields, readString_text]
  simp only [bind, Except.bind, List.cons_append, skip_cons (by decide : isSpace ':' = false),
    skip_blanks, hcs, h, skip_cons (by decide : isSpace '\x7d' = false), fieldOf_text]
  rfl

/-- After the value of a field come a comma and more fields. -/
theorem readFields_more {fuel room m n : ℕ} {name : String} {cs rest : List Char} {v : Value}
    (hcs : skip cs = cs) (h : readValue fuel room cs =
      .ok (v, ',' :: (List.replicate m ' ' ++ rest)))
    (hrest : skip rest = rest) :
    readFields (fuel + 1) room (quoted name ++ (':' :: List.replicate n ' ' ++ cs)) =
      (readFields fuel room rest).map fun p => ((name, v) :: p.1, p.2) := by
  rw [quoted_append, readFields, readString_text]
  simp only [bind, Except.bind, List.cons_append, skip_cons (by decide : isSpace ':' = false),
    skip_blanks, hcs, h, skip_cons (by decide : isSpace ',' = false), hrest, fieldOf_text]

section

variable (style)

theorem itemChars_begins (v : Value) (items : List Value) (h : Printable v) (rest : List Char) :
    ∃ c tail, itemChars style (v :: items) ++ rest = c :: tail ∧ Begins c := by
  obtain ⟨c, cs, heq, hc⟩ := chars_begins style v h
  exact ⟨c, _, by rw [itemChars, heq, List.cons_append, List.cons_append], hc⟩

theorem skip_itemChars (v : Value) (items : List Value) (h : Printable v) (rest : List Char) :
    skip (itemChars style (v :: items) ++ rest) = itemChars style (v :: items) ++ rest := by
  obtain ⟨c, tail, heq, hc, -⟩ := itemChars_begins style v items h rest
  rw [heq, skip_cons hc]

theorem fieldChars_begins (f : String × Value) (fields : List (String × Value))
    (rest : List Char) : ∃ tail, fieldChars style (f :: fields) ++ rest = '"' :: tail := by
  obtain ⟨n, v⟩ := f
  exact ⟨_, by rw [fieldChars, List.append_assoc, quoted_append]⟩

theorem skip_fieldChars (f : String × Value) (fields : List (String × Value)) (rest : List Char) :
    skip (fieldChars style (f :: fields) ++ rest) = fieldChars style (f :: fields) ++ rest := by
  obtain ⟨tail, heq⟩ := fieldChars_begins style f fields rest
  rw [heq, skip_cons (by decide)]

end

mutual

/-- A written value in front of a text reads back as what is kept of it, and leaves the text. -/
theorem readValue_chars (hs : IsStyle style) : ∀ (v : Value) (_ : Printable v) (fuel room : ℕ)
    (rest : List Char) (_ : (chars style v).length ≤ fuel) (_ : depth v ≤ room)
    (_ : Follows rest), readValue fuel room (chars style v ++ rest) = .ok (v.stored, rest)
  | v, h, 0, room, rest, hfuel, _, _ => by
    have := chars_length_pos style v h
    omega
  | .null, _, fuel + 1, room, rest, _, _, _ => readValue_null fuel room rest
  | .bool true, _, fuel + 1, room, rest, _, _, _ => readValue_true fuel room rest
  | .bool false, _, fuel + 1, room, rest, _, _, _ => readValue_false fuel room rest
  | .int _, h, fuel + 1, room, _, _, _, hrest => readValue_int fuel room h hrest
  | .float _, h, _, _, _, _, _, _ => absurd h (by simp [Printable])
  | .decimal x, _, fuel + 1, room, rest, _, _, _ => readValue_text fuel room x.text rest
  | .text s, _, fuel + 1, room, rest, _, _, _ => readValue_text fuel room s rest
  | .torn t, _, fuel + 1, room, rest, _, _, _ => readValue_torn fuel room t rest
  | .moment t, _, fuel + 1, room, rest, _, _, _ => readValue_text fuel room t.spaced rest
  | .status s, _, fuel + 1, room, rest, _, _, _ => readValue_text fuel room s.qualified rest
  | .list [], _, fuel + 1, room, rest, _, hroom, _ => by
    have : room ≠ 0 := by rw [depth] at hroom; omega
    simp [chars, itemChars, readValue, skip_cons (by decide : isSpace ']' = false), this,
      Value.stored, Value.storedItems]
  | .list (v :: items), h, fuel + 1, room, rest, hfuel, hroom, _ => by
    rw [chars, List.length_cons] at hfuel
    rw [depth] at hroom
    have hitems := readItems_chars hs v items h fuel (room - 1) rest (by omega) (by omega)
    rw [chars, List.cons_append, readValue_list fuel (by omega)
      (itemChars_begins style v items h.1 rest),
      hitems]
    rfl
  | .record [], _, fuel + 1, room, rest, _, hroom, _ => by
    have : room ≠ 0 := by rw [depth] at hroom; omega
    simp [chars, fieldChars, readValue, skip_cons (by decide : isSpace '\x7d' = false), this,
      Value.stored, Value.storedFields]
  | .record ((n, v) :: fields), h, fuel + 1, room, rest, hfuel, hroom, _ => by
    rw [chars, List.length_cons] at hfuel
    rw [depth] at hroom
    have hfields := readFields_chars hs n v fields h.2 fuel (room - 1) rest (by omega) (by omega)
    obtain ⟨tail, hbegin⟩ := fieldChars_begins style (n, v) fields rest
    rw [hbegin] at hfields
    rw [chars, List.cons_append, hbegin, readValue_record fuel (by omega), hfields]
    simp only [Except.map]
    rw [Fields.ofPairs_of_nodup (by rw [Fields.names_stored]; exact h.1)]
    rfl

/-- Written items and their bracket read back item by item. -/
theorem readItems_chars (hs : IsStyle style) : ∀ (v : Value) (items : List Value)
    (_ : Printable v ∧ PrintableItems items) (fuel room : ℕ) (rest : List Char)
    (_ : (itemChars style (v :: items)).length ≤ fuel) (_ : itemsDepth (v :: items) ≤ room),
    readItems fuel room (itemChars style (v :: items) ++ rest) =
      .ok (Value.storedItems (v :: items), rest)
  | v, items, h, 0, _, _, hfuel, _ => by
    have := chars_length_pos style v h.1
    rw [itemChars, List.length_append] at hfuel
    omega
  | v, [], h, fuel + 1, room, rest, hfuel, hroom => by
    rw [itemChars, List.length_append, moreItemChars, List.length_singleton] at hfuel
    rw [itemsDepth] at hroom
    have hv := readValue_chars hs v h.1 fuel room (']' :: rest) (by omega) (by omega)
      (follows_cons (by simp) rest)
    rw [itemChars, moreItemChars, List.append_assoc, List.singleton_append, readItems_last hv]
    rfl
  | v, w :: items, h, fuel + 1, room, rest, hfuel, hroom => by
    obtain ⟨n, hn⟩ := hs.between
    have hmore : moreItemChars style (w :: items) =
        ',' :: (List.replicate n ' ' ++ itemChars style (w :: items)) := by
      rw [moreItemChars, hn, itemChars, List.cons_append]
    have hvpos := chars_length_pos style v h.1
    rw [itemChars, hmore, List.length_append, List.length_cons, List.length_append] at hfuel
    rw [itemsDepth] at hroom
    have hv := readValue_chars hs v h.1 fuel room
      (',' :: (List.replicate n ' ' ++ (itemChars style (w :: items) ++ rest)))
      (by omega) (by omega)
      (follows_cons (by simp) _)
    have hrest := readItems_chars hs w items h.2 fuel room rest (by omega) (by omega)
    rw [itemChars, hmore, List.append_assoc, List.cons_append, List.append_assoc,
      readItems_more hv (skip_itemChars style w items h.2.1 rest), hrest]
    rfl

/-- Written fields and their brace read back field by field. -/
theorem readFields_chars (hs : IsStyle style) : ∀ (n : String) (v : Value)
    (fields : List (String × Value)) (_ : Printable v ∧ PrintableFields fields) (fuel room : ℕ)
    (rest : List Char) (_ : (fieldChars style ((n, v) :: fields)).length ≤ fuel)
    (_ : fieldsDepth ((n, v) :: fields) ≤ room),
    readFields fuel room (fieldChars style ((n, v) :: fields) ++ rest) =
      .ok (Value.storedFields ((n, v) :: fields), rest)
  | n, v, fields, h, 0, _, _, hfuel, _ => by
    have := chars_length_pos style v h.1
    simp only [fieldChars, List.length_append] at hfuel
    omega
  | n, v, [], h, fuel + 1, room, rest, hfuel, hroom => by
    obtain ⟨k, hk⟩ := hs.afterName
    simp only [fieldChars, moreFieldChars, List.length_append, List.length_singleton] at hfuel
    rw [fieldsDepth] at hroom
    have hv := readValue_chars hs v h.1 fuel room ('\x7d' :: rest) (by omega) (by omega)
      (follows_cons (by simp) rest)
    have happ : fieldChars style [(n, v)] ++ rest =
        quoted n ++ (':' :: List.replicate k ' ' ++ (chars style v ++ '\x7d' :: rest)) := by
      simp [fieldChars, moreFieldChars, hk]
    rw [happ, readFields_last (skip_chars style v h.1 _) hv]
    rfl
  | n, v, (m, w) :: fields, h, fuel + 1, room, rest, hfuel, hroom => by
    obtain ⟨k, hk⟩ := hs.afterName
    obtain ⟨j, hj⟩ := hs.between
    have hmore : moreFieldChars style ((m, w) :: fields) =
        ',' :: (List.replicate j ' ' ++ fieldChars style ((m, w) :: fields)) := by
      rw [moreFieldChars, hj, fieldChars, List.cons_append]
    have hvpos := chars_length_pos style v h.1
    rw [fieldChars, hmore] at hfuel
    simp only [List.length_append, List.length_cons] at hfuel
    rw [fieldsDepth] at hroom
    have hv := readValue_chars hs v h.1 fuel room
      (',' :: (List.replicate j ' ' ++ (fieldChars style ((m, w) :: fields) ++ rest))) (by omega)
      (by omega) (follows_cons (by simp) _)
    have hrest := readFields_chars hs m w fields h.2 fuel room rest (by omega) (by omega)
    have happ : fieldChars style ((n, v) :: (m, w) :: fields) ++ rest =
        quoted n ++ (':' :: List.replicate k ' ' ++ (chars style v ++
          ',' :: (List.replicate j ' ' ++ (fieldChars style ((m, w) :: fields) ++ rest)))) := by
      rw [fieldChars, hmore, hk]
      simp
    rw [happ, readFields_more (skip_chars style v h.1 _) hv
      (skip_fieldChars style (m, w) fields rest), hrest]
    rfl

end

section

variable (style)

mutual

/-- Each list or record takes a character at least. -/
theorem depth_le_length : ∀ v : Value, depth v ≤ (chars style v).length
  | .list items => by
    have := itemsDepth_le_length items
    rw [depth, chars, List.length_cons]
    omega
  | .record fields => by
    have := fieldsDepth_le_length fields
    rw [depth, chars, List.length_cons]
    omega
  | .null | .bool _ | .int _ | .float _ | .decimal _ | .text _ | .torn _ | .moment _
  | .status _ => Nat.zero_le _

theorem itemsDepth_le_length : ∀ items : List Value,
    itemsDepth items ≤ (itemChars style items).length
  | [] => Nat.zero_le _
  | v :: rest => by
    have := depth_le_length v
    have := moreItemsDepth_le_length rest
    rw [itemsDepth, itemChars, List.length_append]
    omega

theorem moreItemsDepth_le_length : ∀ items : List Value,
    itemsDepth items ≤ (moreItemChars style items).length
  | [] => Nat.zero_le _
  | v :: rest => by
    have := depth_le_length v
    have := moreItemsDepth_le_length rest
    rw [itemsDepth, moreItemChars, List.length_append, List.length_append]
    omega

theorem fieldsDepth_le_length : ∀ fields : List (String × Value),
    fieldsDepth fields ≤ (fieldChars style fields).length
  | [] => Nat.zero_le _
  | (n, v) :: rest => by
    have := depth_le_length v
    have := moreFieldsDepth_le_length rest
    simp only [fieldsDepth, fieldChars, List.length_append]
    omega

theorem moreFieldsDepth_le_length : ∀ fields : List (String × Value),
    fieldsDepth fields ≤ (moreFieldChars style fields).length
  | [] => Nat.zero_le _
  | (n, v) :: rest => by
    have := depth_le_length v
    have := moreFieldsDepth_le_length rest
    simp only [fieldsDepth, moreFieldChars, List.length_append]
    omega

end

end

/-- What is written for a value reads back as what a document keeps of it, wherever there is room
for lists and records so deep within each other. -/
theorem readWithin_chars (hs : IsStyle style) {v : Value} (h : Printable v) {room : ℕ}
    (hroom : depth v ≤ room) : readWithin room (chars style v) = .ok v.stored := by
  have hread := readValue_chars hs v h ((chars style v).length + 1) room [] (by omega) hroom
    follows_nil
  have hskip := skip_chars style v h []
  rw [List.append_nil] at hread hskip
  unfold readWithin
  rw [hskip, hread]
  rfl

/-- What is printed for a value reads back as what a document keeps of it. -/
theorem parse_print (hs : IsStyle style) {v : Value} (h : Printable v) :
    parse? (print style v) = some v.stored := by
  have hlength : (print style v).length = (chars style v).length := by simp [print]
  unfold parse?
  rw [hlength, print, String.toList_ofList, readWithin_chars hs h (depth_le_length style v)]

end Json
end LoanDesk
