import LoanDesk.Time.Iso
import LoanDesk.Proofs.Decimal.Text

/-
# Written stamps read back

The text of a stamp reads back as the stamp, with or without a fraction of a second and
with or without an offset. Only an offset of less than a second comes back as universal
time, so the stamp that comes back is the settled one.

Key definitions: `Stamp.settled`, `Stamp.HasLastingOffset`.
Key theorems: `Stamp.settled_eq_self_iff`, `Stamp.readDate_dateChars`, `Stamp.readTime_timeChars`,
`Stamp.readOffset_offsetChars`, `Stamp.ofIso_iso`.
-/

namespace LoanDesk
namespace Stamp

open LoanDesk.Text

/-- The offset with less than a second of it taken for none. -/
def settledOffset (o : Offset) : Offset :=
  if o.micros.natAbs < 1000000 then Offset.zero else o

/-- The stamp as it comes back from its text. -/
def settled (t : Stamp) : Stamp :=
  { t with offset := t.offset.map settledOffset }

/-- A stamp that has come back from its text comes back as it is. -/
theorem settled_settled (t : Stamp) : t.settled.settled = t.settled := by
  have ho : ∀ o : Offset, settledOffset (settledOffset o) = settledOffset o := by
    intro o
    unfold settledOffset
    by_cases h : o.micros.natAbs < 1000000
    · rw [if_pos h]
      rfl
    · rw [if_neg h, if_neg h]
  unfold settled
  rw [Option.map_map]
  exact congrArg (fun f => { t with offset := t.offset.map f }) (funext ho)

/-- The stamp has no offset, or one of nothing, or one of a second at least. -/
def HasLastingOffset (t : Stamp) : Prop :=
  ∀ o ∈ t.offset, o.micros.natAbs < 1000000 → o.micros = 0

theorem settledOffset_eq_self_iff {o : Offset} :
    settledOffset o = o ↔ (o.micros.natAbs < 1000000 → o.micros = 0) := by
  unfold settledOffset
  by_cases h : o.micros.natAbs < 1000000
  · rw [if_pos h]
    refine ⟨fun heq _ => heq ▸ rfl, fun hzero => ?_⟩
    cases o
    cases hzero h
    rfl
  · rw [if_neg h]
    exact ⟨fun _ hlt => absurd hlt h, fun _ => rfl⟩

/-- The stamps that come back as they are. -/
theorem settled_eq_self_iff {t : Stamp} : t.settled = t ↔ t.HasLastingOffset := by
  obtain ⟨date, hour, minute, second, micro, offset⟩ := t
  unfold settled HasLastingOffset
  cases offset with
  | none => simp
  | some o => simp [settledOffset_eq_self_iff]

/-! ### Digits at a fixed width -/

theorem take_digits {ds : List Char} (hd : IsDigits ds) (rest : List Char) :
    take? ds.length (ds ++ rest) = some (ofDigits (ds.map digitOf), rest) := by
  induction ds with
  | nil => rfl
  | cons d ds ih =>
    have hd0 := Decimal.asciiDigit_of_isDigit (hd d (List.mem_cons_self ..))
    rw [List.length_cons, List.cons_append, take?, hd0, List.map_cons, ← List.singleton_append,
      ofDigits_append, List.length_map]
    simp only [bind, Option.bind, ih fun c hc => hd c (List.mem_cons_of_mem d hc), pure]
    simp [ofDigits]

theorem take_padded {k n : ℕ} (hk : 1 ≤ k) (hn : n < 10 ^ k) (rest : List Char) :
    take? k (padded k n ++ rest) = some (n, rest) := by
  have h := take_digits (isDigits_padded k n) rest
  rwa [length_padded hk hn, ofDigits_padded] at h

theorem take_padded_end {k n : ℕ} (hk : 1 ≤ k) (hn : n < 10 ^ k) :
    take? k (padded k n) = some (n, []) := by
  have h := take_padded hk hn []
  rwa [List.append_nil] at h

theorem padded_two_ne_nil (n : ℕ) : padded 2 n ≠ [] := by
  unfold padded
  simp [natDigits_ne_nil]

/-! ### Dates -/

theorem dateChars_length (d : Date) : (dateChars d).length = 10 := by
  have hdate := d.inCalendar
  simp only [isDate, Bool.and_eq_true, decide_eq_true_eq] at hdate
  have hdays : daysInMonth d.year d.month ≤ 31 := by
    unfold daysInMonth
    split_ifs <;> omega
  simp only [dateChars, List.length_append, List.length_cons]
  rw [length_padded (by norm_num) (by omega), length_padded (by norm_num) (by omega),
    length_padded (by norm_num) (by omega)]

theorem readDate_dateChars (d : Date) : readDate (dateChars d) = some d := by
  have hdate := d.inCalendar
  have hdate' := hdate
  simp only [isDate, Bool.and_eq_true, decide_eq_true_eq] at hdate'
  have hdays : daysInMonth d.year d.month ≤ 31 := by
    unfold daysInMonth
    split_ifs <;> omega
  have hyear := take_padded (k := 4) (n := d.year) (by norm_num) (by omega)
    ('-' :: padded 2 d.month ++ '-' :: padded 2 d.day)
  have hmonth := take_padded (k := 2) (n := d.month) (by norm_num) (by omega)
    ('-' :: padded 2 d.day)
  have hday := take_padded_end (k := 2) (n := d.day) (by norm_num) (by omega)
  obtain ⟨c, cs, hcs⟩ := List.exists_cons_of_ne_nil (padded_two_ne_nil d.month)
  have hc : c ≠ 'W' := by
    have hdig := isDigits_padded 2 d.month c (by rw [hcs]; simp)
    rintro rfl
    exact absurd hdig (by decide)
  unfold readDate dateChars
  rw [List.append_assoc, hyear]
  simp only [bind, Option.bind, List.cons_append, front, List.headD_cons, beq_self_eq_true, if_true,
    List.tail_cons]
  rw [hcs, List.cons_append, List.headD_cons, if_neg hc, ← List.cons_append, ← hcs, hmonth]
  simp only [List.headD_cons, if_true, List.tail_cons, hday, List.isEmpty_nil]
  unfold Date.make?
  rw [dif_pos hdate]

/-! ### Times of day -/

theorem readMicros_padded (follow : List Char) {n : ℕ} (hn : n < 1000000) :
    readMicros follow (padded 6 n) =
      some (n, (follow.dropWhile fun c => (asciiDigit? c).isSome).isEmpty) := by
  unfold readMicros
  rw [length_padded (by norm_num) hn]
  simp only [Nat.min_self, take_padded_end (by norm_num : 1 ≤ 6) hn, bind, Option.bind, pure,
    List.nil_append, Nat.sub_self, Nat.pow_eq, pow_zero, mul_one]

/-- A part of two digits and a colon before another part. -/
theorem readParts_colon (follow : List Char) (left : ℕ) {colons : Option Bool}
    (hcolons : colons.getD true = true) {n : ℕ} (hn : n < 100) {tail : List Char}
    (htail : tail ≠ []) :
    readParts follow (left + 1) colons (padded 2 n ++ ':' :: tail) =
      (readParts follow left (some true) tail).map fun r => { r with parts := n :: r.parts } := by
  obtain ⟨c, tail, rfl⟩ := List.exists_cons_of_ne_nil htail
  rw [readParts, take_padded (by norm_num) hn]
  simp only [bind, Option.bind, beq_self_eq_true, hcolons, Bool.and_self, if_true]
  cases readParts follow left (some true) (c :: tail) <;> rfl

/-- A part of two digits at the end. -/
theorem readParts_end (follow : List Char) (left : ℕ) (colons : Option Bool) {n : ℕ}
    (hn : n < 100) :
    readParts follow (left + 1) colons (padded 2 n) = some ⟨[n], 0, follow.isEmpty⟩ := by
  rw [readParts, take_padded_end (by norm_num) hn]
  rfl

/-- A part of two digits and a fraction of six. -/
theorem readParts_fraction (follow : List Char) (left : ℕ) {n k : ℕ} (hn : n < 100)
    (hk : k < 1000000) : readParts follow (left + 1) (some true) (padded 2 n ++ '.' :: padded 6 k) =
      some ⟨[n], k, (follow.dropWhile fun c => (asciiDigit? c).isSome).isEmpty⟩ := by
  have hmicros := readMicros_padded follow hk
  obtain ⟨c, tail, hcs⟩ : ∃ c tail, padded 6 k = c :: tail := by
    refine List.exists_cons_of_ne_nil ?_
    unfold padded
    simp [natDigits_ne_nil]
  rw [hcs] at hmicros ⊢
  rw [readParts, take_padded (by norm_num) hn]
  simp only [bind, Option.bind, Option.getD_some, hmicros, Bool.true_and, beq_self_eq_true,
    Bool.true_or, if_true, pure, show ('.' == ':') = false from rfl, Bool.false_eq_true, if_false]

/-- The seconds that stand behind a colon: with six digits behind the point unless there is no
fraction. -/
def secondChars (s k : ℕ) : List Char :=
  padded 2 s ++ (if k = 0 then [] else '.' :: padded 6 k)

theorem readParts_secondChars {follow : List Char}
    (hf : ∀ c ∈ follow.head?, c.isDigit = false) (left : ℕ) {s k : ℕ} (hs : s < 100)
    (hk : k < 1000000) :
    readParts follow (left + 1) (some true) (secondChars s k) = some ⟨[s], k, follow.isEmpty⟩ := by
  unfold secondChars
  split
  · rename_i h
    rw [List.append_nil, readParts_end follow left (some true) hs, h]
  · rw [readParts_fraction follow left hs hk]
    congr 2
    cases follow with
    | nil => rfl
    | cons c cs => simp [Decimal.asciiDigit_of_not_isDigit (hf c rfl)]

theorem secondChars_ne_nil (s k : ℕ) : secondChars s k ≠ [] := by
  unfold secondChars
  simp [padded_two_ne_nil]

theorem timeChars_eq (t : Stamp) : timeChars t = padded 2 t.hour.val ++
    ':' :: (padded 2 t.minute.val ++ ':' :: secondChars t.second.val t.micro.val) := by
  simp [timeChars, secondChars]

/-- Hours, minutes, seconds and fraction, whatever stands behind them. -/
theorem readParts_clock {follow : List Char} (hf : ∀ c ∈ follow.head?, c.isDigit = false)
    {h m s k : ℕ} (hh : h < 100) (hm : m < 100) (hs : s < 100) (hk : k < 1000000) :
    readParts follow 3 none (padded 2 h ++ ':' :: (padded 2 m ++ ':' :: secondChars s k)) =
      some ⟨[h, m, s], k, follow.isEmpty⟩ := by
  rw [readParts_colon follow 2 rfl hh (by simp [padded_two_ne_nil]),
    readParts_colon follow 1 rfl hm (secondChars_ne_nil s k), readParts_secondChars hf 0 hs hk]
  rfl

/-! ### Offsets -/

theorem offsetChars_eq (o : Offset) : offsetChars o =
    (if o.micros < 0 then '-' else '+') :: (padded 2 (o.micros.natAbs / 3600000000) ++
      ':' :: (padded 2 (o.micros.natAbs / 60000000 % 60) ++
        (if o.micros.natAbs % 60000000 = 0 then []
         else ':' :: secondChars (o.micros.natAbs / 1000000 % 60)
          (o.micros.natAbs % 1000000)))) := by
  unfold offsetChars secondChars
  simp

/-- What an offset says after its sign. -/
theorem readParts_offset (o : Offset) : ∃ parts,
    readParts [] 3 none (offsetChars o).tail =
      some ⟨parts, o.micros.natAbs % 1000000, true⟩ ∧
    ((parts.getD 0 0 * 60 + parts.getD 1 0) * 60 + parts.getD 2 0) = o.micros.natAbs / 1000000 := by
  have hday := o.withinDay
  have hh : o.micros.natAbs / 3600000000 < 100 := by omega
  have hm : o.micros.natAbs / 60000000 % 60 < 100 := by omega
  have hs : o.micros.natAbs / 1000000 % 60 < 100 := by omega
  rw [offsetChars_eq, List.tail_cons]
  by_cases h : o.micros.natAbs % 60000000 = 0
  · refine ⟨[o.micros.natAbs / 3600000000, o.micros.natAbs / 60000000 % 60], ?_, ?_⟩
    · rw [if_pos h, List.append_nil, readParts_colon [] 2 rfl hh (padded_two_ne_nil _),
        readParts_end [] 1 _ hm, show o.micros.natAbs % 1000000 = 0 by omega]
      rfl
    · simp only [List.getD_cons_zero, List.getD_cons_succ, List.getD_nil]
      omega
  · refine ⟨[o.micros.natAbs / 3600000000, o.micros.natAbs / 60000000 % 60,
      o.micros.natAbs / 1000000 % 60], ?_, ?_⟩
    · rw [if_neg h, readParts_clock (by simp) hh hm hs (Nat.mod_lt _ (by norm_num))]
      rfl
    · simp only [List.getD_cons_zero, List.getD_cons_succ]
      omega

theorem offset_make (o : Offset) : Offset.make? o.micros = some o := by
  unfold Offset.make?
  rw [dif_pos o.withinDay]

theorem readOffset_offsetChars (o : Offset) :
    readOffset (offsetChars o) = some (settledOffset o) := by
  obtain ⟨parts, hparts, hseconds⟩ := readParts_offset o
  have hmark : ∃ mark, (mark = '-' ↔ o.micros < 0) ∧ mark ≠ 'Z' ∧
      offsetChars o = mark :: (offsetChars o).tail := by
    by_cases h : o.micros < 0
    · exact ⟨'-', by simp [h], by decide, by rw [offsetChars_eq, if_pos h]; rfl⟩
    · exact ⟨'+', by simp [h], by decide, by rw [offsetChars_eq, if_neg h]; rfl⟩
  obtain ⟨mark, hminus, hz, heq⟩ := hmark
  have hvalue : (if mark = '-' then
      -(((o.micros.natAbs / 1000000 : ℕ) : ℤ) * 1000000 + (o.micros.natAbs % 1000000 : ℕ))
      else ((o.micros.natAbs / 1000000 : ℕ) : ℤ) * 1000000 + (o.micros.natAbs % 1000000 : ℕ)) =
      o.micros := by
    split
    · rename_i h
      have := hminus.mp h
      omega
    · rename_i h
      have := mt hminus.mpr h
      omega
  rw [heq]
  unfold readOffset
  split
  · rename_i hcontra
    cases hcontra
  · rename_i hcontra
    injection hcontra with h _
    exact absurd h hz
  · rename_i mark' rest _ hcons
    injection hcons with h1 h2
    rw [← h1, ← h2, hparts]
    simp only [bind, Option.bind, Bool.not_true, Bool.false_eq_true, if_false, Reading.clock,
      hseconds, pure]
    unfold settledOffset
    by_cases h : o.micros.natAbs / 1000000 = 0
    · rw [if_pos h, if_pos (by omega)]
    · rw [if_neg h, hvalue, offset_make, if_neg (by omega)]

/-! ### Stamps -/

theorem make_self (t : Stamp) (o : Option Offset) :
    make? t.date t.hour.val t.minute.val t.second.val t.micro.val o =
      some { t with offset := o } := by
  unfold make?
  rw [dif_pos ⟨t.hour.isLt, t.minute.isLt, t.second.isLt, t.micro.isLt⟩]

theorem not_startsOffset_time (t : Stamp) : ∀ c ∈ timeChars t, (!startsOffset c) = true := by
  have hdigits {ds : List Char} (hd : IsDigits ds) : ∀ c ∈ ds, (!startsOffset c) = true := by
    intro c hc
    have := hd c hc
    simp only [startsOffset, Bool.not_eq_true', Bool.or_eq_false_iff, beq_eq_false_iff_ne]
    refine ⟨⟨?_, ?_⟩, ?_⟩ <;> rintro rfl <;> exact absurd this (by decide)
  intro c hc
  rw [timeChars_eq] at hc
  simp only [secondChars, List.mem_append, List.mem_cons] at hc
  rcases hc with hc | rfl | hc | rfl | hc | hc
  · exact hdigits (isDigits_padded _ _) c hc
  · rfl
  · exact hdigits (isDigits_padded _ _) c hc
  · rfl
  · exact hdigits (isDigits_padded _ _) c hc
  · split at hc
    · simp at hc
    · rcases List.mem_cons.mp hc with rfl | hc
      · rfl
      · exact hdigits (isDigits_padded _ _) c hc

/-- What stands behind the time of day. -/
def zoneChars (o : Option Offset) : List Char :=
  match o with
  | some o => offsetChars o
  | none => []

theorem zoneChars_head (o : Option Offset) : ∀ c ∈ (zoneChars o).head?, c = '-' ∨ c = '+' := by
  cases o with
  | none => simp [zoneChars]
  | some o =>
    intro c hc
    rw [zoneChars, offsetChars_eq, List.head?_cons, Option.mem_some_iff] at hc
    rw [← hc]
    split <;> simp

theorem readTime_timeChars (t : Stamp) :
    readTime t.date (timeChars t ++ zoneChars t.offset) = some t.settled := by
  have hhead := zoneChars_head t.offset
  have hstart : ∀ c ∈ (zoneChars t.offset).head?, (!startsOffset c) = false := by
    intro c hc
    rcases hhead c hc with rfl | rfl <;> rfl
  have hdigit : ∀ c ∈ (zoneChars t.offset).head?, c.isDigit = false := by
    intro c hc
    rcases hhead c hc with rfl | rfl <;> rfl
  obtain ⟨hclock, hzone⟩ := span_append (not_startsOffset_time t) hstart
  have hh := t.hour.isLt
  have hm := t.minute.isLt
  have hs := t.second.isLt
  have hparts := readParts_clock hdigit (by omega : t.hour.val < 100)
    (by omega : t.minute.val < 100)
    (by omega : t.second.val < 100) t.micro.isLt
  rw [← timeChars_eq] at hparts
  unfold readTime
  simp only [hclock, hzone, hparts, bind, Option.bind, Reading.clock, List.getD_cons_zero,
    List.getD_cons_succ]
  unfold settled
  cases ho : t.offset with
  | none =>
    simp only [zoneChars, List.isEmpty_nil, if_true, make_self, Option.map_none]
  | some o =>
    have hne : (offsetChars o).isEmpty = false := by rw [offsetChars_eq]; rfl
    simp only [zoneChars, hne, Bool.false_eq_true, if_false, readOffset_offsetChars, make_self,
      Option.map_some]

theorem iso_toList (t : Stamp) :
    t.iso.toList = dateChars t.date ++ 'T' :: (timeChars t ++ zoneChars t.offset) := by
  unfold iso charsWith zoneChars
  rw [String.toList_ofList]
  cases t.offset <;> simp

theorem charAt_append {before : List Char} {n : ℕ} (h : before.length = n) (c : Char)
    (rest : List Char) : charAt (before ++ c :: rest) n = c := by
  unfold charAt
  rw [← h]
  simp

theorem dateLength_iso (t : Stamp) : dateLength t.iso.toList = 10 := by
  have hdate := t.date.inCalendar
  simp only [isDate, Bool.and_eq_true, decide_eq_true_eq] at hdate
  have hyear : (padded 4 t.date.year).length = 4 := length_padded (by norm_num) (by omega)
  obtain ⟨c, cs, hcs⟩ := List.exists_cons_of_ne_nil (padded_two_ne_nil t.date.month)
  have hc : c ≠ 'W' := by
    have hdig := isDigits_padded 2 t.date.month c (by rw [hcs]; simp)
    rintro rfl
    exact absurd hdig (by decide)
  have hlong : t.iso.toList.length ≠ 7 := by
    rw [iso_toList, List.length_append, dateChars_length]
    omega
  obtain ⟨rest, hrest⟩ : ∃ rest, t.iso.toList = padded 4 t.date.year ++ '-' :: c :: rest :=
    ⟨cs ++ '-' :: (padded 2 t.date.day ++ 'T' :: (timeChars t ++ zoneChars t.offset)), by
      rw [iso_toList, dateChars, hcs]
      simp only [List.append_assoc, List.cons_append]⟩
  have h4 : charAt t.iso.toList 4 = '-' := by rw [hrest, charAt_append hyear]
  have h5 : charAt t.iso.toList 5 = c := by
    rw [hrest, List.append_cons, charAt_append (by simp [hyear])]
  unfold dateLength
  simp only [if_neg hlong, h4, h5, if_true, if_neg hc]

/-- The text of a stamp reads back as the stamp. -/
theorem ofIso_iso (t : Stamp) : ofIso? t.iso = some t.settled := by
  have hlength := dateChars_length t.date
  unfold ofIso? read
  simp only [dateLength_iso]
  rw [iso_toList, List.take_left' hlength, List.drop_left' hlength, readDate_dateChars]
  exact readTime_timeChars t

end Stamp
end LoanDesk
