import Mathlib.Data.List.TakeWhile
import Mathlib.Tactic
import LoanDesk.Text.Torn

/-
# Small letters and trimmed ends stay

No run of letters moves a letter onto another run, onto a blank, or out of the characters: so a
text in small letters has none left to change, whatever stands around it, and a sigma has its form
by then. Letters that end a trimmed text are no blanks in small letters either. So a text that is
trimmed and in small letters is its own such form; and the form of characters is that of the text
that they make.

Key definitions: `Text.CaseRun.avoids`, `Text.IsSmall`, `Text.Torn.IsLow`, `Text.Torn.IsBare`,
`Text.Torn.normal`.
Key theorems: `Text.runs_avoid`, `Text.mem_smallBetween`, `Text.Torn.loweredAfter_of_isLow`,
`Text.Torn.exists_trimmed`, `Text.Torn.normal_of_isBare_of_isLow`, `Text.Torn.normal_ofChars`.
-/

namespace LoanDesk
namespace Text

/-! ### Runs of letters -/

namespace CaseRun

/-- The run covers the code point. -/
def Covers (r : CaseRun) (n : ℕ) : Prop :=
  r.first ≤ n ∧ n ≤ r.last ∧ (n - r.first) % r.stride = 0

/-- No code point from `low` to `high`, in steps of `stride`, is covered by the run: they lie on one
side of it, or between the steps of it. -/
def avoids (low high stride : ℕ) (r : CaseRun) : Bool :=
  Nat.blt high r.first || Nat.blt r.last low ||
    Nat.beq r.stride 2 && (Nat.beq stride 2 || Nat.beq low high) && Nat.beq ((low + r.first) % 2) 1

theorem not_covers {low high stride n : ℕ} {r : CaseRun}
    (h : r.avoids low high stride = true) (hlow : low ≤ n) (hhigh : n ≤ high)
    (hstep : (n - low) % stride = 0) : ¬ r.Covers n := by
  rintro ⟨hfirst, hlast, hcovers⟩
  simp only [avoids, Bool.or_eq_true, Bool.and_eq_true, Nat.blt_eq, Nat.beq_eq] at h
  rcases h with (h | h) | ⟨⟨htwo, hsame⟩, hodd⟩
  · omega
  · omega
  · rw [htwo] at hcovers
    rcases hsame with hsame | hsame
    · rw [hsame] at hstep
      omega
    · omega

/-- The code points that no letter may have for a small form: zero, the dotted capital I, halves of
pairs, and blanks. -/
def barred : List CaseRun :=
  ⟨0, 0, 1, 0⟩ :: ⟨304, 304, 1, 0⟩ :: ⟨0xD800, 0xDFFF, 1, 0⟩ ::
    blankRanges.map fun r => ⟨r.1, r.2, 1, 0⟩

/-- The small forms of the run are characters, and no run covers one of them. -/
def isFinal (r : CaseRun) : Bool :=
  Nat.blt (r.last + r.shift).toNat 0x110000 &&
    (barred ++ lowerRuns).all
      (avoids (r.first + r.shift).toNat (r.last + r.shift).toNat r.stride)

end CaseRun

theorem runs_avoid : ∀ r ∈ lowerRuns, r.isFinal = true := by
  decide +kernel

theorem find?_eq_none_iff (n : ℕ) :
    CaseRun.find? lowerRuns n = none ↔ ∀ r ∈ lowerRuns, ¬ r.Covers n := by
  unfold CaseRun.find? CaseRun.Covers
  rw [List.find?_eq_none]
  refine forall₂_congr fun r _ => ?_
  simp only [Bool.and_eq_true, decide_eq_true_eq, beq_iff_eq, and_assoc]

theorem find?_eq_none_of_avoids {n : ℕ} (h : lowerRuns.all (CaseRun.avoids n n 1) = true) :
    CaseRun.find? lowerRuns n = none :=
  (find?_eq_none_iff n).mpr fun r hr =>
    CaseRun.not_covers (List.all_eq_true.mp h r hr) le_rfl le_rfl (Nat.mod_one _)

/-- A small form of a letter is a character that is neither zero nor a blank, and no letter with
another small form. -/
theorem shifted_spec {n : ℕ} {r : CaseRun} (h : CaseRun.find? lowerRuns n = some r) :
    CaseRun.find? lowerRuns (n + r.shift).toNat = none ∧
      (∀ b ∈ CaseRun.barred, ¬ b.Covers (n + r.shift).toNat) ∧
      (n + r.shift).toNat < 0x110000 := by
  have hr : r ∈ lowerRuns := List.mem_of_find?_eq_some h
  have hcovers := List.find?_some h
  simp only [Bool.and_eq_true, decide_eq_true_eq, beq_iff_eq] at hcovers
  obtain ⟨⟨hfirst, hlast⟩, hstep⟩ := hcovers
  have hfinal := runs_avoid r hr
  rw [CaseRun.isFinal, Bool.and_eq_true, Nat.blt_eq, List.all_eq_true] at hfinal
  obtain ⟨hhigh, hall⟩ := hfinal
  have hlow : 0 < (r.first + r.shift).toNat := by
    have hzero := hall ⟨0, 0, 1, 0⟩ (List.mem_append_left _ List.mem_cons_self)
    simpa [CaseRun.avoids] using hzero
  have havoid : ∀ b ∈ CaseRun.barred ++ lowerRuns, ¬ b.Covers (n + r.shift).toNat := by
    intro b hb
    refine CaseRun.not_covers (hall b hb) (by omega) (by omega) ?_
    rwa [show (n + r.shift).toNat - (r.first + r.shift).toNat = n - r.first by omega]
  exact ⟨(find?_eq_none_iff _).mpr fun b hb => havoid b (List.mem_append_right _ hb),
    fun b hb => havoid b (List.mem_append_left _ hb), by omega⟩

/-! ### Characters -/

theorem isValidChar_of_not_covers {n : ℕ} (hbarred : ∀ b ∈ CaseRun.barred, ¬ b.Covers n)
    (hn : n < 0x110000) : n.isValidChar := by
  have hhalf : ¬ (0xD800 ≤ n ∧ n ≤ 0xDFFF) := fun h =>
    hbarred ⟨0xD800, 0xDFFF, 1, 0⟩ (by decide) ⟨h.1, h.2, Nat.mod_one _⟩
  unfold Nat.isValidChar
  omega

theorem toNat_ofNat {n : ℕ} (h : n.isValidChar) : (Char.ofNat n).toNat = n := by
  unfold Char.ofNat
  rw [dif_pos h]
  rfl

theorem isBlank_of_not_covers {c : Char} (hbarred : ∀ b ∈ CaseRun.barred, ¬ b.Covers c.toNat) :
    isBlank c = false := by
  rw [Bool.eq_false_iff]
  intro hblank
  obtain ⟨r, hr, hin⟩ := List.any_eq_true.mp hblank
  rw [Bool.and_eq_true, decide_eq_true_eq, decide_eq_true_eq] at hin
  refine hbarred ⟨r.1, r.2, 1, 0⟩ ?_ ⟨hin.1, hin.2, Nat.mod_one _⟩
  unfold CaseRun.barred
  simp only [List.mem_cons, List.mem_map]
  exact .inr (.inr (.inr ⟨r, hr, rfl⟩))

/-- The first run is the one of ASCII, and no other reaches into it. -/
theorem find?_ascii {n : ℕ} (h : n < 128) : CaseRun.find? lowerRuns n =
    if 65 ≤ n ∧ n ≤ 90 then some ⟨65, 90, 1, 32⟩ else none := by
  have hruns : lowerRuns = ⟨65, 90, 1, 32⟩ :: lowerRuns.tail := rfl
  have hothers : ∀ r ∈ lowerRuns.tail, 128 ≤ r.first := by decide +kernel
  have hnone : lowerRuns.tail.find?
      (fun r => r.first ≤ n && n ≤ r.last && (n - r.first) % r.stride == 0) = none := by
    refine List.find?_eq_none.mpr fun r hr => ?_
    have hfirst : ¬ r.first ≤ n := by
      have := hothers r hr
      omega
    simp [hfirst]
  unfold CaseRun.find?
  rw [hruns, List.find?_cons, hnone, Nat.mod_one, beq_self_eq_true, Bool.and_true,
    ← Bool.decide_and]
  by_cases hn : 65 ≤ n ∧ n ≤ 90
  · rw [decide_eq_true hn, if_pos hn]
  · rw [decide_eq_false hn, if_neg hn]

/-- The small form of every letter but one is where its run moves it. -/
theorem smallLetter_eq {c : Char} (h : c.toNat ≠ 304) :
    smallLetter c = [Char.ofNat (shifted lowerRuns c.toNat)] := by
  have hletter : 'A' ≤ c ∧ c ≤ 'Z' ↔ 65 ≤ c.toNat ∧ c.toNat ≤ 90 := by
    simp only [Char.le_def, UInt32.le_iff_toNat_le]
    rfl
  unfold smallLetter shifted
  split
  · next hascii =>
    rw [find?_ascii hascii]
    by_cases hc : 65 ≤ c.toNat ∧ c.toNat ≤ 90
    · rw [if_pos (hletter.mpr hc), if_pos hc]
      rfl
    · rw [if_neg fun e => hc (hletter.mp e), if_neg hc, Char.ofNat_toNat]
  · rfl

/-- The character is the small form of itself, wherever it stands. -/
def IsSmall (c : Char) : Prop :=
  ∀ before after, smallBetween before c after = [c]

theorem isSmall_of_find {c : Char} (hfind : CaseRun.find? lowerRuns c.toNat = none)
    (hdotted : c.toNat ≠ 304) : IsSmall c := by
  intro before after
  have hsigma : c ≠ 'Σ' := by
    rintro rfl
    exact absurd hfind (by decide)
  unfold smallBetween
  rw [if_neg hsigma, smallLetter_eq hdotted, shifted, hfind]
  exact congrArg (fun d => [d]) (Char.ofNat_toNat c)

/-- A character of a small form is one for good; and it is the letter itself, or neither zero nor a
blank. -/
theorem mem_smallBetween {before after : List Char} {c d : Char}
    (h : d ∈ smallBetween before c after) :
    IsSmall d ∧ (d = c ∨ d.toNat ≠ 0 ∧ isBlank d = false) := by
  have hfixed : ∀ d ∈ ['ς', 'σ', 'i', Char.ofNat 775], IsSmall d ∧ d.toNat ≠ 0 ∧
      isBlank d = false := by
    have hfind : ['ς', 'σ', 'i', Char.ofNat 775].all (fun d =>
        lowerRuns.all (CaseRun.avoids d.toNat d.toNat 1)) = true := by
      decide +kernel
    have hothers : ['ς', 'σ', 'i', Char.ofNat 775].all (fun d =>
        decide (d.toNat ≠ 304 ∧ d.toNat ≠ 0 ∧ isBlank d = false)) = true := by
      decide +kernel
    intro d hd
    obtain ⟨hdotted, hrest⟩ := of_decide_eq_true (List.all_eq_true.mp hothers d hd)
    exact ⟨isSmall_of_find (find?_eq_none_of_avoids (List.all_eq_true.mp hfind d hd)) hdotted,
      hrest⟩
  unfold smallBetween at h
  split at h
  · have hd := hfixed d (by split at h <;> simp_all)
    exact ⟨hd.1, .inr hd.2⟩
  · by_cases hdotted : c.toNat = 304
    · have hletter : smallLetter c = ['i', Char.ofNat 775] := by
        unfold smallLetter
        rw [if_neg (by omega), if_pos hdotted]
      have hd := hfixed d (by rw [hletter] at h; simp_all)
      exact ⟨hd.1, .inr hd.2⟩
    · rw [smallLetter_eq hdotted, List.mem_singleton, shifted] at h
      cases hfind : CaseRun.find? lowerRuns c.toNat with
      | none =>
        rw [hfind] at h
        have hd : d = c := h.trans (Char.ofNat_toNat c)
        exact ⟨hd ▸ isSmall_of_find hfind hdotted, .inl hd⟩
      | some r =>
        rw [hfind] at h
        obtain ⟨hnone, hbarred, hlt⟩ := shifted_spec hfind
        have hcode : d.toNat = (c.toNat + r.shift).toNat := by
          rw [h, toNat_ofNat (isValidChar_of_not_covers hbarred hlt)]
        rw [← hcode] at hnone hbarred
        have hne : ∀ n, ⟨n, n, 1, 0⟩ ∈ CaseRun.barred → d.toNat ≠ n := fun n hn e =>
          hbarred _ hn ⟨e.ge, e.le, Nat.mod_one _⟩
        exact ⟨isSmall_of_find hnone (hne 304 (by decide)),
          .inr ⟨hne 0 (by decide), isBlank_of_not_covers hbarred⟩⟩

theorem isBlank_small {before after : List Char} {c d : Char} (h : d ∈ smallBetween before c after)
    (hc : isBlank c = false) : isBlank d = false := by
  rcases (mem_smallBetween h).2 with rfl | ⟨-, hd⟩
  · exact hc
  · exact hd

theorem smallBetween_ne_nil (before after : List Char) (c : Char) :
    smallBetween before c after ≠ [] := by
  unfold smallBetween
  split
  · exact List.cons_ne_nil _ _
  · by_cases hdotted : c.toNat = 304
    · unfold smallLetter
      rw [if_neg (by omega), if_pos hdotted]
      exact List.cons_ne_nil _ _
    · rw [smallLetter_eq hdotted]
      exact List.cons_ne_nil _ _

/-! ### Torn texts -/

namespace Torn

/-- Every character of the text is a small form of itself. -/
def IsLow (t : Torn) : Prop :=
  ∀ c, .char c ∈ t → IsSmall c

theorem ofChars_append (cs ds : List Char) : ofChars (cs ++ ds) = ofChars cs ++ ofChars ds :=
  List.map_append

theorem mem_ofChars {s : Sign} {cs : List Char} : s ∈ ofChars cs ↔ ∃ c ∈ cs, .char c = s :=
  List.mem_map

/-- Each sign of a text in small letters comes from one of the text: a half from itself, and a
character from one that has it in its small form. -/
theorem mem_loweredAfter {before : List Char} {t : Torn} {s : Sign}
    (h : s ∈ loweredAfter before t) : s ∈ t ∧ (∃ n k, s = .half n k) ∨
      ∃ c d before after, s = .char d ∧ .char c ∈ t ∧ d ∈ smallBetween before c after := by
  induction t generalizing before with
  | nil => cases h
  | cons x rest ih =>
    have hrest : ∀ {b}, s ∈ loweredAfter b rest → s ∈ x :: rest ∧ (∃ n k, s = .half n k) ∨
        ∃ c d before after, s = .char d ∧ .char c ∈ x :: rest ∧
          d ∈ smallBetween before c after := fun hs =>
      (ih hs).imp (.imp_left (List.mem_cons_of_mem x))
        fun ⟨c, d, b, a, hs, hc, hd⟩ => ⟨c, d, b, a, hs, List.mem_cons_of_mem x hc, hd⟩
    cases x with
    | char c =>
      rcases List.mem_append.mp h with h | h
      · obtain ⟨d, hd, rfl⟩ := mem_ofChars.mp h
        exact .inr ⟨c, d, _, _, rfl, List.mem_cons_self, hd⟩
      · exact hrest h
    | half n k =>
      rcases List.mem_cons.mp h with rfl | h
      · exact .inl ⟨List.mem_cons_self, n, k, rfl⟩
      · exact hrest h

theorem isLow_loweredAfter (before : List Char) (t : Torn) : IsLow (loweredAfter before t) := by
  intro c hc
  rcases mem_loweredAfter hc with ⟨-, n, k, hs⟩ | ⟨_, d, _, _, hs, -, hd⟩
  · cases hs
  · obtain rfl := Sign.char.inj hs
    exact (mem_smallBetween hd).1

/-- A text of small forms has none left to change. -/
theorem loweredAfter_of_isLow {before : List Char} {t : Torn} (h : t.IsLow) :
    loweredAfter before t = t := by
  induction t generalizing before with
  | nil => rfl
  | cons x rest ih =>
    have hrest : ∀ {b}, loweredAfter b rest = rest := ih fun c hc => h c (List.mem_cons_of_mem x hc)
    cases x with
    | char c =>
      rw [loweredAfter, h c List.mem_cons_self, hrest]
      rfl
    | half n k => rw [loweredAfter, hrest]

/-! ### Trimmed ends -/

/-- Neither end of the text is a blank. -/
def IsBare (t : Torn) : Prop :=
  (∀ s ∈ t.head?, s.isBlank = false) ∧ ∀ s ∈ t.getLast?, s.isBlank = false

theorem dropWhile_of_head? {p : Sign → Bool} {t : Torn} (h : ∀ s ∈ t.head?, p s = false) :
    t.dropWhile p = t := by
  cases t with
  | nil => rfl
  | cons s rest => rw [List.dropWhile_cons_of_neg (by simp [h s rfl])]

theorem trimmed_of_isBare {t : Torn} (h : t.IsBare) : t.trimmed = t := by
  unfold trimmed
  rw [dropWhile_of_head? h.1, dropWhile_of_head? (by rw [List.head?_reverse]; exact h.2),
    List.reverse_reverse]

theorem isBlank_head?_dropWhile (t : Torn) :
    ∀ s ∈ (t.dropWhile Sign.isBlank).head?, s.isBlank = false := by
  intro s hs
  have h := List.head?_dropWhile_not Sign.isBlank t
  rw [hs] at h
  exact h

/-- What trimming takes off are the blanks in front of the text and those behind it. -/
theorem exists_trimmed (t : Torn) :
    ∃ front back, t = front ++ t.trimmed ++ back ∧ ∀ s ∈ front ++ back, s.isBlank = true := by
  have hfront : t.takeWhile Sign.isBlank ++ t.dropWhile Sign.isBlank = t :=
    List.takeWhile_append_dropWhile
  have hback : t.trimmed ++ ((t.dropWhile Sign.isBlank).reverse.takeWhile Sign.isBlank).reverse =
      t.dropWhile Sign.isBlank := by
    unfold trimmed
    rw [← List.reverse_append, List.takeWhile_append_dropWhile, List.reverse_reverse]
  refine ⟨_, _, by rw [List.append_assoc, hback, hfront], fun s hs => ?_⟩
  rcases List.mem_append.mp hs with hs | hs
  · exact List.mem_takeWhile_imp hs
  · exact List.mem_takeWhile_imp (List.mem_reverse.mp hs)

theorem isBare_trimmed (t : Torn) : t.trimmed.IsBare := by
  have hfront := isBlank_head?_dropWhile t
  unfold trimmed
  generalize t.dropWhile Sign.isBlank = u at hfront
  refine ⟨fun s hs => ?_, fun s hs => ?_⟩
  · obtain ⟨rest, hrest⟩ : (u.reverse.dropWhile Sign.isBlank).reverse <+: u := by
      rw [← List.reverse_suffix, List.reverse_reverse]
      exact List.dropWhile_suffix _
    refine hfront s ?_
    rw [← hrest, List.head?_append, Option.mem_def.mp hs]
    rfl
  · rw [List.getLast?_reverse] at hs
    exact isBlank_head?_dropWhile _ s hs

theorem loweredAfter_ne_nil {before : List Char} {t : Torn} (h : t ≠ []) :
    loweredAfter before t ≠ [] := by
  cases t with
  | nil => exact absurd rfl h
  | cons x rest =>
    cases x with
    | char c =>
      rw [loweredAfter, ofChars]
      simp [smallBetween_ne_nil]
    | half n k => exact List.cons_ne_nil _ _

theorem isBlank_head?_loweredAfter {before : List Char} {t : Torn}
    (h : ∀ s ∈ t.head?, s.isBlank = false) :
    ∀ s ∈ (loweredAfter before t).head?, s.isBlank = false := by
  intro s hs
  cases t with
  | nil => cases hs
  | cons x rest =>
    cases x with
    | char c =>
      obtain ⟨d, ds, hd⟩ :=
        List.exists_cons_of_ne_nil (smallBetween_ne_nil before (front rest) c)
      rw [loweredAfter, hd] at hs
      obtain rfl := Option.some.inj hs
      exact isBlank_small (hd ▸ List.mem_cons_self) (h _ rfl)
    | half n k =>
      obtain rfl := Option.some.inj hs
      rfl

theorem isBlank_getLast?_loweredAfter {before : List Char} {t : Torn}
    (h : ∀ s ∈ t.getLast?, s.isBlank = false) :
    ∀ s ∈ (loweredAfter before t).getLast?, s.isBlank = false := by
  induction t generalizing before with
  | nil =>
    intro s hs
    cases hs
  | cons x rest ih =>
    intro s hs
    cases rest with
    | nil =>
      cases x with
      | char c =>
        rw [loweredAfter, loweredAfter, List.append_nil] at hs
        obtain ⟨d, hd, rfl⟩ := mem_ofChars.mp (List.mem_of_mem_getLast? hs)
        exact isBlank_small hd (h _ rfl)
      | half n k =>
        obtain rfl := Option.some.inj hs
        rfl
    | cons y ys =>
      have hlast : ∀ {b}, ∀ s ∈ (loweredAfter b (y :: ys)).getLast?, s.isBlank = false :=
        ih fun s hs => h s (by rw [List.getLast?_cons_cons]; exact hs)
      have hne : ∀ {b}, loweredAfter b (y :: ys) ≠ [] := loweredAfter_ne_nil (List.cons_ne_nil y ys)
      cases x with
      | char c =>
        rw [loweredAfter, List.getLast?_append_of_ne_nil _ hne] at hs
        exact hlast s hs
      | half n k =>
        rw [loweredAfter, ← List.singleton_append, List.getLast?_append_of_ne_nil _ hne] at hs
        exact hlast s hs

/-- A text with bare ends has bare ends in small letters. -/
theorem isBare_loweredAfter {before : List Char} {t : Torn} (h : t.IsBare) :
    (loweredAfter before t).IsBare :=
  ⟨isBlank_head?_loweredAfter h.1, isBlank_getLast?_loweredAfter h.2⟩

/-! ### The form of a text that is trimmed and in small letters -/

/-- The text in small letters, without the blanks at its ends. -/
def normal (t : Torn) : Torn :=
  t.trimmed.lowered

theorem isBare_normal (t : Torn) : t.normal.IsBare :=
  isBare_loweredAfter t.isBare_trimmed

theorem isLow_normal (t : Torn) : t.normal.IsLow :=
  isLow_loweredAfter [] t.trimmed

/-- A text with bare ends whose characters are all small has no other such form. -/
theorem normal_of_isBare_of_isLow {t : Torn} (hbare : t.IsBare) (hlow : t.IsLow) :
    t.normal = t := by
  unfold normal lowered
  rw [trimmed_of_isBare hbare, loweredAfter_of_isLow hlow]

theorem normal_normal (t : Torn) : t.normal.normal = t.normal :=
  normal_of_isBare_of_isLow t.isBare_normal t.isLow_normal

/-! ### What such a form has of its text -/

theorem mem_trimmed {s : Sign} {t : Torn} (h : s ∈ t.trimmed) : s ∈ t := by
  obtain ⟨front, back, ht, -⟩ := t.exists_trimmed
  rw [ht]
  exact List.mem_append_left _ (List.mem_append_right _ h)

theorem half_mem_trimmed {n : ℕ} {k : isHalf n = true} {t : Torn} (h : .half n k ∈ t) :
    .half n k ∈ t.trimmed := by
  obtain ⟨front, back, ht, hblank⟩ := t.exists_trimmed
  have hnot : .half n k ∉ front ++ back := fun hs => Bool.false_ne_true (hblank _ hs)
  rw [ht, List.mem_append, List.mem_append] at h
  rw [List.mem_append, not_or] at hnot
  exact (h.resolve_right hnot.2).resolve_left hnot.1

theorem half_mem_loweredAfter {n : ℕ} {k : isHalf n = true} {before : List Char} {t : Torn}
    (h : .half n k ∈ t) : .half n k ∈ loweredAfter before t := by
  induction t generalizing before with
  | nil => cases h
  | cons x rest ih =>
    cases x with
    | char c =>
      rcases List.mem_cons.mp h with hx | h
      · cases hx
      · exact List.mem_append_right _ (ih h)
    | half m l =>
      rcases List.mem_cons.mp h with hx | h
      · obtain ⟨rfl⟩ := Sign.half.inj hx
        exact List.mem_cons_self
      · exact List.mem_cons_of_mem _ (ih h)

/-- No character of the form is zero, if none of the text is. -/
theorem ne_zero_of_mem_normal {t : Torn} (h : ∀ c, .char c ∈ t → c.toNat ≠ 0) :
    ∀ c, .char c ∈ t.normal → c.toNat ≠ 0 := by
  intro c hc
  rcases mem_loweredAfter hc with ⟨-, n, k, hs⟩ | ⟨b, d, _, _, hs, hb, hd⟩
  · cases hs
  · obtain rfl := Sign.char.inj hs
    rcases (mem_smallBetween hd).2 with rfl | ⟨hzero, -⟩
    · exact h _ (mem_trimmed hb)
    · exact hzero

/-! ### Texts of characters -/

theorem front_ofChars (cs : List Char) : front (ofChars cs) = cs := by
  induction cs with
  | nil => rfl
  | cons c rest ih => exact congrArg (c :: ·) ih

theorem loweredAfter_ofChars (before cs : List Char) :
    loweredAfter before (ofChars cs) = ofChars (lowerAfter before cs) := by
  induction cs generalizing before with
  | nil => rfl
  | cons c rest ih =>
    change ofChars (smallBetween before c (front (ofChars rest))) ++
      loweredAfter (c :: before) (ofChars rest) = _
    rw [front_ofChars, ih, lowerAfter, ofChars_append]

theorem trimmed_ofChars (cs : List Char) : trimmed (ofChars cs) = ofChars (trim cs) := by
  unfold trimmed trim trimBy ofChars
  rw [List.dropWhile_map, ← List.map_reverse, List.dropWhile_map, ← List.map_reverse]
  rfl

/-- Characters are trimmed and written in small letters alike in a torn text and by themselves. -/
theorem normal_ofChars (cs : List Char) : normal (ofChars cs) = ofChars (lower (trim cs)) := by
  unfold normal lowered lower
  rw [trimmed_ofChars, loweredAfter_ofChars]

theorem ofChars_injective {cs ds : List Char} (h : ofChars cs = ofChars ds) : cs = ds :=
  List.map_injective_iff.mpr (fun _ _ => Sign.char.inj) h

/-- Characters without blanks are left as they are. -/
theorem trim_of_forall {cs : List Char} (h : ∀ c ∈ cs, isBlank c = false) : trim cs = cs := by
  have hbare : IsBare (ofChars cs) := by
    refine ⟨fun s hs => ?_, fun s hs => ?_⟩
    · obtain ⟨c, hc, rfl⟩ := List.mem_map.mp (List.mem_of_mem_head? hs)
      exact h c hc
    · obtain ⟨c, hc, rfl⟩ := List.mem_map.mp (List.mem_of_mem_getLast? hs)
      exact h c hc
  exact ofChars_injective ((trimmed_ofChars cs).symm.trans (trimmed_of_isBare hbare))

end Torn

end Text
end LoanDesk
