import LoanDesk.Store.Memory
import LoanDesk.Store.Database

/-
# Laws of tables

What a table holds under an id after a change, for ids that only they themselves are
taken for: texts are such ids, in memory and in rows. A table whose ids are spelled in
another way and whose entries are read is still the same table.

Key definitions: `Store.IsExact`, `Store.Table.read`.
Key theorems: `Store.Table.get?_put`, `Store.Table.get?_erase`,
`Store.Table.put_of_not_mem`, `Store.Table.erase_of_get?`, `Store.Table.get?_read`,
`Store.Table.put_read`, `Store.Table.erase_read`.
-/

namespace LoanDesk
namespace Store

variable {κ κ' ν α β : Type} [Alike κ] [Alike κ'] [Alike ν]

/-- No other id is taken for this one. -/
def IsExact (id : κ) : Prop :=
  ∀ i : κ, Alike.alike i id = true ↔ i = id

theorem isExact_string (s : String) : IsExact s := by
  intro i
  exact beq_iff_eq

theorem isExact_some (s : String) : IsExact (some s) := by
  intro i
  cases i with
  | none => simp [Alike.alike]
  | some r => simp [Alike.alike]

theorem isExact_text (s : String) : IsExact (Value.text s) := by
  intro i
  cases i <;> simp [Alike.alike, Value.same, Value.sameAmount, Value.amount?]

namespace Table

variable {t : Table κ α} {id other : κ} {a : α}

/-! ### One entry put or erased -/

theorem get?_cons (p : κ × α) (t : Table κ α) (id : κ) :
    get? (p :: t) id = if Alike.alike p.1 id then some p.2 else get? t id := by
  unfold get?
  rw [List.find?_cons]
  cases Alike.alike p.1 id <;> rfl

theorem get?_put (h : IsExact id) (ho : IsExact other) :
    get? (put t id a) other = if Alike.alike id other then some a else get? t other := by
  induction t with
  | nil => rw [put, get?_cons]
  | cons p rest ih =>
    obtain ⟨i, b⟩ := p
    unfold put
    by_cases hi : i = id
    · subst hi
      rw [if_pos ((h i).mpr rfl), get?_cons, get?_cons]
      by_cases he : i = other
      · rw [if_pos ((ho i).mpr he), if_pos ((ho i).mpr he)]
      · rw [if_neg fun c => he ((ho i).mp c), if_neg fun c => he ((ho i).mp c),
          if_neg fun c => he ((ho i).mp c)]
    · rw [if_neg fun c => hi ((h i).mp c), get?_cons, get?_cons, ih]
      by_cases he : i = other
      · subst he
        rw [if_pos ((ho i).mpr rfl), if_neg fun c => hi ((ho id).mp c).symm,
          if_pos ((ho i).mpr rfl)]
      · rw [if_neg fun c => he ((ho i).mp c), if_neg fun c => he ((ho i).mp c)]

@[simp]
theorem get?_put_self (h : IsExact id) : get? (put t id a) id = some a := by
  rw [get?_put h h, if_pos ((h id).mpr rfl)]

theorem get?_put_of_ne (h : IsExact id) (ho : IsExact other) (hne : id ≠ other) :
    get? (put t id a) other = get? t other := by
  rw [get?_put h ho, if_neg fun c => hne ((ho id).mp c)]

theorem get?_erase (h : IsExact id) (ho : IsExact other) :
    get? (erase t id) other = if Alike.alike id other then none else get? t other := by
  induction t with
  | nil => simp [erase, get?]
  | cons p rest ih =>
    unfold erase at ih ⊢
    rw [List.filter_cons]
    by_cases hi : p.1 = id
    · rw [if_neg (by simp [(h p.1).mpr hi]), ih, get?_cons]
      by_cases he : id = other
      · rw [if_pos ((ho id).mpr he), if_pos ((ho id).mpr he)]
      · rw [if_neg fun c => he ((ho id).mp c), if_neg fun c => he ((ho id).mp c),
          if_neg fun c => he (hi.symm.trans ((ho p.1).mp c))]
    · have hk : Alike.alike p.1 id = false := by
        rw [Bool.eq_false_iff]
        exact fun c => hi ((h p.1).mp c)
      rw [if_pos (by simp [hk]), get?_cons, get?_cons, ih]
      by_cases he : p.1 = other
      · rw [if_pos ((ho p.1).mpr he), if_pos ((ho p.1).mpr he),
          if_neg fun c => hi (he.trans ((ho id).mp c).symm)]
      · rw [if_neg fun c => he ((ho p.1).mp c), if_neg fun c => he ((ho p.1).mp c)]

@[simp]
theorem get?_erase_self (h : IsExact id) : get? (erase t id) id = none := by
  rw [get?_erase h h, if_pos ((h id).mpr rfl)]

theorem get?_erase_of_ne (h : IsExact id) (ho : IsExact other) (hne : id ≠ other) :
    get? (erase t id) other = get? t other := by
  rw [get?_erase h ho, if_neg fun c => hne ((ho id).mp c)]

theorem get?_eq_none (h : IsExact id) : get? t id = none ↔ id ∉ ids t := by
  induction t with
  | nil => simp [get?, ids]
  | cons p rest ih =>
    unfold ids at ih ⊢
    rw [get?_cons, List.map_cons, List.mem_cons, not_or]
    by_cases hi : p.1 = id
    · rw [if_pos ((h p.1).mpr hi)]
      exact ⟨fun c => by simp at c, fun c => absurd hi.symm c.1⟩
    · rw [if_neg fun c => hi ((h p.1).mp c), ih]
      exact ⟨fun c => ⟨fun e => hi e.symm, c⟩, fun c => c.2⟩

theorem mem_of_get? (h : IsExact id) (hg : get? t id = some a) : (id, a) ∈ t := by
  induction t with
  | nil => simp [get?] at hg
  | cons p rest ih =>
    rw [get?_cons] at hg
    by_cases hi : p.1 = id
    · rw [if_pos ((h p.1).mpr hi)] at hg
      obtain rfl := Option.some.inj hg
      rw [← hi]
      exact List.mem_cons_self
    · rw [if_neg fun c => hi ((h p.1).mp c)] at hg
      exact List.mem_cons_of_mem p (ih hg)

/-- An entry is found by `get?` under its id, if no other has the id. -/
theorem get?_of_mem (h : IsExact id) (hd : (ids t).Nodup) (hm : (id, a) ∈ t) :
    get? t id = some a := by
  induction t with
  | nil => cases hm
  | cons p rest ih =>
    unfold ids at ih hd
    rw [List.map_cons, List.nodup_cons] at hd
    rw [get?_cons]
    rcases List.mem_cons.mp hm with rfl | hm
    · rw [if_pos ((h _).mpr rfl)]
    · have hne : p.1 ≠ id := fun e => hd.1 (e ▸ List.mem_map_of_mem (f := (·.1)) hm)
      rw [if_neg fun c => hne ((h p.1).mp c), ih hd.2 hm]

theorem mem_put {p : κ × α} (hp : p ∈ put t id a) (h : IsExact id) : p = (id, a) ∨ p ∈ t := by
  induction t with
  | nil =>
    exact .inl (List.mem_singleton.mp hp)
  | cons q rest ih =>
    obtain ⟨i, b⟩ := q
    unfold put at hp
    by_cases hi : i = id
    · rw [if_pos ((h i).mpr hi), hi, List.mem_cons] at hp
      exact hp.imp_right (List.mem_cons_of_mem _)
    · rw [if_neg fun c => hi ((h i).mp c), List.mem_cons] at hp
      rcases hp with rfl | hp
      · exact .inr List.mem_cons_self
      · exact (ih hp).imp_right (List.mem_cons_of_mem _)

theorem mem_of_mem_erase {p : κ × α} (hp : p ∈ erase t id) : p ∈ t :=
  (List.mem_filter.mp hp).1

/-- An id that is new comes at the end of the table by `put`. -/
theorem put_of_not_mem (h : IsExact id) (hn : id ∉ ids t) : put t id a = t ++ [(id, a)] := by
  induction t with
  | nil => rfl
  | cons p rest ih =>
    obtain ⟨i, b⟩ := p
    unfold ids at ih hn
    rw [List.map_cons, List.mem_cons, not_or] at hn
    unfold put
    rw [if_neg fun c => hn.1 ((h i).mp c).symm, ih hn.2, List.cons_append]

theorem get?_append_of_ne {i : κ} (h : IsExact id) (hi : i ≠ id) :
    get? (t ++ [(i, a)]) id = get? t id := by
  induction t with
  | nil =>
    rw [List.nil_append, get?_cons, if_neg fun c => hi ((h i).mp c)]
  | cons p rest ih =>
    rw [List.cons_append, get?_cons, get?_cons, ih]

/-- An id that is there keeps its place under `put`, and the others keep theirs. -/
theorem ids_put_of_mem (h : IsExact id) (hm : id ∈ ids t) : ids (put t id a) = ids t := by
  induction t with
  | nil => simp [ids] at hm
  | cons p rest ih =>
    obtain ⟨i, b⟩ := p
    unfold ids at ih hm ⊢
    unfold put
    by_cases hi : i = id
    · rw [if_pos ((h i).mpr hi), List.map_cons, List.map_cons]
    · rw [List.map_cons, List.mem_cons] at hm
      have hr := hm.resolve_left fun e => hi e.symm
      rw [if_neg fun c => hi ((h i).mp c), List.map_cons, List.map_cons, ih hr]

theorem nodup_put (h : IsExact id) (hd : (ids t).Nodup) : (ids (put t id a)).Nodup := by
  by_cases hm : id ∈ ids t
  · rw [ids_put_of_mem h hm]
    exact hd
  · rw [put_of_not_mem h hm]
    unfold ids at hd hm ⊢
    rw [List.map_append, List.nodup_append]
    refine ⟨hd, by simp, ?_⟩
    intro i hi j hj
    rw [List.map_singleton, List.mem_singleton] at hj
    rintro rfl
    rw [hj] at hi
    exact hm hi

theorem nodup_erase (id : κ) (hd : (ids t).Nodup) : (ids (erase t id)).Nodup := by
  unfold ids erase
  exact hd.sublist (List.filter_sublist.map _)

theorem erase_of_not_mem (h : IsExact id) (hn : id ∉ ids t) : erase t id = t := by
  unfold erase
  rw [List.filter_eq_self]
  intro p hp
  have hi : p.1 ≠ id := fun e => hn (e ▸ List.mem_map_of_mem hp)
  simpa using fun c => hi ((h p.1).mp c)

/-- What `erase` takes out is one entry, and the others stand as they stood. -/
theorem erase_of_get? (h : IsExact id) (hd : (ids t).Nodup) (hg : get? t id = some a) :
    ∃ before after : Table κ α, t = before ++ (id, a) :: after ∧ erase t id = before ++ after := by
  obtain ⟨before, after, rfl⟩ := List.append_of_mem (mem_of_get? h hg)
  refine ⟨before, after, rfl, ?_⟩
  unfold ids at hd
  rw [List.map_append, List.map_cons, List.nodup_append, List.nodup_cons] at hd
  obtain ⟨-, ⟨hafter, -⟩, hbefore⟩ := hd
  have hl : erase before id = before :=
    erase_of_not_mem h fun hm => hbefore _ hm _ List.mem_cons_self rfl
  have hr : erase after id = after := erase_of_not_mem h hafter
  unfold erase at hl hr ⊢
  rw [List.filter_append, List.filter_cons, if_neg (by simp [(h id).mpr rfl]), hl, hr]

theorem has_eq (t : Table κ α) (id : κ) : has t id = (get? t id).isSome := rfl

/-! ### A table read in another way -/

/-- The table with its ids spelled and its entries read in another way. -/
def read (spell : κ → κ') (look : α → β) (t : Table κ α) : Table κ' β :=
  t.map (Prod.map spell look)

variable {spell : κ → κ'} {look : α → β}

/-- The ids that are taken for one are those whose spellings are taken for its spelling. -/
theorem alike_spell (h : IsExact id) (hs : IsExact (spell id))
    (hi : ∀ i, spell i = spell id → i = id) (i : κ) :
    Alike.alike (spell i) (spell id) = Alike.alike i id := by
  rw [Bool.eq_iff_iff, hs, h]
  exact ⟨hi i, fun e => e ▸ rfl⟩

theorem get?_read (h : IsExact id) (hs : IsExact (spell id))
    (hi : ∀ i, spell i = spell id → i = id) :
    get? (read spell look t) (spell id) = (get? t id).map look := by
  induction t with
  | nil => rfl
  | cons p rest ih =>
    unfold read at ih ⊢
    rw [List.map_cons, get?_cons, get?_cons, ih, Prod.map_fst, Prod.map_snd,
      alike_spell h hs hi]
    cases Alike.alike p.1 id <;> rfl

theorem put_read (look : α → β) (t : Table κ α) (a : α) (h : IsExact id)
    (hs : IsExact (spell id)) (hi : ∀ i, spell i = spell id → i = id) :
    put (read spell look t) (spell id) (look a) = read spell look (put t id a) := by
  induction t with
  | nil => rfl
  | cons p rest ih =>
    obtain ⟨i, b⟩ := p
    unfold read at ih ⊢
    rw [List.map_cons, Prod.map_apply]
    unfold put
    rw [alike_spell h hs hi, ih]
    cases Alike.alike i id <;> rfl

theorem erase_read (look : α → β) (t : Table κ α) (h : IsExact id) (hs : IsExact (spell id))
    (hi : ∀ i, spell i = spell id → i = id) :
    erase (read spell look t) (spell id) = read spell look (erase t id) := by
  unfold erase read
  rw [List.filter_map]
  congr 2
  funext p
  simp only [Function.comp_apply, Prod.map_fst, alike_spell h hs hi]

omit [Alike κ] [Alike κ'] in
theorem read_append (t u : Table κ α) :
    read spell look (t ++ u) = read spell look t ++ read spell look u :=
  List.map_append

omit [Alike κ] [Alike κ'] in
theorem entries_read (spell : κ → κ') (look : α → β) (t : Table κ α) :
    entries (read spell look t) = (entries t).map look := by
  unfold entries read
  rw [List.map_map, List.map_map]
  rfl

end Table

/-! ### Tables by name -/

namespace Tables

variable {name other : ν}

omit [Alike κ] in
theorem get_set (ts : Tables ν κ α) (t : Table κ α) (h : IsExact name) (ho : IsExact other) :
    get (set ts name t) other = if Alike.alike name other then t else get ts other := by
  unfold get set
  rw [Table.get?_put h ho]
  split <;> rfl

end Tables
end Store
end LoanDesk
