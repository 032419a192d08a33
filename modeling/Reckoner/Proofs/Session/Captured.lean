import Reckoner.Proofs.Reading.Names
import Reckoner.Proofs.Session.Moves

/-!
# Values captured earlier

Reading a line captures the values of the names in it, and they are brought up
to date when they are used, which may be lines later and after other values have
been assigned. The number and the format are those in the store then; but a unit
that has been captured stays, as it counts before the one in the store. It does
so also where the line named no unit, and the one captured is simply that of the
value at the time (`Quantity.confirm_captured`).
-/

namespace Reckoner

namespace Store

variable {s : Store} {name : String} {e : Entry}

theorem named_of_find? (h : s.find? name = some e) : Quantity.named s name = e.quantity := by
  rw [Quantity.named, lookup?, h]
  rfl

variable [DigitLimit]

/-- A variable is brought up to date from its entry. -/
theorem confirm_of_find? (settings : Settings) {q : Quantity} {m : Machine}
    (hvariable : q.isVariable = true) (hconstant : q.isConstant = false)
    (h : m.store.find? q.name = some e) :
    q.confirm settings m = .ok (q.updated e.quantity) m := by
  rw [Quantity.confirm, if_neg (by simp [hvariable, hconstant])]
  refine (bind_of_ok (y := get) rfl).trans ?_
  rw [h]
  rfl

end Store

namespace Measure

/-- The second unit counts if the first one is none; or they are the same. -/
theorem orElse_eq_right_iff (m n : Measure) :
    m.orElse n = n ↔ m.isPlain = true ∨ m = n := by
  rw [orElse]
  split
  · rename_i hplain
    exact ⟨fun _ => .inl hplain, fun _ => rfl⟩
  · rename_i hplain
    exact ⟨.inr, fun h => h.resolve_left hplain⟩

end Measure

namespace Quantity

open Text

section

variable [DigitLimit]

/-- A name is captured as it stands in the store. Brought up to date, whatever the
    store has become, it has the number and the format that are there by then, but
    the unit only if none has been captured, or the same one. -/
theorem confirm_captured (settings : Settings) {s : Store} (hs : s.Reachable) {name : String}
    {e : Entry} (hfind : s.find? name = some e) (hconstant : e.isConstant = false) :
    (∀ behind, IsName name → startsLetter behind = false → startsMeasure behind = false →
      startsAssignment behind = false →
        readName s (name.toList ++ behind) = .ok (.operand e.quantity) behind) ∧
    ∀ (m : Machine) (e' : Entry), m.store.find? name = some e' →
      ∃ v : Quantity, e.quantity.confirm settings m = .ok v m ∧ v.name = name ∧
        v.magnitude = e'.quantity.magnitude ∧ v.format = e'.quantity.format ∧
        (v.measure = e'.quantity.measure ↔
          e.quantity.measure.isPlain = true ∨ e.quantity.measure = e'.quantity.measure) ∧
        (e.quantity.measure.isPlain = false → v.measure = e.quantity.measure) := by
  constructor
  · intro behind hname hbehind hmeasure hassignment
    rw [readName_operand s hname hbehind hmeasure hassignment, Store.named_of_find? hfind]
  · intro m e' hfind'
    have hname : e.quantity.name = name := Store.name_of_find? hfind
    have hvariable : e.quantity.isVariable = true :=
      hs.hasNames e (List.mem_of_find?_eq_some hfind)
    have hconfirm := Store.confirm_of_find? settings (m := m) hvariable hconstant
      (hname.symm ▸ hfind')
    refine ⟨e.quantity.updated e'.quantity, hconfirm, hname, rfl, rfl,
      Measure.orElse_eq_right_iff _ _, fun hunit => ?_⟩
    exact if_neg (by simp [hunit])

end

/-- The name `y` with a whole number of the given unit. -/
def entryOfY (n : Int64) (unit : Measure) : Entry where
  quantity := { magnitude := .whole n, measure := unit, name := "y", isVariable := true }
  description := ""

/-- Three inches are taken for three centimeters where centimeters have been
    captured. -/
theorem three_inches_in_centimeters :
    (⟨[entryOfY 5 ⟨.length, "cm", "cm"⟩]⟩ : Store).Reachable ∧
      ∃ v : Quantity, (entryOfY 5 ⟨.length, "cm", "cm"⟩).quantity.confirm .default
          ⟨[], ⟨[entryOfY 3 ⟨.length, "in", "in"⟩]⟩, [], none, []⟩ =
            .ok v ⟨[], ⟨[entryOfY 3 ⟨.length, "in", "in"⟩]⟩, [], none, []⟩ ∧
        v.magnitude = .whole 3 ∧ v.measure = ⟨.length, "cm", "cm"⟩ := by
  have hs : (⟨[entryOfY 5 ⟨.length, "cm", "cm"⟩]⟩ : Store).Reachable :=
    .assign (q := (entryOfY 5 ⟨.length, "cm", "cm"⟩).quantity) (.ofConstants []) rfl
  obtain ⟨v, hconfirm, -, hmagnitude, -, -, hmeasure⟩ :=
    (@confirm_captured _ .default _ hs "y" _ rfl rfl).2
      ⟨[], ⟨[entryOfY 3 ⟨.length, "in", "in"⟩]⟩, [], none, []⟩ _ rfl
  exact ⟨hs, v, hconfirm, hmagnitude, hmeasure rfl⟩

end Quantity

/-- With centimeters on the stack and inches in the store, a product has
    centimeters. -/
theorem Session.product_of_captured :
    let s := (new .initial none).play
      [.execute .default "y=5cm", .execute .default "y", .execute .default "y=3in",
        .execute .default "*1"]
    s.machine.stack = [{ magnitude := .whole 3, measure := ⟨.length, "cm", "cm"⟩ }] ∧
      (s.machine.store.find? "y").map Entry.quantity =
        some (Quantity.entryOfY 3 ⟨.length, "in", "in"⟩).quantity := by
  decide +kernel

end Reckoner
