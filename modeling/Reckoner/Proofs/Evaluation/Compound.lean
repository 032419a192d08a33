import Reckoner.Proofs.Evaluation.Results
import Reckoner.Proofs.Evaluation.Success

/-!
# Assignments that combine

An assignment that combines, such as `3 +=y`, does by itself what an operator
and a plain assignment do one after the other (`Eval.apply_combining`): the same
value is on the stack and in the store afterwards, and the same questions have
been asked in the same order. For that, the target stands below its value when
both are combined, and the result below the target when it is assigned.

Both come to the same steps (`Eval.Combines`). The value is brought up to date
before the target; this is the order of `confirmTop` where the value is on top,
and an assignment that combines keeps it, whichever of the two is on top.
-/

namespace Reckoner

namespace Eval

variable {settings : Settings} {formula : Formula} {op : Arithmetic} {target value : Quantity}
  {below : List Quantity} {m m' : Machine}

section

variable [DigitLimit]

/-- The target is given what combining it with the value results in. -/
def Combines (settings : Settings) (op : Arithmetic) (target value : Quantity)
    (below : List Quantity) (m m' : Machine) : Prop :=
  target.isTarget = true ∧
    ∃ value' m₁ current m₂ result store, value.confirm settings m = .ok value' m₁ ∧
      target.confirm settings m₁ = .ok current m₂ ∧
      op.combine current value' = some result ∧
      (∃ text, result.text settings = .ok text) ∧
      m₂.store.assign (target.given result) = .ok store ∧
      m' = { m₂ with stack := result :: below, store := store }

/-- An assignment that combines finds its target on top, or below a value that is no name. -/
theorem apply_combining_eq_ok {o : Operator} (ho : o.action = .assign (some op)) (slot : Slot)
    (htop : slot = .top → target.isVariable = true)
    (hbelow : slot = .below → value.isVariable = false) :
    apply settings formula o { m with stack := slot.insert target value below } = .ok ⟨⟩ m' ↔
      Combines settings op target value below m m' := by
  rw [apply_assignTo_eq_ok ho slot htop hbelow]
  constructor
  · rintro ⟨htarget, m₁, hassign, hshow⟩
    obtain ⟨value', m₁, current, m₂, result, store, hvalue, hcurrent, hcombine, hstore, rfl⟩ :=
      assignTo_some_eq_ok.1 hassign
    obtain ⟨htext, rfl⟩ := (showTop_eq_ok (m := { m₂ with store := store })).1 hshow
    exact ⟨htarget, value', m₁, current, m₂, result, store, hvalue, hcurrent, hcombine, htext,
      hstore, rfl⟩
  · rintro ⟨htarget, value', m₁, current, m₂, result, store, hvalue, hcurrent, hcombine, htext,
      hstore, rfl⟩
    refine ⟨htarget, { m₂ with stack := result :: below, store := store }, ?_, ?_⟩
    · exact assignTo_some_eq_ok.2
        ⟨value', m₁, current, m₂, result, store, hvalue, hcurrent, hcombine, hstore, rfl⟩
    · exact (showTop_eq_ok (m := { m₂ with store := store })).2 ⟨htext, rfl⟩

/-- Combining the value with the target below it, and assigning what results. -/
theorem apply_arithmetic_assign_eq_ok {plain assign : Operator}
    (hplain : plain.action = .arithmetic op) (hassign : assign.action = .assign none)
    (htarget : target.isVariable = true) :
    (do
      apply settings formula plain
      push [target]
      apply settings formula assign) { m with stack := value :: target :: below } = .ok ⟨⟩ m' ↔
      Combines settings op target value below m m' := by
  rw [bind_eq_ok]
  constructor
  · rintro ⟨_, _, happly, h⟩
    obtain ⟨value', m₁, current, m₂, result, hvalue, hcurrent, hcombine, htext, rfl⟩ :=
      (apply_arithmetic_eq_ok hplain).1 happly
    have hresult := (isBare_combine hcombine).isVariable
    obtain ⟨_, _, hpush, h⟩ := bind_eq_ok.1 h
    cases hpush
    obtain ⟨htarget, -, store, hstore, rfl⟩ :=
      (apply_assign_eq_ok (m := m₂) hassign .top (fun _ => htarget) hresult).1 h
    exact ⟨htarget, value', m₁, current, m₂, result, store, hvalue, hcurrent, hcombine, htext,
      hstore, rfl⟩
  · rintro ⟨htarget', value', m₁, current, m₂, result, store, hvalue, hcurrent, hcombine, htext,
      hstore, rfl⟩
    have hresult := (isBare_combine hcombine).isVariable
    refine ⟨⟨⟩, { m₂ with stack := result :: below }, ?_, ?_⟩
    · exact (apply_arithmetic_eq_ok hplain).2
        ⟨value', m₁, current, m₂, result, hvalue, hcurrent, hcombine, htext, rfl⟩
    · refine bind_eq_ok.2 ⟨⟨⟩, { m₂ with stack := target :: result :: below }, rfl, ?_⟩
      exact (apply_assign_eq_ok (m := m₂) hassign .top (fun _ => htarget) hresult).2
        ⟨htarget', htext, store, hstore, rfl⟩

/-! ## In two steps -/

/-- Assigning with an operation leaves the machine that the operation and a plain assignment leave,
    with its stack, its store and all that has been asked: the operation takes the target from
    below the value, and the assignment takes the result from below the target. With a value that
    is no name, the target may as well be below it. -/
theorem apply_combining (settings : Settings) (formula : Formula)
    {combining plain assign : Operator} (hcombining : combining.action = .assign (some op))
    (hplain : plain.action = .arithmetic op) (hassign : assign.action = .assign none)
    (htarget : target.isVariable = true) (value : Quantity) (below : List Quantity)
    (m m' : Machine) :
    (apply settings formula combining { m with stack := target :: value :: below } = .ok ⟨⟩ m' ↔
      (do
        apply settings formula plain
        push [target]
        apply settings formula assign) { m with stack := value :: target :: below } = .ok ⟨⟩ m') ∧
    (value.isVariable = false →
      (apply settings formula combining { m with stack := value :: target :: below } = .ok ⟨⟩ m' ↔
        apply settings formula combining { m with stack := target :: value :: below } =
          .ok ⟨⟩ m')) := by
  have htop : apply settings formula combining { m with stack := target :: value :: below } =
      .ok ⟨⟩ m' ↔ Combines settings op target value below m m' :=
    apply_combining_eq_ok hcombining .top (fun _ => htarget) nofun
  refine ⟨?_, fun hvalue => ?_⟩
  · rw [htop, apply_arithmetic_assign_eq_ok hplain hassign htarget]
  · rw [htop]
    exact apply_combining_eq_ok hcombining .below nofun fun _ => hvalue

end

/-- A machine with nothing on its stack, and a user who says three and four. -/
def askingForTwo : Machine where
  stack := []
  store := .initial
  messages := []
  replies := some [.line "3", .line "4"]
  asked := []

/-- The entry for `+=`. -/
def sumInto : Operator := ⟨"+=", "assign_add", .assign (some .add), "add into variable"⟩

/-- The entry for `+`. -/
def sum : Operator := ⟨"+", "add", .arithmetic .add, "addition"⟩

/-- The entry for `=`. -/
def storeInto : Operator := ⟨"=", "assign", .assign none, "store into variable"⟩

/-- The value is asked for before the target, in one step and in two. A number is also added to the
    target below it. -/
theorem sum_assigned_to_unknown :
    (∃ m',
      (do
        apply .default (Settings.default.formulaAt 0) sum
        push [.unset "y"]
        apply .default (Settings.default.formulaAt 0) storeInto)
          { askingForTwo with stack := [.unset "x", .unset "y"] } = .ok ⟨⟩ m' ∧
        m'.asked = ["x", "y"] ∧ m'.stack.map Quantity.magnitude = [.whole 7]) ∧
    ∃ m',
      apply .default (Settings.default.formulaAt 0) sumInto
          { askingForTwo with stack := [{ magnitude := .whole 5 }, .unset "y"] } = .ok ⟨⟩ m' ∧
        m'.asked = ["y"] ∧ m'.stack.map Quantity.magnitude = [.whole 8] := by
  have hsumInto : sumInto.action = .assign (some .add) := rfl
  have hsum : sum.action = .arithmetic .add := rfl
  have hstoreInto : storeInto.action = .assign none := rfl
  constructor
  · have hrun : ∃ m', apply .default (Settings.default.formulaAt 0) sumInto
        { askingForTwo with stack := [.unset "y", .unset "x"] } = .ok ⟨⟩ m' ∧
          m'.asked = ["x", "y"] ∧ m'.stack.map Quantity.magnitude = [.whole 7] :=
      ⟨_, rfl, rfl, rfl⟩
    obtain ⟨m', h, hm'⟩ := hrun
    exact ⟨m', (apply_combining .default (Settings.default.formulaAt 0) hsumInto hsum hstoreInto
      rfl (.unset "x") [] askingForTwo m').1.1 h, hm'⟩
  · have hrun : ∃ m', apply .default (Settings.default.formulaAt 0) sumInto
        { askingForTwo with stack := [.unset "y", { magnitude := .whole 5 }] } = .ok ⟨⟩ m' ∧
          m'.asked = ["y"] ∧ m'.stack.map Quantity.magnitude = [.whole 8] := ⟨_, rfl, rfl, rfl⟩
    obtain ⟨m', h, hm'⟩ := hrun
    exact ⟨m', ((apply_combining .default (Settings.default.formulaAt 0) hsumInto hsum hstoreInto
      rfl { magnitude := .whole 5 } [] askingForTwo m').2 rfl).2 h, hm'⟩

end Eval

end Reckoner
