import Reckoner.Proofs.Evaluation.Blind
import Reckoner.Proofs.Evaluation.Showing

/-!
# When steps succeed

A composite step succeeds just if its parts do, one after another
(`bind_eq_ok`). What is done on failing makes no difference then
(`Eval.restoring_eq_ok`), and what has to have a text has one
(`Eval.showTop_eq_ok`). So all that a step does where it succeeds can be told
from its parts, in both directions, whichever way it is put together.
-/

namespace Reckoner

theorem bind_eq_ok {ε σ α β : Type} {x : EStateM ε σ α} {f : α → EStateM ε σ β} {s s'' : σ}
    {b : β} : (x >>= f) s = .ok b s'' ↔ ∃ a s', x s = .ok a s' ∧ f a s' = .ok b s'' := by
  cases hx : x s with
  | ok a s' =>
    rw [bind_of_ok hx]
    refine ⟨fun h => ⟨a, s', rfl, h⟩, fun ⟨_, _, ha, h⟩ => ?_⟩
    cases ha
    exact h
  | error e s' =>
    rw [bind_of_error hx]
    exact ⟨nofun, fun ⟨_, _, ha, _⟩ => nomatch ha⟩

namespace Eval

variable {α : Type} {settings : Settings} {m m' : Machine}

theorem refuse_ne_ok (f : Failure) (a : α) : refuse f m ≠ .ok a m' := nofun

theorem setStack_eq_ok {stack : List Quantity} {u : PUnit} :
    setStack stack m = .ok u m' ↔ m' = { m with stack := stack } :=
  ⟨fun h => by cases h; rfl, fun h => h ▸ rfl⟩

theorem restoring_eq_ok {stack : List Quantity} {x : Eval α} {a : α} :
    restoring stack x m = .ok a m' ↔ x m = .ok a m' := by
  rw [restoring]
  cases x m with
  | ok _ _ => exact Iff.rfl
  | error e _ =>
    cases e with
    | failed => constructor <;> · intro h; cases h
    | fault f => exact Iff.rfl

theorem andAlways_eq_ok {x y : Eval PUnit} :
    andAlways x y m = .ok ⟨⟩ m' ↔ ∃ m₁, x m = .ok ⟨⟩ m₁ ∧ y m₁ = .ok ⟨⟩ m' := by
  constructor
  · intro h
    rw [andAlways] at h
    cases hx : x m with
    | ok _ m₁ =>
      rw [hx] at h
      exact ⟨m₁, rfl, h⟩
    | error e m₁ =>
      rw [hx] at h
      cases e with
      | failed =>
        dsimp only at h
        cases hy : y m₁ with
        | ok _ m₂ => rw [hy] at h; cases h
        | error e m₂ => rw [hy] at h; cases h
      | fault f => cases h
  · rintro ⟨m₁, hx, hy⟩
    rw [andAlways, hx]
    exact hy

/-- A blind step succeeds on every stack if it does on one. -/
theorem Blind.eq_ok {x : Eval α} (hx : Blind x) {stack : List Quantity} {a : α} :
    x { m with stack := stack } = .ok a m' ↔
      ∃ m₁, x m = .ok a m₁ ∧ m' = { m₁ with stack := stack } := by
  rw [hx m stack]
  cases x m with
  | ok b m₁ =>
    constructor
    · intro h
      cases h
      exact ⟨m₁, rfl, rfl⟩
    · rintro ⟨_, hm, rfl⟩
      cases hm
      rfl
  | error e m₁ => exact ⟨nofun, fun ⟨_, hm, _⟩ => nomatch hm⟩

/-- The value on top is only looked at. -/
theorem showTop_eq_ok {top : Quantity} {below : List Quantity} :
    showTop settings { m with stack := top :: below } = .ok ⟨⟩ m' ↔
      (∃ text, top.text settings = .ok text) ∧ m' = { m with stack := top :: below } := by
  have hshow : showTop settings { m with stack := top :: below } =
      (discard (shown settings top)) { m with stack := top :: below } := rfl
  rw [hshow, shown]
  cases htext : top.text settings with
  | ok text =>
    constructor
    · intro h
      cases h
      exact ⟨⟨text, rfl⟩, rfl⟩
    · rintro ⟨-, rfl⟩
      rfl
  | error why =>
    constructor
    · intro h
      cases h
    · rintro ⟨⟨text, hnone⟩, -⟩
      cases hnone

theorem assignResult_eq_ok {slot : Slot} {target result : Quantity} {below : List Quantity} :
    assignResult slot target result below m = .ok ⟨⟩ m' ↔
      ∃ store, m.store.assign (target.given result) = .ok store ∧
        m' = { m with stack := result :: below, store := store } := by
  cases hstore : m.store.assign (target.given result) with
  | ok store =>
    have hassign : assignResult slot target result below m =
        .ok ⟨⟩ { m with stack := result :: below, store := store } := by
      refine (bind_of_ok rfl).trans ((bind_of_ok rfl).trans ?_)
      dsimp only
      rw [hstore]
      rfl
    rw [hassign]
    constructor
    · intro h
      cases h
      exact ⟨store, rfl, rfl⟩
    · rintro ⟨_, hsame, rfl⟩
      cases hsame
      rfl
  | error f =>
    have hrefused : assignResult slot target result below m =
        refuse f { m with stack := slot.insert target result below } := by
      refine (bind_of_ok rfl).trans ((bind_of_ok rfl).trans ?_)
      dsimp only
      rw [hstore]
      rfl
    rw [hrefused]
    constructor
    · intro h
      cases h
    · rintro ⟨_, hsame, -⟩
      cases hsame

variable [DigitLimit]

/-! ## Bringing operands up to date -/

theorem confirmAt_eq_ok (above : List Quantity) (q : Quantity) (below : List Quantity) :
    confirmAt settings above.length { m with stack := above ++ q :: below } = .ok ⟨⟩ m' ↔
      ∃ q' m₁, q.confirm settings m = .ok q' m₁ ∧
        m' = { m₁ with stack := above ++ q' :: below } := by
  have hplace : (above ++ q :: below)[above.length]? = some q := by simp
  have hconfirm : confirmAt settings above.length { m with stack := above ++ q :: below } =
      (do
        let q ← q.confirm settings
        setStack ((← stack).set above.length q)) { m with stack := above ++ q :: below } := by
    refine (bind_of_ok rfl).trans ?_
    dsimp only
    rw [hplace]
  rw [hconfirm, bind_eq_ok]
  constructor
  · rintro ⟨q', m₁, hq, hset⟩
    obtain ⟨m₂, hconfirm, rfl⟩ := (blind_confirm settings q).eq_ok.1 hq
    refine ⟨q', m₂, hconfirm, ?_⟩
    rw [setStack_eq_ok.1 hset]
    simp
  · rintro ⟨q', m₁, hq, rfl⟩
    refine ⟨q', _, (blind_confirm settings q).eq_ok.2 ⟨m₁, hq, rfl⟩, ?_⟩
    exact setStack_eq_ok.2 (by simp)

/-- The value on top comes before the one below it. -/
theorem confirmTop_two_eq_ok {top second : Quantity} {below : List Quantity} :
    confirmTop settings 2 { m with stack := top :: second :: below } = .ok ⟨⟩ m' ↔
      ∃ top' m₁ second' m₂, top.confirm settings m = .ok top' m₁ ∧
        second.confirm settings m₁ = .ok second' m₂ ∧
        m' = { m₂ with stack := top' :: second' :: below } := by
  have hsteps : confirmTop settings 2 = (do confirmAt settings 0; confirmAt settings 1) := by
    simp only [confirmTop, pure_bind]
  rw [hsteps, bind_eq_ok]
  constructor
  · rintro ⟨_, m₁, hfirst, hthen⟩
    obtain ⟨top', m₂, htop, rfl⟩ := (confirmAt_eq_ok [] top (second :: below)).1 hfirst
    obtain ⟨second', m₃, hsecond, rfl⟩ := (confirmAt_eq_ok [top'] second below).1 hthen
    exact ⟨top', m₂, second', m₃, htop, hsecond, rfl⟩
  · rintro ⟨top', m₁, second', m₂, htop, hsecond, rfl⟩
    exact ⟨_, _, (confirmAt_eq_ok [] top (second :: below)).2 ⟨top', m₁, htop, rfl⟩,
      (confirmAt_eq_ok [top'] second below).2 ⟨second', m₂, hsecond, rfl⟩⟩

/-! ## Assigning -/

section

variable {spelling : String} {slot : Slot} {target value result : Quantity}
  {below : List Quantity}

/-- The value of the target comes before that which it is combined with. -/
theorem combined_eq_ok {op : Arithmetic} {stack : List Quantity} :
    combined settings spelling (some op) slot target value below { m with stack := stack } =
        .ok result m' ↔
      ∃ current m₁, target.confirm settings m = .ok current m₁ ∧
        op.combine current value = some result ∧ m' = { m₁ with stack := stack } := by
  rw [combined, bind_eq_ok]
  simp only [restoring_eq_ok]
  constructor
  · rintro ⟨current, _, hcurrent, h⟩
    obtain ⟨m₁, hconfirm, rfl⟩ := (blind_confirm settings target).eq_ok.1 hcurrent
    refine ⟨current, m₁, hconfirm, ?_⟩
    cases hcombine : op.combine current value with
    | some _ =>
      rw [hcombine] at h
      cases h
      exact ⟨rfl, rfl⟩
    | none =>
      rw [hcombine] at h
      cases h
  · rintro ⟨current, m₁, hconfirm, hcombine, rfl⟩
    refine ⟨current, _, (blind_confirm settings target).eq_ok.2 ⟨m₁, hconfirm, rfl⟩, ?_⟩
    rw [hcombine]
    rfl

/-- The value is brought up to date before the target. -/
theorem assignTo_some_eq_ok {op : Arithmetic} {stack : List Quantity} :
    assignTo settings spelling (some op) slot target value below { m with stack := stack } =
        .ok ⟨⟩ m' ↔
      ∃ value' m₁ current m₂ result store, value.confirm settings m = .ok value' m₁ ∧
        target.confirm settings m₁ = .ok current m₂ ∧
        op.combine current value' = some result ∧
        m₂.store.assign (target.given result) = .ok store ∧
        m' = { m₂ with stack := result :: below, store := store } := by
  have hvalue := blind_confirm settings value
  simp only [assignTo, bind_eq_ok, setStack_eq_ok, restoring_eq_ok, assignResult_eq_ok]
  constructor
  · rintro ⟨_, _, rfl, value', _, hfirst, _, _, rfl, result, m₂, hcombined, store, hassign, rfl⟩
    obtain ⟨m₁, hconfirm, rfl⟩ := hvalue.eq_ok.1 hfirst
    obtain ⟨current, m₂, htarget, hcombine, rfl⟩ := (combined_eq_ok (m := m₁)).1 hcombined
    exact ⟨value', m₁, current, m₂, result, store, hconfirm, htarget, hcombine, hassign, rfl⟩
  · rintro ⟨value', m₁, current, m₂, result, store, hconfirm, htarget, hcombine, hassign, rfl⟩
    exact ⟨⟨⟩, _, rfl, value', _, hvalue.eq_ok.2 ⟨m₁, hconfirm, rfl⟩, ⟨⟩, _, rfl, result, _,
      (combined_eq_ok (m := m₁)).2 ⟨current, m₂, htarget, hcombine, rfl⟩, store, hassign, rfl⟩

/-- A value that is no name is assigned as it is. -/
theorem assignTo_none_eq_ok (hvalue : value.isVariable = false) :
    assignTo settings spelling none slot target value below m = .ok ⟨⟩ m' ↔
      ∃ store, m.store.assign (target.given value) = .ok store ∧
        m' = { m with stack := value :: below, store := store } := by
  have hconfirm : value.confirm settings = pure value := by simp [Quantity.confirm, hvalue]
  have hsteps : assignTo settings spelling none slot target value below m =
      assignResult slot target value below { m with stack := value :: below } := by
    rw [assignTo, hconfirm]
    rfl
  rw [hsteps, assignResult_eq_ok]

end

/-! ## Applying operators -/

theorem perform_arithmetic_eq_ok {formula : Formula} {spelling : String} {op : Arithmetic}
    {left right : Quantity} {below : List Quantity} :
    perform settings formula spelling (.arithmetic op) (right :: left :: below) m = .ok ⟨⟩ m' ↔
      ∃ result, op.combine left right = some result ∧
        m' = { m with stack := result :: below } := by
  dsimp only [perform]
  cases op.combine left right with
  | some result =>
    rw [setStack_eq_ok]
    exact ⟨fun h => ⟨result, rfl, h⟩, fun ⟨_, hresult, h⟩ => by cases hresult; exact h⟩
  | none => exact ⟨nofun, fun ⟨_, hresult, _⟩ => nomatch hresult⟩

/-- Where the target of an assignment is, with what stands there, if anything can be one. -/
theorem perform_assign_eq_ok {formula : Formula} {spelling : String}
    {combine : Option Arithmetic} {slot : Slot} {target value : Quantity}
    {below : List Quantity} (htop : slot = .top → target.isVariable = true)
    (hbelow : slot = .below → value.isVariable = false) :
    perform settings formula spelling (.assign combine) (slot.insert target value below) m =
        .ok ⟨⟩ m' ↔
      target.isTarget = true ∧
        assignTo settings spelling combine slot target value below m = .ok ⟨⟩ m' := by
  cases htarget : target.isTarget with
  | true =>
    -- With the target below, the value on top is not taken for it.
    have hassign : perform settings formula spelling (.assign combine)
        (slot.insert target value below) m =
          assignTo settings spelling combine slot target value below m := by
      cases slot with
      | top =>
        have hslot : targetSlot spelling target value m = .ok .top m := by
          rw [targetSlot, htarget]
          rfl
        exact bind_of_ok hslot
      | below =>
        have hslot : targetSlot spelling value target m = .ok .below m := by
          rw [targetSlot, Quantity.isTarget, hbelow rfl, htarget]
          rfl
        exact bind_of_ok hslot
    rw [hassign]
    exact ⟨fun h => ⟨rfl, h⟩, fun h => h.2⟩
  | false =>
    have hrefused : ∃ f, perform settings formula spelling (.assign combine)
        (slot.insert target value below) m = refuse f m := by
      cases slot with
      | top =>
        have hslot : ∃ f, targetSlot spelling target value m = refuse f m := by
          rw [targetSlot, htarget, htop rfl]
          exact ⟨_, rfl⟩
        exact hslot.imp fun f hf => bind_of_error hf
      | below =>
        have hslot : ∃ f, targetSlot spelling value target m = refuse f m := by
          rw [targetSlot, Quantity.isTarget, hbelow rfl, htarget]
          exact ⟨_, rfl⟩
        exact hslot.imp fun f hf => bind_of_error hf
    obtain ⟨f, hf⟩ := hrefused
    rw [hf]
    exact ⟨fun h => absurd h (refuse_ne_ok _ _), fun h => absurd h.1 Bool.false_ne_true⟩

/-- An operator is refused, or it brings its operands up to date and does what it does. -/
theorem apply_steps (settings : Settings) (formula : Formula) (o : Operator) (m : Machine) :
    apply settings formula o m =
      (if !o.action.isImplemented then refuse (.notImplemented o.spelling)
      else if m.stack.length < o.action.operands then
        refuse (.missingOperands o.spelling o.action.operands m.stack.length)
      else do
        confirmTop settings o.action.confirmed
        andAlways (do perform settings formula o.spelling o.action (← stack)) (showTop settings) :
          Eval PUnit) m := rfl

/-- An operator that succeeds brings its operands up to date, does what it does, and leaves a value
    on top that has a text. -/
theorem apply_eq_ok {formula : Formula} {o : Operator} :
    apply settings formula o m = .ok ⟨⟩ m' ↔
      o.action.isImplemented = true ∧ o.action.operands ≤ m.stack.length ∧
        ∃ m₁ m₂, confirmTop settings o.action.confirmed m = .ok ⟨⟩ m₁ ∧
          perform settings formula o.spelling o.action m₁.stack m₁ = .ok ⟨⟩ m₂ ∧
          showTop settings m₂ = .ok ⟨⟩ m' := by
  rw [apply_steps]
  split
  · rename_i hmissing
    rw [Bool.not_eq_true'] at hmissing
    exact ⟨nofun, fun h => by rw [hmissing] at h; cases h.1⟩
  · rename_i himplemented
    rw [Bool.not_eq_true', Bool.not_eq_false] at himplemented
    split
    · exact ⟨nofun, fun h => by omega⟩
    · rename_i hpresent
      rw [bind_eq_ok]
      constructor
      · rintro ⟨_, m₁, hconfirm, h⟩
        obtain ⟨m₂, hperform, hshow⟩ := andAlways_eq_ok.1 h
        exact ⟨himplemented, Nat.not_lt.1 hpresent, m₁, m₂, hconfirm, hperform, hshow⟩
      · rintro ⟨-, -, m₁, m₂, hconfirm, hperform, hshow⟩
        exact ⟨⟨⟩, m₁, hconfirm, andAlways_eq_ok.2 ⟨m₂, hperform, hshow⟩⟩

/-- The value on top is brought up to date before that below it. -/
theorem apply_arithmetic_eq_ok {formula : Formula} {o : Operator} {op : Arithmetic}
    {left right : Quantity} {below : List Quantity} (ho : o.action = .arithmetic op) :
    apply settings formula o { m with stack := right :: left :: below } = .ok ⟨⟩ m' ↔
      ∃ right' m₁ left' m₂ result, right.confirm settings m = .ok right' m₁ ∧
        left.confirm settings m₁ = .ok left' m₂ ∧ op.combine left' right' = some result ∧
        (∃ text, result.text settings = .ok text) ∧
        m' = { m₂ with stack := result :: below } := by
  have hlength : (Action.arithmetic op).operands ≤ (right :: left :: below).length :=
    Nat.le_add_left 2 below.length
  rw [apply_eq_ok, ho]
  constructor
  · rintro ⟨-, -, m₁, m₂, hconfirm, hperform, hshow⟩
    obtain ⟨right', m₁, left', m₂, hright, hleft, rfl⟩ := confirmTop_two_eq_ok.1 hconfirm
    obtain ⟨result, hcombine, rfl⟩ := perform_arithmetic_eq_ok.1 hperform
    obtain ⟨htext, rfl⟩ := (showTop_eq_ok (m := m₂)).1 hshow
    exact ⟨right', m₁, left', m₂, result, hright, hleft, hcombine, htext, rfl⟩
  · rintro ⟨right', m₁, left', m₂, result, hright, hleft, hcombine, htext, rfl⟩
    refine ⟨rfl, hlength, { m₂ with stack := right' :: left' :: below },
      { m₂ with stack := result :: below }, ?_, ?_, ?_⟩
    · exact confirmTop_two_eq_ok.2 ⟨right', m₁, left', m₂, hright, hleft, rfl⟩
    · exact perform_arithmetic_eq_ok.2 ⟨result, hcombine, rfl⟩
    · exact (showTop_eq_ok (m := m₂)).2 ⟨htext, rfl⟩

/-- An assignment that succeeds finds its target, and brings its value up to date by itself. -/
theorem apply_assignTo_eq_ok {formula : Formula} {o : Operator} {combine : Option Arithmetic}
    {target value : Quantity} {below : List Quantity} (ho : o.action = .assign combine)
    (slot : Slot) (htop : slot = .top → target.isVariable = true)
    (hbelow : slot = .below → value.isVariable = false) :
    apply settings formula o { m with stack := slot.insert target value below } = .ok ⟨⟩ m' ↔
      target.isTarget = true ∧ ∃ m₁,
        assignTo settings o.spelling combine slot target value below
          { m with stack := slot.insert target value below } = .ok ⟨⟩ m₁ ∧
        showTop settings m₁ = .ok ⟨⟩ m' := by
  have hlength : (Action.assign combine).operands ≤ (slot.insert target value below).length := by
    cases slot <;> exact Nat.le_add_left 2 below.length
  rw [apply_eq_ok, ho]
  constructor
  · rintro ⟨-, -, m₀, m₁, hconfirm, hperform, hshow⟩
    cases hconfirm
    obtain ⟨htarget, hassign⟩ := (perform_assign_eq_ok htop hbelow).1 hperform
    exact ⟨htarget, m₁, hassign, hshow⟩
  · rintro ⟨htarget, m₁, hassign, hshow⟩
    refine ⟨rfl, hlength, { m with stack := slot.insert target value below }, m₁, rfl, ?_, hshow⟩
    exact (perform_assign_eq_ok htop hbelow).2 ⟨htarget, hassign⟩

/-- A plain assignment of a value that is no name. -/
theorem apply_assign_eq_ok {formula : Formula} {o : Operator} {target value : Quantity}
    {below : List Quantity} (ho : o.action = .assign none) (slot : Slot)
    (htop : slot = .top → target.isVariable = true) (hvalue : value.isVariable = false) :
    apply settings formula o { m with stack := slot.insert target value below } = .ok ⟨⟩ m' ↔
      target.isTarget = true ∧ (∃ text, value.text settings = .ok text) ∧
        ∃ store, m.store.assign (target.given value) = .ok store ∧
          m' = { m with stack := value :: below, store := store } := by
  rw [apply_assignTo_eq_ok ho slot htop fun _ => hvalue]
  constructor
  · rintro ⟨htarget, m₁, hassign, hshow⟩
    obtain ⟨store, hstore, rfl⟩ := (assignTo_none_eq_ok hvalue).1 hassign
    obtain ⟨htext, rfl⟩ := (showTop_eq_ok (m := { m with store := store })).1 hshow
    exact ⟨htarget, htext, store, hstore, rfl⟩
  · rintro ⟨htarget, htext, store, hstore, rfl⟩
    refine ⟨htarget, { m with stack := value :: below, store := store }, ?_, ?_⟩
    · exact (assignTo_none_eq_ok hvalue).2 ⟨store, hstore, rfl⟩
    · exact (showTop_eq_ok (m := { m with store := store })).2 ⟨htext, rfl⟩

end Eval

end Reckoner
