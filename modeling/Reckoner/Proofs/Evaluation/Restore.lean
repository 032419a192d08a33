import Reckoner.Proofs.Evaluation.Blind
import Reckoner.Proofs.Evaluation.Keeping
import Reckoner.Proofs.Evaluation.Showing

/-!
# What a failed operator leaves

An operator takes its operands off the stack, and each kind of operator puts
them back in its own way where it fails. What it leaves is the stack as it was,
except that operands may have been brought up to date in their places
(`Eval.apply_failed_stack`): from the top down, each of them is as it was or
what confirming it gave, in the state that the confirmations before have left
(`Updates`).

An assignment loses neither its target nor its value. It would put the result
in the place of the value where the store refuses the target at last; but a
target is no constant, and which names are constants never changes.
-/

namespace Reckoner

theorem Quantity.isTarget_iff (q : Quantity) :
    q.isTarget = true ↔ q.isVariable = true ∧ q.name ≠ "" ∧ q.isConstant = false := by
  simp [isTarget, and_assoc]

namespace Eval

/-! ## Putting back -/

section

variable {α : Type}

/-- On failing, the stack is the given one. -/
def Leaves (stack : List Quantity) (x : Eval α) (m : Machine) : Prop :=
  Ends x m (fun _ _ => True) fun e m' => e = .failed → m'.stack = stack

theorem leaves_restoring (stack : List Quantity) (x : Eval α) (m : Machine) :
    Leaves stack (restoring stack x) m :=
  ends_restoring.2 (ends_iff.2 ⟨fun _ _ _ => trivial, fun e _ _ => by
    cases e with
    | failed => exact fun _ => rfl
    | fault f => exact nofun⟩)

theorem leaves_refuse {m : Machine} {stack : List Quantity} (h : m.stack = stack) (f : Failure) :
    Leaves stack (refuse f : Eval α) m := fun _ => h

theorem leaves_setStack {m : Machine} {stack stack' : List Quantity} :
    Leaves stack (setStack stack') m := trivial

/-- A step that can fail in its first part only. -/
theorem Leaves.bind {β : Type} {x : Eval α} {f : α → Eval β} {m : Machine} {stack : List Quantity}
    (hx : Leaves stack x m) (hf : ∀ a m', Leaves stack (f a) m') : Leaves stack (x >>= f) m :=
  ends_bind.2 (hx.mono (fun a m' _ => hf a m') fun _ _ h => h)

end

theorem assign_given_eq_ok {store : Store} {target : Quantity} (htarget : target.isTarget = true)
    (hconstant : store.hasConstant target.name = false) (result : Quantity) :
    ∃ store', store.assign (target.given result) = .ok store' := by
  have hname := (target.isTarget_iff.1 htarget).2.1
  obtain ⟨description, hassign⟩ :=
    Store.exists_assign_eq_ok (q := target.given result) hname hconstant
  exact ⟨_, hassign⟩

/-- A name that is no constant does not become one. -/
theorem inherited_hasConstant (name : String) :
    Quantity.Inherited (fun s => s.hasConstant name = false) fun _ => True :=
  Quantity.inherited_of_assign fun h hassign => (Store.hasConstant_of_assign hassign name).trans h

theorem confirmed_le_operands (action : Action) : action.confirmed ≤ action.operands := by
  cases action <;> simp [Action.confirmed, Action.operands, Action.arity]

end Eval

section

variable [DigitLimit]

/-! ## What has been brought up to date -/

/-- From the top down, each value is as it was or what confirming it gives; the
    confirmations lead from one machine to the other. -/
inductive Updates (settings : Settings) : Machine → List Quantity → List Quantity → Machine → Prop
  | nil (m : Machine) : Updates settings m [] [] m
  | kept {m m' : Machine} {qs qs' : List Quantity} (q : Quantity) :
    Updates settings m qs qs' m' → Updates settings m (q :: qs) (q :: qs') m'
  | confirmed {m m₁ m' : Machine} {q q' : Quantity} {qs qs' : List Quantity} :
    q.confirm settings m = .ok q' m₁ → Updates settings m₁ qs qs' m' →
      Updates settings m (q :: qs) (q' :: qs') m'

namespace Updates

variable {settings : Settings} {m m' : Machine} {qs qs' : List Quantity}

theorem refl (m : Machine) (qs : List Quantity) : Updates settings m qs qs m := by
  induction qs with
  | nil => exact .nil m
  | cons q qs ih => exact .kept q ih

theorem length_eq (h : Updates settings m qs qs' m') : qs'.length = qs.length := by
  induction h with
  | nil => rfl
  | kept q _ ih => exact congrArg (· + 1) ih
  | confirmed _ _ ih => exact congrArg (· + 1) ih

/-- One more value, below the others, is confirmed after them. -/
theorem snoc {m'' : Machine} {q q' : Quantity} (h : Updates settings m qs qs' m')
    (hq : q.confirm settings m' = .ok q' m'') :
    Updates settings m (qs ++ [q]) (qs' ++ [q']) m'' := by
  induction h with
  | nil m => exact .confirmed hq (.nil _)
  | kept q _ ih => exact .kept q (ih hq)
  | confirmed hq' _ ih => exact .confirmed hq' (ih hq)

/-- The values below stay as they are. -/
theorem append (h : Updates settings m qs qs' m') (below : List Quantity) :
    Updates settings m (qs ++ below) (qs' ++ below) m' := by
  induction h with
  | nil m => exact refl m below
  | kept q _ ih => exact .kept q ih
  | confirmed hq _ ih => exact .confirmed hq ih

end Updates

/-- The stack of `m'` is that of `m`, except that values among the given number
    on top may have been brought up to date. -/
def KeepsStack (settings : Settings) (count : Nat) (m m' : Machine) : Prop :=
  ∃ operands m₁, Updates settings m (m.stack.take count) operands m₁ ∧
    m'.stack = operands ++ m.stack.drop count

theorem KeepsStack.of_le {settings : Settings} {m m' : Machine} {count count' : Nat}
    (h : KeepsStack settings count m m') (hle : count ≤ count') :
    KeepsStack settings count' m m' := by
  obtain ⟨operands, m₁, hupdates, hstack⟩ := h
  refine ⟨operands ++ (m.stack.drop count).take (count' - count), m₁, ?_, ?_⟩
  · obtain ⟨extra, rfl⟩ := Nat.exists_eq_add_of_le hle
    rw [List.take_add, Nat.add_sub_cancel_left]
    exact hupdates.append _
  · obtain ⟨extra, rfl⟩ := Nat.exists_eq_add_of_le hle
    rw [hstack, List.append_assoc, Nat.add_sub_cancel_left, ← List.drop_drop,
      List.take_append_drop]

theorem KeepsStack.length_eq {settings : Settings} {m m' : Machine} {count : Nat}
    (h : KeepsStack settings count m m') : m'.stack.length = m.stack.length := by
  obtain ⟨operands, m₁, hupdates, hstack⟩ := h
  have hlength := congrArg List.length (List.take_append_drop count m.stack)
  rw [List.length_append] at hlength
  rw [hstack, List.length_append, hupdates.length_eq, hlength]

/-- The values below are the same. -/
theorem KeepsStack.drop_eq {settings : Settings} {m m' : Machine} {count count' : Nat}
    (h : KeepsStack settings count m m') (hle : count ≤ count') :
    m'.stack.drop count' = m.stack.drop count' := by
  obtain ⟨operands, m₁, hupdates, hstack⟩ := h.of_le hle
  have hlength := hupdates.length_eq
  rw [List.length_take] at hlength
  rw [hstack, List.drop_append, List.drop_eq_nil_of_le (by omega), List.nil_append, List.drop_drop]
  rcases Nat.le_total count' m.stack.length with hcount | hcount
  · rw [hlength, Nat.min_eq_left hcount, Nat.sub_self, Nat.add_zero]
  · rw [List.drop_eq_nil_of_le hcount, List.drop_eq_nil_of_le (by omega)]

theorem keepsStack_of_eq {settings : Settings} {m m' : Machine} (count : Nat)
    (h : m'.stack = m.stack) : KeepsStack settings count m m' :=
  KeepsStack.of_le ⟨[], m, .nil m, by rw [h, List.drop_zero, List.nil_append]⟩ (Nat.zero_le count)

/-- `m'` is `m` once the given number of values on top has been brought up to date. -/
def Confirms (settings : Settings) (count : Nat) (m m' : Machine) : Prop :=
  ∃ operands m₁, Updates settings m (m.stack.take count) operands m₁ ∧
    m' = { m₁ with stack := operands ++ m.stack.drop count }

theorem Confirms.keepsStack {settings : Settings} {m m' : Machine} {count : Nat}
    (h : Confirms settings count m m') : KeepsStack settings count m m' := by
  obtain ⟨operands, m₁, hupdates, rfl⟩ := h
  exact ⟨operands, m₁, hupdates, rfl⟩

/-- With no values to bring up to date, nothing has happened. -/
theorem Confirms.eq {settings : Settings} {m m' : Machine} (h : Confirms settings 0 m m') :
    m' = m := by
  obtain ⟨operands, m₁, hupdates, rfl⟩ := h
  cases hupdates
  rfl

namespace Eval

variable {settings : Settings} {formula : Formula}

/-- An operator that does not assign leaves the stack it has found. -/
theorem leaves_perform {action : Action} (hassign : ∀ combine, action ≠ .assign combine)
    (spelling : String) {m : Machine} :
    Leaves m.stack (perform settings formula spelling action m.stack) m := by
  obtain ⟨stack, store, messages, replies, asked⟩ := m
  dsimp only
  simp only [perform]
  -- Only conversions take values off the stack before they can fail, and they
  -- put them back.
  split
  · split
    · exact leaves_setStack
    · exact leaves_refuse rfl _
  · split
    · exact leaves_setStack
    · exact leaves_refuse rfl _
  · exact ends_bind.2 ((leaves_restoring _ _ _).bind fun _ _ => leaves_setStack)
  · exact ends_bind.2 ((leaves_restoring _ _ _).bind fun _ _ => leaves_setStack)
  · exact leaves_setStack
  · exact leaves_setStack
  · exact leaves_refuse rfl _
  · exact ends_bind.2 ((leaves_restoring _ _ _).bind fun _ _ => leaves_setStack)
  · exact absurd rfl (hassign _)
  · trivial

/-! ## Assignments -/

theorem leaves_combined (settings : Settings) (spelling : String) (combine : Option Arithmetic)
    (slot : Slot) (target value : Quantity) (below : List Quantity) (m : Machine) :
    Leaves (slot.insert target value below)
      (combined settings spelling combine slot target value below) m := by
  simp only [combined]
  split
  · trivial
  · refine (leaves_restoring _ _ _).bind fun current m => ?_
    split
    · trivial
    · exact fun _ => rfl

/-- An assignment that fails leaves its target as it is, and its value as it is
    or brought up to date. -/
theorem ends_assignTo (spelling : String) (combine : Option Arithmetic) (slot : Slot)
    {target : Quantity} (value : Quantity) (below : List Quantity) {m : Machine}
    (htarget : target.isTarget = true) (hconstant : m.store.hasConstant target.name = false) :
    Ends (assignTo settings spelling combine slot target value below) m (fun _ _ => True)
      fun e m' => e = .failed → ∃ value' m₁, Updates settings m [value] [value'] m₁ ∧
        m'.stack = slot.insert target value' below := by
  -- Confirming the value may put names into the store, but no constants.
  have hname := inherited_hasConstant target.name
  have hstore := keeps_confirm hname.toPassed (q := value) trivial settings m
    ⟨hconstant, fun _ _ => trivial⟩
  refine ends_bind.2 (ends_modify.2 (ends_bind.2 (ends_restoring.2 ?_)))
  refine (blind_confirm settings value).ends_onStack (ends_iff.2 ⟨?_, fun e m₁ _ => ?_⟩)
  · intro value' m₁ hconfirm
    have hupdates : Updates settings m [value] [value'] m₁ := .confirmed hconfirm (.nil _)
    have hconstant₁ : m₁.store.hasConstant target.name = false := (hstore.of_ok hconfirm).2.store
    refine ends_bind.2 (ends_modify.2 (ends_bind.2 ?_))
    have hleaves := leaves_combined settings spelling combine slot target value' below
    have hkeeps : Keeps _ _ _ (combined settings spelling combine slot target value' below) :=
      (keeping settings hname).combined spelling slot trivial (fun _ _ => trivial) combine trivial
    have hmeets : Machine.Meets (fun s => s.hasConstant target.name = false) (fun _ => True)
        { m₁ with stack := value' :: below } := ⟨hconstant₁, fun _ _ => trivial⟩
    refine (Ends.and (hleaves _) (hkeeps _ hmeets)).mono (fun result m₂ h => ?_)
      fun e m₂ h he => ⟨value', m₁, hupdates, h.1 he⟩
    -- The store has the constants it had, so that it takes the target.
    have hconstant₂ : m₂.store.hasConstant target.name = false := h.2.2.store
    obtain ⟨store, hassign⟩ := assign_given_eq_ok htarget hconstant₂ result
    refine ends_bind.2 (ends_modify.2 (ends_bind.2 (ends_get.2 ?_)))
    dsimp only
    rw [hassign]
    trivial
  · cases e with
    | failed => exact fun _ => ⟨value, m, .refl m _, rfl⟩
    | fault f => exact nofun

/-! ## Confirming operands -/

/-- Bringing a value up to date in its place, below others. -/
theorem ends_confirmAt {m : Machine} (above : List Quantity) (q : Quantity)
    (below : List Quantity) :
    Ends (confirmAt settings above.length) { m with stack := above ++ q :: below }
      (fun _ m' => ∃ q' m₁, q.confirm settings m = .ok q' m₁ ∧
        m' = { m₁ with stack := above ++ q' :: below })
      fun _ m' => m'.stack = above ++ q :: below := by
  have hplace : (above ++ q :: below)[above.length]? = some q := by simp
  refine ends_bind.2 (ends_bind.2 (ends_get.2 (ends_pure.2 ?_)))
  dsimp only
  rw [hplace]
  refine ends_bind.2 ((blind_confirm settings q).ends_onStack (ends_iff.2 ⟨?_, fun _ _ _ => rfl⟩))
  intro q' m₁ hconfirm
  refine ends_bind.2 (ends_bind.2 (ends_get.2 (ends_pure.2 (ends_modify.2 ?_))))
  exact ⟨q', m₁, hconfirm, by simp⟩

/-- Bringing the values on top up to date, whether it fails or not. -/
theorem ends_confirmTop {m : Machine} (count : Nat) (hcount : count ≤ m.stack.length) :
    Ends (confirmTop settings count) m (fun _ m' => Confirms settings count m m')
      fun _ m' => KeepsStack settings count m m' := by
  induction count with
  | zero => exact ⟨[], m, .nil m, rfl⟩
  | succ count ih =>
    have hlt : count < m.stack.length := by omega
    have htake : m.stack.take (count + 1) = m.stack.take count ++ [m.stack[count]] :=
      (List.take_append_getElem hlt).symm
    have hdrop : m.stack.drop count = m.stack[count] :: m.stack.drop (count + 1) :=
      List.drop_eq_getElem_cons hlt
    refine ends_bind.2 ((ih (by omega)).mono (fun _ m' h => ?_)
      fun _ _ h => h.of_le (Nat.le_succ count))
    obtain ⟨operands, m₁, hupdates, rfl⟩ := h
    obtain rfl : operands.length = count := by
      rw [hupdates.length_eq, List.length_take]
      omega
    -- What has been confirmed so far is what stands above the next value.
    rw [hdrop]
    refine (ends_confirmAt operands _ _).mono (fun _ m' h => ?_) fun _ m' h => ?_
    · obtain ⟨q', m₂, hconfirm, rfl⟩ := h
      exact ⟨operands ++ [q'], m₂, htake ▸ hupdates.snoc hconfirm, by simp⟩
    · refine KeepsStack.of_le ⟨operands, m₁, hupdates, ?_⟩ (Nat.le_succ operands.length)
      rw [h, hdrop]

theorem keepsStack_confirmTop {m m' : Machine} {count : Nat} (hcount : count ≤ m.stack.length)
    (h : confirmTop settings count m = .ok ⟨⟩ m') : KeepsStack settings count m m' :=
  ((ends_confirmTop count hcount).of_ok h).keepsStack

/-! ## Applying operators -/

/-- How an operator ends, by how its action ends on operands that are there and up to date.
    Where it comes to nothing before that, it has kept the stack. -/
theorem ends_apply_of_perform (o : Operator) {m : Machine} {Q : PUnit → Machine → Prop}
    {E : Halt → Machine → Prop} (hunshown : ∀ why m', E (.fault (.unshowable why)) m')
    (hkept : ∀ e m', KeepsStack settings o.action.operands m m' → E e m')
    (hperform : ∀ m₁, o.action.operands ≤ m.stack.length →
      Confirms settings o.action.confirmed m m₁ →
      Ends (perform settings formula o.spelling o.action m₁.stack) m₁ Q E) :
    Ends (apply settings formula o) m Q E := by
  refine ends_bind.2 (ends_bind.2 (ends_get.2 (ends_pure.2 ?_)))
  dsimp only
  split
  · exact hkept _ _ (keepsStack_of_eq _ rfl)
  · split
    · exact hkept _ _ (keepsStack_of_eq _ rfl)
    · rename_i hpresent
      have hlength : o.action.operands ≤ m.stack.length := Nat.not_lt.1 hpresent
      have hle := confirmed_le_operands o.action
      refine ends_bind.2 ((ends_confirmTop _ (Nat.le_trans hle hlength)).mono (fun _ m₁ h => ?_)
        fun _ _ h => hkept _ _ (h.of_le hle))
      refine ends_andAlways_showTop (ends_bind.2 (ends_bind.2 (ends_get.2 (ends_pure.2 ?_))))
        hunshown
      exact hperform m₁ hlength h

/-- Assigning, the value being on top or below. -/
theorem ends_perform_assign {m : Machine} (spelling : String) (combine : Option Arithmetic)
    (hlength : 2 ≤ m.stack.length)
    (hconstant : ∀ q ∈ m.stack, q.isVariable = true → m.store.hasConstant q.name = true →
      q.isConstant = true) :
    Ends (perform settings formula spelling (.assign combine) m.stack) m (fun _ _ => True)
      fun e m' => e = .failed → KeepsStack settings 2 m m' := by
  obtain ⟨top, second, below, hstack⟩ : ∃ top second below, m.stack = top :: second :: below := by
    match hs : m.stack, hlength with
    | top :: second :: below, _ => exact ⟨top, second, below, rfl⟩
  -- A target is no constant, neither by itself nor in the store.
  have htarget : ∀ q ∈ m.stack, q.isTarget = true → m.store.hasConstant q.name = false := by
    intro q hq h
    obtain ⟨hvariable, -, h⟩ := q.isTarget_iff.1 h
    refine Bool.eq_false_iff.2 fun hstore => ?_
    rw [hconstant q hq hvariable hstore] at h
    cases h
  rw [hstack] at htarget ⊢
  refine ends_bind.2 ?_
  rw [targetSlot]
  split
  · -- The target is on top, so that the value below it is confirmed.
    rename_i htop
    refine (ends_assignTo spelling combine .top second below htop
      (htarget top List.mem_cons_self htop)).mono (fun _ _ _ => trivial) fun e m' h he => ?_
    obtain ⟨value', m₁, hupdates, hm'⟩ := h he
    exact ⟨[top, value'], m₁, by rw [hstack]; exact .kept top hupdates, by rw [hm', hstack]; rfl⟩
  · split
    · -- The target is below the value.
      rename_i hsecond
      have hsecond : second.isTarget = true := (Bool.and_eq_true_iff.1 hsecond).2
      refine (ends_assignTo spelling combine .below top below hsecond
        (htarget second (by simp) hsecond)).mono (fun _ _ _ => trivial) fun e m' h he => ?_
      obtain ⟨value', m₁, hupdates, hm'⟩ := h he
      exact ⟨[value', second], m₁, by rw [hstack]; exact hupdates.append [second],
        by rw [hm', hstack]; rfl⟩
    · exact fun _ => keepsStack_of_eq 2 rfl

/-- An operator that fails leaves the stack as it was, except that operands may
    have been brought up to date. -/
theorem apply_failed_stack (o : Operator) {m m' : Machine}
    (hconstant : ∀ q ∈ m.stack, q.isVariable = true → m.store.hasConstant q.name = true →
      q.isConstant = true)
    (h : apply settings formula o m = .error .failed m') :
    m'.stack.length = m.stack.length ∧ KeepsStack settings o.action.operands m m' := by
  have hends : Ends (apply settings formula o) m (fun _ _ => True) fun e m' => e = .failed →
      KeepsStack settings o.action.operands m m' := by
    refine ends_apply_of_perform o (fun _ _ => nofun) (fun _ _ h _ => h)
      fun m₁ hlength hconfirms => ?_
    by_cases hassign : ∃ combine, o.action = .assign combine
    · -- An assignment confirms by itself.
      obtain ⟨combine, haction⟩ := hassign
      rw [haction] at hlength hconfirms ⊢
      obtain rfl := hconfirms.eq
      exact ends_perform_assign o.spelling combine hlength hconstant
    · refine (leaves_perform (fun combine h => hassign ⟨combine, h⟩) o.spelling).mono
        (fun _ _ _ => trivial) fun e m' hleaves he => ?_
      obtain ⟨operands, m₂, hupdates, hstack⟩ := hconfirms.keepsStack
      exact KeepsStack.of_le ⟨operands, m₂, hupdates, (hleaves he).trans hstack⟩
        (confirmed_le_operands o.action)
  have hkeeps := hends.of_error h rfl
  exact ⟨hkeeps.length_eq, hkeeps⟩

end Eval

end

namespace Eval

/-- Six, and on top of it the name of a variable that is zero. -/
def sixOverZero : Machine where
  stack := [.unset "x", { magnitude := .whole 6 }]
  store := ⟨[⟨{ magnitude := .whole 0, name := "x", isVariable := true }, ""⟩]⟩
  messages := []
  replies := none
  asked := []

/-- A division by zero leaves the name on the stack, brought up to date. -/
theorem division_by_zero_stack :
    ∃ o ∈ Operator.table, ∃ m',
      apply .default (Settings.default.formulaAt 0) o sixOverZero = .error .failed m' ∧
        m'.stack.length = 2 ∧ KeepsStack .default o.action.operands sixOverZero m' :=
  ⟨⟨"/", "div", .arithmetic .div, "division, exact integer quotients stay integer"⟩, by decide, _,
    rfl, @apply_failed_stack _ _ (Settings.default.formulaAt 0) _ sixOverZero _ (by decide) rfl⟩

end Eval

end Reckoner
