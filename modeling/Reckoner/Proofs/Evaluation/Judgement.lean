import Reckoner.Evaluation.Run
import Reckoner.Proofs.Reading.Operands

/-!
# Judging steps of evaluation

Much of what is known of evaluation is known of each of its steps, given that
the values it finds have some property: it ends well, and leaves values that
have the property again. What it is to end well is left open here. A judgement
(`Eval.Judgement`) says it of steps, and has rules for the composition of steps
and for those steps that change the machine.

What the rules are about then holds of all of evaluation: of operators
(`Judgement.apply`), of whole lines (`Judgement.runLine`) and of the formulas of
rules at any depth (`Judgement.evalFormula`).
-/

namespace Reckoner

/-- The text is the formula of a rule. -/
def Settings.HasFormula (settings : Settings) (text : String) : Prop :=
  ∃ r ∈ settings.rules, r.formula = text

namespace Eval

/-- Gives a name its value, or does what is to be done if it cannot have one. -/
def storing (q : Quantity) (refused : Failure → Eval PUnit) : Eval PUnit := do
  match (← get).store.assign q with
  | .ok store => modify fun machine => { machine with store := store }
  | .error f => refused f

theorem keep_eq_storing (q : Quantity) : keep q = storing q fun f => say f.message := rfl

theorem assignResult_eq_storing (slot : Slot) (target result : Quantity) (below : List Quantity) :
    assignResult slot target result below = (do
      setStack (result :: below)
      storing (target.given result) fun f => do
        setStack (slot.insert target result below)
        refuse f) := rfl

theorem forall_mem_insert {P : Quantity → Prop} (slot : Slot) {target value : Quantity}
    {below : List Quantity} (htarget : P target) (hbelow : ∀ q ∈ below, P q) (hvalue : P value) :
    ∀ q ∈ slot.insert target value below, P q := by
  cases slot with
  | top => exact List.forall_mem_cons.2 ⟨htarget, List.forall_mem_cons.2 ⟨hvalue, hbelow⟩⟩
  | below => exact List.forall_mem_cons.2 ⟨hvalue, List.forall_mem_cons.2 ⟨htarget, hbelow⟩⟩

variable [DigitLimit]

/-- What steps of evaluation have in common. `Holds R x` says it of the step `x` and that
    its results are in `R`; `P` is what the values have in common. -/
structure Judgement (settings : Settings) (P : Quantity → Prop) where
  Holds : {α : Type} → (α → Prop) → Eval α → Prop
  makes : Quantity.Makes P
  pure : ∀ {α : Type} {R : α → Prop} {a : α}, R a → Holds R (pure a)
  bind : ∀ {α β : Type} {R : α → Prop} {T : β → Prop} {x : Eval α} {f : α → Eval β},
    Holds R x → (∀ a, R a → Holds T (f a)) → Holds T (x >>= f)
  refuse : ∀ {α : Type} {R : α → Prop} (f : Failure), Holds R (refuse f)
  stack : Holds (fun qs => ∀ q ∈ qs, P q) stack
  setStack : ∀ {qs : List Quantity}, (∀ q ∈ qs, P q) → Holds (fun _ => True) (setStack qs)
  shown : ∀ q : Quantity, Holds (fun _ => True) (shown settings q)
  restoring : ∀ {α : Type} {R : α → Prop} {x : Eval α} {qs : List Quantity}, Holds R x →
    (∀ q ∈ qs, P q) → Holds R (restoring qs x)
  andAlways : ∀ {x : Eval PUnit}, Holds (fun _ => True) x →
    Holds (fun _ => True) (andAlways x (showTop settings))
  onFailure : ∀ {x : Eval PUnit}, Holds (fun _ => True) x →
    Holds (fun _ => True) (onFailure x (showStack settings))
  confirm : ∀ {q : Quantity}, P q → Holds P (q.confirm settings)
  storing : ∀ {q : Quantity} {measure : Measure} {refused : Failure → Eval PUnit}
    (magnitude : Magnitude) (format literal : String), P q → Quantity.Lends P measure →
      (∀ f, Holds (fun _ => True) (refused f)) →
        Holds (fun _ => True) (storing (q.valued magnitude measure format literal) refused)
  /-- The formula of a rule is evaluated by running its nodes. -/
  evalPass : ∀ {run : List Node → Eval PUnit} {seed : Quantity} {formula : String},
    settings.HasFormula formula → P seed →
      (∀ nodes, (∀ node ∈ nodes, node.Each P) → Holds (fun _ => True) (run nodes)) →
        Holds P (evalPass run seed formula)

namespace Judgement

variable {settings : Settings} {P : Quantity → Prop} (J : Judgement settings P)

/-! ## Converting -/

section

variable {formula : Formula}
  (hformula : ∀ q text, settings.HasFormula text → P q → J.Holds P (formula q text))
include hformula

theorem byRule (q : Quantity) (source target : Measure) :
    J.Holds P (q.byRule settings formula source target) := by
  rw [Quantity.byRule]
  split
  · rename_i r hr
    exact hformula _ _ ⟨r, Measure.mem_of_rule? hr, rfl⟩
      (J.makes.realIn (.inl Measure.isKnown_plain) _ q)
  · exact J.bind (J.shown q) fun _ _ => J.refuse _

theorem convertTo (q : Quantity) {target : Quantity} (htarget : P target) :
    J.Holds P (q.convertTo settings formula target) := by
  have hresult (q : Quantity) (format : String) : P (q.realIn target.measure format) :=
    J.makes.realIn (Quantity.lends_measure htarget) format q
  unfold Quantity.convertTo
  dsimp only
  split
  · exact J.refuse _
  · split
    · exact J.pure (hresult _ _)
    · exact J.bind (J.byRule hformula q _ _) fun _ _ => J.pure (hresult _ _)

theorem toRadians (q : Quantity) : J.Holds P (q.toRadians settings formula) := by
  have hresult (q : Quantity) : P (q.realIn .radians "") :=
    J.makes.realIn (.inl Measure.isKnown_radians) "" q
  rw [Quantity.toRadians]
  split
  · exact J.pure (hresult _)
  · exact J.bind (J.byRule hformula q _ _) fun _ _ => J.pure (hresult _)

theorem fromRadians (q : Quantity) : J.Holds P (q.fromRadians settings formula) := by
  rw [Quantity.fromRadians]
  split
  · exact J.pure (J.makes.realIn (.inl Measure.isKnown_radians) _ _)
  · exact J.bind (J.byRule hformula q _ _) fun _ _ =>
      J.pure (J.makes.realIn (.inl Measure.isKnown_degrees) _ _)

end

/-! ## Assignments -/

section

variable (spelling : String)

theorem targetSlot (top second : Quantity) :
    J.Holds (fun _ => True) (targetSlot spelling top second) := by
  rw [Eval.targetSlot]
  split
  · exact J.pure trivial
  · split
    · exact J.pure trivial
    · exact J.refuse _

variable (slot : Slot) {target value : Quantity} {below : List Quantity} (htarget : P target)
  (hbelow : ∀ q ∈ below, P q)
include htarget hbelow

theorem combined (combine : Option Arithmetic) (hvalue : P value) :
    J.Holds P (combined settings spelling combine slot target value below) := by
  have hinsert := forall_mem_insert slot htarget hbelow hvalue
  cases combine with
  | none => exact J.pure hvalue
  | some op =>
    refine J.bind (J.restoring (J.confirm htarget) hinsert) fun current hcurrent => ?_
    split
    · rename_i hcombine
      exact J.pure (J.makes.combine hcurrent hvalue hcombine)
    · exact J.bind (J.setStack hinsert) fun _ _ => J.refuse _

theorem assignResult {result : Quantity} (hresult : P result) :
    J.Holds (fun _ => True) (assignResult slot target result below) := by
  rw [assignResult_eq_storing]
  refine J.bind (J.setStack (List.forall_mem_cons.2 ⟨hresult, hbelow⟩)) fun _ _ => ?_
  refine J.storing _ _ _ htarget (Quantity.lends_measure hresult) fun f => ?_
  exact J.bind (J.setStack (forall_mem_insert slot htarget hbelow hresult)) fun _ _ => J.refuse f

theorem assignTo (combine : Option Arithmetic) (hvalue : P value) :
    J.Holds (fun _ => True) (assignTo settings spelling combine slot target value below) := by
  refine J.bind (J.setStack (List.forall_mem_cons.2 ⟨hvalue, hbelow⟩)) fun _ _ => ?_
  refine J.bind (J.restoring (J.confirm hvalue) (forall_mem_insert slot htarget hbelow hvalue))
    fun value hvalue => ?_
  refine J.bind (J.setStack (List.forall_mem_cons.2 ⟨hvalue, hbelow⟩)) fun _ _ => ?_
  exact J.bind (J.combined spelling slot htarget hbelow combine hvalue) fun result hresult =>
    J.assignResult slot htarget hbelow hresult

end

/-! ## Operators -/

theorem confirmAt (place : Nat) : J.Holds (fun _ => True) (confirmAt settings place) := by
  refine J.bind J.stack fun stack hstack => ?_
  split
  · rename_i q hq
    refine J.bind (J.confirm (hstack q (List.mem_of_getElem? hq))) fun q' hq' =>
      J.bind J.stack fun stack' hstack' => J.setStack fun q'' hmem => ?_
    rcases List.mem_or_eq_of_mem_set hmem with hmem | rfl
    · exact hstack' q'' hmem
    · exact hq'
  · exact J.pure trivial

theorem confirmTop (count : Nat) : J.Holds (fun _ => True) (confirmTop settings count) := by
  induction count with
  | zero => exact J.pure trivial
  | succ count ih => exact J.bind ih fun _ _ => J.confirmAt count

theorem push {qs : List Quantity} (h : ∀ q ∈ qs, P q) : J.Holds (fun _ => True) (push qs) :=
  J.bind J.stack fun _ hstack => J.setStack (List.forall_mem_append.2
    ⟨fun q hq => h q (List.mem_reverse.1 hq), hstack⟩)

section

variable {formula : Formula}
  (hformula : ∀ q text, settings.HasFormula text → P q → J.Holds P (formula q text))
include hformula

theorem perform (spelling : String) (action : Action) {stack : List Quantity}
    (h : ∀ q ∈ stack, P q) :
    J.Holds (fun _ => True) (perform settings formula spelling action stack) := by
  simp only [Eval.perform]
  split
  · -- Two operands.
    obtain ⟨hright, hleft, hbelow⟩ := by simpa only [List.forall_mem_cons] using h
    split
    · rename_i hcombine
      exact J.setStack (List.forall_mem_cons.2 ⟨J.makes.combine hleft hright hcombine, hbelow⟩)
    · exact J.refuse _
  · -- A function of one operand.
    obtain ⟨hq, hbelow⟩ := List.forall_mem_cons.1 h
    split
    · rename_i hof
      exact J.setStack (List.forall_mem_cons.2 ⟨J.makes.of hq hof, hbelow⟩)
    · exact J.refuse _
  · -- A function of an angle, which is brought to radians before.
    obtain ⟨-, hbelow⟩ := List.forall_mem_cons.1 h
    refine J.bind (J.setStack hbelow) fun _ _ => ?_
    refine J.bind (J.restoring (J.toRadians hformula _) h) fun _ _ => ?_
    exact J.setStack (List.forall_mem_cons.2
      ⟨J.makes _ _ _ _ (.inl Measure.isKnown_plain), hbelow⟩)
  · -- An angle, which is brought from radians afterwards.
    obtain ⟨-, hbelow⟩ := List.forall_mem_cons.1 h
    refine J.bind (J.setStack hbelow) fun _ _ => ?_
    refine J.bind (J.restoring (J.fromRadians hformula _) h) fun _ hq => ?_
    exact J.setStack (List.forall_mem_cons.2 ⟨hq, hbelow⟩)
  · exact J.setStack (List.forall_mem_cons.1 h).2
  · obtain ⟨htop, hsecond, hbelow⟩ := by simpa only [List.forall_mem_cons] using h
    exact J.setStack (by simpa only [List.forall_mem_cons] using ⟨hsecond, htop, hbelow⟩)
  · exact J.refuse _
  · -- A conversion into the unit of the value on top.
    obtain ⟨htarget, hq, hbelow⟩ := by simpa only [List.forall_mem_cons] using h
    refine J.bind (J.setStack (List.forall_mem_cons.2 ⟨hq, hbelow⟩)) fun _ _ => ?_
    refine J.bind (J.restoring (J.convertTo hformula _ htarget) h) fun _ hq => ?_
    exact J.setStack (List.forall_mem_cons.2 ⟨hq, hbelow⟩)
  · -- An assignment, to either of the two values on top.
    obtain ⟨htop, hsecond, hbelow⟩ := by simpa only [List.forall_mem_cons] using h
    refine J.bind (J.targetSlot _ _ _) fun slot _ => ?_
    cases slot with
    | top => exact J.assignTo _ .top htop hbelow _ hsecond
    | below => exact J.assignTo _ .below hsecond hbelow _ htop
  · exact J.pure trivial

theorem apply (o : Operator) : J.Holds (fun _ => True) (apply settings formula o) := by
  refine J.bind J.stack fun stack _ => ?_
  dsimp only
  split
  · exact J.refuse _
  · split
    · exact J.refuse _
    · exact J.bind (J.confirmTop _) fun _ _ =>
        J.andAlways (J.bind J.stack fun stack hstack => J.perform hformula _ _ hstack)

end

/-! ## Runs -/

section

variable {formula : Formula}

mutual

theorem runNode
    (hformula : ∀ q text, settings.HasFormula text → P q → J.Holds P (formula q text)) :
    (node : Node) → node.Each P → J.Holds (fun _ => True) (runNode settings formula node)
  | ⟨_, operator, prior, params, children⟩, h => by
    refine J.bind (J.push h.prior) fun _ _ => ?_
    refine J.bind (runEach hformula children h.children) fun _ _ => ?_
    refine J.bind (J.push h.params) fun _ _ => ?_
    cases operator with
    | some o => exact J.apply hformula o
    | none => exact J.pure trivial

theorem runEach
    (hformula : ∀ q text, settings.HasFormula text → P q → J.Holds P (formula q text)) :
    (nodes : List Node) → (∀ node ∈ nodes, node.Each P) →
      J.Holds (fun _ => True) (runEach settings formula nodes)
  | [], _ => J.pure trivial
  | node :: nodes, h => by
    obtain ⟨hnode, hnodes⟩ := List.forall_mem_cons.1 h
    exact J.bind (runNode hformula node hnode) fun _ _ => runEach hformula nodes hnodes

end

/-- Running a line, with whatever formulas are as they should be. -/
theorem runLine
    (hformula : ∀ q text, settings.HasFormula text → P q → J.Holds P (formula q text))
    {nodes : List Node} (h : ∀ node ∈ nodes, node.Each P) :
    J.Holds (fun _ => True) (runLine settings formula nodes) :=
  J.onFailure (J.runEach hformula nodes h)

end

/-- Formulas are as they should be, as far as they may nest. -/
theorem evalFormula (levels : Nat) {seed : Quantity} {formula : String}
    (hformula : settings.HasFormula formula) (hseed : P seed) :
    J.Holds P (evalFormula settings levels seed formula) := by
  induction levels generalizing seed formula with
  | zero => exact J.refuse _
  | succ levels ih =>
    exact J.evalPass hformula hseed fun _ hnodes =>
      J.runLine (fun _ _ htext hq => ih htext hq) hnodes

end Judgement

end Eval

end Reckoner
