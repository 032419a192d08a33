import Mathlib.Logic.Relation
import Reckoner.Proofs.Conversion.Answer
import Reckoner.Proofs.Evaluation.Success
import Reckoner.Proofs.Reading.Flattening

/-!
# Formulas within formulas

The formula of a rule may convert and deal with angles itself, so that formulas
come to be evaluated within formulas, and perhaps the same one again. Each that
is begun is a `Pass`: the depth it is reached at, what it continues, its text,
and the machine. An operator begins one at most (`Action.formula?`), and the
passes that a pass begins are listed along the tokens of its run
(`Pass.inner`). Nothing else counts for its result: whatever evaluates these
as they are evaluated gives the same one (`Pass.result_of_inner`).

What is begun within a pass is one deeper, and nothing is begun from the
greatest depth on. So passes come to an end whatever the rules are
(`Pass.comesToEnd`). A formula that is reached there is refused, and this
goes back through all passes it is within (`Pass.failsWith_of_inner`).
-/

namespace Reckoner

open Eval

/-- A formula whose evaluation is begun. -/
structure Pass where
  /-- The depth that the formula is reached at. -/
  depth : Int
  /-- The quantity that it continues. -/
  seed : Quantity
  text : String
  machine : Machine

variable {settings : Settings} {formula formula' : Formula}

/-! ## The formula of an operator -/

/-- What a formula continues that takes `q` by a rule from one unit into another, and the text of
    the formula. -/
def Quantity.ruleFormula? (settings : Settings) (q : Quantity) (source target : Measure) :
    Option (Quantity × String) :=
  (Measure.rule? settings.rules source target).map fun r => (q.realIn .plain "", r.formula)

/-- The formula that an action evaluates on the given stack, and what that continues. -/
def Action.formula? (settings : Settings) : Action → List Quantity → Option (Quantity × String)
  | .circular _, q :: _ =>
    if q.measure.isRadians || settings.angle = .rad then none
    else q.ruleFormula? settings .degrees .radians
  | .inverse f, q :: _ =>
    if settings.angle = .rad then none
    else
      Quantity.ruleFormula? settings
        { magnitude := .real (f.angle q.magnitude.toReal), format := q.format } .radians .degrees
  | .convert, target :: q :: _ =>
    if target.measure.isPlain || q.measure.sameAs target.measure then none
    else q.ruleFormula? settings q.measure target.measure
  | _, _ => none

namespace Eval

/-! ## Evaluating a formula -/

theorem restoring_map {α β : Type} (stack : List Quantity) (x : Eval α) (f : α → β) :
    restoring stack (do return f (← x)) = do return f (← restoring stack x) := by
  funext m
  simp only [restoring, bind, EStateM.bind]
  cases x m with
  | ok a m' => rfl
  | error e m' => cases e <;> rfl

/-- The step makes its result of that of the formula; or it is the same however formulas are
    evaluated. -/
def Evaluates (call : Option (Quantity × String)) (x : Formula → Eval Quantity) : Prop :=
  match call with
  | some (seed, text) =>
    ∃ finish : Quantity → Quantity, ∀ formula, x formula = do return finish (← formula seed text)
  | none => ∃ y, ∀ formula, x formula = y

theorem Evaluates.map {call : Option (Quantity × String)} {x : Formula → Eval Quantity}
    (h : Evaluates call x) (f : Quantity → Quantity) :
    Evaluates call fun formula => do return f (← x formula) := by
  match call, h with
  | some (seed, text), ⟨finish, h⟩ =>
    exact ⟨fun v => f (finish v), fun formula => by simp only [h, bind_assoc, pure_bind]⟩
  | none, ⟨y, h⟩ => exact ⟨do return f (← y), fun formula => by simp only [h]⟩

section

variable (settings : Settings) (q : Quantity)

theorem evaluates_byRule (source target : Measure) :
    Evaluates (q.ruleFormula? settings source target) fun formula =>
      q.byRule settings formula source target := by
  simp only [Quantity.ruleFormula?, Quantity.byRule]
  cases Measure.rule? settings.rules source target with
  | some r => exact ⟨id, fun formula => (bind_pure _).symm⟩
  | none => exact ⟨_, fun formula => rfl⟩

theorem evaluates_convertTo (target : Quantity) :
    Evaluates (Action.convert.formula? settings [target, q]) fun formula =>
      q.convertTo settings formula target := by
  simp only [Action.formula?, Quantity.convertTo]
  cases target.measure.isPlain with
  | true => exact ⟨_, fun formula => rfl⟩
  | false =>
    cases q.measure.sameAs target.measure with
    | true => exact ⟨_, fun formula => rfl⟩
    | false => exact (evaluates_byRule settings q _ _).map _

theorem evaluates_toRadians (f : Circular) :
    Evaluates ((Action.circular f).formula? settings [q]) fun formula =>
      q.toRadians settings formula := by
  simp only [Action.formula?, Quantity.toRadians]
  split
  · exact ⟨_, fun formula => rfl⟩
  · exact (evaluates_byRule settings q _ _).map _

theorem evaluates_fromRadians (f : Circular) :
    Evaluates ((Action.inverse f).formula? settings [q]) fun formula =>
      Quantity.fromRadians settings formula
        { magnitude := .real (f.angle q.magnitude.toReal), format := q.format } := by
  simp only [Action.formula?, Quantity.fromRadians]
  split
  · exact ⟨_, fun formula => rfl⟩
  · exact (evaluates_byRule settings _ _ _).map _

end

/-! ## Failing -/

/-- The result is a failure, said behind what had been said before, unless a value without a text
    interrupts the step. -/
def FailsWith (settings : Settings) (f : Failure) (before : List Message) {α : Type}
    (result : EStateM.Result Halt Machine α) : Prop :=
  (∃ m said, result = .error .failed m ∧ m.messages = before ++ said ∧ f.message ∈ said) ∨
    Unshown settings result

section

variable {f : Failure} {before : List Message} {m : Machine}

/-- It is also said behind nothing. -/
theorem FailsWith.weaken {α : Type} {result : EStateM.Result Halt Machine α}
    (h : FailsWith settings f before result) : FailsWith settings f [] result := by
  refine h.imp_left ?_
  rintro ⟨m', said, hresult, hmessages, hf⟩
  exact ⟨m', before ++ said, hresult, hmessages, List.mem_append_right _ hf⟩

theorem FailsWith.bind {α β : Type} {x : Eval α} (h : FailsWith settings f before (x m))
    (g : α → Eval β) : FailsWith settings f before ((x >>= g) m) := by
  rcases h with ⟨m', said, hx, hsaid⟩ | ⟨hshows, why, m', hx⟩
  · exact .inl ⟨m', said, bind_of_error hx, hsaid⟩
  · exact .inr ⟨hshows, why, m', bind_of_error hx⟩

theorem FailsWith.restoring {α : Type} {x : Eval α} (h : FailsWith settings f before (x m))
    (stack : List Quantity) : FailsWith settings f before (restoring stack x m) := by
  rcases h with ⟨m', said, hx, hsaid⟩ | ⟨hshows, why, m', hx⟩
  · exact .inl ⟨{ m' with stack := stack }, said, by rw [Eval.restoring, hx], hsaid⟩
  · exact .inr ⟨hshows, why, m', by rw [Eval.restoring, hx]⟩

theorem FailsWith.andAlways_showTop {x : Eval PUnit} (h : FailsWith settings f before (x m)) :
    FailsWith settings f before (andAlways x (showTop settings) m) := by
  have hshowTop : OnlyShows settings (showTop settings) := onlyShows_showTop
  rcases hshowTop.andAlways m with hsame | hunshown
  · rwa [hsame]
  · exact .inr hunshown

theorem FailsWith.onFailure_showStack {x : Eval PUnit} (h : FailsWith settings f before (x m)) :
    FailsWith settings f before (onFailure x (showStack settings) m) := by
  have hshowStack : OnlyShows settings (showStack settings) := onlyShows_showStack
  rcases hshowStack.onFailure m with hsame | hunshown
  · rwa [hsame]
  · exact .inr hunshown

end

/-! ## Performing actions -/

/-- The step takes the value on top off the stack, evaluates the formula, and puts the stack back
    if that fails; or it is the same however formulas are evaluated. -/
def Performs (stack : List Quantity) (call : Option (Quantity × String))
    (x : Formula → Eval PUnit) : Prop :=
  match call with
  | some (seed, text) =>
    ∃ finish : Quantity → Eval PUnit, ∀ formula : Formula, x formula = (do
      setStack (stack.drop 1)
      finish (← restoring stack (formula seed text)))
  | none => ∃ y, ∀ formula, x formula = y

theorem Evaluates.performs {call : Option (Quantity × String)} {x : Formula → Eval Quantity}
    (h : Evaluates call x) (stack : List Quantity) (finish : Quantity → Eval PUnit) :
    Performs stack call fun formula => (do
      setStack (stack.drop 1)
      finish (← restoring stack (x formula))) := by
  match call, h with
  | some (seed, text), ⟨f, h⟩ =>
    exact ⟨fun v => finish (f v), fun formula => by
      simp only [h, restoring_map, bind_assoc, pure_bind]⟩
  | none, ⟨y, h⟩ =>
    exact ⟨do setStack (stack.drop 1); finish (← restoring stack y), fun formula => by
      simp only [h]⟩

theorem performs_perform [DigitLimit] (settings : Settings) (spelling : String) (action : Action)
    (stack : List Quantity) :
    Performs stack (action.formula? settings stack) fun formula =>
      perform settings formula spelling action stack := by
  -- An action is carried out by what is on the stack, whether it has a formula or not.
  match stack with
  | [] => cases action <;> exact ⟨_, fun _ => rfl⟩
  | [q] =>
    cases action with
    | circular f => exact (evaluates_toRadians settings q f).performs [q] _
    | inverse f => exact (evaluates_fromRadians settings q f).performs [q] _
    | _ => exact ⟨_, fun _ => rfl⟩
  | top :: second :: below =>
    cases action with
    | circular f => exact (evaluates_toRadians settings top f).performs (top :: second :: below) _
    | inverse f => exact (evaluates_fromRadians settings top f).performs (top :: second :: below) _
    | convert => exact (evaluates_convertTo settings second top).performs (top :: second :: below) _
    | _ => exact ⟨_, fun _ => rfl⟩

end Eval

/-! ## Running tokens -/

variable [DigitLimit]

/-- The pass that a token begins, at the given depth. Its operands are off the stack, but for one
    that is converted. -/
def Token.pass? (settings : Settings) (depth : Int) : Token → Machine → Option Pass
  | .operand _, _ => none
  | .operator o, m =>
    if !o.action.isImplemented || m.stack.length < o.action.operands then none
    else
      match confirmTop settings o.action.confirmed m with
      | .ok _ m =>
        (o.action.formula? settings m.stack).map fun (seed, text) =>
          ⟨depth, seed, text, { m with stack := m.stack.drop 1 }⟩
      | .error .. => none

namespace Eval

/-- An operator is refused before any formula is looked for, or it performs its action, on the
    machine on which its operands have been brought up to date. -/
theorem apply_cases (settings : Settings) (depth : Int) (o : Operator) (m : Machine) :
    ((Token.operator o).pass? settings depth m = none ∧
      ∃ result, ∀ formula, apply settings formula o m = result) ∨
    ∃ m₁, (Token.operator o).pass? settings depth m =
        ((o.action.formula? settings m₁.stack).map fun (seed, text) =>
          ⟨depth, seed, text, { m₁ with stack := m₁.stack.drop 1 }⟩) ∧
      ∀ formula, apply settings formula o m =
        andAlways (perform settings formula o.spelling o.action m₁.stack) (showTop settings)
          m₁ := by
  simp only [apply_steps, Token.pass?]
  cases !o.action.isImplemented with
  | true => exact .inl ⟨rfl, _, fun formula => rfl⟩
  | false =>
    by_cases hpresent : m.stack.length < o.action.operands
    · simp only [hpresent, decide_true, Bool.or_true, if_true]
      exact .inl ⟨trivial, _, fun formula => rfl⟩
    · simp only [hpresent, decide_false, Bool.or_false, Bool.false_eq_true, if_false]
      cases hconfirm : confirmTop settings o.action.confirmed m with
      | error e m₁ => exact .inl ⟨rfl, _, fun formula => bind_of_error hconfirm⟩
      | ok _ m₁ => exact .inr ⟨m₁, rfl, fun formula => bind_of_ok hconfirm⟩

/-- A token begins no pass, and does the same however formulas are evaluated; or it begins one, and
    comes to evaluating the formula on the machine of the pass. -/
theorem runToken_cases (settings : Settings) (depth : Int) (token : Token) (m : Machine) :
    (token.pass? settings depth m = none ∧
      ∃ result, ∀ formula, runToken settings formula token m = result) ∨
    ∃ p, token.pass? settings depth m = some p ∧ p.depth = depth ∧
      ∃ (stack : List Quantity) (finish : Quantity → Eval PUnit), ∀ formula : Formula,
        runToken settings formula token m =
          andAlways (do finish (← restoring stack (formula p.seed p.text))) (showTop settings)
            p.machine := by
  cases token with
  | operand q => exact .inl ⟨rfl, _, fun formula => rfl⟩
  | operator o =>
    rcases apply_cases settings depth o m with hrefused | ⟨m₁, hpass, happly⟩
    · exact .inl hrefused
    · have hperforms := performs_perform settings o.spelling o.action m₁.stack
      rw [hpass]
      match o.action.formula? settings m₁.stack, hperforms with
      | none, ⟨y, h⟩ =>
        exact .inl ⟨rfl, andAlways y (showTop settings) m₁, fun formula =>
          (happly formula).trans (congrArg (andAlways · (showTop settings) m₁) (h formula))⟩
      | some (seed, text), ⟨finish, h⟩ =>
        exact .inr ⟨_, rfl, rfl, m₁.stack, finish, fun formula =>
          (happly formula).trans (congrArg (andAlways · (showTop settings) m₁) (h formula))⟩

/-! ## Runs -/

/-- The passes that a run of tokens begins, at the given depth. -/
def passes (settings : Settings) (depth : Int) (formula : Formula) :
    List Token → Machine → List Pass
  | [], _ => []
  | token :: tokens, m =>
    (token.pass? settings depth m).toList ++
      match runToken settings formula token m with
      | .ok _ m => passes settings depth formula tokens m
      | .error .. => []

section

variable {depth : Int} {p : Pass} {tokens : List Token} {m : Machine}

theorem mem_passes_cons {token : Token} :
    p ∈ passes settings depth formula (token :: tokens) m ↔
      token.pass? settings depth m = some p ∨
        ∃ m', runToken settings formula token m = .ok ⟨⟩ m' ∧
          p ∈ passes settings depth formula tokens m' := by
  rw [passes, List.mem_append, Option.mem_toList]
  refine or_congr_right ?_
  cases runToken settings formula token m with
  | ok _ m' => exact ⟨fun h => ⟨m', rfl, h⟩, fun ⟨_, hm, h⟩ => by cases hm; exact h⟩
  | error e m' => exact ⟨nofun, fun ⟨_, hm, _⟩ => nomatch hm⟩

theorem depth_of_mem_passes (h : p ∈ passes settings depth formula tokens m) : p.depth = depth := by
  induction tokens generalizing m with
  | nil => cases h
  | cons token tokens ih =>
    rcases mem_passes_cons.1 h with hpass | ⟨m', -, hp⟩
    · rcases runToken_cases settings depth token m with ⟨hnone, -⟩ | ⟨p', hsome, hdepth, -⟩
      · rw [hnone] at hpass
        cases hpass
      · rw [hsome] at hpass
        cases hpass
        exact hdepth
    · exact ih hp

theorem runToken_congr {token : Token}
    (h : ∀ p, token.pass? settings depth m = some p →
      formula' p.seed p.text p.machine = formula p.seed p.text p.machine) :
    runToken settings formula' token m = runToken settings formula token m := by
  rcases runToken_cases settings depth token m with ⟨-, result, hrun⟩ | ⟨p, hpass, -, hrun⟩
  · rw [hrun, hrun]
  · obtain ⟨stack, finish, hrun⟩ := hrun
    have hrestoring : restoring stack (formula' p.seed p.text) p.machine =
        restoring stack (formula p.seed p.text) p.machine := by
      rw [Eval.restoring, Eval.restoring, h p hpass]
    have hfinish := bind_eq_of_ok (f := finish) hrestoring fun _ _ _ => rfl
    rw [hrun, hrun, andAlways, andAlways, hfinish]

/-- A run is the same however formulas are evaluated, as long as those that it begins are
    evaluated alike. -/
theorem runTokens_congr
    (h : ∀ p ∈ passes settings depth formula tokens m,
      formula' p.seed p.text p.machine = formula p.seed p.text p.machine) :
    runTokens settings formula' tokens m = runTokens settings formula tokens m := by
  induction tokens generalizing m with
  | nil => rfl
  | cons token tokens ih =>
    have htoken : runToken settings formula' token m = runToken settings formula token m :=
      runToken_congr fun p hp => h p (mem_passes_cons.2 (.inl hp))
    refine bind_eq_of_ok htoken fun _ m' hm' => ih fun p hp => h p ?_
    exact mem_passes_cons.2 (.inr ⟨m', htoken ▸ hm', hp⟩)

/-- A run in which a formula fails does not come to its end. -/
theorem failsWith_runTokens {f : Failure} (hp : p ∈ passes settings depth formula tokens m)
    (h : FailsWith settings f [] (formula p.seed p.text p.machine)) :
    FailsWith settings f [] (runTokens settings formula tokens m) := by
  induction tokens generalizing m with
  | nil => cases hp
  | cons token tokens ih =>
    rcases mem_passes_cons.1 hp with hpass | ⟨m', hm', hp⟩
    · refine FailsWith.bind ?_ _
      rcases runToken_cases settings depth token m with ⟨hnone, -⟩ | ⟨p', hsome, -, hrun⟩
      · rw [hnone] at hpass
        cases hpass
      · rw [hsome] at hpass
        cases hpass
        obtain ⟨stack, finish, hrun⟩ := hrun
        rw [hrun]
        exact ((h.restoring stack).bind finish).andAlways_showTop
    · rw [runTokens, bind_of_ok hm']
      exact ih hp

/-! ## Lines and formulas -/

/-- What a run has said is passed on behind what had been said before the formula. -/
theorem FailsWith.evalPass {f : Failure} {run : List Node → Eval PUnit} {seed : Quantity}
    {text : String} {nodes : List Node} {reader : Reader}
    (hread : Node.readText (some seed) ⟨text.toList, m.store, []⟩ = (.ok nodes, reader))
    (h : FailsWith settings f []
      (run nodes { m with stack := [], store := reader.store, messages := reader.messages })) :
    FailsWith settings f m.messages (evalPass run seed text m) := by
  rcases h with ⟨after, said, hrun, hsaid, hf⟩ | ⟨hshows, why, after, hrun⟩
  · refine .inl ⟨{ after with stack := m.stack, messages := m.messages ++ said }, said, ?_, rfl, hf⟩
    rw [Eval.evalPass, hread]
    dsimp only
    rw [hrun, ← List.nil_append said, ← hsaid]
  · refine .inr ⟨hshows, why, { after with stack := m.stack, messages := m.messages }, ?_⟩
    rw [Eval.evalPass, hread]
    dsimp only
    rw [hrun]

theorem evalPass_congr {run run' : List Node → Eval PUnit} {seed : Quantity} {text : String}
    (h : ∀ nodes reader,
      Node.readText (some seed) ⟨text.toList, m.store, []⟩ = (.ok nodes, reader) →
        run nodes { m with stack := [], store := reader.store, messages := reader.messages } =
          run' nodes { m with stack := [], store := reader.store, messages := reader.messages }) :
    evalPass run seed text m = evalPass run' seed text m := by
  unfold evalPass
  split
  · rfl
  · rfl
  · rename_i hread
    dsimp only
    rw [h _ _ hread]

end

end Eval

/-! ## Depths -/

namespace Settings

/-- How formulas are evaluated at the given depth, by how they are one deeper. -/
def formulaAbove (settings : Settings) (formula : Formula) (depth : Int) : Formula :=
  if settings.maxDepth ≤ depth then fun _ _ => refuse (.formulaTooDeep settings.maxDepth)
  else evalPass (runLine settings formula)

theorem formulaAt_eq (settings : Settings) (depth : Int) :
    settings.formulaAt depth = settings.formulaAbove (settings.formulaAt (depth + 1)) depth := by
  rw [formulaAbove]
  split
  · rename_i h
    have hnone : settings.levelsBelow depth = 0 := by rw [levelsBelow]; omega
    rw [formulaAt, hnone]
    rfl
  · rename_i h
    have hone : settings.levelsBelow depth = settings.levelsBelow (depth + 1) + 1 := by
      rw [levelsBelow, levelsBelow]
      omega
    rw [formulaAt, hone]
    rfl

end Settings

/-! ## Passes -/

namespace Pass

/-- What evaluating the formula comes to. -/
def result (settings : Settings) (p : Pass) : EStateM.Result Halt Machine Quantity :=
  settings.formulaAt p.depth p.seed p.text p.machine

/-- What the text is read into. -/
def reading (p : Pass) : Except Halt (List Node) × Reader :=
  Node.readText (some p.seed) ⟨p.text.toList, p.machine.store, []⟩

/-- The machine on which the nodes are run. -/
def begun (p : Pass) (reader : Reader) : Machine :=
  { p.machine with stack := [], store := reader.store, messages := reader.messages }

/-- The depth of the evaluator that runs the nodes, if it comes to that. -/
def evaluator? (settings : Settings) (p : Pass) : Option Int :=
  if settings.maxDepth ≤ p.depth then none else p.reading.1.toOption.map fun _ => p.depth + 1

/-- The passes that a pass begins by itself. -/
def inner (settings : Settings) (p : Pass) : List Pass :=
  match p.evaluator? settings, p.reading with
  | some depth, (.ok nodes, reader) =>
    passes settings depth (settings.formulaAt depth) (Node.flattenEach nodes) (p.begun reader)
  | _, _ => []

/-- A pass, or one within it. -/
def Within (settings : Settings) : Pass → Pass → Prop :=
  Relation.ReflTransGen fun p q => q ∈ p.inner settings

/-- The pass fails and says so, unless a value without a text interrupts it. -/
def FailsWith (settings : Settings) (f : Failure) (p : Pass) : Prop :=
  Eval.FailsWith settings f p.machine.messages (p.result settings)

variable {p q : Pass}

theorem evaluator?_eq_some {depth : Int} :
    p.evaluator? settings = some depth ↔
      p.depth < settings.maxDepth ∧ p.reading.1.isOk = true ∧ depth = p.depth + 1 := by
  rw [evaluator?]
  split
  · rename_i h
    exact ⟨nofun, fun h' => absurd h (Int.not_le.2 h'.1)⟩
  · rename_i h
    have hdepth := Int.not_le.1 h
    cases p.reading.1 with
    | error _ => exact ⟨nofun, fun h' => nomatch h'.2.1⟩
    | ok nodes =>
      exact ⟨fun h' => ⟨hdepth, rfl, (Option.some.inj h').symm⟩, fun h' => h'.2.2 ▸ rfl⟩

theorem mem_inner :
    q ∈ p.inner settings ↔
      p.depth < settings.maxDepth ∧ ∃ nodes reader, p.reading = (.ok nodes, reader) ∧
        q ∈ passes settings (p.depth + 1) (settings.formulaAt (p.depth + 1))
          (Node.flattenEach nodes) (p.begun reader) := by
  rw [inner]
  constructor
  · intro h
    split at h
    · rename_i depth nodes reader hevaluator hreading
      obtain ⟨hdepth, -, rfl⟩ := evaluator?_eq_some.1 hevaluator
      exact ⟨hdepth, nodes, reader, hreading, h⟩
    · cases h
  · rintro ⟨hdepth, nodes, reader, hreading, h⟩
    have hevaluator : p.evaluator? settings = some (p.depth + 1) :=
      evaluator?_eq_some.2 ⟨hdepth, by rw [hreading]; rfl, rfl⟩
    rw [hevaluator, hreading]
    exact h

/-- What is begun within a pass is one deeper. -/
theorem depth_of_mem_inner (h : q ∈ p.inner settings) :
    p.depth < settings.maxDepth ∧ q.depth = p.depth + 1 := by
  obtain ⟨hdepth, nodes, reader, -, hq⟩ := mem_inner.1 h
  exact ⟨hdepth, depth_of_mem_passes hq⟩

/-- The result of a pass is made of those of the passes that it begins, and of nothing else. -/
theorem result_of_inner
    (h : ∀ q ∈ p.inner settings, formula q.seed q.text q.machine = q.result settings) :
    settings.formulaAbove formula p.depth p.seed p.text p.machine = p.result settings := by
  rw [result, Settings.formulaAt_eq, Settings.formulaAbove, Settings.formulaAbove]
  split
  · rfl
  · rename_i hdepth
    refine evalPass_congr fun nodes reader hread => ?_
    have halike : ∀ q ∈ passes settings (p.depth + 1) (settings.formulaAt (p.depth + 1))
        (Node.flattenEach nodes) (p.begun reader),
        formula q.seed q.text q.machine =
          settings.formulaAt (p.depth + 1) q.seed q.text q.machine := by
      intro q hq
      have hinner := mem_inner.2 ⟨Int.not_le.1 hdepth, nodes, reader, hread, hq⟩
      rw [h q hinner, result, (depth_of_mem_inner hinner).2]
    have hruns := runTokens_congr halike
    rw [begun] at hruns
    rw [runLine, runLine, onFailure, onFailure, runEach_eq, runEach_eq, hruns]

/-- A pass fails if one does that it begins, and passes the message on. -/
theorem failsWith_of_inner {f : Failure} (hq : q ∈ p.inner settings)
    (h : q.FailsWith settings f) : p.FailsWith settings f := by
  obtain ⟨hdepth, nodes, reader, hread, hpass⟩ := mem_inner.1 hq
  have hformula : Eval.FailsWith settings f []
      (settings.formulaAt (p.depth + 1) q.seed q.text q.machine) := by
    rw [← (depth_of_mem_inner hq).2]
    exact h.weaken
  have hrun : Eval.FailsWith settings f []
      (runLine settings (settings.formulaAt (p.depth + 1)) nodes (p.begun reader)) := by
    refine FailsWith.onFailure_showStack ?_
    rw [runEach_eq]
    exact failsWith_runTokens hpass hformula
  rw [FailsWith, result, Settings.formulaAt_eq, Settings.formulaAbove,
    if_neg (Int.not_le.2 hdepth)]
  exact .evalPass hread hrun

/-! ## The end -/

/-- From the greatest depth on, a formula is refused. -/
theorem result_of_le (h : settings.maxDepth ≤ p.depth) :
    p.result settings =
      .error .failed (p.machine.saying (.formulaTooDeep settings.maxDepth)) := by
  rw [result, Settings.formulaAt_eq, Settings.formulaAbove, if_pos h]
  rfl

/-- Each pass leaves fewer levels to those within it. -/
theorem acc_inner (settings : Settings) (p : Pass) : Acc (fun q p => q ∈ p.inner settings) p := by
  let levels := measure fun p : Pass => settings.levelsBelow p.depth
  have hless : Subrelation (fun q p => q ∈ p.inner settings) levels.rel := by
    intro q p h
    obtain ⟨hlt, hdepth⟩ := depth_of_mem_inner h
    change settings.levelsBelow q.depth < settings.levelsBelow p.depth
    rw [Settings.levelsBelow, Settings.levelsBelow]
    omega
  exact (hless.wf levels.wf).apply p

theorem determined_of_within (formulaAt : Int → Formula)
    (h : ∀ q, Within settings p q → formulaAt q.depth q.seed q.text q.machine =
      settings.formulaAbove (formulaAt (q.depth + 1)) q.depth q.seed q.text q.machine) :
    formulaAt p.depth p.seed p.text p.machine = p.result settings := by
  induction acc_inner settings p with
  | intro p _ ih =>
    refine (h p .refl).trans (result_of_inner fun q hq => ?_)
    rw [← (depth_of_mem_inner hq).2]
    exact ih q hq fun r hr => h r (hr.head hq)

theorem failsWith_of_within {f : Failure} (hq : Within settings p q) (h : q.FailsWith settings f) :
    p.FailsWith settings f := by
  induction hq using Relation.ReflTransGen.head_induction_on with
  | refl => exact h
  | head hinner _ ih => exact failsWith_of_inner hinner ih

/-- What comes of a pass, and of those within it. -/
structure ComesToEnd (settings : Settings) (p : Pass) : Prop where
  /-- There is no endless chain of passes, each within the one before. -/
  ends : Acc (fun q p => q ∈ p.inner settings) p
  /-- Whatever evaluates formulas, each by those one deeper, comes to the result of the pass if it
      does so for the passes within it. -/
  determined : ∀ formulaAt : Int → Formula,
    (∀ q, Within settings p q → formulaAt q.depth q.seed q.text q.machine =
      settings.formulaAbove (formulaAt (q.depth + 1)) q.depth q.seed q.text q.machine) →
    formulaAt p.depth p.seed p.text p.machine = p.result settings
  /-- No evaluator within the pass is deeper than allowed. -/
  evaluators : ∀ q, Within settings p q → ∀ depth ∈ q.evaluator? settings, depth ≤ settings.maxDepth
  /-- A formula that is reached at the greatest depth or deeper is refused, and all passes that it
      is within fail for that. -/
  refusal : ∀ q, Within settings p q → settings.maxDepth ≤ q.depth →
    ∃ f : Failure, f.kind = .conversionNotSupported ∧
      q.result settings = .error .failed (q.machine.saying f) ∧
      ∀ r, Within settings r q → r.FailsWith settings f

/-- Whatever the rules are, each formula comes to an end at each depth. -/
theorem comesToEnd (settings : Settings) (p : Pass) : p.ComesToEnd settings where
  ends := acc_inner settings p
  determined := determined_of_within
  evaluators q _ depth hdepth := by
    obtain ⟨hlt, -, rfl⟩ := evaluator?_eq_some.1 hdepth
    exact hlt
  refusal q _ hdepth := by
    have hresult := result_of_le hdepth
    have hfails : q.FailsWith settings (.formulaTooDeep settings.maxDepth) :=
      .inl ⟨_, _, hresult, rfl, List.mem_singleton_self _⟩
    exact ⟨_, rfl, hresult, fun r hr => failsWith_of_within hr hfails⟩

end Pass

end Reckoner
