import Reckoner.Proofs.Conversion.Chain
import Reckoner.Proofs.Phrase.Running

/-!
# What a conversion answers

A conversion evaluates a line of the language on the store of the session, with
whatever user there is. All the same its answer depends on nothing but the
quantity and the target: where the store holds the constants, the line is read
into the same nodes (`Chain.readText_text`), all its values are known, and it does
not divide by zero (`Measure.Rule.isDefined_chain`), so that it runs to the same
value whatever else there is (`Chain.evalFormula_eq`).

Main statement (`Quantity.convertTo_answers`): a conversion succeeds just if the
units are the same or there is a rule. Its result is bare, nothing is said and
nothing is changed; a refusal is one error message and nothing else.
-/

namespace Reckoner

open Eval

variable {settings : Settings} {formula : Formula}

/-! ## Running chains -/

namespace Link

/-- The value of what is before a sign, taken together with its operand. -/
def value? (l : Link) (left : Quantity) : Option Quantity :=
  l.sign.arithmetic.combine left l.operand.quantity

/-- The sign does not divide by zero. -/
def isDefined (l : Link) : Bool :=
  !(l.sign.arithmetic.divides && l.operand.quantity.magnitude.isZero)

theorem exists_value (l : Link) (h : l.isDefined = true) (left : Quantity) :
    ∃ v, l.value? left = some v ∧ v.IsSettled := by
  rw [value?, Arithmetic.combine]
  cases hm : l.sign.arithmetic.apply left.magnitude l.operand.quantity.magnitude with
  | some m => exact ⟨_, rfl, rfl⟩
  | none =>
    have hzero := (Arithmetic.apply_eq_none_iff _ _ _).1 hm
    simp [isDefined, hzero] at h

variable [DigitLimit]

theorem runNode_node (l : Link) (prior : List Quantity) :
    runNode settings formula (l.node prior) = (do
      push prior
      push [l.operand.quantity]
      apply settings formula l.sign.entry) := by
  simp only [node, runNode, runEach, pure_bind]

/-- On a settled value, a sign leaves the value of both. -/
theorem alike_run (settings : Settings) (formula : Formula) (l : Link) {left v : Quantity}
    (hleft : left.IsSettled) (hv : l.value? left = some v) :
    Alike settings
      (do
        push [left]
        push [l.operand.quantity]
        apply settings formula l.sign.entry)
      (push [v]) := by
  have heval : l.sign.operator.eval left l.operand.quantity = pure v := by
    change l.sign.operator.arithmetic.combine left l.operand.quantity = some v at hv
    rw [BinaryOperator.eval, hv]
  refine (l.sign.operator.alike_apply hleft l.operand.isSettled_quantity).trans ?_
  rw [heval, pure_bind]
  exact .refl _

end Link

namespace Chain

variable [DigitLimit]

/-- A chain that does not divide by zero leaves one value in place of that which it
    continues. -/
theorem alike_run (settings : Settings) (formula : Formula) (c : Chain)
    (h : ∀ l ∈ c, l.isDefined = true) {left : Quantity} (hleft : left.IsSettled) :
    ∃ v, Alike settings
      (do
        push [left]
        runEach settings formula (c.map (Link.node [])))
      (push [v]) := by
  induction c generalizing left with
  | nil => exact ⟨left, .of_eq (bind_pure_unit ..)⟩
  | cons l c ih =>
    obtain ⟨hl, hc⟩ := List.forall_mem_cons.1 h
    -- The first sign leaves a value that nobody has to be asked for.
    obtain ⟨mid, hmid, hsettled⟩ := l.exists_value hl left
    obtain ⟨v, hrest⟩ := ih hc hsettled
    refine ⟨v, Alike.trans ?_ hrest⟩
    have hlink := (l.alike_run settings formula hleft hmid).bind
      fun _ => .refl (runEach settings formula (c.map (Link.node [])))
    simpa only [List.map_cons, runEach, l.runNode_node, push_nil, pure_bind, bind_assoc] using hlink

theorem runEach_nodes (c : Chain) (seed : Quantity) :
    runEach settings formula (nodes seed c) = (do
      push [seed]
      runEach settings formula (c.map (Link.node []))) := by
  cases c with
  | nil =>
    simp only [nodes, Node.seeded, runEach_singleton, runNode, runEach, push_nil, pure_bind,
      List.map_nil]
  | cons l c =>
    simp only [nodes, List.map_cons, runEach, l.runNode_node, push_nil, pure_bind, bind_assoc]

section

variable (hshows : settings.ShowsReals)
include hshows

/-- What the line of a chain leaves on the stack is the same on all machines. -/
theorem runLine_nodes (formula : Formula) (c : Chain) (h : ∀ l ∈ c, l.isDefined = true)
    {seed : Quantity} (hseed : seed.IsSettled) :
    ∃ v, ∀ m : Machine, runLine settings formula (nodes seed c) m =
      .ok ⟨⟩ { m with stack := v :: m.stack } := by
  obtain ⟨v, hv⟩ := alike_run settings formula c h hseed
  refine ⟨v, fun m => ?_⟩
  rw [runLine, onFailure_showStack hshows, runEach_nodes]
  exact ((hv m).resolve_right fun hm => hm.1 hshows).eq_ok

/-- A formula that is a chain has the same value on all machines, and changes none
    of them. -/
theorem evalFormula_eq (c : Chain) (h : ∀ l ∈ c, l.isDefined = true) {text : String}
    (htext : Chain.text c = text.toList) {seed : Quantity} (hseed : seed.IsSettled) (levels : Nat) :
    ∃ v, ∀ m : Machine, m.store.HoldsConstants →
      evalFormula settings (levels + 1) seed text m = .ok v m := by
  obtain ⟨v, hv⟩ := runLine_nodes hshows (evalFormula settings levels) c h hseed
  refine ⟨v, fun m hm => ?_⟩
  have hread : Node.readText (some seed) ⟨text.toList, m.store, []⟩ =
      (.ok (nodes seed c), ⟨[], m.store, []⟩) := by
    rw [← htext]
    exact readText_text hm seed c
  simp only [evalFormula, evalPass, hread, hv]

end

end Chain

/-! ## Rules -/

/-- No formula divides by zero. -/
theorem Measure.Rule.isDefined_chain : ∀ r ∈ table, ∀ l ∈ r.chain, l.isDefined = true := by
  decide +kernel

theorem Settings.levelsBelow_eq_succ {depth : Int} (h : depth < settings.maxDepth) :
    ∃ levels, settings.levelsBelow depth = levels + 1 :=
  Nat.exists_eq_add_one.2 (by rw [levelsBelow]; omega)

/-! ## Conversions -/

/-- The machine with the message of a failure behind those it has. -/
def Machine.saying (m : Machine) (f : Failure) : Machine :=
  { m with messages := m.messages ++ [f.message] }

namespace Quantity

/-- The units are the same, or there is a rule from one into the other. -/
def IsConvertibleTo (settings : Settings) (q target : Quantity) : Prop :=
  q.measure.sameAs target.measure = true ∨
    (Measure.rule? settings.rules q.measure target.measure).isSome = true

/-- A bare real number in the unit of the target, and in its format or else in that
    of the quantity. -/
def IsConversionOf (q target v : Quantity) : Prop :=
  ∃ x : Float, v =
    { magnitude := .real x
      measure := target.measure
      format := firstFormat target.format q.format }

section

variable [DigitLimit]

/-- What a conversion answers depends on the quantity and the target only, on all
    machines whose store holds the constants. -/
structure ConvertsOnItsOwn (settings : Settings) (depth : Int) (q target : Quantity) : Prop where
  /-- It succeeds where there is a way. -/
  succeeds_iff {m : Machine} (hm : m.store.HoldsConstants) :
    (∃ v m', q.convertTo settings (settings.formulaAt depth) target m = .ok v m') ↔
      q.IsConvertibleTo settings target
  /-- Then it says nothing, asks nothing and changes nothing. -/
  result {m m' : Machine} {v : Quantity} (hm : m.store.HoldsConstants)
    (h : q.convertTo settings (settings.formulaAt depth) target m = .ok v m') :
    IsConversionOf q target v ∧ m' = m
  /-- Otherwise one error message is all that it leaves. -/
  refusal {m m' : Machine} {e : Halt} (hm : m.store.HoldsConstants)
    (h : q.convertTo settings (settings.formulaAt depth) target m = .error e m') :
    e = .failed ∧ ∃ f : Failure, f.kind = .conversionNotSupported ∧ m' = m.saying f
  /-- On two machines, the answer is the same, and so is the message. -/
  alike {m₁ m₂ : Machine} (h₁ : m₁.store.HoldsConstants) (h₂ : m₂.store.HoldsConstants) :
    (∃ v, q.convertTo settings (settings.formulaAt depth) target m₁ = .ok v m₁ ∧
        q.convertTo settings (settings.formulaAt depth) target m₂ = .ok v m₂) ∨
      ∃ f : Failure,
        q.convertTo settings (settings.formulaAt depth) target m₁ = .error .failed (m₁.saying f) ∧
        q.convertTo settings (settings.formulaAt depth) target m₂ = .error .failed (m₂.saying f)

section

variable {depth : Int} {q target : Quantity}

/-- Where there is a way, the value is the same on all machines. -/
theorem convertTo_eq_ok (hshows : settings.ShowsReals)
    (hrules : settings.rules = Measure.Rule.table) (hdepth : depth < settings.maxDepth)
    (htarget : target.measure.isPlain = false) (h : q.IsConvertibleTo settings target) :
    ∃ v, IsConversionOf q target v ∧ ∀ m : Machine, m.store.HoldsConstants →
      q.convertTo settings (settings.formulaAt depth) target m = .ok v m := by
  by_cases hsame : q.measure.sameAs target.measure = true
  · refine ⟨q.realIn target.measure (firstFormat target.format q.format), ⟨_, rfl⟩, fun m _ => ?_⟩
    simp only [convertTo, htarget, hsame, Bool.false_eq_true, if_false, if_true]
    rfl
  · obtain ⟨r, hr⟩ := Option.isSome_iff_exists.1 (h.resolve_left hsame)
    have hmem : r ∈ Measure.Rule.table := hrules ▸ Measure.mem_of_rule? hr
    obtain ⟨levels, hlevels⟩ := settings.levelsBelow_eq_succ hdepth
    have hseed : (q.realIn .plain "").IsSettled := rfl
    obtain ⟨v, hv⟩ := Chain.evalFormula_eq hshows r.chain (r.isDefined_chain hmem)
      (r.text_chain hmem) hseed levels
    refine ⟨v.realIn target.measure (firstFormat target.format q.format), ⟨_, rfl⟩, fun m hm => ?_⟩
    have hrule : q.byRule settings (settings.formulaAt depth) q.measure target.measure m =
        .ok v m := by
      rw [byRule, hr, Settings.formulaAt, hlevels]
      exact hv m hm
    simp only [convertTo, htarget, hsame, Bool.false_eq_true, if_false]
    exact bind_of_ok hrule

/-- Where there is none, the refusal is. -/
theorem convertTo_eq_error (depth : Int) (hshows : settings.ShowsReals)
    (htarget : target.measure.isPlain = false) (h : ¬q.IsConvertibleTo settings target) :
    ∃ f : Failure, f.kind = .conversionNotSupported ∧ ∀ m : Machine,
      q.convertTo settings (settings.formulaAt depth) target m = .error .failed (m.saying f) := by
  obtain ⟨hsame, hrule⟩ := not_or.1 h
  obtain ⟨text, htext⟩ := q.text_eq_ok hshows
  let unit := if target.measure.display == "" then target.measure.key else target.measure.display
  refine ⟨.noConversion text unit, rfl, fun m => ?_⟩
  have hshown : shown settings q m = .ok text m := by
    rw [shown, htext]
    rfl
  have hrefused : q.byRule settings (settings.formulaAt depth) q.measure target.measure m =
      .error .failed (m.saying (.noConversion text unit)) := by
    rw [byRule, Option.not_isSome_iff_eq_none.1 hrule]
    exact bind_of_ok hshown
  simp only [convertTo, htarget, hsame, Bool.false_eq_true, if_false]
  exact bind_of_error hrefused

/-- A conversion into a unit, wherever formulas are evaluated at all, depends on
    nothing but its operands. -/
theorem convertTo_answers (hshows : settings.ShowsReals)
    (hrules : settings.rules = Measure.Rule.table) (hdepth : depth < settings.maxDepth)
    (q : Quantity) (htarget : target.measure.isPlain = false) :
    q.ConvertsOnItsOwn settings depth target := by
  by_cases hway : q.IsConvertibleTo settings target
  · obtain ⟨v, hv, hrun⟩ := convertTo_eq_ok hshows hrules hdepth htarget hway
    refine ⟨fun hm => ?_, fun hm h => ?_, fun hm h => ?_, fun h₁ h₂ => ?_⟩
    · exact ⟨fun _ => hway, fun _ => ⟨v, _, hrun _ hm⟩⟩
    · rw [hrun _ hm] at h
      cases h
      exact ⟨hv, rfl⟩
    · rw [hrun _ hm] at h
      cases h
    · exact .inl ⟨v, hrun _ h₁, hrun _ h₂⟩
  · obtain ⟨f, hf, hrun⟩ := convertTo_eq_error depth hshows htarget hway
    refine ⟨fun hm => ⟨?_, fun h => absurd h hway⟩, fun hm h => ?_, fun hm h => ?_, fun h₁ h₂ => ?_⟩
    · rintro ⟨v, m', h⟩
      rw [hrun] at h
      cases h
    · rw [hrun] at h
      cases h
    · rw [hrun] at h
      cases h
      exact ⟨rfl, f, hf, rfl⟩
    · exact .inr ⟨f, hrun _, hrun _⟩

end

end

/-- A right angle is as many radians for a user who has given `F` a value as it is
    where nobody can be asked. -/
theorem right_angle_alike :
    let rightAngle : Quantity := { magnitude := .whole 90, measure := .degrees }
    let target : Quantity := { magnitude := .whole 0, measure := .radians }
    let m₁ : Machine :=
      ⟨[], Store.initial.put ⟨Store.kept { target with name := "F" }, ""⟩, [], some [], []⟩
    let m₂ : Machine := ⟨[], Store.initial, [], none, []⟩
    ∃ v, rightAngle.convertTo .default (Settings.default.formulaAt 0) target m₁ = .ok v m₁ ∧
      rightAngle.convertTo .default (Settings.default.formulaAt 0) target m₂ = .ok v m₂ := by
  intro rightAngle target m₁ m₂
  have hanswers : rightAngle.ConvertsOnItsOwn .default 0 target :=
    convertTo_answers Settings.showsReals_default rfl (by decide) rightAngle rfl
  have h₁ : m₁.store.HoldsConstants := by
    intro c hc
    simp only [Constant.table, List.mem_cons, List.not_mem_nil, or_false] at hc
    rcases hc with rfl | rfl <;> rfl
  have h₂ : m₂.store.HoldsConstants := Store.holdsConstants_initial
  obtain ⟨v, m, hrun⟩ := (hanswers.succeeds_iff h₁).2 (.inr (by decide))
  rcases hanswers.alike h₁ h₂ with hv | ⟨f, hf, -⟩
  · exact hv
  · rw [hrun] at hf
    cases hf

end Quantity

end Reckoner
