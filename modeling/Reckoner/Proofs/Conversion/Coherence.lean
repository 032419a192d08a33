import Mathlib.Data.Rat.Cast.Lemmas
import Mathlib.Tactic.Ring
import Reckoner.Proofs.Conversion.Exact

/-!
# The rules agree with one another

Computed exactly, the rules of a dimension all come from one scale per unit
(`Measure.scaleOf`): a unit is measured in a common unit of its dimension, by a
rational factor, a power of `pi` and a shift. What a rule makes of a number is then
the same amount of that common unit (`Measure.Rule.carries`), and so is what any
path of rules makes of it (`Measure.Rule.Leads.carries`). As a scale takes no two
numbers to the same amount, all paths from one unit to another agree.

Main statement (`Measure.Rule.along_coherent`): a path always leads to a number; if
it leads back, to the one it began with; and if there is a direct rule, to the one
which that gives.
-/

namespace Reckoner

/-! ## Scales -/

/-- A linear function of a number, whose slope may have a power of `pi` in it. -/
structure Scale where
  factor : ℚ
  /-- The power of `pi`. -/
  power : ℤ
  shift : ℚ
deriving DecidableEq

namespace Scale

/-- The number itself. -/
def one : Scale := ⟨1, 0, 0⟩

/-- So many times the number. -/
def times (factor : ℚ) : Scale := ⟨factor, 0, 0⟩

/-- The second function after the first one, where it is of the same kind. -/
def after? (g f : Scale) : Option Scale :=
  if f.shift = 0 ∨ g.power = 0 then
    some ⟨g.factor * f.factor, g.power + f.power, g.factor * f.shift + g.shift⟩
  else none

/-- The function followed by a sign and a rational number. -/
def step? (s : Scale) (q : ℚ) : Sign → Option Scale
  | .plus => some { s with shift := s.shift + q }
  | .minus => some { s with shift := s.shift - q }
  | .times => some ⟨s.factor * q, s.power, s.shift * q⟩
  | .slash => if q = 0 then none else some ⟨s.factor / q, s.power, s.shift / q⟩

/-- The function, if it has no shift, followed by a sign and `pi`. -/
def stepPi? (s : Scale) : Sign → Option Scale
  | .times => if s.shift = 0 then some { s with power := s.power + 1 } else none
  | .slash => if s.shift = 0 then some { s with power := s.power - 1 } else none
  | _ => none

variable {K : Type*} [Field K] [CharZero K] {pi : K}

/-- The value of the function at a number. -/
def value (pi : K) (s : Scale) (x : K) : K :=
  s.factor * pi ^ s.power * x + s.shift

omit [CharZero K] in
theorem value_one (pi x : K) : one.value pi x = x := by
  simp [value, one]

theorem value_after (hpi : pi ≠ 0) {f g h : Scale} (hafter : g.after? f = some h) (x : K) :
    h.value pi x = g.value pi (f.value pi x) := by
  rw [after?] at hafter
  split at hafter
  · rename_i hshift
    cases hafter
    simp only [value]
    push_cast
    rw [zpow_add₀ hpi]
    -- Either there is no shift that the second slope could turn into a multiple of
    -- `pi`, or that slope is rational.
    rcases hshift with hf | hg
    · simp only [hf, Rat.cast_zero]
      ring
    · simp only [hg, zpow_zero]
      ring
  · cases hafter

/-- No two numbers have the same value. -/
theorem value_injective (hpi : pi ≠ 0) {s : Scale} (hs : s.factor ≠ 0) :
    Function.Injective (s.value pi) := by
  intro x y hxy
  have hslope : (s.factor : K) * pi ^ s.power ≠ 0 :=
    mul_ne_zero (Rat.cast_ne_zero.2 hs) (zpow_ne_zero _ hpi)
  exact mul_left_cancel₀ hslope (add_right_cancel hxy)

end Scale

/-! ## Chains as scales -/

section

variable {K : Type*} [Field K] [CharZero K]

theorem Numeral.cast_exact (n : Numeral) : ((n.exact : ℚ) : K) = n.exact := by
  rw [exact, exact]
  split <;> simp

variable [DecidableEq K] {pi : K} {values : String → Option K} {s s' : Scale} {sign : Sign}

theorem Scale.exactValue?_of_step {q : ℚ} (h : s.step? q sign = some s') (x : K) :
    sign.arithmetic.exactValue? (s.value pi x) (q : K) = some (s'.value pi x) := by
  cases sign with
  | plus =>
    cases h
    exact congrArg some (by simp only [value, Rat.cast_add]; ring)
  | minus =>
    cases h
    exact congrArg some (by simp only [value, Rat.cast_sub]; ring)
  | times =>
    cases h
    exact congrArg some (by simp only [value, Rat.cast_mul]; ring)
  | slash =>
    rw [step?] at h
    split at h
    · cases h
    · rename_i hq
      cases h
      have hq : (q : K) ≠ 0 := Rat.cast_ne_zero.2 hq
      refine (if_neg hq).trans (congrArg some ?_)
      simp only [value, Rat.cast_div]
      ring

theorem Scale.exactValue?_of_stepPi (hpi : pi ≠ 0) (h : s.stepPi? sign = some s') (x : K) :
    sign.arithmetic.exactValue? (s.value pi x) pi = some (s'.value pi x) := by
  cases sign with
  | plus => cases h
  | minus => cases h
  | times =>
    rw [stepPi?] at h
    split at h
    · rename_i hshift
      cases h
      refine congrArg some ?_
      simp only [value, hshift, Rat.cast_zero, zpow_add_one₀ hpi]
      ring
    · cases h
  | slash =>
    rw [stepPi?] at h
    split at h
    · rename_i hshift
      cases h
      refine (if_neg hpi).trans (congrArg some ?_)
      simp only [value, hshift, Rat.cast_zero, zpow_sub_one₀ hpi]
      ring
    · cases h

/-- The function followed by a sign and its operand. -/
def Link.scale? (s : Scale) (l : Link) : Option Scale :=
  match l.operand with
  | .literal n => s.step? n.numeral.exact l.sign
  | .constant c _ => if c.name = "pi" then s.stepPi? l.sign else none

/-- The function that a chain is. -/
def Chain.scale? (c : Chain) : Option Scale :=
  c.foldlM Link.scale? .one

theorem Link.exactValue?_of_scale (hpi : pi ≠ 0) (hvalues : values "pi" = some pi) {l : Link}
    (h : l.scale? s = some s') (x : K) :
    l.exactValue? values (s.value pi x) = some (s'.value pi x) := by
  obtain ⟨sign, spaced, operand, hbare⟩ := l
  cases operand with
  | literal n =>
    have hexact : _ = some (s'.value pi x) := Scale.exactValue?_of_step h x
    rwa [n.numeral.cast_exact] at hexact
  | constant c hc =>
    simp only [scale?] at h
    split at h
    · rename_i hname
      simp only [exactValue?, Atom.exactValue?, hname, hvalues]
      exact Scale.exactValue?_of_stepPi hpi h x
    · cases h

/-- On all numbers, a chain has the value of its function. -/
theorem Chain.exactValue?_of_scale (hpi : pi ≠ 0) (hvalues : values "pi" = some pi) {c : Chain}
    (h : scale? c = some s) (x : K) : exactValue? values c x = some (s.value pi x) := by
  -- By induction on the chain, behind any function that has been applied before.
  suffices hfold : ∀ (c : Chain) (s s' : Scale), c.foldlM Link.scale? s = some s' →
      exactValue? values c (s.value pi x) = some (s'.value pi x) by
    simpa only [Scale.value_one] using hfold c .one s h
  intro c
  induction c with
  | nil =>
    intro s s' h
    cases h
    rfl
  | cons l c ih =>
    intro s s' h
    obtain ⟨mid, hmid, hrest⟩ := Option.bind_eq_some_iff.1 h
    have hlink := l.exactValue?_of_scale hpi hvalues hmid x
    simp only [exactValue?, List.foldlM_cons, hlink, Option.bind_eq_bind, Option.bind_some]
    exact ih mid s' hrest

end

/-! ## The scales of units -/

namespace Measure

/-- A unit, by its dimension and its key. -/
abbrev Key := Dimension × String

/-- The units of a dimension, each with its scale. -/
def scalesOf (dimension : Dimension) (rows : List (String × Scale)) : List (Key × Scale) :=
  rows.map fun (key, scale) => ((dimension, key), scale)

/-- All units that rules are about, measured in one of their dimension. -/
def scales : List (Key × Scale) :=
  scalesOf .angle [("rad", .one), ("deg", ⟨1 / 180, 1, 0⟩)] ++
  scalesOf .temperature [("K", .one), ("C", ⟨1, 0, 273.15⟩), ("F", ⟨5 / 9, 0, 273.15 - 160 / 9⟩)] ++
  scalesOf .length [
    ("mm", .one),
    ("cm", .times 10),
    ("m", .times 1000),
    ("km", .times 1000000),
    ("in", .times 25.4),
    ("ft", .times 304.8),
    ("yds", .times 914.4),
    ("mi", .times 1609344)] ++
  scalesOf .speed [("kph", .one), ("mph", .times 1.609344)] ++
  scalesOf .frequency [
    ("Hz", .one),
    ("kHz", .times 1000),
    ("MHz", .times 1000000),
    ("GHz", .times 1000000000)] ++
  scalesOf .mass [("mg", .one), ("g", .times 1000), ("kg", .times 1000000)] ++
  scalesOf .pressure [("kPa", .one), ("atm", .times 101.325), ("psi", .times 6.894757293)] ++
  scalesOf .voltage [("uV", .one), ("mV", .times 1000), ("V", .times 1000000),
    ("kV", .times 1000000000)] ++
  scalesOf .current [("uA", .one), ("mA", .times 1000), ("A", .times 1000000)] ++
  scalesOf .resistance [("Ohm", .one), ("kOhm", .times 1000), ("MOhm", .times 1000000)] ++
  scalesOf .time [
    ("ms", .one),
    ("sec", .times 1000),
    ("min", .times 60000),
    ("hrs", .times 3600000),
    ("days", .times 86400000)]

/-- The scale of a unit. -/
def scaleOf (unit : Key) : Scale :=
  ((scales.find? fun row => row.1 == unit).map Prod.snd).getD .one

/-- No scale is constant. -/
theorem factor_scaleOf (unit : Key) : (scaleOf unit).factor ≠ 0 := by
  have hscales : ∀ row ∈ scales, row.2.factor ≠ 0 := by decide +kernel
  rw [scaleOf]
  cases hrow : scales.find? fun row => row.1 == unit with
  | none => decide
  | some row => exact hscales row (List.mem_of_find?_eq_some hrow)

namespace Rule

/-- The unit that is converted. -/
def start (r : Rule) : Key :=
  (r.dimension, r.source)

/-- The unit it is converted into. -/
def finish (r : Rule) : Key :=
  (r.dimension, r.target)

/-- Every rule is a function that keeps the amount: it leads to the same one, in the
    scale of the one unit, as there was in that of the other. -/
theorem scale_chain : ∀ r ∈ table,
    r.chain.scale?.bind (scaleOf r.finish).after? = some (scaleOf r.start) := by
  decide +kernel

/-! ## Paths -/

/-- The rules lead from one unit to another, each from where the one before it has
    led to. -/
inductive Leads : Key → List Rule → Key → Prop
  | nil (unit : Key) : Leads unit [] unit
  | cons {a b : Key} {r : Rule} {path : List Rule} :
    r ∈ table → r.start = a → Leads r.finish path b → Leads a (r :: path) b

section

variable {K : Type*} [Field K] [CharZero K] [DecidableEq K] {pi : K}

variable [DigitLimit]

/-- What rules make of a number, one after another. -/
def along (pi : K) (path : List Rule) (x : K) : Option K :=
  path.foldlM (fun x r => r.exactValue? pi x) x

/-- A rule leads from any number to one that is the same amount. -/
theorem carries (hpi : pi ≠ 0) {r : Rule} (hr : r ∈ table) (x : K) :
    ∃ y, r.exactValue? pi x = some y ∧
      (scaleOf r.finish).value pi y = (scaleOf r.start).value pi x := by
  obtain ⟨f, hf, hafter⟩ := Option.bind_eq_some_iff.1 (r.scale_chain hr)
  refine ⟨f.value pi x, ?_, (Scale.value_after hpi hafter x).symm⟩
  rw [r.exactValue?_eq hr]
  exact Chain.exactValue?_of_scale hpi rfl hf x

/-- A path of rules does. -/
theorem Leads.carries (hpi : pi ≠ 0) {a b : Key} {path : List Rule} (h : Leads a path b) (x : K) :
    ∃ y, along pi path x = some y ∧ (scaleOf b).value pi y = (scaleOf a).value pi x := by
  induction h generalizing x with
  | nil unit => exact ⟨x, rfl, rfl⟩
  | @cons a b r path hr hstart _ ih =>
    subst hstart
    obtain ⟨mid, hmid, hamount⟩ := r.carries hpi hr x
    obtain ⟨y, hy, hrest⟩ := ih mid
    refine ⟨y, ?_, hrest.trans hamount⟩
    rw [along, List.foldlM_cons, hmid]
    exact hy

/-- A path of rules leads from any number to one. If the path leads back to its first
    unit, it is that number again; and it is what each rule gives that leads to the
    last unit at once. -/
theorem along_coherent (hpi : pi ≠ 0) {a b : Key} {path : List Rule} (h : Leads a path b)
    (x : K) :
    ∃ y, along pi path x = some y ∧ (a = b → y = x) ∧
      ∀ r ∈ table, r.start = a → r.finish = b → r.exactValue? pi x = some y := by
  obtain ⟨y, hy, hamount⟩ := h.carries hpi x
  have hunique : Function.Injective ((scaleOf b).value pi) :=
    Scale.value_injective hpi (factor_scaleOf b)
  -- Whatever else is the same amount of the last unit is the same number.
  refine ⟨y, hy, ?_, ?_⟩
  · rintro rfl
    exact hunique hamount
  · rintro r hr rfl rfl
    obtain ⟨z, hz, hdirect⟩ := r.carries hpi hr x
    rw [hz, hunique (hdirect.trans hamount.symm)]

end

/-- By way of degrees Celsius, water boils at as many kelvins as it does at once. -/
theorem boiling_by_celsius :
    let path : List Rule :=
      [⟨.temperature, "F", "C", "- 32.*5/9"⟩, ⟨.temperature, "C", "K", "+273.15"⟩]
    Leads (.temperature, "F") path (.temperature, "K") ∧
      along (22 / 7 : ℚ) path 212 = some 373.15 ∧
      ∀ r ∈ table, r.start = (.temperature, "F") → r.finish = (.temperature, "K") →
        r.exactValue? (22 / 7 : ℚ) 212 = some 373.15 := by
  intro path
  have hpath : Leads (.temperature, "F") path (.temperature, "K") :=
    .cons (by decide +kernel) rfl (.cons (by decide +kernel) rfl (.nil _))
  have hvalue : along (22 / 7 : ℚ) path 212 = some 373.15 := by decide +kernel
  have hpi : (22 / 7 : ℚ) ≠ 0 := by norm_num
  obtain ⟨y, hy, -, hdirect⟩ := along_coherent hpi hpath 212
  rw [hy] at hvalue
  exact ⟨hpath, hy.trans hvalue, hvalue ▸ hdirect⟩

end Rule

end Measure

end Reckoner
