import Mathlib.Data.Int.ModEq
import Reckoner.Proofs.Conversion.Chain
import Reckoner.Proofs.Guarded.Arithmetic
import Reckoner.Proofs.Phrase.Running

/-!
# Phrases of whole numbers

A phrase of integers, with sums, differences, products and powers (`WholePhrase`), has an
exact value, that of an integer of any size (`WholePhrase.value`). Every literal and every
result on the way to it is wrapped into the register; yet as wrapping goes along with these
operations, what the phrase comes to is just the place of the exact value in the register
(`WholePhrase.runLine_exact`), and so the one number there that is congruent to it
(`toInt_ofInt_iff`). It is never a real number, and no setting makes a difference. Only a
number with too many digits keeps a phrase from being read at all.
-/

namespace Reckoner

open Eval

/-! ## The register -/

/-- Of the numbers in the register, a number takes the place of the one that is congruent
    to it. -/
theorem toInt_ofInt_iff {v w : Int} :
    w = (Int64.ofInt v).toInt ↔ -2 ^ 63 ≤ w ∧ w < 2 ^ 63 ∧ w ≡ v [ZMOD 2 ^ 64] := by
  have hbmod : v.bmod (2 ^ 64) = w ↔ -2 ^ 63 ≤ w ∧ w < 2 ^ 63 ∧ (2 ^ 64 : Int) ∣ w - v :=
    Int.bmod_eq_iff (by decide)
  rw [Int64.toInt_ofInt, eq_comm, Int.modEq_comm, Int.modEq_iff_dvd]
  exact hbmod

/-- The power of a number in the register has the place of the exact power. -/
theorem ofInt_toInt_pow (v : Int) (n : Nat) :
    Int64.ofInt ((Int64.ofInt v).toInt ^ n) = Int64.ofInt (v ^ n) := by
  induction n with
  | zero => rw [pow_zero, pow_zero]
  | succ n ih => rw [pow_succ, pow_succ, Int64.ofInt_mul, Int64.ofInt_mul, ih, Int64.ofInt_toInt]

/-- In the register, a number to the power of one that is not negative. -/
theorem power_ofInt (v : Int) {n : Nat} (hn : n < 2 ^ 63) :
    power (Int64.ofInt v) n = Int64.ofInt (v ^ n) := by
  rw [power, powerOfBits_eq _ (by omega), ofInt_toInt_pow]

/-! ## Phrases -/

/-- A decimal literal without a unit and without a point. -/
structure WholeLiteral extends Literal where
  unit_eq : unit = none
  places_eq : numeral.places = none

/-- An exponent: a literal that is not negative and has a place of its own in the
    register. -/
structure Exponent extends WholeLiteral where
  nonneg : 0 ≤ toLiteral.integer
  lt : toLiteral.integer < 2 ^ 63

/-- An operation that wrapping goes along with. -/
inductive RingOperator
  | add
  | sub
  | mul

namespace RingOperator

def sign : RingOperator → Sign
  | add => .plus
  | sub => .minus
  | mul => .times

/-- The exact result of the operation. -/
def of (v w : Int) : RingOperator → Int
  | add => v + w
  | sub => v - w
  | mul => v * w

end RingOperator

def BinaryOperator.power : BinaryOperator :=
  ⟨⟨"^", "pow", .arithmetic .pow, "x to the power y"⟩, .pow, by decide, rfl⟩

def UnaryOperator.negation : UnaryOperator :=
  ⟨⟨"neg", "neg", .elementary .neg, "negate"⟩, .elementary .neg, by decide, rfl⟩

def UnaryOperator.powerOfTwo : UnaryOperator :=
  ⟨⟨"exp2", "exp2", .elementary .exp2, "2^x"⟩, .elementary .exp2, by decide, rfl⟩

mutual

/-- A term of whole numbers. -/
inductive WholeTerm
  | literal (l : WholeLiteral)
  | group (b : Bracket) (e : WholePhrase)
  | neg (e : WholePhrase)
  | exp2 (n : Exponent)

/-- A phrase of whole numbers. -/
inductive WholePhrase
  | term (t : WholeTerm)
  | apply (e : WholePhrase) (o : RingOperator) (t : WholeTerm)
  | pow (e : WholePhrase) (n : Exponent)

end

def Exponent.term (n : Exponent) : Term :=
  .atom (.literal n.toLiteral)

mutual

def WholeTerm.term : WholeTerm → Term
  | .literal l => .atom (.literal l.toLiteral)
  | .group b e => .group b e.phrase
  | .neg e => .call .negation e.phrase
  | .exp2 n => .call .powerOfTwo (.term n.term)

def WholePhrase.phrase : WholePhrase → Phrase
  | .term t => .term t.term
  | .apply e o t => .apply e.phrase o.sign.operator t.term
  | .pow e n => .apply e.phrase .power n.term

end

mutual

/-- The exact value of a term. -/
def WholeTerm.value : WholeTerm → Int
  | .literal l => l.integer
  | .group _ e => e.value
  | .neg e => -e.value
  | .exp2 n => 2 ^ n.integer.toNat

/-- The exact value of a phrase, taken from left to right. -/
def WholePhrase.value : WholePhrase → Int
  | .term t => t.value
  | .apply e o t => o.of e.value t.value
  | .pow e n => e.value ^ n.integer.toNat

end

/-! ## Quantities -/

/-- The quantity is the place of the integer in the register, without a unit, and settled. -/
structure Quantity.IsPlaceOf (v : Int) (q : Quantity) : Prop where
  magnitude : q.magnitude = .ofInt v
  measure : q.measure = .plain
  format : q.format = ""
  isSettled : q.IsSettled

theorem WholeLiteral.isPlaceOf (l : WholeLiteral) : l.quantity.IsPlaceOf l.integer := by
  obtain ⟨hmagnitude, hmeasure, hformat⟩ := Literal.quantity_of_integer l.unit_eq l.places_eq
  exact ⟨hmagnitude, hmeasure, hformat, l.isSettled_quantity⟩

variable {left right q : Quantity} {u v w : Int}

/-- An operation that does not divide comes to the place of what it does in the register. -/
theorem Arithmetic.combine_places {op : Arithmetic} (hdivides : op.divides = false)
    (hleft : left.IsPlaceOf v) (hright : right.IsPlaceOf w)
    (hvalue : op.onWhole (Int64.ofInt v) (Int64.ofInt w) = .ofInt u) :
    op.combine left right = some { magnitude := .ofInt u } := by
  have happly : op.apply left.magnitude right.magnitude = some (.ofInt u) := by
    rw [apply.eq_def, hdivides, hleft.magnitude, hright.magnitude, ← hvalue]
    rfl
  have hmeasure : op.measure left.measure right.measure = .plain := by
    rw [hleft.measure, hright.measure]
    cases op <;> rfl
  have hformat : Quantity.firstFormat left.format right.format = "" := by
    rw [hleft.format, hright.format]
    rfl
  rw [combine, happly, hmeasure, hformat]
  rfl

theorem RingOperator.combine_places (o : RingOperator) (hleft : left.IsPlaceOf v)
    (hright : right.IsPlaceOf w) :
    o.sign.arithmetic.combine left right = some { magnitude := .ofInt (o.of v w) } := by
  cases o with
  | add => exact Arithmetic.combine_places rfl hleft hright (congrArg _ (Int64.ofInt_add v w).symm)
  | sub => exact Arithmetic.combine_places rfl hleft hright (congrArg _ (Int64.ofInt_sub v w).symm)
  | mul => exact Arithmetic.combine_places rfl hleft hright (congrArg _ (Int64.ofInt_mul v w).symm)

/-- An exponent has a place of its own. -/
theorem Exponent.toInt_ofInt (n : Exponent) : (Int64.ofInt n.integer).toInt = n.integer :=
  Int64.toInt_ofInt_of_le (by have := n.nonneg; omega) n.lt

theorem Exponent.combine_places (n : Exponent) (hleft : left.IsPlaceOf v) :
    Arithmetic.pow.combine left n.quantity =
      some { magnitude := .ofInt (v ^ n.integer.toNat) } := by
  have hn := n.nonneg
  have hlt := n.lt
  refine Arithmetic.combine_places rfl hleft n.toWholeLiteral.isPlaceOf ?_
  rw [Arithmetic.onWhole, n.toInt_ofInt, if_neg (by omega), power_ofInt v (by omega)]
  rfl

theorem Elementary.of_places {f : Elementary} (hinv : f ≠ .inv) (hq : q.IsPlaceOf v)
    (hvalue : ∀ bits, f.onWhole (Int64.ofInt v) bits = .ofInt u) :
    f.of q = some { magnitude := .ofInt u } := by
  have happly : f.apply q.showsBits q.magnitude = some (.ofInt u) := by
    rw [apply.eq_def, if_neg fun h => hinv h.1, hq.magnitude, ← hvalue q.showsBits]
    rfl
  rw [of, happly, hq.measure, hq.format]
  rfl

theorem Elementary.neg_places (hq : q.IsPlaceOf v) :
    neg.of q = some { magnitude := .ofInt (-v) } :=
  of_places nofun hq fun _ => congrArg _ (Int64.ofInt_neg v).symm

theorem Exponent.of_places (n : Exponent) :
    Elementary.exp2.of n.quantity = some { magnitude := .ofInt (2 ^ n.integer.toNat) } := by
  have hn := n.nonneg
  have hlt := n.lt
  refine Elementary.of_places nofun n.toWholeLiteral.isPlaceOf fun _ => ?_
  rw [Elementary.onWhole, n.toInt_ofInt, if_neg (by omega)]
  exact congrArg _ (power_ofInt 2 (by omega))

/-! ## Runs -/

section

variable {settings : Settings} {formula : Formula} {m : Machine} {below : List Quantity}

/-- The quantity that a number without anything else is. -/
theorem isPlaceOf_mk (v : Int) : Quantity.IsPlaceOf v { magnitude := .ofInt v } :=
  ⟨rfl, rfl, rfl, rfl⟩

variable [DigitLimit]

theorem UnaryOperator.apply_places (f : UnaryOperator) {function : Elementary}
    (hfunction : f.function = .elementary function) (hq : q.IsSettled)
    (hof : function.of q = some { magnitude := .ofInt u }) :
    Eval.apply settings formula f.operator { m with stack := q :: below } =
      .ok ⟨⟩ { m with stack := { magnitude := .ofInt u } :: below } := by
  obtain ⟨operator, _, hmem, haction⟩ := f
  obtain rfl := hfunction
  refine apply_of_perform operator { m with stack := q :: below } m ?_ ?_ ?_ ?_ ⟨_, rfl⟩
  · rw [haction]
    rfl
  · rw [haction]
    exact Nat.le_add_left 1 _
  · rw [haction]
    simpa [UnaryFunction.action, Action.confirmed] using hq
  · rw [haction]
    simp only [UnaryFunction.action, perform, hof]
    rfl

/-- A single token pushes its quantity. -/
theorem runNode_literal (l : Literal) (m : Machine) :
    runNode settings formula (Term.atom (.literal l)).node m =
      .ok ⟨⟩ { m with stack := l.quantity :: m.stack } := by
  simp only [Term.node, Node.seeded, runNode, runEach, push_nil, pure_bind, bind_pure_unit]
  rfl

mutual

theorem WholeTerm.runNode_node : (t : WholeTerm) → (m : Machine) →
    ∃ q, q.IsPlaceOf t.value ∧
      runNode settings formula t.term.node m = .ok ⟨⟩ { m with stack := q :: m.stack }
  | .literal l, m => ⟨l.quantity, l.isPlaceOf, runNode_literal l.toLiteral m⟩
  | .group b e, m => by
    obtain ⟨q, hq, hrun⟩ := e.run_phrase m
    refine ⟨q, hq, ?_⟩
    simp only [WholeTerm.term, Term.node, runNode, push_nil, pure_bind, bind_pure_unit,
      runEach_closed]
    exact hrun
  | .neg e, m => by
    obtain ⟨q, hq, hrun⟩ := e.run_phrase m
    refine ⟨_, isPlaceOf_mk (-e.value), ?_⟩
    simp only [WholeTerm.term, Term.node, runNode, push_nil, pure_bind, runEach_closed]
    rw [bind_of_ok hrun]
    exact UnaryOperator.negation.apply_places rfl hq.isSettled (Elementary.neg_places hq)
  | .exp2 n, m => by
    have hrun : (Phrase.term n.term).run settings formula m =
        .ok ⟨⟩ { m with stack := n.quantity :: m.stack } := by
      rw [Term.run_eq]
      exact runNode_literal n.toLiteral m
    refine ⟨_, isPlaceOf_mk (2 ^ n.integer.toNat), ?_⟩
    simp only [WholeTerm.term, Term.node, runNode, push_nil, pure_bind, runEach_closed]
    rw [bind_of_ok hrun]
    exact UnaryOperator.powerOfTwo.apply_places rfl n.isSettled_quantity n.of_places

/-- What a phrase has come to pushes the place of its value. -/
theorem WholePhrase.run_phrase : (e : WholePhrase) → (m : Machine) →
    ∃ q, q.IsPlaceOf e.value ∧
      e.phrase.run settings formula m = .ok ⟨⟩ { m with stack := q :: m.stack }
  | .term t, m => by
    rw [WholePhrase.phrase, Term.run_eq]
    exact t.runNode_node m
  | .apply e o t, m => by
    obtain ⟨left, hleft, hrunLeft⟩ := e.run_phrase m
    obtain ⟨right, hright, hrunRight⟩ := t.runNode_node { m with stack := left :: m.stack }
    refine ⟨_, isPlaceOf_mk (o.of e.value t.value), ?_⟩
    rw [WholePhrase.phrase, Phrase.run_apply, bind_of_ok hrunLeft, bind_of_ok hrunRight]
    exact o.sign.operator.apply_of_combine m m.stack hleft.isSettled hright.isSettled
      (o.combine_places hleft hright) ⟨_, rfl⟩
  | .pow e n, m => by
    obtain ⟨left, hleft, hrunLeft⟩ := e.run_phrase m
    have hrunRight : runNode settings formula n.term.node { m with stack := left :: m.stack } =
        .ok ⟨⟩ { m with stack := n.quantity :: left :: m.stack } :=
      runNode_literal n.toLiteral _
    refine ⟨_, isPlaceOf_mk (e.value ^ n.integer.toNat), ?_⟩
    rw [WholePhrase.phrase, Phrase.run_apply, bind_of_ok hrunLeft, bind_of_ok hrunRight]
    exact BinaryOperator.power.apply_of_combine m m.stack hleft.isSettled n.isSettled_quantity
      (n.combine_places hleft) ⟨_, rfl⟩

end

end

/-! ## Lines -/

section

variable [DigitLimit]

/-- A phrase of whole numbers is read in full, with nothing to say, and running it pushes one
    whole number, the place of its exact value: of the numbers in the register, the one that
    is congruent to the value. A number with too many digits interrupts reading instead. -/
theorem WholePhrase.runLine_exact (e : WholePhrase) (settings : Settings) (depth : Int)
    {m : Machine} (hstore : m.store.HoldsConstants) (messages : List Message) :
    (match e.phrase.fault? with
      | none =>
        ∃ nodes q n, Node.readText none ⟨e.phrase.text, m.store, messages⟩ =
            (.ok nodes, ⟨[], m.store, messages⟩) ∧
          runLine settings (settings.formulaAt depth) nodes m =
            .ok ⟨⟩ { m with stack := q :: m.stack } ∧
          q.magnitude = .whole n ∧ n.toInt = (Int64.ofInt e.value).toInt
      | some f =>
        f.ExceedsLimit ∧ ∃ rest, Node.readText none ⟨e.phrase.text, m.store, messages⟩ =
          (.error (.fault f), ⟨rest, m.store, messages⟩)) ∧
    ∀ v w : Int, w = (Int64.ofInt v).toInt ↔ -2 ^ 63 ≤ w ∧ w < 2 ^ 63 ∧ w ≡ v [ZMOD 2 ^ 64] := by
  refine ⟨?_, fun _ _ => toInt_ofInt_iff⟩
  cases hfault : e.phrase.fault? with
  | some f =>
    exact ⟨e.phrase.exceedsLimit_of_fault? hfault,
      Phrase.readText_overlong hstore hfault messages⟩
  | none =>
    obtain ⟨q, hq, hrun⟩ : ∃ q, q.IsPlaceOf e.value ∧
        e.phrase.run settings (settings.formulaAt depth) m =
          .ok ⟨⟩ { m with stack := q :: m.stack } := e.run_phrase m
    refine ⟨e.phrase.nodes, q, Int64.ofInt e.value, Phrase.readText_text hstore hfault messages,
      ?_, hq.magnitude, rfl⟩
    rw [runLine, onFailure, Phrase.runEach_nodes, hrun]

end

/-- The last number of the register, and one. -/
def lastPlusOne : WholePhrase :=
  let literal (digits : List Char) (hne : digits ≠ []) (h : digits.all Char.isDigit = true) :
      WholeLiteral :=
    ⟨⟨⟨false, digits, none⟩, none, hne, List.all_eq_true.1 h, nofun, Literal.unit_mem_none⟩,
      rfl, rfl⟩
  .apply (.term (.literal (literal "9223372036854775807".toList (by decide) (by decide)))) .add
    (.literal (literal ['1'] (by decide) (by decide)))

/-- The sum is the first number of the register. -/
theorem WholePhrase.runLine_lastPlusOne :
    ∃ nodes q n, Node.readText none ⟨"9223372036854775807 + 1".toList, Store.initial, []⟩ =
        (.ok nodes, ⟨[], Store.initial, []⟩) ∧
      runLine .default (Settings.default.formulaAt 0) nodes ⟨[], Store.initial, [], none, []⟩ =
        .ok ⟨⟩ ⟨[q], Store.initial, [], none, []⟩ ∧
      q.magnitude = .whole n ∧ n.toInt = -9223372036854775808 := by
  obtain ⟨hline, -⟩ := lastPlusOne.runLine_exact .default 0
    (m := ⟨[], Store.initial, [], none, []⟩) Store.holdsConstants_initial []
  have hfault : lastPlusOne.phrase.fault? = none := by decide +kernel
  rw [hfault] at hline
  obtain ⟨nodes, q, n, hread, hrun, hwhole, hn⟩ := hline
  exact ⟨nodes, q, n, hread, hrun, hwhole, hn.trans (by decide)⟩

/-- A number of ones, and one. -/
def onesPlusOne (n : Nat) : WholePhrase :=
  .apply (.term (.literal ⟨.ones n, rfl, rfl⟩)) .add (.literal ⟨.ones 0, rfl, rfl⟩)

theorem text_onesPlusOne (n : Nat) :
    (onesPlusOne n).phrase.text = List.replicate (n + 1) '1' ++ " + 1".toList := by
  have htext : (onesPlusOne n).phrase.text = (Literal.ones n).text ++ " + 1".toList :=
    List.append_assoc ..
  rw [htext, Literal.text_ones]

/-- With more digits than there usually may be, there is nothing to run, and no sum. -/
theorem WholePhrase.readText_onesPlusOne :
    ∃ rest, Node.readText none ⟨List.replicate 4301 '1' ++ " + 1".toList, Store.initial, []⟩ =
      (.error (.fault (.tooManyDigits 4300 4301)), ⟨rest, Store.initial, []⟩) := by
  have hfault : (onesPlusOne 4300).phrase.fault? = some (.tooManyDigits 4300 4301) :=
    Option.or_eq_some_iff.2 (.inl Literal.fault?_ones_usual)
  rw [← text_onesPlusOne 4300]
  exact Phrase.readText_overlong Store.holdsConstants_initial hfault []

end Reckoner
