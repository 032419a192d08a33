import Reckoner.Proofs.Evaluation.Results
import Reckoner.Proofs.Session.Variables

/-!
# The values of a session

Every value in a session is sound (`Quantity.IsSound`), on the stack, in the
store and in the tree: its unit is one of those there are, a name without a
value is the name of something and counts as zero, and what is marked as a
constant has the name and the value of one. Soundness is inherited
(`Quantity.inherited_isSound`), so that it lasts whatever is done with a session
(`Session.play_values`).
-/

namespace Reckoner

namespace Quantity

/-- What holds of every value in a session. -/
structure IsSound (q : Quantity) : Prop where
  /-- A whole number is at least `-2 ^ 63` and at most `2 ^ 63 - 1`. -/
  whole : ∀ n, q.magnitude = .whole n →
    -9223372036854775808 ≤ n.toInt ∧ n.toInt ≤ 9223372036854775807
  measure : q.measure.IsKnown
  unset : q.isUnset = true → q.isVariable = true ∧ q.name ≠ "" ∧ q.magnitude = .real 0.0
  constant : q.isConstant = true →
    q.isVariable = true ∧ ∃ c ∈ Constant.table, q.name = c.name ∧ q.magnitude = c.magnitude

/-! ## Soundness -/

theorem toInt_mem (n : Int64) :
    -9223372036854775808 ≤ n.toInt ∧ n.toInt ≤ 9223372036854775807 :=
  ⟨n.le_toInt, Int.le_sub_one_of_lt n.toInt_lt⟩

/-- All that is to be known of a quantity that is no name without a value and no
    constant is its unit. -/
theorem isSound_of_measure {q : Quantity} (hmeasure : q.measure.IsKnown)
    (hunset : q.isUnset = false) (hconstant : q.isConstant = false) : q.IsSound where
  whole n _ := toInt_mem n
  measure := hmeasure
  unset h := absurd h (hunset ▸ Bool.false_ne_true)
  constant h := absurd h (hconstant ▸ Bool.false_ne_true)

theorem isSound_unset {name : String} (h : name ≠ "") : (unset name).IsSound where
  whole n _ := toInt_mem n
  measure := Measure.isKnown_plain
  unset _ := ⟨rfl, h, rfl⟩
  constant := nofun

theorem isSound_entry {c : Constant} (hc : c ∈ Constant.table) (hmeasure : c.measure.IsKnown) :
    c.entry.quantity.IsSound where
  whole n _ := toInt_mem n
  measure := hmeasure
  unset := nofun
  constant _ := ⟨rfl, c, hc, rfl, rfl⟩

theorem isKnown_of_lends {m : Measure} (h : Lends IsSound m) : m.IsKnown := by
  rcases h with h | ⟨q, hq, rfl⟩
  · exact h
  · exact hq.measure

end Quantity

/-- All values in the store are sound. -/
def Store.IsSound (s : Store) : Prop :=
  ∀ e ∈ s.entries, e.quantity.IsSound

namespace Store

variable {s s' : Store} {q : Quantity}

theorem isSound_initial : initial.IsSound := by
  have hknown : ∀ c ∈ Constant.table, c.measure.IsKnown := by
    simp only [Constant.table, List.forall_mem_cons]
    exact ⟨Measure.isKnown_radians, Measure.isKnown_plain, List.forall_mem_nil _⟩
  intro e he
  rw [entries_initial] at he
  obtain ⟨c, hc, rfl⟩ := List.mem_map.1 he
  exact Quantity.isSound_entry hc (hknown c hc)

theorem IsSound.clear (h : s.IsSound) : s.clear.IsSound := fun e he =>
  h e (List.mem_of_mem_filter he)

theorem IsSound.assign (h : s.IsSound) (hmeasure : q.measure.IsKnown)
    (hassign : s.assign q = .ok s') : s'.IsSound := by
  obtain ⟨-, -, description, rfl⟩ := assign_eq_ok hassign
  intro e he
  rcases mem_put he with rfl | he
  · exact Quantity.isSound_of_measure hmeasure rfl rfl
  · exact h e he

end Store

/-- All quantities that are made of sound ones are sound. -/
theorem Quantity.inherited_isSound : Inherited Store.IsSound IsSound where
  makes _ _ _ _ h := isSound_of_measure (isKnown_of_lends h) rfl rfl
  measured hq h := ⟨hq.whole, isKnown_of_lends h, hq.unset, hq.constant⟩
  formatted _ hq := ⟨hq.whole, hq.measure, hq.unset, hq.constant⟩
  named {store name} hstore hname := by
    rw [named, Store.lookup?]
    cases hfind : store.find? name with
    | none => exact isSound_unset hname
    | some e => exact hstore e (List.mem_of_find?_eq_some hfind)
  lent hstore hfind := lends_measure (hstore _ (List.mem_of_find?_eq_some hfind))
  valued _ _ _ _ _ h := isSound_of_measure (isKnown_of_lends h) rfl rfl
  assigned _ _ _ hstore _ h hassign := hstore.assign (isKnown_of_lends h) hassign

/-! ## Sessions -/

namespace Session

/-- All values in the session are sound, and it knows its constants. -/
structure HasSoundValues (s : Session) : Prop where
  stack : ∀ q ∈ s.machine.stack, q.IsSound
  store : ∀ e ∈ s.machine.store.entries, e.quantity.IsSound
  nodes : ∀ node ∈ s.nodes, node.Each Quantity.IsSound
  constants : ∀ c ∈ Constant.table, c.entry ∈ s.machine.store.entries

section

variable [DigitLimit]

/-- Whatever is done with a session, all its values are sound; and what operators
    compute is bare. -/
theorem play_values (replies : Option (List Reply)) (moves : List Move) :
    ((new .initial replies).play moves).HasSoundValues ∧
      ∀ (settings : Settings) (depth : Int) (o : Operator) (m m' : Machine),
        o.action.computes = true →
          Eval.apply settings (settings.formulaAt depth) o m = .ok ⟨⟩ m' →
            ∃ q : Quantity, q.IsBare ∧ m'.stack = q :: m.stack.drop o.action.operands := by
  refine ⟨?_, fun settings depth o m m' ho h => (Eval.apply_isBare ho m).of_ok h⟩
  have hmeets : ((new .initial replies).play moves).Meets Store.IsSound Quantity.IsSound :=
    Meets.play Quantity.inherited_isSound (.new Store.isSound_initial replies) moves
      fun _ _ h => h.clear
  obtain ⟨others, hentries, -⟩ := (meets_isTable replies moves).machine.store.entries
  refine ⟨hmeets.machine.stack, hmeets.machine.store, hmeets.nodes, fun c hc => ?_⟩
  rw [hentries, Store.entries_initial]
  exact List.mem_append_left others (List.mem_map_of_mem hc)

end

/-- A session that knows the value of `x`. -/
def knowingX : Session :=
  (new .initial none).play [.execute .default "x=7"]

/-- Multiplied by two, `x` gives a bare value. -/
theorem twice_x_isBare : knowingX.HasSoundValues ∧ ∃ m',
    Eval.apply .default (Settings.default.formulaAt 0) .multiplication
        { knowingX.machine with stack := [.unset "x", { magnitude := .whole 2 }] } = .ok ⟨⟩ m' ∧
      m'.stack.map Quantity.magnitude = [.whole 14] ∧
      ∃ q : Quantity, q.IsBare ∧ m'.stack = [q] := by
  obtain ⟨hsound, hbare⟩ := play_values none [.execute .default "x=7"]
  exact ⟨hsound, _, rfl, rfl, hbare .default 0 .multiplication
    { knowingX.machine with stack := [.unset "x", { magnitude := .whole 2 }] } _ rfl rfl⟩

end Session

end Reckoner
