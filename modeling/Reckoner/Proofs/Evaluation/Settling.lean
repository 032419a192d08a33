import Reckoner.Proofs.Evaluation.Keeping
import Reckoner.Proofs.Evaluation.Trace
import Reckoner.Proofs.Reading.Visits

/-!
# How names settle

A name takes its values in one course (`Course`). While the store has none for it, it
resolves to zero whenever the user leaves the question blank; it resolves to the first
answer that can be read, and to that ever after, as the store has it from then on.

This holds along any part of evaluation in which nothing is assigned
(`Eval.Settles`), so that it holds of a line as long as its operators assign nothing
(`Eval.settles_runLine`).
-/

namespace Reckoner

/-! ## Courses of values -/

/-- How values may follow each other, from what there is before to what there is
    afterwards: zeros while there is none, and one value ever after. -/
inductive Course : Option Magnitude → List Magnitude → Option Magnitude → Prop
  | nil (kept : Option Magnitude) : Course kept [] kept
  | zero {after : Option Magnitude} {values : List Magnitude} :
    Course none values after → Course none (.whole 0 :: values) after
  | first {v : Magnitude} {after : Option Magnitude} {values : List Magnitude} :
    Course (some v) values after → Course none (v :: values) after
  | again {v : Magnitude} {after : Option Magnitude} {values : List Magnitude} :
    Course (some v) values after → Course (some v) (v :: values) after

namespace Course

variable {before between after : Option Magnitude} {values more : List Magnitude} {v : Magnitude}

theorem append (h : Course before values between) (hmore : Course between more after) :
    Course before (values ++ more) after := by
  induction h with
  | nil => exact hmore
  | zero _ ih => exact .zero (ih hmore)
  | first _ ih => exact .first (ih hmore)
  | again _ ih => exact .again (ih hmore)

theorem of_some : {values : List Magnitude} → {after : Option Magnitude} →
    Course (some v) values after → values = List.replicate values.length v ∧ after = some v
  | _, _, .nil _ => ⟨rfl, rfl⟩
  | _, _, .again h => ⟨congrArg (v :: ·) h.of_some.1, h.of_some.2⟩

/-- Zeros come first; what comes then is one value, and that is left. -/
theorem of_none : {values : List Magnitude} → {after : Option Magnitude} →
    Course none values after → ∃ (zeros rest : Nat) (v : Magnitude),
      values = List.replicate zeros (.whole 0) ++ List.replicate rest v ∧
        after = if rest = 0 then none else some v
  | _, _, .nil _ => ⟨0, 0, .whole 0, rfl, rfl⟩
  | _, _, .zero h =>
    have ⟨zeros, rest, v, hvalues, hafter⟩ := h.of_none
    ⟨zeros + 1, rest, v, congrArg (.whole 0 :: ·) hvalues, hafter⟩
  | v :: values, _, .first h =>
    ⟨0, values.length + 1, v, congrArg (v :: ·) h.of_some.1, h.of_some.2⟩

end Course

/-! ## The course of a name -/

/-- The quantity stands for the name, and not for a constant. -/
def Quantity.names (name : String) (q : Quantity) : Bool :=
  q.isVariable && !q.isConstant && q.name == name

theorem Quantity.names_eq (name : String) (q : Quantity) :
    q.names name = (!(!q.isVariable || q.isConstant) && q.name == name) := by
  rw [names, Bool.not_or, Bool.not_not]

/-- What operands of the name resolve to. -/
def Resolution.valuesOf (name : String) (resolutions : List Resolution) : List Magnitude :=
  (resolutions.filter fun r => r.operand.names name).map fun r => r.value.magnitude

/-- The number that the store has for the name. -/
def Store.numberOf (s : Store) (name : String) : Option Magnitude :=
  (s.lookup? name).map Quantity.magnitude

theorem Store.numberOf_eq_map (s : Store) (name : String) :
    s.numberOf name = (s.find? name).map fun e => e.quantity.magnitude :=
  Option.map_map ..

theorem Store.numberOf_put (s : Store) (e : Entry) (name : String) :
    (s.put e).numberOf name =
      if e.name = name then some e.quantity.magnitude else s.numberOf name := by
  rw [numberOf_eq_map, numberOf_eq_map, find?_put]
  split <;> rfl

namespace Eval

variable {α β : Type} {name : String}

/-- Wherever the step ends, the name has taken its values in one course. -/
def Settles (name : String) (x : Eval α) (t : Trace) : Prop :=
  ∀ m : Machine, Ends x m
    (fun _ m' =>
      Course (m.store.numberOf name) (Resolution.valuesOf name (t m)) (m'.store.numberOf name))
    fun _ m' =>
      Course (m.store.numberOf name) (Resolution.valuesOf name (t m)) (m'.store.numberOf name)

/-- Wherever the step ends, the store is as before. -/
def LeavesStore (x : Eval α) : Prop :=
  ∀ m : Machine, Ends x m (fun _ m' => m'.store = m.store) fun _ m' => m'.store = m.store

theorem leavesStore_of_keeps {R : α → Prop} {x : Eval α}
    (h : ∀ I : Store → Prop, Keeps I (fun _ => True) R x) : LeavesStore x := fun m =>
  (h (fun store => store = m.store) m ⟨rfl, fun _ _ => trivial⟩).mono (fun _ _ h => h.2.store)
    fun _ _ h => h.store

theorem LeavesStore.ends {y : Eval α} {m : Machine} {before : Option Magnitude}
    {values : List Magnitude} (hy : LeavesStore y)
    (h : Course before values (m.store.numberOf name)) :
    Ends y m (fun _ m' => Course before values (m'.store.numberOf name))
      fun _ m' => Course before values (m'.store.numberOf name) :=
  (hy m).mono (fun _ _ hstore => hstore ▸ h) fun _ _ hstore => hstore ▸ h

/-! ### Composing steps -/

theorem LeavesStore.settles {x : Eval α} (hx : LeavesStore x) : Settles name x Trace.silent :=
  fun _ => hx.ends (.nil _)

theorem Settles.andThen {x : Eval α} {t : Trace} {f : α → Eval β} {u : α → Trace}
    (hx : Settles name x t) (hf : ∀ a, Settles name (f a) (u a)) :
    Settles name (x >>= f) (t.andThen x u) := by
  intro m
  have hm := hx m
  rw [Trace.andThen, ends_bind]
  cases hrun : x m with
  | ok a m' =>
    refine ends_of_eq_ok hrun ?_
    have hcourse {l : List Resolution} {after : Option Magnitude}
        (h : Course (m'.store.numberOf name) (Resolution.valuesOf name l) after) :
        Course (m.store.numberOf name) (Resolution.valuesOf name (t m ++ l)) after := by
      rw [Resolution.valuesOf, List.filter_append, List.map_append]
      exact (hm.of_ok hrun).append h
    exact (hf a m').mono (fun _ _ => hcourse) fun _ _ => hcourse
  | error e m' =>
    refine ends_of_eq_error hrun ?_
    rw [List.append_nil]
    exact hm.of_error hrun

theorem LeavesStore.behind {x : Eval α} {f : α → Eval β} {u : α → Trace} (hx : LeavesStore x)
    (hf : ∀ a, Settles name (f a) (u a)) : Settles name (x >>= f) (Trace.behind x u) :=
  hx.settles.andThen hf

/-- What leaves the store alone afterwards need not be followed. -/
theorem Settles.bind {x : Eval α} {t : Trace} {f : α → Eval β} (hx : Settles name x t)
    (hf : ∀ a, LeavesStore (f a)) : Settles name (x >>= f) t := fun m =>
  ends_bind.2 ((hx m).mono (fun a _ => (hf a).ends) fun _ _ h => h)

theorem Settles.restoring {x : Eval α} {t : Trace} (hx : Settles name x t)
    (stack : List Quantity) : Settles name (restoring stack x) t := fun m =>
  ends_restoring.2 ((hx m).mono (fun _ _ h => h) fun e _ h => by
    cases e with
    | failed => exact h
    | fault f => exact h)

section

variable {x y : Eval PUnit} {t : Trace} (hx : Settles name x t) (hy : LeavesStore y)
include hx hy

theorem Settles.andAlways : Settles name (andAlways x y) t := fun m =>
  ends_andAlways.2 ((hx m).mono (fun _ _ => hy.ends) fun e _ h => by
    cases e with
    | failed => exact hy.ends h
    | fault f => exact h)

theorem Settles.onFailure : Settles name (onFailure x y) t := fun m =>
  ends_onFailure.2 ((hx m).mono (fun _ _ h => h) fun e _ h => by
    cases e with
    | failed => exact hy.ends h
    | fault f => exact h)

end

/-! ### Steps that resolve nothing -/

theorem leavesStore_pure (a : α) : LeavesStore (pure a) := fun _ => rfl

theorem leavesStore_stack : LeavesStore stack := fun _ => rfl

theorem leavesStore_setStack (stack : List Quantity) : LeavesStore (setStack stack) := fun _ => rfl

theorem leavesStore_refuse (f : Failure) : LeavesStore (refuse (α := α) f) := fun _ => rfl

theorem leavesStore_question (name : String) : LeavesStore (question name) :=
  leavesStore_of_keeps fun _ => keeps_question name

theorem leavesStore_shown (settings : Settings) (q : Quantity) : LeavesStore (shown settings q) :=
  leavesStore_of_keeps fun _ => keeps_shown settings q

theorem leavesStore_showTop (settings : Settings) : LeavesStore (showTop settings) :=
  leavesStore_of_keeps fun _ => keeps_showTop settings

theorem leavesStore_showStack (settings : Settings) : LeavesStore (showStack settings) :=
  leavesStore_of_keeps fun _ => keeps_showStack settings

theorem LeavesStore.bind {x : Eval α} {f : α → Eval β} (hx : LeavesStore x)
    (hf : ∀ a, LeavesStore (f a)) : LeavesStore (x >>= f) := fun m =>
  ends_bind.2 ((hx m).mono
    (fun a m' h => (hf a m').mono (fun _ _ h' => h'.trans h) fun _ _ h' => h'.trans h)
    fun _ _ h => h)

theorem leavesStore_push (qs : List Quantity) : LeavesStore (push qs) := fun _ => rfl

end Eval

/-! ## Names that are asked for -/

/-- How the store goes on when a question for the name comes to a value. -/
inductive Quantity.Answered (q : Quantity) (s : Store) : Quantity → Store → Prop
  | blank {value : Quantity} : value.magnitude = .whole 0 → Answered q s value s
  | kept {value : Quantity} {s' : Store} :
    value.name = q.name → s.assign value = .ok s' → Answered q s value s'
  | unkept {value : Quantity} {f : Failure} :
    value.name = q.name → s.assign value = .error f → Answered q s value s

namespace Eval

variable {name : String}

theorem ends_keep {value : Quantity} {m : Machine} :
    Ends (keep value) m
      (fun _ m' => m.store.assign value = .ok m'.store ∨
        (∃ f, m.store.assign value = .error f) ∧ m'.store = m.store) fun _ _ => False := by
  refine ends_bind.2 (ends_get.2 ?_)
  split
  · rename_i hassign
    exact .inl hassign
  · rename_i f hassign
    exact .inr ⟨⟨f, hassign⟩, rfl⟩

/-- Other names are not concerned. -/
theorem numberOf_of_answered {q value : Quantity} {s s' : Store} (hq : q.name ≠ name)
    (h : q.Answered s value s') : s'.numberOf name = s.numberOf name := by
  cases h with
  | blank | unkept => rfl
  | kept hvalue hassign =>
    obtain ⟨-, -, description, rfl⟩ := Store.assign_eq_ok hassign
    rw [← hvalue] at hq
    rw [Store.numberOf_put]
    exact if_neg hq

/-- A name that the store has no value for resolves to zero, and still has none, or to
    the value that it is given. -/
theorem course_of_answered {q value : Quantity} {s s' : Store} (hname : q.name ≠ "")
    (habsent : s.find? q.name = none) (h : q.Answered s value s') :
    Course none [value.magnitude] (s'.numberOf q.name) := by
  have hnone : s.numberOf q.name = none := by
    rw [Store.numberOf_eq_map, habsent]
    rfl
  cases h with
  | blank hzero =>
    rw [hzero, hnone]
    exact .zero (.nil _)
  | kept hvalue hassign =>
    obtain ⟨-, -, description, rfl⟩ := Store.assign_eq_ok hassign
    have hsame : (Entry.mk (Store.kept value) description).name = q.name := hvalue
    rw [Store.numberOf_put, if_pos hsame]
    exact .first (.nil _)
  | unkept hvalue hassign =>
    have hconstant : s.hasConstant value.name = false := by
      rw [Store.hasConstant, hvalue, habsent]
      rfl
    obtain ⟨_, hok⟩ := Store.exists_assign_eq_ok (hvalue ▸ hname) hconstant
    rw [hok] at hassign
    cases hassign

/-- What an operand that names nothing, or another name, resolves to is no value of the
    name. -/
theorem valuesOf_of_names {q : Quantity} (h : q.names name = false) (value : Quantity) :
    Resolution.valuesOf name [⟨q, value⟩] = [] := by
  rw [Resolution.valuesOf, List.filter_singleton, h]
  rfl

theorem valuesOf_self {q : Quantity} (h : q.names name = true) (value : Quantity) :
    Resolution.valuesOf name [⟨q, value⟩] = [value.magnitude] := by
  rw [Resolution.valuesOf, List.filter_singleton, h]
  rfl

section

variable {q : Quantity} {s : Store} (hname : name ≠ "") (hq : q.names name = (q.name == name))
include hq

/-- Brought up to date, a name that the store has takes the value there. -/
theorem course_of_find? {e : Entry} (hfind : s.find? q.name = some e) :
    Course (s.numberOf name) (Resolution.valuesOf name [⟨q, q.updated e.quantity⟩])
      (s.numberOf name) := by
  by_cases heq : q.name = name
  · rw [valuesOf_self (by simp [hq, heq]), Store.numberOf_eq_map, ← heq, hfind]
    exact .again (.nil _)
  · rw [valuesOf_of_names (by simp [hq, heq])]
    exact .nil _

include hname in
/-- Any other name is asked for. -/
theorem course_of_asked {value : Quantity} {s' : Store} (habsent : s.find? q.name = none)
    (h : q.Answered s value s') :
    Course (s.numberOf name) (Resolution.valuesOf name [⟨q, value⟩]) (s'.numberOf name) := by
  by_cases heq : q.name = name
  · subst heq
    rw [valuesOf_self (by simp [hq]), Store.numberOf_eq_map, habsent]
    exact course_of_answered hname habsent h
  · rw [valuesOf_of_names (by simp [hq, heq]), numberOf_of_answered heq h]
    exact .nil _

end

/-! ## Conversions -/

section

variable {settings : Settings} {formula : Formula} {trace : FormulaTrace}
  (hformula : ∀ q text, settings.HasFormula text → Settles name (formula q text) (trace q text))
include hformula

theorem settles_byRule (q : Quantity) (source target : Measure) :
    Settles name (q.byRule settings formula source target)
      (Trace.byRule settings trace q source target) := by
  rw [Quantity.byRule, Trace.byRule]
  cases hr : Measure.rule? settings.rules source target with
  | some r => exact hformula _ _ ⟨r, Measure.mem_of_rule? hr, rfl⟩
  | none =>
    exact ((leavesStore_shown settings q).bind fun _ => leavesStore_refuse _).settles

theorem settles_convertTo (q target : Quantity) :
    Settles name (q.convertTo settings formula target)
      (Trace.convertTo settings trace q target) := by
  unfold Quantity.convertTo Trace.convertTo
  cases hplain : target.measure.isPlain with
  | true => exact (leavesStore_refuse _).settles
  | false =>
    cases hsame : q.measure.sameAs target.measure with
    | true => exact (leavesStore_pure _).settles
    | false => exact (settles_byRule hformula q _ _).bind fun _ => leavesStore_pure _

theorem settles_toRadians (q : Quantity) :
    Settles name (q.toRadians settings formula) (Trace.toRadians settings trace q) := by
  rw [Quantity.toRadians, Trace.toRadians]
  split
  · exact (leavesStore_pure _).settles
  · exact (settles_byRule hformula q _ _).bind fun _ => leavesStore_pure _

theorem settles_fromRadians (q : Quantity) :
    Settles name (q.fromRadians settings formula) (Trace.fromRadians settings trace q) := by
  rw [Quantity.fromRadians, Trace.fromRadians]
  split
  · exact (leavesStore_pure _).settles
  · exact (settles_byRule hformula q _ _).bind fun _ => leavesStore_pure _

end

variable [DigitLimit]

/-! ## Bringing names up to date -/

theorem ends_ask (q : Quantity) (attempts : Nat) (m : Machine) :
    Ends (q.ask attempts) m (fun value m' => q.Answered m.store value m'.store)
      fun _ m' => m'.store = m.store := by
  induction attempts generalizing m with
  | zero => rfl
  | succ attempts ih =>
    refine ends_bind.2 ((leavesStore_question q.name m).mono (fun text m' hstore => ?_)
      fun _ _ h => h)
    rw [← hstore]
    dsimp only
    split
    · exact .blank rfl
    · split
      · refine ends_bind.2 (ends_keep.mono (fun _ m'' hkeep => ?_) fun _ _ h => h.elim)
        obtain hassign | ⟨⟨f, hassign⟩, hstore⟩ := hkeep
        · exact .kept rfl hassign
        · rw [ends_pure, hstore]
          exact .unkept rfl hassign
      · exact ends_bind.2 (ih _)
      · rfl

theorem ends_confirm (hname : name ≠ "") (settings : Settings) (q : Quantity) (m : Machine) :
    Ends (q.confirm settings) m
      (fun value m' => Course (m.store.numberOf name) (Resolution.valuesOf name [⟨q, value⟩])
        (m'.store.numberOf name))
      fun _ m' => m'.store = m.store := by
  rw [Quantity.confirm]
  split
  · -- A value is used as it is.
    rename_i hvalue
    have hq : q.names name = false := by
      rw [Quantity.names_eq, hvalue]
      rfl
    rw [ends_pure, valuesOf_of_names hq]
    exact .nil _
  · rename_i hvariable
    have hq : q.names name = (q.name == name) := by
      rw [Quantity.names_eq, Bool.eq_false_iff.2 hvariable]
      rfl
    refine ends_bind.2 (ends_get.2 ?_)
    split
    · rename_i hfind
      exact course_of_find? hq hfind
    · rename_i habsent
      split
      · rfl
      · have hask (m' : Machine) (hstore : m'.store = m.store) :
            Ends (q.ask Quantity.maxAttempts) m'
              (fun value m'' =>
                Course (m.store.numberOf name) (Resolution.valuesOf name [⟨q, value⟩])
                  (m''.store.numberOf name))
              fun _ m'' => m''.store = m.store :=
          (ends_ask q _ m').mono (fun _ _ h => course_of_asked hname hq habsent (hstore ▸ h))
            fun _ _ h => h.trans hstore
        split
        · exact ends_bind.2 (hask _ rfl)
        · exact hask m rfl

theorem settles_confirm (hname : name ≠ "") (settings : Settings) (q : Quantity) :
    Settles name (q.confirm settings) (Trace.confirm settings q) := by
  intro m
  have hends := ends_confirm hname settings q m
  rw [Trace.confirm]
  cases hx : q.confirm settings m with
  | ok value m' => exact ends_of_eq_ok hx (hends.of_ok hx)
  | error e m' => exact ends_of_eq_error hx (hends.of_error hx ▸ .nil _)

section

variable (hname : name ≠ "") (settings : Settings)
include hname

theorem settles_confirmAt (place : Nat) :
    Settles name (confirmAt settings place) (Trace.confirmAt settings place) := by
  refine leavesStore_stack.behind fun stack => ?_
  cases stack[place]? with
  | some q =>
    exact (settles_confirm hname settings q).bind fun q =>
      leavesStore_stack.bind fun _ => leavesStore_setStack _
  | none => exact (leavesStore_pure _).settles

theorem settles_confirmTop (count : Nat) :
    Settles name (confirmTop settings count) (Trace.confirmTop settings count) := by
  induction count with
  | zero => exact (leavesStore_pure _).settles
  | succ count ih => exact ih.andThen fun _ => settles_confirmAt hname settings count

end

/-! ## Operators -/

section

variable {settings : Settings} {formula : Formula} {trace : FormulaTrace}
  (hformula : ∀ q text, settings.HasFormula text → Settles name (formula q text) (trace q text))
include hformula

theorem settles_perform (spelling : String) {action : Action} (haction : action.arity ≠ .assign)
    (stack : List Quantity) :
    Settles name (perform settings formula spelling action stack)
      (Trace.perform settings trace spelling action stack) := by
  unfold perform
  split
  · -- Two operands.
    refine LeavesStore.settles ?_
    split
    · exact leavesStore_setStack _
    · exact leavesStore_refuse _
  · -- A function of one operand.
    refine LeavesStore.settles ?_
    split
    · exact leavesStore_setStack _
    · exact leavesStore_refuse _
  · -- Functions of angles and conversions evaluate formulas.
    exact (leavesStore_setStack _).behind fun _ =>
      ((settles_toRadians hformula _).restoring _).bind fun _ => leavesStore_setStack _
  · exact (leavesStore_setStack _).behind fun _ =>
      ((settles_fromRadians hformula _).restoring _).bind fun _ => leavesStore_setStack _
  · exact (leavesStore_setStack _).settles
  · exact (leavesStore_setStack _).settles
  · exact (leavesStore_refuse _).settles
  · exact (leavesStore_setStack _).behind fun _ =>
      ((settles_convertTo hformula _ _).restoring _).bind fun _ => leavesStore_setStack _
  · exact absurd rfl haction
  · -- No other operator resolves anything.
    rename_i hcircular hinverse _ _ hconvert hassign
    have hsilent : Trace.perform settings trace spelling action stack = Trace.silent := by
      unfold Trace.perform
      split
      · exact (hcircular _ _ _ rfl rfl).elim
      · exact (hinverse _ _ _ rfl rfl).elim
      · exact (hconvert _ _ _ rfl rfl).elim
      · exact (hassign _ _ _ _ rfl rfl).elim
      · rfl
    rw [hsilent]
    exact (leavesStore_pure _).settles

theorem settles_apply (hname : name ≠ "") {o : Operator} (ho : o.arity ≠ .assign) :
    Settles name (apply settings formula o) (Trace.apply settings trace o) := by
  refine leavesStore_stack.behind fun stack => ?_
  cases himplemented : o.action.isImplemented with
  | false => exact (leavesStore_refuse _).settles
  | true =>
    by_cases hpresent : stack.length < o.action.operands
    · simp only [hpresent]
      exact (leavesStore_refuse _).settles
    · simp only [hpresent]
      refine (settles_confirmTop hname settings _).andThen fun _ => ?_
      refine Settles.andAlways ?_ (leavesStore_showTop settings)
      exact leavesStore_stack.behind fun stack => settles_perform hformula _ ho stack

end

/-! ## Runs -/

section

variable {settings : Settings} {formula : Formula} {trace : FormulaTrace}

mutual

theorem settles_runNode (hname : name ≠ "")
    (hformula : ∀ q text, settings.HasFormula text → Settles name (formula q text) (trace q text)) :
    (n : Node) → (n.Operators fun o => o.arity ≠ .assign) →
      Settles name (runNode settings formula n) (Trace.node settings formula trace n)
  | ⟨_, operator, prior, params, children⟩, h => by
    refine (leavesStore_push prior).behind fun _ => ?_
    refine (settles_runEach hname hformula children h.children).andThen fun _ => ?_
    refine (leavesStore_push params).behind fun _ => ?_
    cases operator with
    | some o => exact settles_apply hformula hname (h.operator o rfl)
    | none => exact (leavesStore_pure _).settles

theorem settles_runEach (hname : name ≠ "")
    (hformula : ∀ q text, settings.HasFormula text → Settles name (formula q text) (trace q text)) :
    (nodes : List Node) → (∀ n ∈ nodes, n.Operators fun o => o.arity ≠ .assign) →
      Settles name (runEach settings formula nodes) (Trace.each settings formula trace nodes)
  | [], _ => (leavesStore_pure _).settles
  | n :: nodes, h => by
    obtain ⟨hn, hnodes⟩ := List.forall_mem_cons.1 h
    exact (settles_runNode hname hformula n hn).andThen fun _ =>
      settles_runEach hname hformula nodes hnodes

end

end

/-- A formula that assigns nothing goes on with the course as its run does. -/
theorem settles_evalPass {run : List Node → Eval PUnit} {trace : List Node → Trace}
    (hrun : ∀ nodes, (∀ n ∈ nodes, n.Operators fun o => o.arity ≠ .assign) →
      Settles name (run nodes) (trace nodes))
    {formula : String} (hformula : '=' ∉ formula.toList) (seed : Quantity) :
    Settles name (evalPass run seed formula) (Trace.evalPass trace seed formula) := by
  intro m
  have htext : (Node.Part.line (Node.begunWith (some seed))).AssignsNothing
      ⟨formula.toList, m.store, []⟩ :=
    Node.assignsNothing_of_notMem hformula
  have hread := Node.readText_of_assignsNothing htext
  rw [Trace.evalPass]
  refine ends_evalPass (fun r hreader => ?_) (fun f r hreader => ?_) fun nodes r hreader => ?_
  · rw [hreader] at hread ⊢
    obtain ⟨hstore, -⟩ : r.store = m.store ∧ _ := hread
    dsimp only
    rw [hstore]
    exact .nil _
  · rw [hreader] at hread ⊢
    obtain ⟨hstore, -⟩ : r.store = m.store ∧ _ := hread
    dsimp only
    rw [hstore]
    exact .nil _
  · rw [hreader] at hread ⊢
    obtain ⟨hstore, hnodes⟩ : r.store = m.store ∧ _ := hread
    dsimp only
    rw [← hstore]
    refine (hrun nodes (hnodes nodes rfl) _).mono (fun _ after hafter => ?_)
      fun e after hafter => ?_
    · exact ⟨fun _ _ => hafter, fun _ => hafter⟩
    · cases e with
      | failed => exact hafter
      | fault f => exact hafter

/-- Formulas of rules go on with the course, as far as they may nest. -/
theorem settles_evalFormula (hname : name ≠ "") {settings : Settings}
    (hrules : ∀ r ∈ settings.rules, '=' ∉ r.formula.toList) (levels : Nat) (seed : Quantity)
    {formula : String} (hformula : settings.HasFormula formula) :
    Settles name (evalFormula settings levels seed formula)
      (Trace.evalFormula settings levels seed formula) := by
  induction levels generalizing seed formula with
  | zero => exact (leavesStore_refuse _).settles
  | succ levels ih =>
    obtain ⟨r, hr, rfl⟩ := hformula
    refine settles_evalPass (fun nodes hnodes => ?_) (hrules r hr) seed
    exact (settles_runEach hname (fun q _ htext => ih q htext) nodes hnodes).onFailure
      (leavesStore_showStack settings)

/-- The course of a name along a line. -/
theorem settles_runLine (hname : name ≠ "") {settings : Settings}
    (hrules : ∀ r ∈ settings.rules, '=' ∉ r.formula.toList) (depth : Int) {nodes : List Node}
    (hnodes : ∀ n ∈ nodes, n.Operators fun o => o.arity ≠ .assign) :
    Settles name (runLine settings (settings.formulaAt depth) nodes)
      (Trace.each settings (settings.formulaAt depth)
        (Trace.evalFormula settings (settings.levelsBelow depth)) nodes) :=
  (settles_runEach hname (fun q _ htext => settles_evalFormula hname hrules _ q htext) nodes
    hnodes).onFailure (leavesStore_showStack settings)

end Eval

end Reckoner
