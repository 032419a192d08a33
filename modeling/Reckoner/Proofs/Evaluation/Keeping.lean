import Reckoner.Proofs.Evaluation.Judgement
import Reckoner.Proofs.Evaluation.Showing

/-!
# What evaluation keeps

An inherited property (`Quantity.Inherited`) of all values on the stack, and what
is known of the store for that, are kept by every step of evaluation
(`Eval.keeping`). They are so wherever the step ends: a failure leaves values
that have the property, and so does an interruption, although the values need
not be those there were before. The only names that are looked up on the way are
those in formulas, so that a property that is merely passed on is kept too if
these have it (`Eval.keepingBy`).
-/

namespace Reckoner

/-- The store is as `I` has it, and all values have the property. -/
structure Machine.Meets (I : Store → Prop) (P : Quantity → Prop) (m : Machine) : Prop where
  store : I m.store
  stack : ∀ q ∈ m.stack, P q

namespace Eval

variable {α β : Type} {I : Store → Prop} {P : Quantity → Prop} {R : α → Prop} {T : β → Prop}

/-- What the machine meets it still meets afterwards, wherever the step ends; and
    results are in `R`. -/
def Keeps (I : Store → Prop) (P : Quantity → Prop) (R : α → Prop) (x : Eval α) : Prop :=
  ∀ m : Machine, m.Meets I P →
    Ends x m (fun a m' => R a ∧ m'.Meets I P) fun _ m' => m'.Meets I P

/-! ## Composing steps -/

theorem Keeps.bind {x : Eval α} {f : α → Eval β} (hx : Keeps I P R x)
    (hf : ∀ a, R a → Keeps I P T (f a)) : Keeps I P T (x >>= f) := fun m hm =>
  ends_bind.2 ((hx m hm).mono (fun a m' h => hf a h.1 m' h.2) fun _ _ h => h)

theorem keeps_pure {a : α} (h : R a) : Keeps I P R (pure a) := fun _ hm => ⟨h, hm⟩

theorem keeps_get : Keeps I P (fun m => I m.store) get := fun _ hm => ⟨hm.store, hm⟩

theorem keeps_say (message : Message) : Keeps I P (fun _ => True) (say message) := fun _ hm =>
  ⟨trivial, hm.store, hm.stack⟩

theorem keeps_refuse (f : Failure) : Keeps I P R (refuse f) := fun _ hm => ⟨hm.store, hm.stack⟩

theorem keeps_stack : Keeps I P (fun qs => ∀ q ∈ qs, P q) stack := fun _ hm => ⟨hm.stack, hm⟩

theorem keeps_setStack {qs : List Quantity} (h : ∀ q ∈ qs, P q) :
    Keeps I P (fun _ => True) (setStack qs) := fun _ hm =>
  ⟨trivial, hm.store, h⟩

theorem keeps_restoring {x : Eval α} {qs : List Quantity} (hx : Keeps I P R x)
    (h : ∀ q ∈ qs, P q) : Keeps I P R (restoring qs x) := fun m hm =>
  ends_restoring.2 ((hx m hm).mono (fun _ _ h => h) fun e m' hm' => by
    cases e with
    | failed => exact ⟨hm'.store, h⟩
    | fault f => exact hm')

theorem keeps_andAlways {x y : Eval PUnit} (hx : Keeps I P (fun _ => True) x)
    (hy : Keeps I P (fun _ => True) y) : Keeps I P (fun _ => True) (andAlways x y) := fun m hm =>
  ends_andAlways.2 ((hx m hm).mono (fun _ m' h => hy m' h.2) fun e m' hm' => by
    cases e with
    | failed => exact (hy m' hm').mono (fun _ _ h => h.2) fun _ _ h => h
    | fault f => exact hm')

theorem keeps_onFailure {x y : Eval PUnit} (hx : Keeps I P (fun _ => True) x)
    (hy : Keeps I P (fun _ => True) y) : Keeps I P (fun _ => True) (onFailure x y) := fun m hm =>
  ends_onFailure.2 ((hx m hm).mono (fun _ _ h => h) fun e m' hm' => by
    cases e with
    | failed => exact (hy m' hm').mono (fun _ _ h => h.2) fun _ _ h => h
    | fault f => exact hm')

/-! ## Showing -/

section

variable (settings : Settings)

theorem keeps_shown (q : Quantity) : Keeps I P (fun _ => True) (shown settings q) := by
  rw [shown]
  split
  · exact keeps_pure trivial
  · exact fun _ hm => hm

theorem keeps_discard_shown (q : Quantity) :
    Keeps I P (fun _ => True) (discard (shown settings q)) :=
  (keeps_shown settings q).bind fun _ _ => keeps_pure trivial

theorem keeps_showTop : Keeps I P (fun _ => True) (showTop settings) := by
  refine keeps_stack.bind fun qs _ => ?_
  cases qs with
  | cons top below => exact keeps_discard_shown settings top
  | nil => exact keeps_pure trivial

theorem keeps_showStack : Keeps I P (fun _ => True) (showStack settings) := by
  refine keeps_stack.bind fun qs _ => ?_
  induction qs.reverse with
  | nil => exact keeps_pure trivial
  | cons q qs ih => exact (keeps_discard_shown settings q).bind fun _ _ => ih

end

/-! ## Asking -/

theorem keeps_question (name : String) : Keeps I P (fun _ => True) (question name) := by
  intro m hm
  refine ends_bind.2 (ends_get.2 (ends_bind.2 (ends_set.2 ?_)))
  split
  · exact ⟨trivial, hm.store, hm.stack⟩
  · exact ⟨hm.store, hm.stack⟩
  · exact ⟨hm.store, hm.stack⟩
  · exact ⟨trivial, hm.store, hm.stack⟩
  · exact ⟨trivial, hm.store, hm.stack⟩

section

variable (hP : Quantity.Passed I P)
include hP

theorem keeps_storing {q : Quantity} {measure : Measure} {refused : Failure → Eval PUnit}
    (magnitude : Magnitude) (format literal : String) (hq : P q)
    (hmeasure : Quantity.Lends P measure) (hrefused : ∀ f, Keeps I P (fun _ => True) (refused f)) :
    Keeps I P (fun _ => True) (storing (q.valued magnitude measure format literal) refused) := by
  intro m hm
  refine ends_bind.2 (ends_get.2 ?_)
  split
  · rename_i hassign
    exact ⟨trivial, hP.assigned _ _ _ hm.store hq hmeasure hassign, hm.stack⟩
  · exact hrefused _ m hm

variable [DigitLimit]

theorem each_ofAnswer? {answer : List Char} {literal : Quantity}
    (h : Quantity.ofAnswer? answer = .ok (some literal)) : P literal := by
  rw [Quantity.ofAnswer?] at h
  split at h
  · rename_i q rest hread
    split at h
    · exact Option.some.inj (Except.ok.inj h) ▸ (Quantity.reads_readLiteral hP answer).of_ok hread
    · cases h
  · cases h
  · cases h

variable {q : Quantity} (hq : P q) (hvariable : q.isVariable = true)
include hq hvariable

theorem keeps_ask (attempts : Nat) : Keeps I P P (q.ask attempts) := by
  induction attempts with
  | zero => exact keeps_refuse _
  | succ attempts ih =>
    refine (keeps_question q.name).bind fun text _ => ?_
    dsimp only
    split
    · rw [Quantity.resolved_eq_valued]
      exact keeps_pure (hP.valued _ _ _ hq hvariable (Quantity.lends_measure hq))
    · split
      · rename_i literal hliteral
        have hmeasure : Quantity.Lends P (literal.measure.orElse q.measure) :=
          (Quantity.lends_measure (each_ofAnswer? hP hliteral)).orElse (Quantity.lends_measure hq)
        rw [keep_eq_storing, Quantity.answered_eq_valued]
        exact (keeps_storing hP _ _ _ hq hmeasure fun f => keeps_say f.message).bind fun _ _ =>
          keeps_pure (hP.valued _ _ _ hq hvariable hmeasure)
      · exact (keeps_say _).bind fun _ _ => ih
      · exact fun _ hm => hm

omit hvariable in
theorem keeps_confirm (settings : Settings) : Keeps I P P (q.confirm settings) := by
  rw [Quantity.confirm]
  split
  · exact keeps_pure hq
  · rename_i hvariable
    have hvariable : q.isVariable = true := by
      simp only [Bool.or_eq_true, Bool.not_eq_true', not_or, Bool.not_eq_false] at hvariable
      exact hvariable.1
    refine keeps_get.bind fun m hstore => ?_
    split
    · rename_i e hfind
      rw [Quantity.updated_eq_valued]
      exact keeps_pure (hP.valued _ _ _ hq hvariable
        ((Quantity.lends_measure hq).orElse (hP.lent hstore hfind)))
    · split
      · exact keeps_refuse _
      · have hask := keeps_ask hP hq hvariable Quantity.maxAttempts
        split
        · exact (keeps_say _).bind fun _ _ => hask
        · exact hask

end

/-! ## All of evaluation -/

variable [DigitLimit]

/-- Reading the formula of a rule, behind a value with the property, comes to operands
    that have it, and leaves the store as it has to be. -/
def ReadsFormulas (settings : Settings) (I : Store → Prop) (P : Quantity → Prop) : Prop :=
  ∀ (seed : Quantity) (formula : String) (store : Store), settings.HasFormula formula → P seed →
    I store →
    (∀ nodes, (Node.readText (some seed) ⟨formula.toList, store, []⟩).1 = .ok nodes →
      ∀ node ∈ nodes, node.Each P) ∧
    I (Node.readText (some seed) ⟨formula.toList, store, []⟩).2.store

/-- Where names that are looked up have the property, formulas are no different from
    lines. -/
theorem readsFormulas_of_inherited (settings : Settings) (hP : Quantity.Inherited I P) :
    ReadsFormulas settings I P := by
  intro seed formula store _ hseed hstore
  have hseed' : ∀ q, some seed = some q → P q := fun _ h => Option.some.inj h ▸ hseed
  exact ⟨fun _ => Node.each_of_readText hP hseed' (r := ⟨formula.toList, store, []⟩) hstore,
    Node.store_of_readText hP hseed' (r := ⟨formula.toList, store, []⟩) hstore⟩

/-- A pass keeps what its run keeps. -/
theorem keeps_evalPass {settings : Settings} (hreads : ReadsFormulas settings I P)
    {run : List Node → Eval PUnit} {seed : Quantity} {formula : String}
    (hformula : settings.HasFormula formula) (hseed : P seed)
    (hrun : ∀ nodes, (∀ node ∈ nodes, node.Each P) → Keeps I P (fun _ => True) (run nodes)) :
    Keeps I P P (evalPass run seed formula) := by
  intro m hm
  obtain ⟨heach, hstore⟩ := hreads seed formula m.store hformula hseed hm.store
  refine ends_evalPass (fun r hread => ?_) (fun f r hread => ?_) fun nodes r hread => ?_
  · rw [hread] at hstore
    exact ⟨hstore, hm.stack⟩
  · rw [hread] at hstore
    exact ⟨hstore, hm.stack⟩
  · rw [hread] at heach hstore
    refine (hrun nodes (heach nodes rfl) _ ⟨hstore, List.forall_mem_nil _⟩).mono
      (fun _ after h => ?_) fun e after hafter => ?_
    · -- The stack of the pass is given up, whichever way its run ends.
      obtain ⟨-, hafter⟩ := h
      exact ⟨fun top htop =>
          ⟨hafter.stack top (List.mem_of_mem_head? htop), hafter.store, hm.stack⟩,
        fun _ => ⟨hafter.store, hm.stack⟩⟩
    · cases e with
      | failed => exact ⟨hafter.store, hm.stack⟩
      | fault f => exact ⟨hafter.store, hm.stack⟩

/-- Keeping what is passed on is a judgement, given that reading formulas passes it
    on. -/
def keepingBy {settings : Settings} (hP : Quantity.Passed I P)
    (hreads : ReadsFormulas settings I P) : Judgement settings P where
  Holds := Keeps I P
  makes := hP.makes
  pure := keeps_pure
  bind := Keeps.bind
  refuse := keeps_refuse
  stack := keeps_stack
  setStack := keeps_setStack
  shown := keeps_shown settings
  restoring := keeps_restoring
  andAlways hx := keeps_andAlways hx (keeps_showTop settings)
  onFailure hx := keeps_onFailure hx (keeps_showStack settings)
  confirm hq := keeps_confirm hP hq settings
  storing := keeps_storing hP
  evalPass := keeps_evalPass hreads

/-- Keeping what is inherited is a judgement. -/
def keeping (settings : Settings) (hP : Quantity.Inherited I P) : Judgement settings P :=
  keepingBy hP.toPassed (readsFormulas_of_inherited settings hP)

/-- A line leaves behind what it has found, wherever it ends. -/
theorem keeps_runLine_by {settings : Settings} (hP : Quantity.Passed I P)
    (hreads : ReadsFormulas settings I P) (depth : Int) {nodes : List Node}
    (h : ∀ node ∈ nodes, node.Each P) :
    Keeps I P (fun _ => True) (runLine settings (settings.formulaAt depth) nodes) :=
  (keepingBy hP hreads).runLine
    (fun _ _ htext hq => (keepingBy hP hreads).evalFormula _ htext hq) h

theorem keeps_runLine (hP : Quantity.Inherited I P) (settings : Settings) (depth : Int)
    {nodes : List Node} (h : ∀ node ∈ nodes, node.Each P) :
    Keeps I P (fun _ => True) (runLine settings (settings.formulaAt depth) nodes) :=
  keeps_runLine_by hP.toPassed (readsFormulas_of_inherited settings hP) depth h

end Eval

end Reckoner
