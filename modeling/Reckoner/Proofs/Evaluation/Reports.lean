import Reckoner.Proofs.Evaluation.Judgement
import Reckoner.Proofs.Evaluation.Showing
import Reckoner.Proofs.Reading.Whole

/-!
# One error for a failure

A step of evaluation reports (`Eval.Reports`): it adds no error to the messages
if it gives a result and exactly one if it fails, and nothing else interrupts
it but a whole number of too many digits, of which no error is said. That takes
an orderly machine (`Machine.Orderly`), whose user does not break
off and whose values that stand for a name have one: the value of a name without
letters could not be kept, and that would be an error without a failure. Steps
leave an orderly machine in either case, so that reporting is a judgement
(`Eval.reporting`) and a property of all steps, up to formulas of any depth
(`Eval.reports_evalFormula`) and whole lines (`Eval.reports_runLine`).
-/

namespace Reckoner

/-- The user says something, or that there is no more. -/
def Reply.isOrderly : Reply → Bool
  | line _ | endOfInput => true
  | interrupt | failure => false

/-- A machine on which failing is reported. -/
structure Machine.Orderly (m : Machine) : Prop where
  named : ∀ q ∈ m.stack, q.IsNamed
  replies : ∀ reply ∈ m.replies.getD [], reply.isOrderly = true

/-! ## Counting errors -/

/-- The messages have come to be others, with the given number of errors among
    those added. -/
def SaysErrors (count : Nat) (messages messages' : List Message) : Prop :=
  ∃ said, messages' = messages ++ said ∧ (Message.errors said).length = count

namespace SaysErrors

variable {messages messages' messages'' : List Message} {count count' : Nat}

theorem refl (messages : List Message) : SaysErrors 0 messages messages :=
  ⟨[], (List.append_nil _).symm, rfl⟩

theorem trans (h : SaysErrors count messages messages')
    (h' : SaysErrors count' messages' messages'') :
    SaysErrors (count + count') messages messages'' := by
  obtain ⟨said, rfl, hsaid⟩ := h
  obtain ⟨said', rfl, hsaid'⟩ := h'
  refine ⟨said ++ said', List.append_assoc .., ?_⟩
  rw [Message.errors, List.filter_append, List.length_append, ← Message.errors, ← Message.errors,
    hsaid, hsaid']

theorem zero_trans (h : SaysErrors 0 messages messages')
    (h' : SaysErrors count messages' messages'') : SaysErrors count messages messages'' :=
  Nat.zero_add count ▸ h.trans h'

theorem append (h : SaysErrors count messages messages') (before : List Message) :
    SaysErrors count (before ++ messages) (before ++ messages') := by
  obtain ⟨said, rfl, hsaid⟩ := h
  exact ⟨said, (List.append_assoc ..).symm, hsaid⟩

theorem other {m : Message} (h : m.isError = false) (messages : List Message) :
    SaysErrors 0 messages (messages ++ [m]) :=
  ⟨[m], rfl, by simp [Message.errors, h]⟩

theorem failure (f : Failure) (messages : List Message) :
    SaysErrors 1 messages (messages ++ [f.message]) :=
  ⟨[f.message], rfl, rfl⟩

end SaysErrors

/-- How many errors say that something halts. -/
def Halt.errorCount : Halt → Nat
  | .failed => 1
  | .fault _ => 0

/-- If a fault, it is that of too many digits. -/
def Halt.IsReported [DigitLimit] : Halt → Prop
  | .failed => True
  | .fault f => f.ExceedsLimit

/-- An answer cannot be read for a fault only if it has too many digits. -/
theorem Quantity.exceedsLimit_of_ofAnswer? [DigitLimit] {answer : List Char} {f : Fault}
    (h : ofAnswer? answer = .error f) : f.ExceedsLimit := by
  rw [ofAnswer?] at h
  split at h
  · cases h
  · cases h
  · rename_i hread
    cases h
    exact (limited_readLiteral answer).of_error hread

namespace Eval

/-- An orderly user gives an answer, which changes nothing else. -/
theorem ends_question {m : Machine} (name : String) (hm : m.Orderly) :
    Ends (question name) m
      (fun _ m' => m'.Orderly ∧ m'.store = m.store ∧ m'.messages = m.messages)
      fun _ _ => False := by
  refine ends_bind.2 (ends_get.2 (ends_bind.2 (ends_set.2 ?_)))
  -- The replies to come are those there were, but for the first.
  have htail : ∀ reply ∈ (m.replies.map List.tail).getD [], reply.isOrderly = true := by
    intro reply hreply
    cases hreplies : m.replies with
    | none => rw [hreplies] at hreply; cases hreply
    | some replies =>
      rw [hreplies] at hreply
      exact hm.replies reply (by rw [hreplies]; exact List.mem_of_mem_tail hreply)
  have hasked : ∀ asked, Machine.Orderly
      { m with replies := m.replies.map List.tail, asked := asked } := fun _ => ⟨hm.named, htail⟩
  split
  · exact ⟨hasked _, rfl, rfl⟩
  · rename_i heq
    exact absurd (hm.replies _ (heq ▸ List.mem_cons_self)) (by decide)
  · rename_i heq
    exact absurd (hm.replies _ (heq ▸ List.mem_cons_self)) (by decide)
  · exact ⟨hasked _, rfl, rfl⟩
  · exact ⟨hasked _, rfl, rfl⟩

variable [DigitLimit] {α β : Type} {P : α → Prop} {Q : β → Prop} {m m' : Machine}

/-! ## Reporting -/

/-- The step ends on the given machine, without an error in a result that has
    the property, or in failing with one. -/
def ReportsAt (P : α → Prop) (x : Eval α) (m : Machine) : Prop :=
  Ends x m (fun a m' => P a ∧ m'.Orderly ∧ SaysErrors 0 m.messages m'.messages)
    fun e m' => e.IsReported ∧ m'.Orderly ∧ SaysErrors e.errorCount m.messages m'.messages

/-- The step does so on every orderly machine. -/
def Reports (P : α → Prop) (x : Eval α) : Prop :=
  ∀ m : Machine, m.Orderly → ReportsAt P x m

/-- What reports once no error has been added reports on the whole. -/
theorem ReportsAt.after {x : Eval α} (hx : ReportsAt P x m')
    (h : SaysErrors 0 m.messages m'.messages) :
    Ends x m' (fun a m'' => P a ∧ m''.Orderly ∧ SaysErrors 0 m.messages m''.messages)
      fun e m'' =>
        e.IsReported ∧ m''.Orderly ∧ SaysErrors e.errorCount m.messages m''.messages :=
  hx.mono (fun _ _ ⟨ha, hm, hsaid⟩ => ⟨ha, hm, h.zero_trans hsaid⟩)
    fun _ _ ⟨he, hm, hsaid⟩ => ⟨he, hm, h.zero_trans hsaid⟩

theorem Reports.bind {x : Eval α} {f : α → Eval β} (hx : Reports P x)
    (hf : ∀ a, P a → Reports Q (f a)) : Reports Q (x >>= f) := fun m hm =>
  ends_bind.2 ((hx m hm).mono (fun a m' ⟨ha, hm', hsaid⟩ => (hf a ha m' hm').after hsaid)
    fun _ _ h => h)

theorem reports_pure {a : α} (h : P a) : Reports P (pure a) := fun m hm =>
  ⟨h, hm, .refl m.messages⟩

theorem reports_refuse (f : Failure) : Reports P (refuse f) := fun m hm =>
  ⟨trivial, ⟨hm.named, hm.replies⟩, .failure f m.messages⟩

theorem reports_stack : Reports (fun qs => ∀ q ∈ qs, q.IsNamed) stack := fun m hm =>
  ⟨hm.named, hm, .refl m.messages⟩

theorem reports_setStack {stack : List Quantity} (h : ∀ q ∈ stack, q.IsNamed) :
    Reports (fun _ => True) (setStack stack) := fun m hm =>
  ⟨trivial, ⟨h, hm.replies⟩, .refl m.messages⟩

theorem reports_storing {q : Quantity} {refused : Failure → Eval PUnit}
    (h : ∀ f, Reports (fun _ => True) (refused f)) :
    Reports (fun _ => True) (storing q refused) := by
  intro m hm
  refine ends_bind.2 (ends_get.2 ?_)
  split
  · exact ⟨trivial, ⟨hm.named, hm.replies⟩, .refl m.messages⟩
  · exact h _ m hm

theorem reports_shown {settings : Settings} (h : settings.ShowsReals) (q : Quantity) :
    Reports (fun _ => True) (shown settings q) := by
  intro m hm
  obtain ⟨text, htext⟩ := shown_eq_ok h q m
  rw [ReportsAt, Ends, htext]
  exact ⟨trivial, hm, .refl m.messages⟩

theorem reports_restoring {stack : List Quantity} {x : Eval α} (hx : Reports P x)
    (h : ∀ q ∈ stack, q.IsNamed) : Reports P (restoring stack x) := fun m hm =>
  ends_restoring.2 ((hx m hm).mono (fun _ _ h => h) fun e m' ⟨he, hm', hsaid⟩ => by
    cases e with
    | failed => exact ⟨he, ⟨h, hm'.replies⟩, hsaid⟩
    | fault f => exact ⟨he, hm', hsaid⟩)

/-! ## Asking -/

/-- A name that is not in the store can be given a value. -/
theorem reportsAt_keep {q : Quantity} (hname : q.name ≠ "") (hm : m.Orderly)
    (hfind : m.store.find? q.name = none) : ReportsAt (fun _ => True) (keep q) m := by
  have hassign : m.store.assign q = .ok (m.store.put ⟨Store.kept q, ""⟩) := by
    rw [Store.assign, if_neg (by simpa using hname), hfind]
  refine ends_bind.2 (ends_get.2 ?_)
  rw [hassign]
  exact ⟨trivial, ⟨hm.named, hm.replies⟩, .refl m.messages⟩

theorem reportsAt_ask (attempts : Nat) {q : Quantity} (hname : q.name ≠ "") (hm : m.Orderly)
    (hfind : m.store.find? q.name = none) : ReportsAt Quantity.IsNamed (q.ask attempts) m := by
  induction attempts generalizing m with
  | zero => exact reports_refuse _ m hm
  | succ attempts ih =>
    refine ends_bind.2 ((ends_question q.name hm).mono (fun text m' h => ?_) fun _ _ => False.elim)
    obtain ⟨hm', hstore, hmessages⟩ := h
    -- The question has left the store as it is: the name is still free in it.
    rw [← hstore] at hfind
    refine ReportsAt.after (m := m) ?_ (hmessages ▸ .refl _)
    dsimp only
    split
    · exact reports_pure (fun _ => hname) m' hm'
    · split
      · rename_i literal _
        have hkeep := reportsAt_keep (q := q.answered literal) hname hm' hfind
        exact ends_bind.2 (hkeep.mono (fun _ m'' h => ⟨fun _ => hname, h.2⟩) fun _ _ h => h)
      · refine ends_bind.2 (ends_modify.2 ?_)
        exact (ih (m := { m' with messages := m'.messages ++ [_] }) ⟨hm'.named, hm'.replies⟩
          hfind).after (.other rfl m'.messages)
      · rename_i hanswer
        exact ⟨Quantity.exceedsLimit_of_ofAnswer? hanswer, hm', .refl m'.messages⟩

theorem reports_confirm (settings : Settings) {q : Quantity} (hq : q.IsNamed) :
    Reports Quantity.IsNamed (q.confirm settings) := by
  rw [Quantity.confirm]
  split
  · exact reports_pure hq
  · rename_i hvariable
    have hname : q.name ≠ "" := hq (by simp at hvariable; exact hvariable.1)
    intro m hm
    refine ends_bind.2 (ends_get.2 ?_)
    split
    · exact reports_pure (fun _ => hname) m hm
    · rename_i hfind
      split
      · exact reports_refuse _ m hm
      · split
        · refine ends_bind.2 (ends_modify.2 ?_)
          exact (reportsAt_ask _ hname (m := { m with messages := m.messages ++ [_] })
            ⟨hm.named, hm.replies⟩ hfind).after (.other rfl m.messages)
        · exact reportsAt_ask _ hname hm hfind

/-! ## Formulas -/

/-- A pass reports what its run and reading its text report. -/
theorem reports_evalPass {run : List Node → Eval PUnit}
    (hrun : ∀ nodes, (∀ node ∈ nodes, node.Each Quantity.IsNamed) →
      Reports (fun _ => True) (run nodes))
    {seed : Quantity} (hseed : seed.IsNamed) (formula : String) :
    Reports Quantity.IsNamed (evalPass run seed formula) := by
  intro m hm
  have hread := Node.readText_says (some seed) ⟨formula.toList, m.store, []⟩
  have heach := @Node.each_of_readText _ _ Quantity.inherited_isNamed _ (some seed)
    (fun _ h => Option.some.inj h ▸ hseed) ⟨formula.toList, m.store, []⟩ trivial
  refine ends_evalPass (fun r hreader => ?_) (fun f r hreader => ?_) fun nodes r hreader => ?_
  · rw [hreader] at hread
    obtain ⟨said, hsaid, hread⟩ := hread
    rw [List.nil_append] at hsaid
    exact ⟨trivial, ⟨hm.named, hm.replies⟩, said, by rw [← hsaid], hread⟩
  · rw [hreader] at hread
    exact ⟨hread.choose_spec.2.1, ⟨hm.named, hm.replies⟩, .refl m.messages⟩
  · rw [hreader] at hread heach
    obtain ⟨said, hsaid, hread⟩ := hread
    rw [List.nil_append] at hsaid
    -- What reading and running say is passed on if the run fails, and only then.
    have hwarns : SaysErrors 0 m.messages (m.messages ++ r.messages) :=
      ⟨said, by rw [← hsaid], by rw [Node.errors_of_warnings hread.2]; rfl⟩
    have hrun := hrun nodes (heach rfl)
      { m with stack := [], store := r.store, messages := r.messages }
      ⟨List.forall_mem_nil _, hm.replies⟩
    refine hrun.mono (fun _ after h => ?_) fun e after h => ?_
    · obtain ⟨-, hafter, hreport⟩ := h
      refine ⟨fun top htop => ?_, fun _ => ?_⟩
      · exact ⟨hafter.named top (List.mem_of_mem_head? htop), ⟨hm.named, hafter.replies⟩,
          .refl m.messages⟩
      · exact ⟨trivial, ⟨hm.named, hafter.replies⟩,
          hwarns.zero_trans ((hreport.append m.messages).zero_trans (.failure _ _))⟩
    · obtain ⟨he, hafter, hreport⟩ := h
      cases e with
      | failed =>
        exact ⟨he, ⟨hm.named, hafter.replies⟩, hwarns.zero_trans (hreport.append m.messages)⟩
      | fault f => exact ⟨he, ⟨hm.named, hafter.replies⟩, .refl m.messages⟩

/-! ## All of evaluation -/

/-- Reporting is a judgement, as long as all real numbers can be shown. -/
def reporting {settings : Settings} (h : settings.ShowsReals) :
    Judgement settings Quantity.IsNamed where
  Holds := Reports
  makes := Quantity.inherited_isNamed.makes
  pure := reports_pure
  bind := Reports.bind
  refuse := reports_refuse
  stack := reports_stack
  setStack := reports_setStack
  shown := reports_shown h
  restoring := reports_restoring
  andAlways hx := (andAlways_showTop h _).symm ▸ hx
  onFailure hx := (onFailure_showStack h _).symm ▸ hx
  confirm := reports_confirm settings
  storing _ _ _ _ _ hrefused := reports_storing hrefused
  evalPass _ hseed hrun := reports_evalPass hrun hseed _

variable {settings : Settings} (h : settings.ShowsReals)
include h

theorem reports_evalFormula (levels : Nat) {seed : Quantity} (hseed : seed.IsNamed)
    {formula : String} (hformula : settings.HasFormula formula) :
    Reports Quantity.IsNamed (evalFormula settings levels seed formula) :=
  (reporting h).evalFormula levels hformula hseed

theorem reports_runLine (depth : Int) {nodes : List Node}
    (hnodes : ∀ node ∈ nodes, node.Each Quantity.IsNamed) :
    Reports (fun _ => True) (runLine settings (settings.formulaAt depth) nodes) :=
  (reporting h).runLine (fun _ _ htext hq => reports_evalFormula h _ hq htext) hnodes

end Eval

end Reckoner
