import Reckoner.Proofs.Abreast
import Reckoner.Proofs.Evaluation.Judgement

/-!
# Evaluation and the user

Evaluation takes replies from the user one after another, and puts none back; and what
names it has asked for is not looked at again. So on two machines that differ at most in
that (`Machine.Beside`), every step of evaluation does the same, and leaves them beside
each other, with a part of the same replies to come (`Eval.unasked_runLine`).
-/

namespace Reckoner

variable {lines : List Reply} {m m' : Machine}

/-- The machines differ at most in the names asked for, and the replies to come are the last
    of the given ones. -/
structure Machine.Beside (lines : List Reply) (m m' : Machine) : Prop where
  stack : m.stack = m'.stack
  store : m.store = m'.store
  messages : m.messages = m'.messages
  replies : m.replies = m'.replies
  left : ∃ rest, m.replies = some rest ∧ rest <:+ lines

theorem Machine.Beside.with_stack (h : m.Beside lines m') (stack : List Quantity) :
    ({ m with stack := stack } : Machine).Beside lines { m' with stack := stack } :=
  ⟨rfl, h.store, h.messages, h.replies, h.left⟩

theorem Machine.Beside.saying (h : m.Beside lines m') (messages : List Message) :
    ({ m with messages := m.messages ++ messages } : Machine).Beside lines
      { m' with messages := m'.messages ++ messages } :=
  ⟨h.stack, h.store, congrArg (· ++ messages) h.messages, h.replies, h.left⟩

/-- Machines beside each other are left with the same replies but for the first. -/
theorem Machine.Beside.asked (h : m.Beside lines m') (asked asked' : List String) :
    ({ m with replies := m.replies.map List.tail, asked := asked } : Machine).Beside lines
      { m' with replies := m'.replies.map List.tail, asked := asked' } := by
  obtain ⟨rest, hrest, hsuffix⟩ := h.left
  refine ⟨h.stack, h.store, h.messages, congrArg (Option.map List.tail) h.replies,
    rest.tail, ?_, ?_⟩
  · dsimp only
    rw [hrest]
    rfl
  · exact (List.tail_suffix rest).trans hsuffix

namespace Eval

variable {α β : Type}

/-- On machines beside each other, the step does the same, and its results are in `R`. -/
def Unasked (lines : List Reply) (R : α → Prop) (x : Eval α) : Prop :=
  Abreast (Machine.Beside lines) (fun a b => a = b ∧ R a) x x

variable {R : α → Prop} {T : β → Prop}

/-! ## Composing steps -/

theorem Unasked.bind {x : Eval α} {f : α → Eval β} (hx : Unasked lines R x)
    (hf : ∀ a, R a → Unasked lines T (f a)) : Unasked lines T (x >>= f) :=
  Abreast.bind hx fun a _ h => h.1 ▸ hf a h.2

theorem unasked_pure {a : α} (h : R a) : Unasked lines R (pure a) := abreast_pure ⟨rfl, h⟩

theorem unasked_say (message : Message) : Unasked lines (fun _ => True) (say message) :=
  fun _ _ h => .ok ⟨rfl, trivial⟩ (h.saying [message])

theorem unasked_refuse (f : Failure) : Unasked lines R (refuse f) :=
  fun _ _ h => .error (h.saying [f.message])

theorem unasked_stack : Unasked lines (fun _ => True) stack :=
  fun _ _ h => .ok ⟨h.stack, trivial⟩ h

theorem unasked_setStack (qs : List Quantity) : Unasked lines (fun _ => True) (setStack qs) :=
  fun _ _ h => .ok ⟨rfl, trivial⟩ (h.with_stack qs)

theorem unasked_restoring {x : Eval α} (qs : List Quantity) (hx : Unasked lines R x) :
    Unasked lines R (restoring qs x) := by
  intro m m' h
  have hagree := hx m m' h
  rw [restoring, restoring]
  generalize x m = result at hagree ⊢
  generalize x m' = result' at hagree ⊢
  cases hagree with
  | ok ha h => exact .ok ha h
  | @error e _ _ h =>
    cases e with
    | failed => exact .error (h.with_stack qs)
    | fault f => exact .error h

/-- A failure is a failure, whatever is done behind it. -/
theorem Unasked.agree_failed {y : Eval PUnit} (hy : Unasked lines (fun _ => True) y)
    (h : m.Beside lines m') :
    Agree (Machine.Beside lines) (fun a b => a = b ∧ True)
      (match y m with
        | .ok _ m => .error .failed m
        | result => result)
      (match y m' with
        | .ok _ m => .error .failed m
        | result => result) := by
  have hagree := hy m m' h
  generalize y m = result at hagree ⊢
  generalize y m' = result' at hagree ⊢
  cases hagree with
  | ok _ h => exact .error h
  | error h => exact .error h

theorem unasked_andAlways {x y : Eval PUnit} (hx : Unasked lines (fun _ => True) x)
    (hy : Unasked lines (fun _ => True) y) : Unasked lines (fun _ => True) (andAlways x y) := by
  intro m m' h
  have hagree := hx m m' h
  rw [andAlways, andAlways]
  generalize x m = result at hagree ⊢
  generalize x m' = result' at hagree ⊢
  cases hagree with
  | ok _ h => exact hy _ _ h
  | @error e _ _ h =>
    cases e with
    | failed => exact hy.agree_failed h
    | fault f => exact .error h

theorem unasked_onFailure {x y : Eval PUnit} (hx : Unasked lines (fun _ => True) x)
    (hy : Unasked lines (fun _ => True) y) : Unasked lines (fun _ => True) (onFailure x y) := by
  intro m m' h
  have hagree := hx m m' h
  rw [onFailure, onFailure]
  generalize x m = result at hagree ⊢
  generalize x m' = result' at hagree ⊢
  cases hagree with
  | ok _ h => exact .ok ⟨rfl, trivial⟩ h
  | @error e _ _ h =>
    cases e with
    | failed => exact hy.agree_failed h
    | fault f => exact .error h

/-! ## Showing -/

section

variable (settings : Settings)

theorem unasked_shown (q : Quantity) : Unasked lines (fun _ => True) (shown settings q) := by
  rw [shown]
  split
  · exact unasked_pure trivial
  · exact abreast_throw _

theorem unasked_discard_shown (q : Quantity) :
    Unasked lines (fun _ => True) (discard (shown settings q)) :=
  (unasked_shown settings q).bind fun _ _ => unasked_pure trivial

theorem unasked_showTop : Unasked lines (fun _ => True) (showTop settings) := by
  refine unasked_stack.bind fun qs _ => ?_
  cases qs with
  | cons top below => exact unasked_discard_shown settings top
  | nil => exact unasked_pure trivial

theorem unasked_showStack : Unasked lines (fun _ => True) (showStack settings) := by
  refine unasked_stack.bind fun qs _ => ?_
  induction qs.reverse with
  | nil => exact unasked_pure trivial
  | cons q qs ih => exact (unasked_discard_shown settings q).bind fun _ _ => ih

end

/-! ## Asking -/

/-- A question takes the next reply, whatever has been asked before. -/
theorem unasked_question (name : String) : Unasked lines (fun _ => True) (question name) := by
  refine abreast_get.bind fun m m' h => ?_
  refine (abreast_set (h.asked _ _)).bind fun _ _ _ => ?_
  rw [h.replies]
  split
  · exact unasked_pure trivial
  · exact abreast_throw _
  · exact abreast_throw _
  · exact unasked_pure trivial
  · exact unasked_pure trivial

theorem unasked_storing (q : Quantity) {refused : Failure → Eval PUnit}
    (hrefused : ∀ f, Unasked lines (fun _ => True) (refused f)) :
    Unasked lines (fun _ => True) (storing q refused) := by
  refine abreast_get.bind fun m m' h => ?_
  rw [h.store]
  split
  · exact fun _ _ h => .ok ⟨rfl, trivial⟩ ⟨h.stack, rfl, h.messages, h.replies, h.left⟩
  · exact hrefused _

variable [DigitLimit]

theorem unasked_ask (attempts : Nat) (q : Quantity) :
    Unasked lines (fun _ => True) (q.ask attempts) := by
  induction attempts with
  | zero => exact unasked_refuse _
  | succ attempts ih =>
    refine (unasked_question q.name).bind fun text _ => ?_
    dsimp only
    split
    · exact unasked_pure trivial
    · split
      · exact (unasked_storing _ fun f => unasked_say f.message).bind fun _ _ =>
          unasked_pure trivial
      · exact (unasked_say _).bind fun _ _ => ih
      · exact abreast_throw _

theorem unasked_confirm (settings : Settings) (q : Quantity) :
    Unasked lines (fun _ => True) (q.confirm settings) := by
  rw [Quantity.confirm]
  split
  · exact unasked_pure trivial
  · refine abreast_get.bind fun m m' h => ?_
    rw [h.store, h.replies]
    split
    · exact unasked_pure trivial
    · split
      · exact unasked_refuse _
      · split
        · exact (unasked_say _).bind fun _ _ => unasked_ask _ q
        · exact unasked_ask _ q

/-! ## All of evaluation -/

/-- A pass does not look at what has been asked if its run does not. -/
theorem unasked_evalPass {run : List Node → Eval PUnit} {seed : Quantity} {formula : String}
    (hrun : ∀ nodes, Unasked lines (fun _ => True) (run nodes)) :
    Unasked lines (fun _ => True) (evalPass run seed formula) := by
  intro m m' h
  rw [evalPass, evalPass, h.store]
  -- Both read the formula with the same store, and so into the same nodes.
  generalize Node.readText (some seed) ⟨formula.toList, m'.store, []⟩ = read
  obtain ⟨nodes, r⟩ := read
  cases nodes with
  | error e =>
    cases e with
    | failed => exact .error ⟨h.stack, rfl, congrArg (· ++ _) h.messages, h.replies, h.left⟩
    | fault f => exact .error ⟨h.stack, rfl, h.messages, h.replies, h.left⟩
  | ok nodes =>
    have hagree := hrun nodes { m with stack := [], store := r.store, messages := r.messages }
      { m' with stack := [], store := r.store, messages := r.messages }
      ⟨rfl, rfl, rfl, h.replies, h.left⟩
    dsimp only
    generalize run nodes { m with stack := [], store := r.store, messages := r.messages } = result
      at hagree ⊢
    generalize run nodes { m' with stack := [], store := r.store, messages := r.messages } = result'
      at hagree ⊢
    cases hagree with
    | @ok _ _ after after' _ hafter =>
      dsimp only
      rw [hafter.stack]
      cases after'.stack with
      | cons top below =>
        exact .ok ⟨rfl, trivial⟩ ⟨h.stack, hafter.store, h.messages, hafter.replies, hafter.left⟩
      | nil =>
        refine .error ⟨h.stack, hafter.store, ?_, hafter.replies, hafter.left⟩
        dsimp only
        rw [h.messages, hafter.messages]
    | @error e after after' hafter =>
      cases e with
      | failed =>
        refine .error ⟨h.stack, hafter.store, ?_, hafter.replies, hafter.left⟩
        dsimp only
        rw [h.messages, hafter.messages]
      | fault f =>
        exact .error ⟨h.stack, hafter.store, h.messages, hafter.replies, hafter.left⟩

/-- Not looking at what has been asked is a judgement. -/
def unasking (settings : Settings) (lines : List Reply) : Judgement settings fun _ => True where
  Holds := Unasked lines
  makes _ _ _ _ _ := trivial
  pure := unasked_pure
  bind := Unasked.bind
  refuse := unasked_refuse
  stack _ _ h := .ok ⟨h.stack, fun _ _ => trivial⟩ h
  setStack _ := unasked_setStack _
  shown := unasked_shown settings
  restoring hx _ := unasked_restoring _ hx
  andAlways hx := unasked_andAlways hx (unasked_showTop settings)
  onFailure hx := unasked_onFailure hx (unasked_showStack settings)
  confirm _ := unasked_confirm settings _
  storing _ _ _ _ _ hrefused := unasked_storing _ hrefused
  evalPass _ _ hrun := unasked_evalPass fun nodes => hrun nodes fun node _ =>
    node.each_of_forall fun _ _ => trivial

/-- Running a line takes replies, and does not look at what has been asked. -/
theorem unasked_runLine (settings : Settings) (depth : Int) (nodes : List Node) :
    Unasked lines (fun _ => True) (runLine settings (settings.formulaAt depth) nodes) :=
  (unasking settings lines).runLine
    (fun _ _ htext hq => (unasking settings lines).evalFormula _ htext hq)
    fun node _ => node.each_of_forall fun _ _ => trivial

end Eval

end Reckoner
