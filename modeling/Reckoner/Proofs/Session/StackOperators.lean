import Reckoner.Proofs.Phrase.Series
import Reckoner.Proofs.Session.Lines

/-!
# Operators on the stack

`;` drops the value on top of the stack, and `swap` exchanges the two on top. On a line of its
own such an operator deals with what the lines before have left, and so it does between two
series on one line. But like any operator of one operand it takes a group that follows for its
argument: it waits until that has been evaluated, as if it stood behind it
(`StackOperator.leaves?_line`). So `5 ; (7)` leaves the five, and not the seven.
-/

namespace Reckoner

open Text Build Node Eval

/-! ## Series as lines -/

namespace Series

variable {settings : Settings} {formula : Formula} {e : Series} {a : String}

/-- The node of a series in brackets on a line of its own. -/
def group (e : Series) : Node :=
  ⟨.paren, none, [], [], e.enclosed⟩

variable [DigitLimit]

theorem isSilent_run (e : Series) : Eval.IsSilent (e.run settings formula) := by
  intro m m' h
  obtain ⟨q, -, rfl⟩ := e.exists_of_run h
  rfl

theorem IsLine.isSilent (h : e.IsLine a.toList) (hfits : ¬settings.maxLength < a.length) :
    Session.IsSilent settings e.fault? a e.nodes where
  fits := hfits
  reads _ := readText_of_givesUnless h.gives_build
  runs := by
    rw [e.runEach_nodes]
    exact e.isSilent_run

theorem runEach_group (e : Series) :
    runEach settings formula [e.group] = e.run settings formula := by
  simp only [runEach_singleton, group, runNode, push_nil, pure_bind, bind_pure_unit,
    runEach_enclosed]

theorem IsGroup.isSilent (h : e.IsGroup a.toList) (hfits : ¬settings.maxLength < a.length) :
    Session.IsSilent settings e.fault? a [e.group] where
  fits := hfits
  reads _ := by
    have hempty : e.group.isEmpty = false := by simp [group, Node.isEmpty, enclosed]
    rw [← Option.or_none (o := e.fault?)]
    exact readText_of_givesUnless
      (gives_readLineOn_next (h.gives_read rfl (by decide) rfl) hempty (gives_readLineOn_nil _))
  runs := by
    rw [runEach_group]
    exact e.isSilent_run

end Series

/-! ## Operators -/

/-- The operators on the stack. -/
inductive StackOperator
  | drop
  | swap

namespace StackOperator

def operator : StackOperator → Operator
  | drop => ⟨";", "clear", .drop, "drop the top of the stack"⟩
  | swap => ⟨"swap", "swap", .swap, "swap the top two values"⟩

variable (o : StackOperator) {settings : Settings} {formula : Formula} {store : Store}
  {messages : List Message} {text behind : List Char} {e g : Series}

theorem mem_table : o.operator ∈ Operator.table := by
  cases o <;> decide

theorem arity_eq : o.operator.arity = .unary := by
  cases o <;> rfl

/-- The nodes of the operator on a line of its own. -/
def nodes : List Node :=
  [⟨.function, some o.operator, [], [], []⟩]

/-- The node that a series is read on with, once it has the operator and the group behind
    that. -/
def deferred (e g : Series) : Node :=
  { e.last with operator := some o.operator, state := .paren, children := g.enclosed }

/-- The node that a series is read on with, once it has the operator. -/
def closing (e : Series) : Node :=
  { e.last with operator := some o.operator, state := .function }

/-- The text with the operator between two others, and blanks around it. -/
def between (text text' : List Char) : List Char :=
  text ++ ' ' :: (o.operator.spelling.toList ++ ' ' :: text')

/-- The line with the operator between two texts, and a blank on both sides of it. -/
def line (a b : String) : String :=
  a ++ " " ++ o.operator.spelling ++ " " ++ b

theorem toList_line (a b : String) :
    (o.line a b).toList = o.between a.toList b.toList := by
  simp [line, between]

theorem length_line (a b : String) :
    (o.line a b).length = a.length + o.operator.spelling.length + b.length + 2 := by
  simp only [line, String.length_append]
  have hblank : " ".length = 1 := rfl
  omega

section

variable [DigitLimit]

theorem isSilent_apply : Eval.IsSilent (apply settings formula o.operator) := by
  have hfacts : o.operator.action.isImplemented = true ∧ o.operator.action.operands = 1 ∧
      o.operator.action.confirmed = 0 := by
    cases o <;> exact ⟨rfl, rfl, rfl⟩
  obtain ⟨himplemented, hoperands, hconfirmed⟩ := hfacts
  rintro ⟨stack, store, messages, replies, asked⟩ m' h
  cases stack with
  | nil =>
    rw [apply, himplemented, hoperands] at h
    cases h
  | cons top below =>
    have happly := alike_perform settings formula o.operator
      (m := ⟨top :: below, store, messages, replies, asked⟩) himplemented
      (hoperands ▸ Nat.le_add_left 1 _) (by rw [hconfirmed]; exact List.forall_mem_nil _)
    rw [h] at happly
    obtain hsame | ⟨-, why, m'', hfault⟩ := happly
    · -- Both only take from the stack and put back there.
      have hperform := hsame.symm.eq_ok
      cases o with
      | drop =>
        cases hperform
        rfl
      | swap =>
        cases below <;> cases hperform
        rfl
    · cases hfault

/-! ## Reading -/

/-- In front of anything but a group, the operator completes a node. -/
theorem gives_turn_done {node : Node} (hstate : node.state ≠ .convert)
    (htakes : node.takesOperator = true) (hbehind : AtBlank behind)
    (hgroup : opensGroup (skipBlanks behind) = false) :
    Gives store messages node.turn (o.operator.spelling.toList ++ behind)
      (.done { node with operator := some o.operator, state := .function }) behind := by
  refine gives_turn_operator o.mem_table hstate htakes hbehind ?_
  rw [o.arity_eq, if_neg (by decide), addOperator, o.arity_eq]
  dsimp only
  rw [hgroup, if_neg Bool.false_ne_true]
  rfl

/-- In front of a group, it waits for that. -/
theorem gives_turn_again {node : Node} (hstate : node.state ≠ .convert)
    (htakes : node.takesOperator = true) (hbehind : AtBlank behind)
    (hgroup : opensGroup (skipBlanks behind) = true) :
    Gives store messages node.turn (o.operator.spelling.toList ++ behind)
      (.again { node with operator := some o.operator, state := .unary }) behind := by
  refine gives_turn_operator o.mem_table hstate htakes hbehind ?_
  rw [o.arity_eq, if_neg (by decide), addOperator, o.arity_eq]
  dsimp only
  rw [hgroup, if_pos rfl]
  rfl

theorem readText_spelling :
    readText none ⟨o.operator.spelling.toList, store, messages⟩ =
      (.ok o.nodes, ⟨[], store, messages⟩) := by
  have hturn : Gives store messages (Node.blank .initial).turn
      (o.operator.spelling.toList ++ []) (.done ⟨.function, some o.operator, [], [], []⟩) [] :=
    o.gives_turn_done (by decide) rfl (.inl rfl) rfl
  rw [List.append_nil] at hturn
  exact readText_of_gives
    (gives_readLineOn_next (gives_read_done hturn) rfl (gives_readLineOn_nil _))

variable {o} {text' : List Char}

/-- The node that the series in front is read on with is read from the operator on. -/
theorem gives_between {node : Node} {nodes : List Node} {fault? fault?' : Option Fault}
    (he : e.IsLine text)
    (hnode : GivesUnless store messages fault? e.last.read
      (o.operator.spelling.toList ++ ' ' :: text') node behind)
    (hempty : node.isEmpty = false)
    (hbehind : GivesUnless store messages fault?' (Node.blank node.state).readLineOn behind nodes
      []) :
    GivesUnless store messages (e.fault?.or (fault?.or fault?')) (build none)
      (o.between text text') (e.complete ++ node :: nodes) [] := by
  obtain ⟨rest, hreads, hrest⟩ := he
  have hpasses : Passes store messages e.fault? (.blank .initial) (o.between text text')
      e.complete e.last (rest ++ ' ' :: (o.operator.spelling.toList ++ ' ' :: text')) :=
    (hreads.append (atBlank_cons _)).passes (.inl rfl)
  have hread := (skipsBlanks_read _).gives hnode
    ((skipBlanks_append_of_eq_nil hrest _).trans (skipBlanks_cons _))
  exact hpasses.readLineOn (gives_readLineOn_next hread hempty hbehind)

/-- The operator between a series and a group is read into the node of the group. -/
theorem gives_deferred (he : e.IsLine text) (hg : g.IsGroup text') :
    GivesUnless store messages (e.fault?.or g.fault?) (build none) (o.between text text')
      (e.complete ++ [o.deferred e g]) [] := by
  have hgroup : opensGroup (skipBlanks (' ' :: text')) = true := by
    rw [skipBlanks_cons]
    exact hg.opensGroup_eq
  have hread : GivesUnless store messages g.fault?
      { e.last with operator := some o.operator, state := .unary }.read text'
      (o.deferred e g) [] :=
    hg.gives_read (by simp [takesOperator]) (by simp) e.last_eq.2.2
  have hnode : GivesUnless store messages g.fault? e.last.read
      (o.operator.spelling.toList ++ ' ' :: text') (o.deferred e g) [] :=
    gives_read_again
      (o.gives_turn_again e.state_last.2.2 e.takesOperator_last (atBlank_cons _) hgroup)
      ((skipsBlanks_read _).gives hread (skipBlanks_cons text'))
  rw [← Option.or_none (o := g.fault?)]
  exact gives_between he hnode rfl (gives_readLineOn_nil _)

/-- Between two series, it completes a node of the first one. -/
theorem gives_closing {e' : Series} (he : e.IsLine text) (he' : e'.IsLine text')
    (hsign : Operator.begins? (skipBlanks text') = none) :
    GivesUnless store messages (e.fault?.or e'.fault?) (build none) (o.between text text')
      (e.complete ++ o.closing e :: e'.nodes) [] := by
  have hgroup : opensGroup (skipBlanks (' ' :: text')) = false := by
    rw [skipBlanks_cons, opensGroup, hsign]
  have hnode : Gives store messages e.last.read (o.operator.spelling.toList ++ ' ' :: text')
      (o.closing e) (' ' :: text') :=
    gives_read_done
      (o.gives_turn_done e.state_last.2.2 e.takesOperator_last (atBlank_cons _) hgroup)
  exact gives_between he hnode rfl
    ((skipsBlanks_readLineOn _).gives (he'.gives_readLineOn (.inr ⟨rfl, hsign⟩))
      (skipBlanks_cons text'))

/-! ## Running -/

section

variable (settings formula)

theorem runEach_deferred (o : StackOperator) (e g : Series) :
    runEach settings formula (e.complete ++ [o.deferred e g]) = (do
      e.run settings formula
      g.run settings formula
      apply settings formula o.operator) := by
  obtain ⟨-, hparams, -⟩ := e.last_eq
  rw [← Series.runEach_complete e, ← Series.runEach_enclosed g]
  simp only [runEach_append, runEach_singleton, deferred, runNode, hparams, push_nil, pure_bind,
    bind_assoc]

theorem runEach_closing (o : StackOperator) (e e' : Series) :
    runEach settings formula (e.complete ++ o.closing e :: e'.nodes) = (do
      e.run settings formula
      apply settings formula o.operator
      e'.run settings formula) := by
  obtain ⟨-, hparams, hchildren⟩ := e.last_eq
  rw [← Series.runEach_complete e, ← Series.runEach_nodes e']
  simp only [runEach_append, runEach, closing, runNode, hparams, hchildren, push_nil, pure_bind,
    bind_assoc]

theorem runEach_spelling (o : StackOperator) :
    runEach settings formula o.nodes = apply settings formula o.operator := by
  simp only [nodes, runEach, runNode, push_nil, pure_bind, bind_pure_unit]

end

/-! ## Lines -/

theorem isSilent_spelling (o : StackOperator)
    (hfits : ¬settings.maxLength < o.operator.spelling.length) :
    Session.IsSilent settings none o.operator.spelling o.nodes where
  fits := hfits
  reads _ := ⟨[], o.readText_spelling⟩
  runs := by
    rw [runEach_spelling]
    exact o.isSilent_apply

section

variable (o : StackOperator) {a b : String} {e' : Series} (ha : e.IsLine a.toList)
  (hfits : ¬settings.maxLength < (o.line a b).length) (s : Session)
include ha hfits

/-- In front of a group, the operator acts as if it stood behind it. -/
theorem leaves?_before_group (hb : g.IsGroup b.toList) :
    s.leaves? settings [o.line a b] = s.leaves? settings [a, b, o.operator.spelling] := by
  have hlength := o.length_line a b
  have hfirst : Session.IsSilent settings e.fault? a e.nodes := ha.isSilent (by omega)
  have hsecond : Session.IsSilent settings g.fault? b [g.group] := hb.isSilent (by omega)
  have hoperator : Session.IsSilent settings none o.operator.spelling o.nodes :=
    o.isSilent_spelling (by omega)
  have hline : Session.IsSilent settings (e.fault?.or g.fault?) (o.line a b)
      (e.complete ++ [o.deferred e g]) :=
    { fits := hfits
      reads := fun _ => by
        rw [toList_line]
        exact readText_of_givesUnless (gives_deferred ha hb)
      runs := by
        rw [runEach_deferred]
        exact e.isSilent_run.bind (g.isSilent_run.bind o.isSilent_apply) }
  rw [(Session.AreSilent.line hline).leaves?_eq,
    (Session.AreSilent.cons hfirst (.cons hsecond (.line hoperator))).leaves?_eq,
    runEach_deferred, runEach_append, runEach_append, e.runEach_nodes, g.runEach_group,
    runEach_spelling, Option.or_none]

/-- In front of a series that begins with no sign, it acts where it stands. -/
theorem leaves?_before_series (hb : e'.IsLine b.toList)
    (hsign : Operator.begins? (skipBlanks b.toList) = none) :
    s.leaves? settings [o.line a b] = s.leaves? settings [a, o.operator.spelling, b] := by
  have hlength := o.length_line a b
  have hfirst : Session.IsSilent settings e.fault? a e.nodes := ha.isSilent (by omega)
  have hsecond : Session.IsSilent settings e'.fault? b e'.nodes := hb.isSilent (by omega)
  have hoperator : Session.IsSilent settings none o.operator.spelling o.nodes :=
    o.isSilent_spelling (by omega)
  have hline : Session.IsSilent settings (e.fault?.or e'.fault?) (o.line a b)
      (e.complete ++ o.closing e :: e'.nodes) :=
    { fits := hfits
      reads := fun _ => by
        rw [toList_line]
        exact readText_of_givesUnless (gives_closing ha hb hsign)
      runs := by
        rw [runEach_closing]
        exact e.isSilent_run.bind (o.isSilent_apply.bind e'.isSilent_run) }
  rw [(Session.AreSilent.line hline).leaves?_eq,
    (Session.AreSilent.cons hfirst (.cons hoperator (.line hsecond))).leaves?_eq,
    runEach_closing, runEach_append, runEach_append, e.runEach_nodes, e'.runEach_nodes,
    runEach_spelling, Option.none_or]

end

/-- In front of a group, the operator acts as if it stood behind it: the line succeeds exactly
    if the series, the group and the operator do as lines one after another, and leaves what
    they leave. In front of another series, which has to begin with no sign, it acts where it
    stands. -/
theorem leaves?_line (o : StackOperator) {a b : String} {e e' : Series} (ha : e.IsLine a.toList)
    (hfits : ¬settings.maxLength < (o.line a b).length) (s : Session) :
    (e'.IsGroup b.toList →
      s.leaves? settings [o.line a b] = s.leaves? settings [a, b, o.operator.spelling]) ∧
    (e'.IsLine b.toList → Operator.begins? (skipBlanks b.toList) = none →
      s.leaves? settings [o.line a b] = s.leaves? settings [a, o.operator.spelling, b]) :=
  ⟨o.leaves?_before_group ha hfits s, o.leaves?_before_series ha hfits s⟩

end

/-- The seven is dropped, where it is in brackets. -/
theorem group_dropped :
    ((Session.new .initial none).leaves? .default ["5 ; ( 7 )"] =
        (Session.new .initial none).leaves? .default ["5", "( 7 )", ";"] ∧
      ((Session.new .initial none).leaves? .default ["5 ; ( 7 )"]).map
        (fun m => m.stack.map Quantity.magnitude) = some [.whole 5]) ∧
    (Session.new .initial none).leaves? .default ["5 ; 7"] =
        (Session.new .initial none).leaves? .default ["5", ";", "7"] ∧
      ((Session.new .initial none).leaves? .default ["5 ; 7"]).map
        (fun m => m.stack.map Quantity.magnitude) = some [.whole 7] := by
  let five : Literal :=
    ⟨⟨false, ['5'], none⟩, none, by decide, List.forall_mem_singleton.2 rfl,
      Literal.isDigit_places_none, Literal.unit_mem_none⟩
  let seven : Literal :=
    ⟨⟨false, ['7'], none⟩, none, by decide, List.forall_mem_singleton.2 rfl,
      Literal.isDigit_places_none, Literal.unit_mem_none⟩
  have hfive := Series.isLine_literal five
  have hseven := Series.isLine_literal seven
  have hgroup := Series.isGroup_enclose .round hseven
  have ha : "5".toList = five.text := by decide +kernel
  have hb : "7".toList = seven.text := by decide +kernel
  have hg : "( 7 )".toList = Bracket.round.enclose seven.text := by decide +kernel
  rw [← ha] at hfive
  rw [← hb] at hseven
  rw [← hg] at hgroup
  have hbefore : "5 ; ( 7 )" = drop.line "5" "( 7 )" := by decide +kernel
  have hbetween : "5 ; 7" = drop.line "5" "7" := by decide +kernel
  refine ⟨⟨?_, by decide +kernel⟩, ?_, by decide +kernel⟩
  · rw [hbefore]
    exact (drop.leaves?_line hfive (by decide +kernel) (Session.new .initial none)).1 hgroup
  · rw [hbetween]
    exact (drop.leaves?_line hfive (by decide +kernel) (Session.new .initial none)).2 hseven
      (by decide +kernel)

/-- The five has been dropped before the seven is read, if they are on lines of their own. -/
theorem group_kept :
    ((Session.new .initial none).leaves? .default ["5 ; (7)"]).map
        (fun m => m.stack.map Quantity.magnitude) = some [.whole 5] ∧
      ((Session.new .initial none).leaves? .default ["5", ";", "(7)"]).map
        (fun m => m.stack.map Quantity.magnitude) = some [.whole 7] :=
  ⟨by decide +kernel, by decide +kernel⟩

end StackOperator

end Reckoner
