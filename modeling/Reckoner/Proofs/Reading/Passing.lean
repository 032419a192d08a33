import Reckoner.Proofs.Reading.Whole

/-!
# Nodes one after another

The nodes of a line and those of a group are read alike, one after another, each
in the state the one before has ended in (`Passes`), until the text ends or a
bracket closes. What is said here of reading is said up to blanks (`Gives`), as
each part of it passes the blanks in front of it: it does not matter which of
two parts has passed those between them. A fault on the way interrupts all of it
(`GivesUnless`), so that the fault of two parts is that of the first one that has
one.
-/

namespace Reckoner

open Text

namespace Build

variable {α β : Type} {x : Build α} {f : α → Build β} {store : Store} {messages : List Message}
  {text text' behind behind' : List Char} {fault? fault?' : Option Fault} {a : α} {b : β}

/-! ## Texts up to blanks -/

/-- The step begins behind the blanks. -/
def SkipsBlanks (x : Build α) : Prop :=
  ∀ r : Reader, x r = x { r with rest := skipBlanks r.rest }

theorem SkipsBlanks.bind (hx : SkipsBlanks x) : SkipsBlanks (x >>= f) := fun r => by
  simp only [Bind.bind, EStateM.bind]
  rw [hx r]

theorem skipsBlanks_ahead : SkipsBlanks ahead := fun r => by
  rw [ahead_eq, ahead_eq, skipBlanks_skipBlanks]

/-- Reading the text up to what is behind gives the value, up to blanks, unless the
    fault interrupts it; and it changes nothing else. -/
def GivesUnless (store : Store) (messages : List Message) (fault? : Option Fault) (x : Build α)
    (text : List Char) (a : α) (behind : List Char) : Prop :=
  match fault? with
  | none => ∃ rest, x ⟨text, store, messages⟩ = .ok a ⟨rest, store, messages⟩ ∧
      skipBlanks rest = skipBlanks behind
  | some f => ∃ rest, x ⟨text, store, messages⟩ = .error (.fault f) ⟨rest, store, messages⟩

/-- Reading the text up to what is behind gives the value. -/
abbrev Gives (store : Store) (messages : List Message) (x : Build α) (text : List Char) (a : α)
    (behind : List Char) : Prop :=
  GivesUnless store messages none x text a behind

/-- Only what becomes of the text matters. -/
theorem GivesUnless.of_eq {y : Build α} (h : GivesUnless store messages fault? y text' a behind)
    (hsame : x ⟨text, store, messages⟩ = y ⟨text', store, messages⟩) :
    GivesUnless store messages fault? x text a behind := by
  rw [GivesUnless.eq_def, hsame]
  exact h

theorem SkipsBlanks.gives (hx : SkipsBlanks x)
    (h : GivesUnless store messages fault? x text a behind)
    (htext : skipBlanks text' = skipBlanks text) :
    GivesUnless store messages fault? x text' a behind := by
  refine h.of_eq ?_
  rw [hx, hx ⟨text, store, messages⟩]
  dsimp only
  rw [htext]

/-- The blanks behind the text belong to it or to what is behind. -/
theorem GivesUnless.before (h : GivesUnless store messages fault? x text a behind)
    (hbehind : skipBlanks behind = skipBlanks behind') :
    GivesUnless store messages fault? x text a behind' := by
  cases fault? with
  | none =>
    obtain ⟨rest, hrun, hrest⟩ := h
    exact ⟨rest, hrun, hrest.trans hbehind⟩
  | some f => exact h

/-- A fault interrupts all that follows. -/
theorem GivesUnless.bind_of_fault {fault : Fault}
    (h : GivesUnless store messages (some fault) x text a behind) :
    GivesUnless store messages (some fault) (x >>= f) text b behind' := by
  obtain ⟨rest, hrun⟩ := h
  exact ⟨rest, bind_of_error hrun⟩

theorem GivesUnless.bind (h : GivesUnless store messages fault? x text a behind)
    (hf : SkipsBlanks (f a)) (h' : GivesUnless store messages fault?' (f a) behind b behind') :
    GivesUnless store messages (fault?.or fault?') (x >>= f) text b behind' := by
  cases fault? with
  | none =>
    obtain ⟨rest, hrun, hrest⟩ := h
    exact (hf.gives h' hrest).of_eq (bind_of_ok hrun)
  | some fault => exact h.bind_of_fault

/-- What is done last does not have to read. -/
theorem GivesUnless.map (h : GivesUnless store messages fault? x text a behind) (g : α → β) :
    GivesUnless store messages fault? (x >>= fun a => pure (g a)) text (g a) behind := by
  cases fault? with
  | none =>
    obtain ⟨rest, hrun, hrest⟩ := h
    exact ⟨rest, bind_of_ok hrun, hrest⟩
  | some fault => exact h.bind_of_fault

end Build

open Build

namespace Node

variable {store : Store} {messages : List Message} {text behind behind' : List Char}
  {fault? fault?' : Option Fault} {node node₁ node' : Node} {nodes nodes' before : List Node}
  {o : Operator}

/-! ## Steps -/

variable [DigitLimit]

theorem skipsBlanks_turn (node : Node) : SkipsBlanks node.turn :=
  skipsBlanks_ahead.bind

theorem skipsBlanks_read (node : Node) : SkipsBlanks node.read := by
  rw [read_eq]
  exact node.skipsBlanks_turn.bind

theorem skipsBlanks_readNodes (o : Operator) (state : NodeState) (nodes : List Node) :
    SkipsBlanks (readNodes o state nodes) := by
  rw [readNodes_eq]
  exact skipsBlanks_ahead.bind

theorem skipsBlanks_readLineOn (node : Node) : SkipsBlanks node.readLineOn := by
  rw [readLineOn_eq]
  exact node.skipsBlanks_read.bind

/-! ## Nodes -/

theorem gives_read_done
    (h : GivesUnless store messages fault? node.turn text (.done node') behind) :
    GivesUnless store messages fault? node.read text node' behind := by
  rw [read_eq]
  cases fault? with
  | none =>
    obtain ⟨rest, hturn, hrest⟩ := h
    exact ⟨rest, bind_of_ok hturn, hrest⟩
  | some fault => exact h.bind_of_fault

theorem gives_read_again
    (h : GivesUnless store messages fault? node.turn text (.again node₁) behind)
    (h' : GivesUnless store messages fault?' node₁.read behind node' behind') :
    GivesUnless store messages (fault?.or fault?') node.read text node' behind' := by
  rw [read_eq]
  exact h.bind (f := Turn.followed read _) node₁.skipsBlanks_read h'

theorem gives_read_nest (h : Gives store messages node.turn text (.nest node₁) behind)
    (h' : GivesUnless store messages fault? (blank .initial).read behind node' behind') :
    GivesUnless store messages fault? node.read text (node₁.nesting node') behind' := by
  rw [read_eq]
  exact h.bind (f := Turn.followed read _) (skipsBlanks_read _).bind (h'.map _)

theorem gives_read_enter (h : Gives store messages node.turn text (.enter node₁ o) behind)
    (h' : GivesUnless store messages fault? (readNodes o .initial node₁.children) behind nodes
      behind') :
    GivesUnless store messages fault? node.read text { node₁ with children := nodes } behind' := by
  rw [read_eq]
  exact h.bind (f := Turn.followed read _) (skipsBlanks_readNodes _ _ _).bind
    (h'.map fun nodes => ({ node₁ with children := nodes } : Node))

/-- A node that is read on with is as if it had been begun so. -/
theorem gives_read_bind_again {α : Type} {f : Node → Build α} {a : α}
    (h : GivesUnless store messages fault? node.turn text (.again node₁) behind)
    (h' : GivesUnless store messages fault?' (node₁.read >>= f) behind a behind') :
    GivesUnless store messages (fault?.or fault?') (node.read >>= f) text a behind' := by
  rw [read_eq node, bind_assoc]
  exact h.bind (f := fun turn => Turn.followed read _ turn >>= f) node₁.skipsBlanks_read.bind h'

/-! ## Nodes one after another -/

/-- Reading nodes one after another, from one on that has been begun, completes
    the given ones and goes on with another one, at another place, unless the
    fault interrupts it. -/
inductive Passes (store : Store) (messages : List Message) :
    Option Fault → Node → List Char → List Node → Node → List Char → Prop
  | refl (node : Node) (text : List Char) : Passes store messages none node text [] node text
  | again {fault? fault?' : Option Fault} {node node₁ node' : Node} {text text₁ text' : List Char}
      {nodes : List Node} :
    GivesUnless store messages fault? node.turn text (.again node₁) text₁ →
      Passes store messages fault?' node₁ text₁ nodes node' text' →
      Passes store messages (fault?.or fault?') node text nodes node' text'
  | next {fault? fault?' : Option Fault} {node node₁ node' : Node} {text text₁ text' : List Char}
      {nodes : List Node} :
    GivesUnless store messages fault? node.read text node₁ text₁ → node₁.isEmpty = false →
      node₁.state ≠ .closeParen →
      Passes store messages fault?' (blank node₁.state) text₁ nodes node' text' →
      Passes store messages (fault?.or fault?') node text (node₁ :: nodes) node' text'

theorem Passes.of_again
    (h : GivesUnless store messages fault? node.turn text (.again node₁) behind) :
    Passes store messages fault? node text [] node₁ behind := by
  have hpasses := Passes.again h (.refl node₁ behind)
  rwa [Option.or_none] at hpasses

theorem Passes.of_next (h : GivesUnless store messages fault? node.read text node₁ behind)
    (hempty : node₁.isEmpty = false) (hstate : node₁.state ≠ .closeParen) :
    Passes store messages fault? node text [node₁] (blank node₁.state) behind := by
  have hpasses := Passes.next h hempty hstate (.refl _ behind)
  rwa [Option.or_none] at hpasses

theorem Passes.trans (h : Passes store messages fault? node text nodes node₁ behind)
    (h' : Passes store messages fault?' node₁ behind nodes' node' behind') :
    Passes store messages (fault?.or fault?') node text (nodes ++ nodes') node' behind' := by
  induction h with
  | refl => exact h'
  | again hturn _ ih =>
    rw [Option.or_assoc]
    exact .again hturn (ih h')
  | next hread hempty hstate _ ih =>
    rw [Option.or_assoc]
    exact .next hread hempty hstate (ih h')

/-- At the end of the text nothing more is read. -/
theorem gives_readLineOn_nil (node : Node) :
    Gives store messages node.readLineOn [] (if node.isEmpty then [] else [node]) [] := by
  have hturn : Gives store messages node.turn [] (.done node) [] := ⟨[], turn_ended node rfl, rfl⟩
  rw [readLineOn_eq]
  exact (gives_read_done hturn).bind skipsBlanks_ahead.bind ⟨[], rfl, rfl⟩

theorem gives_readLineOn_next (h : GivesUnless store messages fault? node.read text node₁ behind)
    (hempty : node₁.isEmpty = false)
    (h' : GivesUnless store messages fault?' (blank node₁.state).readLineOn behind nodes behind') :
    GivesUnless store messages (fault?.or fault?') node.readLineOn text (node₁ :: nodes)
      behind' := by
  rw [readLineOn_eq]
  refine h.bind skipsBlanks_ahead.bind ?_
  by_cases hend : skipBlanks behind = []
  · -- The line ends here, where a blank node would come to nothing.
    have hfrom : GivesUnless store messages fault?' (blank node₁.state).readLineOn [] nodes
        behind' := (skipsBlanks_readLineOn _).gives h' hend.symm
    obtain ⟨rest', hrun', hrest'⟩ : Gives store messages (blank node₁.state).readLineOn [] [] [] :=
      gives_readLineOn_nil _
    cases fault?' with
    | none =>
      obtain ⟨rest, hrun, hrest⟩ := hfrom
      rw [hrun'] at hrun
      cases hrun
      refine ⟨[], (bind_of_ok (Build.ahead_eq _)).trans ?_, hrest'.symm.trans hrest⟩
      simp only [hend, hempty]
      rfl
    | some f =>
      obtain ⟨rest, hrun⟩ := hfrom
      rw [hrun'] at hrun
      cases hrun
  · have hmore : (do
          let text ← Build.ahead
          if text.isEmpty then return [node₁]
          else return [node₁] ++ (← (blank node₁.state).readLineOn) : Build (List Node))
            ⟨behind, store, messages⟩ =
        ((blank node₁.state).readLineOn >>= fun nodes => pure (node₁ :: nodes))
          ⟨skipBlanks behind, store, messages⟩ := by
      refine (bind_of_ok (Build.ahead_eq _)).trans ?_
      dsimp only
      rw [if_neg (by simpa using hend)]
      rfl
    rw [hempty, if_neg Bool.false_ne_true]
    exact (((skipsBlanks_readLineOn _).gives h' (skipBlanks_skipBlanks behind)).map
      (node₁ :: ·)).of_eq hmore

/-- What is left of a line. -/
theorem Passes.readLineOn (h : Passes store messages fault? node text nodes node' behind)
    (h' : GivesUnless store messages fault?' node'.readLineOn behind nodes' []) :
    GivesUnless store messages (fault?.or fault?') node.readLineOn text (nodes ++ nodes') [] := by
  induction h with
  | refl => exact h'
  | again hturn _ ih =>
    have hline := ih h'
    rw [readLineOn_eq] at hline ⊢
    rw [Option.or_assoc]
    exact gives_read_bind_again hturn hline
  | next hread hempty _ _ ih =>
    rw [Option.or_assoc]
    exact gives_readLineOn_next hread hempty (ih h')

/-- The nodes of a group from one on that has been begun. -/
def readNodesOn (o : Operator) (nodes : List Node) (node : Node) : Build (List Node) := do
  let node ← node.read
  if node.state = .closeParen then return nodes ++ [node]
  else readNodes o node.state (nodes ++ [node])

theorem skipsBlanks_readNodesOn (o : Operator) (nodes : List Node) (node : Node) :
    SkipsBlanks (readNodesOn o nodes node) :=
  node.skipsBlanks_read.bind

theorem gives_readNodes {state : NodeState} (hmore : skipBlanks text ≠ [])
    (h : GivesUnless store messages fault? (readNodesOn o before (blank state)) text nodes behind) :
    GivesUnless store messages fault? (readNodes o state before) text nodes behind := by
  refine ((skipsBlanks_readNodesOn o before _).gives h (skipBlanks_skipBlanks text)).of_eq ?_
  rw [readNodes_eq]
  refine (bind_of_ok (Build.ahead_eq _)).trans ?_
  dsimp only
  rw [if_neg (by simpa using hmore)]
  rfl

/-- While nodes are passed, the text does not end. -/
theorem Passes.more (h : Passes store messages fault? node text nodes node' behind)
    (hmore : skipBlanks behind ≠ []) : skipBlanks text ≠ [] := by
  induction h with
  | refl => exact hmore
  | @again fault? _ node _ _ _ _ _ _ hturn _ _ =>
    intro hend
    have hdone := turn_ended (r := ⟨_, store, messages⟩) node hend
    cases fault? with
    | none =>
      obtain ⟨_, hrun, -⟩ := hturn
      rw [hdone] at hrun
      cases hrun
    | some f =>
      obtain ⟨_, hrun⟩ := hturn
      rw [hdone] at hrun
      cases hrun
  | @next fault? _ node node₁ _ text text₁ _ _ hread _ _ _ ih =>
    intro hend
    obtain ⟨rest', hrun', hrest'⟩ : Gives store messages node.read text node [] :=
      gives_read_done ⟨[], turn_ended node hend, rfl⟩
    cases fault? with
    | none =>
      obtain ⟨rest, hrun, hrest⟩ := hread
      rw [hrun] at hrun'
      cases hrun'
      exact ih hmore (hrest.symm.trans hrest')
    | some f =>
      obtain ⟨rest, hrun⟩ := hread
      rw [hrun] at hrun'
      cases hrun'

/-- What is left of a group that is closed. -/
theorem Passes.readNodesOn (h : Passes store messages fault? node text nodes node' behind)
    (hmore : skipBlanks behind ≠ []) (hclosed : node₁.state = .closeParen)
    (h' : Gives store messages node'.read behind node₁ behind') :
    GivesUnless store messages fault? (readNodesOn o before node) text
      (before ++ (nodes ++ [node₁])) behind' := by
  induction h generalizing before with
  | refl =>
    obtain ⟨rest, hrun, hrest⟩ := h'
    refine ⟨rest, (bind_of_ok hrun).trans ?_, hrest⟩
    rw [if_pos hclosed]
    rfl
  | again hturn _ ih => exact gives_read_bind_again hturn (ih hmore h')
  | @next _ _ _ first _ _ _ _ rest hread _ hstate hpasses ih =>
    -- The group goes on behind the node, as there is its closing bracket at least.
    refine hread.bind ?_ ?_ <;> rw [if_neg hstate]
    · exact skipsBlanks_readNodes _ _ _
    · refine gives_readNodes (hpasses.more hmore) ?_
      rw [List.cons_append, List.append_cons before first (rest ++ [node₁])]
      exact ih hmore h'

/-- A group is opened, passed and closed. -/
theorem gives_read_group {opener : Operator} {last : Node} {inner : List Char}
    (hopen : Gives store messages node.turn text (.enter { node with state := .paren } opener)
      inner)
    (hchildren : node.children = [])
    (hpasses : Passes store messages fault? (blank .initial) inner nodes last behind)
    (hmore : skipBlanks behind ≠ [])
    (hclose : Gives store messages last.read behind { last with state := .closeParen } behind') :
    GivesUnless store messages fault? node.read text
      { node with state := .paren, children := nodes ++ [{ last with state := .closeParen }] }
      behind' := by
  have hnodes : GivesUnless store messages fault?
      (Node.readNodesOn opener [] (blank .initial)) inner
      (nodes ++ [{ last with state := .closeParen }]) behind' :=
    hpasses.readNodesOn hmore rfl hclose
  refine gives_read_enter hopen ?_
  dsimp only
  rw [hchildren]
  exact gives_readNodes (hpasses.more hmore) hnodes

end Node

end Reckoner
