import Reckoner.Proofs.Evaluation.Alike
import Reckoner.Session

/-!
# Lines that are read and run

Evaluating a line reads it into its tree (`Session.exists_readText`) and runs
that. Where the run succeeds, the value on top is the result
(`Session.execute_of_runLine`). A line that is too long is not read
(`Session.execute_of_tooLong`).

Lines can be evaluated one after another (`Session.leaves?`). Where each of them leaves the
store alone when it is read, and none has anything to say, this comes to running the trees of
all of them in one line, unless reading one is interrupted (`Session.AreSilent.leaves?_eq`).
-/

namespace Reckoner

/-! ## Steps that succeed -/

namespace Eval

/-- The machine that the step leaves, if it succeeds. -/
def leaves? (x : Eval PUnit) (m : Machine) : Option Machine :=
  match x m with
  | .ok _ m => some m
  | .error .. => none

/-- Where the step succeeds, it says nothing. -/
def IsSilent (x : Eval PUnit) : Prop :=
  ∀ m m', x m = .ok ⟨⟩ m' → m'.messages = m.messages

variable {x y : Eval PUnit} {m m' : Machine}

theorem leaves?_eq_some : leaves? x m = some m' ↔ x m = .ok ⟨⟩ m' := by
  rw [leaves?]
  split
  · rename_i hx
    rw [hx]
    exact ⟨fun h => Option.some.inj h ▸ rfl, fun h => by cases h; rfl⟩
  · rename_i hx
    rw [hx]
    exact ⟨nofun, nofun⟩

theorem leaves?_bind : leaves? (x >>= fun _ => y) m = (leaves? x m).bind (leaves? y) := by
  cases hx : x m with
  | ok _ m' => rw [leaves?, bind_of_ok hx, leaves?, hx]; rfl
  | error e m' => rw [leaves?, bind_of_error hx, leaves?, hx]; rfl

/-- What is done after a failure makes it no success. -/
theorem leaves?_onFailure : leaves? (onFailure x y) m = leaves? x m := by
  rw [leaves?, leaves?, onFailure]
  cases x m with
  | ok _ m' => rfl
  | error e m' =>
    cases e with
    | failed => dsimp only; cases y m' <;> rfl
    | fault f => rfl

theorem IsSilent.bind (hx : IsSilent x) (hy : IsSilent y) : IsSilent (x >>= fun _ => y) := by
  intro m m'' h
  have hleaves := leaves?_eq_some.2 h
  rw [leaves?_bind] at hleaves
  obtain ⟨m', hx', hy'⟩ := Option.bind_eq_some_iff.1 hleaves
  exact (hy _ _ (leaves?_eq_some.1 hy')).trans (hx _ _ (leaves?_eq_some.1 hx'))

theorem leaves?_runLine [DigitLimit] (settings : Settings) (formula : Formula) (nodes : List Node) :
    leaves? (runLine settings formula nodes) m = leaves? (runEach settings formula nodes) m :=
  leaves?_onFailure

end Eval

namespace Session

variable [DigitLimit] {settings : Settings} {s : Session} {text : String} {nodes : List Node}
  {r : Reader} {m : Machine}

/-- What reading tells: whether it has come to nodes, or the fault. -/
def told : Except Halt (List Node) → Except Fault Bool
  | .ok _ => .ok true
  | .error .failed => .ok false
  | .error (.fault f) => .error f

/-- A line that is not too long is read into the tree that its text comes to. -/
theorem parse_eq (hlength : ¬settings.maxLength < text.length) :
    (s.begun text).parse settings text =
      (told (Node.readText none ⟨text.toList, s.machine.store, []⟩).1,
        (s.begun text).reading
          ((Node.readText none ⟨text.toList, s.machine.store, []⟩).1.toOption.getD [])
          (Node.readText none ⟨text.toList, s.machine.store, []⟩).2) := by
  rw [parse, if_neg hlength]
  cases hread : Node.readText none ⟨text.toList, s.machine.store, []⟩ with
  | mk nodes r => rcases nodes with (_ | f) | nodes <;> simp only [begun, hread] <;> rfl

theorem parse_of_readText (hlength : ¬settings.maxLength < text.length)
    (hread : Node.readText none ⟨text.toList, s.machine.store, []⟩ = (.ok nodes, r)) :
    (s.begun text).parse settings text = (.ok true, (s.begun text).reading nodes r) := by
  rw [parse_eq hlength, hread]
  rfl

/-- A line that is too long is refused before it is read: there is one error, and
    nothing else changes. -/
theorem execute_of_tooLong (h : settings.maxLength < text.length) :
    s.execute settings text = (.ok none,
      { s.begun text with
        nodes := []
        machine := { s.machine with
          messages := [(Failure.tooLong settings.maxLength).message] } }) := by
  rw [execute, parse, if_pos h]
  rfl

theorem nodes_run (settings : Settings) (s : Session) : (s.run settings).2.nodes = s.nodes := by
  rw [run]
  split <;> rfl

/-- Wherever the run of the tree ends, it leaves the store of the session. -/
theorem store_run {I : Store → Prop}
    (h : Ends (Eval.runLine settings (settings.formulaAt 0) s.nodes) s.machine
      (fun _ m => I m.store) fun _ m => I m.store) :
    I (s.run settings).2.machine.store := by
  rw [run]
  split
  · rename_i hx
    exact h.of_ok hx
  · rename_i hx
    exact h.of_error hx
  · rename_i hx
    exact h.of_error hx

theorem run_of_runLine
    (hrun : Eval.runLine settings (settings.formulaAt 0) s.nodes s.machine = .ok ⟨⟩ m) :
    s.run settings = (.ok m.stack.head?, { s with machine := m }) := by
  rw [run, hrun]

theorem execute_of_runLine (hparse : (s.begun text).parse settings text =
      (.ok true, (s.begun text).reading nodes r))
    (hrun : Eval.runLine settings (settings.formulaAt 0) nodes
      ((s.begun text).reading nodes r).machine = .ok ⟨⟩ m) :
    s.execute settings text =
      (.ok m.stack.head?, { (s.begun text).reading nodes r with machine := m }) := by
  rw [execute, hparse]
  exact run_of_runLine hrun

/-- Lines that are read alike are evaluated alike: they have the same result, and leave the same
    session but for the line in its history. It does not matter how far they have been read. -/
theorem execute_of_readText_eq {text' : String} {read : Except Halt (List Node)} {store : Store}
    {messages : List Message} {rest rest' : List Char}
    (hlength : ¬settings.maxLength < text.length) (hlength' : ¬settings.maxLength < text'.length)
    (h : Node.readText none ⟨text.toList, s.machine.store, []⟩ = (read, ⟨rest, store, messages⟩))
    (h' : Node.readText none ⟨text'.toList, s.machine.store, []⟩ =
      (read, ⟨rest', store, messages⟩)) :
    s.execute settings text =
      ((s.execute settings text').1,
        { (s.execute settings text').2 with history := s.history ++ [text] }) := by
  rw [execute, execute, parse_eq hlength, parse_eq hlength', h, h']
  rcases read with (_ | f) | nodes
  · rfl
  · rfl
  · dsimp only [told, run, reading, begun]
    split <;> rfl

/-! ## Lines one after another -/

/-- The session after the line, if that succeeds: it can be read, and its tree run. -/
def after? (settings : Settings) (text : String) (s : Session) : Option Session :=
  match (s.begun text).parse settings text with
  | (.ok true, s) =>
    match Eval.runLine settings (settings.formulaAt 0) s.nodes s.machine with
    | .ok _ m => some { s with machine := m }
    | .error .. => none
  | _ => none

/-- What lines leave that succeed one after another. -/
def leaves? (settings : Settings) : List String → Session → Option Machine
  | [], s => some s.machine
  | text :: lines, s => (s.after? settings text).bind (leaves? settings lines)

/-- The line is read into the nodes, unless the fault interrupts that. It leaves the store alone,
    and neither reading it nor running it has anything to say. -/
structure IsSilent (settings : Settings) (fault? : Option Fault) (text : String)
    (nodes : List Node) : Prop where
  fits : ¬settings.maxLength < text.length
  reads : ∀ store, ∃ rest, Node.readText none ⟨text.toList, store, []⟩ =
    (fault?.elim (.ok nodes) (.error <| .fault ·), ⟨rest, store, []⟩)
  runs : Eval.IsSilent (Eval.runEach settings (settings.formulaAt 0) nodes)

/-- Such lines, with the first fault and the nodes of all of them. -/
inductive AreSilent (settings : Settings) : Option Fault → List String → List Node → Prop
  | line {fault? : Option Fault} {text : String} {nodes : List Node}
    (h : IsSilent settings fault? text nodes) : AreSilent settings fault? [text] nodes
  | cons {fault? fault?' : Option Fault} {text : String} {lines : List String}
    {nodes nodes' : List Node} (h : IsSilent settings fault? text nodes)
    (h' : AreSilent settings fault?' lines nodes') :
    AreSilent settings (fault?.or fault?') (text :: lines) (nodes ++ nodes')

variable {fault? : Option Fault}

theorem IsSilent.after?_eq (h : IsSilent settings fault? text nodes) (s : Session) :
    s.after? settings text =
      if fault?.isSome then none
      else (Eval.leaves? (Eval.runEach settings (settings.formulaAt 0) nodes)
        { s.machine with messages := [] }).map fun m =>
          { s.begun text with nodes := nodes, machine := m } := by
  obtain ⟨rest, hread⟩ := h.reads s.machine.store
  cases fault? with
  | some f =>
    rw [after?, parse_eq h.fits, hread]
    rfl
  | none =>
    rw [after?, parse_of_readText h.fits hread, ← Eval.leaves?_runLine, Eval.leaves?]
    dsimp only [reading, begun]
    split <;> rfl

/-- The lines leave what one line of all their nodes would leave, and nothing if reading one
    of them is interrupted. -/
theorem AreSilent.leaves?_eq {lines : List String} (h : AreSilent settings fault? lines nodes)
    (s : Session) :
    s.leaves? settings lines =
      if fault?.isSome then none
      else Eval.leaves? (Eval.runEach settings (settings.formulaAt 0) nodes)
        { s.machine with messages := [] } := by
  induction h generalizing s with
  | @line fault? text nodes h =>
    rw [leaves?, h.after?_eq]
    cases fault? with
    | some f => rfl
    | none => cases Eval.leaves? _ _ <;> rfl
  | @cons fault? fault?' text lines nodes nodes' h _ ih =>
    rw [leaves?, h.after?_eq]
    cases fault? with
    | some f => rfl
    | none =>
      rw [Option.none_or, Eval.runEach_append, Eval.leaves?_bind]
      cases hleaves : Eval.leaves? (Eval.runEach settings (settings.formulaAt 0) nodes)
          { s.machine with messages := [] } with
      | none => cases fault?' <;> rfl
      | some m =>
        -- There were no messages to take away before the next line.
        have hmessages : m.messages = [] := h.runs _ _ (Eval.leaves?_eq_some.1 hleaves)
        have hnext := ih { s.begun text with nodes := nodes, machine := m }
        dsimp only at hnext
        rw [← hmessages] at hnext
        exact hnext

end Session

end Reckoner
