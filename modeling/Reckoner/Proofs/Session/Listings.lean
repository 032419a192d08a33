import Reckoner.Command
import Reckoner.Proofs.Session.Failure

/-!
# Listings

Where the default format shows every real number, everything that is listed has a text: the
stack, the store and the tree. So whatever a command prints is printed to the end
(`Command.printed_output`).
-/

namespace Reckoner

variable {settings : Settings}

theorem mapM_eq_ok {α β ε : Type} {f : α → Except ε β} (hf : ∀ a, ∃ b, f a = .ok b) (l : List α) :
    ∃ l', l.mapM f = .ok l' := by
  induction l with
  | nil => exact ⟨[], rfl⟩
  | cons a l ih =>
    obtain ⟨b, hb⟩ := hf a
    obtain ⟨l', hl'⟩ := ih
    exact ⟨b :: l', by rw [List.mapM_cons, hb, hl']; rfl⟩

/-! ## Trees -/

namespace Node

theorem texts_eq_ok (hshows : settings.ShowsReals) (qs : List Quantity) :
    ∃ text, texts settings qs = .ok text := by
  obtain ⟨l, hl⟩ := mapM_eq_ok (Quantity.text_eq_ok hshows) qs
  exact ⟨_, by rw [texts, hl]; rfl⟩

mutual

theorem lines_eq_ok (hshows : settings.ShowsReals) : (node : Node) → (indent : Nat) →
    ∃ l, node.lines settings indent = .ok l
  | ⟨state, operator, prior, params, children⟩, indent => by
    obtain ⟨prior', hprior⟩ := texts_eq_ok hshows prior
    obtain ⟨params', hparams⟩ := texts_eq_ok hshows params
    obtain ⟨l, hl⟩ := childLines_eq_ok hshows children (indent + 1)
    rw [lines, hprior, hparams]
    exact ⟨_, by simp only [hl, bind, Except.bind]; rfl⟩

theorem childLines_eq_ok (hshows : settings.ShowsReals) : (nodes : List Node) → (indent : Nat) →
    ∃ l, childLines settings indent nodes = .ok l
  | [], _ => ⟨[], rfl⟩
  | node :: nodes, indent => by
    obtain ⟨first, hfirst⟩ := lines_eq_ok hshows node indent
    obtain ⟨l, hl⟩ := childLines_eq_ok hshows nodes indent
    exact ⟨first ++ l, by rw [childLines, hfirst, hl]; rfl⟩

end

theorem describe_eq_ok (hshows : settings.ShowsReals) (node : Node) :
    ∃ text, node.describe settings = .ok text := by
  obtain ⟨l, hl⟩ := lines_eq_ok hshows node 0
  exact ⟨_, by rw [describe, hl]; rfl⟩

end Node

variable (hshows : settings.ShowsReals)
include hshows

/-! ## Sessions -/

namespace Session

variable (s : Session)

theorem stackText_eq_ok : ∃ text, s.stackText settings = .ok text := by
  obtain ⟨l, hl⟩ := stackLines_eq_ok hshows s.machine.stack
  rw [stackText]
  split
  · exact ⟨_, rfl⟩
  · exact ⟨_, by rw [hl]; rfl⟩

theorem storeText_eq_ok (withConstants : Bool) :
    ∃ text, s.storeText settings withConstants = .ok text := by
  have hentry (e : Entry) : ∃ text, entryLine settings e = .ok text := by
    obtain ⟨text, htext⟩ := e.quantity.text_eq_ok hshows
    exact ⟨_, by rw [entryLine, htext]; rfl⟩
  rw [storeText]
  generalize (if withConstants then s.machine.store.entries
    else s.machine.store.variableEntries) = entries
  obtain ⟨l, hl⟩ := mapM_eq_ok hentry entries
  split
  · exact ⟨_, rfl⟩
  · exact ⟨_, by rw [hl]; rfl⟩

theorem treeText_eq_ok : ∃ text, s.treeText settings = .ok text := by
  obtain ⟨l, hl⟩ := mapM_eq_ok (Node.describe_eq_ok hshows) s.nodes
  exact ⟨_, by rw [treeText, hl]; rfl⟩

end Session

/-! ## Commands -/

namespace Command

omit hshows in
/-- Parts that all have a text are printed to the end. -/
theorem printed_of_forall {parts : List (Except Format.Refusal String)}
    (h : ∀ part ∈ parts, ∃ text, part = .ok text) : (printed parts).2 = none := by
  induction parts with
  | nil => rfl
  | cons part parts ih =>
    obtain ⟨⟨text, rfl⟩, hparts⟩ := List.forall_mem_cons.1 h
    exact ih hparts

/-- What a command prints is printed to the end. -/
theorem printed_output (s : Session) (c : Command) : (printed (c.output settings s)).2 = none := by
  have hstack : ∀ part ∈ output.stackParts settings s, ∃ text, part = .ok text := by
    obtain ⟨text, htext⟩ := s.stackText_eq_ok hshows
    simp [output.stackParts, htext, Except.map]
  have hstore : ∀ part ∈ output.variableParts settings s, ∃ text, part = .ok text := by
    obtain ⟨text, htext⟩ := s.storeText_eq_ok hshows true
    simp [output.variableParts, htext, Except.map]
  have hone (text : String) : ∀ part ∈ [Except.ok text], ∃ text : String,
      part = (.ok text : Except Format.Refusal String) :=
    List.forall_mem_singleton.2 ⟨text, rfl⟩
  refine printed_of_forall ?_
  cases c with
  | list => exact List.forall_mem_append.2 ⟨hstore, hstack⟩
  | listVariables => exact hstore
  | stack => exact hstack
  | tree =>
    obtain ⟨text, htext⟩ := s.treeText_eq_ok hshows
    rw [output, htext]
    exact hone _
  | debug on =>
    cases on with
    | none => exact hone _
    | some on => cases on <;> exact hone _
  | _ => exact hone _

end Command

end Reckoner
