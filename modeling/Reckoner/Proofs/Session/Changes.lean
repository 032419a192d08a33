import Reckoner.Proofs.Conversion.Chain
import Reckoner.Proofs.Reading.Visits
import Reckoner.Proofs.Session.Lines
import Reckoner.Proofs.Session.Variables

/-!
# What a line changes

A line gives names values while it is read, where operators assign, and where the user
is asked for one. It can only come upon a name that it assigns to while it is read,
that is an operand in its tree, or that earlier lines have left on the stack
(`Session.Touches`); in the formulas of rules there are none but those of constants,
which are not assigned to. So all other entries of the store stay as they are, however
the line ends (`Session.execute_changesOnly`).

It is carried through evaluation by the names of the values there are: a value has no
name, one of those, or that of a constant (`Quantity.IsNamedIn`).
-/

namespace Reckoner

/-! ## Operands of a chain -/

/-- The operands of a chain are the value that it continues, and its own. -/
theorem Chain.each_nodes {P : Quantity → Prop} {seed : Quantity} (hseed : P seed)
    (hatom : ∀ a : Atom, P a.quantity) (c : Chain) : ∀ node ∈ nodes seed c, node.Each P := by
  have hlink (prior : List Quantity) (hprior : ∀ q ∈ prior, P q) (l : Link) :
      (l.node prior).Each P :=
    ⟨hprior, List.forall_mem_singleton.2 (hatom l.operand), List.forall_mem_nil _⟩
  cases c with
  | nil => exact List.forall_mem_singleton.2 (.seeded hseed)
  | cons l c =>
    refine List.forall_mem_cons.2 ⟨hlink _ (List.forall_mem_singleton.2 hseed) l, fun node h => ?_⟩
    obtain ⟨l, -, rfl⟩ := List.mem_map.1 h
    exact hlink _ (List.forall_mem_nil _) l

/-! ## Names of values -/

namespace Store

variable {s s' : Store} {q : Quantity}

/-- The names of the constants that the store holds are those of constants. -/
theorem HoldsConstants.hasConstant (h : s.HoldsConstants) {c : Constant}
    (hc : c ∈ Constant.table) : s.hasConstant c.name = true := by
  obtain ⟨e, hfind, he⟩ := Option.map_eq_some_iff.1 (h c hc)
  have hconstant : e.quantity.isConstant = true := he ▸ rfl
  rw [Store.hasConstant, hfind]
  exact hconstant

theorem HoldsConstants.assign (h : s.HoldsConstants) (hassign : s.assign q = .ok s') :
    s'.HoldsConstants := by
  intro c hc
  obtain ⟨-, hconstant, description, rfl⟩ := assign_eq_ok hassign
  have hne : q.name ≠ c.name := fun heq =>
    Bool.false_ne_true ((heq ▸ hconstant).symm.trans (h.hasConstant hc))
  have hname : (Entry.mk (kept q) description).name ≠ c.name := hne
  rw [lookup?, find?_put, if_neg hname]
  exact h c hc

theorem IsTable.holdsConstants (h : s.IsTable) : s.HoldsConstants := by
  intro c hc
  obtain ⟨others, hentries, -⟩ := h.entries
  have hmem : c.entry ∈ s.entries := by
    rw [hentries, entries_initial]
    exact List.mem_append_left others (List.mem_map_of_mem hc)
  have hfind : s.find? c.name = some c.entry := (find?_eq_some_iff h.nodup).2 ⟨hmem, rfl⟩
  rw [lookup?, hfind]
  rfl

/-- All entries of a table stand for their names. -/
theorem IsTable.hasNames (h : s.IsTable) : s.HasNames := by
  intro e he
  obtain ⟨others, hentries, hothers⟩ := h.entries
  have hconstant : ∀ e ∈ initial.entries, e.quantity.isVariable = true := by decide
  rw [hentries] at he
  exact (List.mem_append.1 he).elim (hconstant e) fun he => (hothers e he).isVariable

theorem HasNames.assign (h : s.HasNames) (hassign : s.assign q = .ok s') : s'.HasNames := by
  obtain ⟨-, -, description, rfl⟩ := assign_eq_ok hassign
  exact h.put rfl

end Store

namespace Quantity

/-- A quantity that does not stand for a name has none. -/
def IsUnnamed (q : Quantity) : Prop :=
  q.isVariable = false → q.name = ""

theorem inherited_isUnnamed : Inherited Store.HasNames IsUnnamed where
  makes _ _ _ _ _ _ := rfl
  measured h _ := h
  formatted _ h := h
  lent {_ _ e} _ _ := .inr ⟨{ magnitude := .whole 0, measure := e.quantity.measure }, fun _ => rfl,
    rfl⟩
  valued _ _ _ _ _ _ h := absurd h.symm Bool.false_ne_true
  assigned _ _ _ hstore _ _ hassign := hstore.assign hassign
  named {store name} hstore _ := by
    rw [named, Store.lookup?]
    cases hfind : store.find? name with
    | none => exact fun h => absurd h.symm Bool.false_ne_true
    | some e =>
      have hvariable := hstore e (List.mem_of_find?_eq_some hfind)
      exact fun h => absurd (h.symm.trans hvariable) Bool.false_ne_true

/-- The quantity has no name, one in `N` or that of a constant. -/
def IsNamedIn (N : String → Prop) (q : Quantity) : Prop :=
  q.name = "" ∨ N q.name ∨ ∃ c ∈ Constant.table, c.name = q.name

end Quantity

/-- The store holds the constants, and has changed at names in `N` only. -/
structure Store.Follows (N : String → Prop) (before s : Store) : Prop where
  constants : s.HoldsConstants
  changes : before.ChangesOnly N s

/-- No name that values come to have is assigned to other than those in `N`. -/
theorem Quantity.passed_isNamedIn (N : String → Prop) (before : Store) :
    Passed (before.Follows N) (IsNamedIn N) where
  makes _ _ _ _ _ := .inl rfl
  measured h _ := h
  formatted _ h := h
  lent {_ _ e} _ _ := .inr ⟨{ magnitude := .whole 0, measure := e.quantity.measure }, .inl rfl,
    rfl⟩
  valued _ _ _ h _ _ := h
  assigned {store store' q measure} magnitude format literal hstore hq _ hassign := by
    obtain ⟨hname, hconstant, -⟩ := Store.assign_eq_ok hassign
    have hN : N q.name := by
      rcases hq with h | h | ⟨c, hc, h⟩
      · exact absurd h hname
      · exact h
      · have hc := hstore.constants.hasConstant hc
        rw [h] at hc
        exact absurd (hconstant.symm.trans hc) (by decide)
    exact ⟨hstore.constants.assign hassign, hstore.changes.trans (.of_assign hassign hN)⟩

/-- The operands of formulas have no names but those of constants. -/
theorem Eval.readsFormulas_isNamedIn [DigitLimit] {settings : Settings}
    (hrules : settings.rules = Measure.Rule.table) (N : String → Prop) (before : Store) :
    ReadsFormulas settings (before.Follows N) (Quantity.IsNamedIn N) := by
  rintro seed _ store ⟨r, hr, rfl⟩ hseed hstore
  have hread : Node.readText (some seed) ⟨Chain.text r.chain, store, []⟩ =
      (.ok (Chain.nodes seed r.chain), ⟨[], store, []⟩) :=
    Chain.readText_text hstore.constants seed r.chain
  rw [r.text_chain (hrules ▸ hr)] at hread
  rw [hread]
  refine ⟨fun nodes hnodes => Except.ok.inj hnodes ▸ Chain.each_nodes hseed (fun a => ?_) _,
    hstore⟩
  cases a with
  | literal l =>
    refine .inl ?_
    rw [Atom.quantity, Literal.quantity]
    split <;> rfl
  | constant c hc => exact .inr (.inr ⟨c, hc, rfl⟩)

/-! ## Lines -/

namespace Session

section

variable [DigitLimit] {settings : Settings} {text : String}

/-- The line comes upon the name. -/
inductive Touches (settings : Settings) (text : String) (s : Session) : String → Prop
  /-- It assigns to the name while it is read. -/
  | inline {name : String} :
    Node.AssignsInline name (.line (Node.begunWith none)) ⟨text.toList, s.machine.store, []⟩ →
      Touches settings text s name
  /-- The name is an operand in the tree of the line. -/
  | operand {node : Node} {q : Quantity} : node ∈ (s.execute settings text).2.nodes →
    node.HasOperand q → q.isVariable = true → Touches settings text s q.name
  /-- The name is on the stack when the line begins. -/
  | stack {q : Quantity} : q ∈ s.machine.stack → q.isVariable = true →
    Touches settings text s q.name

/-- A value on which the line comes has no name, or one that it comes upon. -/
theorem isNamedIn_of_touches {s : Session} {q : Quantity} (hq : q.IsUnnamed)
    (h : q.isVariable = true → s.Touches settings text q.name) :
    q.IsNamedIn (s.Touches settings text) := by
  cases hvariable : q.isVariable with
  | true => exact .inr (.inl (h hvariable))
  | false => exact .inl (hq hvariable)

section

variable {s : Session} (hrules : settings.rules = Measure.Rule.table)
include hrules

/-- Running the tree that the line is read into goes on as reading has begun. -/
theorem follows_run {nodes : List Node} {r : Reader}
    (hexecute : s.execute settings text = ((s.begun text).reading nodes r).run settings)
    (hread : s.machine.store.Follows (s.Touches settings text) r.store)
    (hnodes : ∀ node ∈ nodes, node.Each Quantity.IsUnnamed)
    (hstack : ∀ q ∈ s.machine.stack, q.IsUnnamed) :
    s.machine.store.Follows (s.Touches settings text)
      (s.execute settings text).2.machine.store := by
  have htree : (s.execute settings text).2.nodes = nodes := by
    rw [hexecute, nodes_run]
    rfl
  have hnamed : ∀ node ∈ nodes, node.Each (Quantity.IsNamedIn (s.Touches settings text)) := by
    intro node hmem
    refine Node.each_of_forall node fun q hq => ?_
    exact isNamedIn_of_touches ((hnodes node hmem).of_hasOperand hq) (.operand (htree ▸ hmem) hq)
  have hmeets : ((s.begun text).reading nodes r).machine.Meets
      (s.machine.store.Follows (s.Touches settings text))
      (Quantity.IsNamedIn (s.Touches settings text)) :=
    ⟨hread, fun q hmem => isNamedIn_of_touches (hstack q hmem) (.stack hmem)⟩
  have hrun := Eval.keeps_runLine_by (Quantity.passed_isNamedIn _ s.machine.store)
    (Eval.readsFormulas_isNamedIn hrules _ s.machine.store) 0 hnamed _ hmeets
  generalize s.Touches settings text = N at hrun
  rw [hexecute]
  exact store_run (hrun.mono (fun _ _ h => h.2.store) fun _ _ h => h.store)

/-- A line changes entries of names that it comes upon, and adds such entries last. -/
theorem changesOnly_of_isTable (hstore : s.machine.store.IsTable)
    (hstack : ∀ q ∈ s.machine.stack, q.IsUnnamed) :
    s.machine.store.ChangesOnly (s.Touches settings text)
      (s.execute settings text).2.machine.store := by
  by_cases hlength : settings.maxLength < text.length
  · rw [execute_of_tooLong hlength]
    exact .refl _ _
  let begun : Reader := ⟨text.toList, s.machine.store, []⟩
  have hseed (P : Quantity → Prop) : ∀ q ∈ (none : Option Quantity), P q := fun q hq =>
    absurd hq (Option.not_mem_none q)
  have hinline : s.machine.store.ChangesOnly (s.Touches settings text)
      (Node.readText none begun).2.store :=
    (Node.changesOnly_readText none begun).mono fun _ => .inline
  have hconstants : (Node.readText none begun).2.store.HoldsConstants :=
    Node.store_of_readText (Quantity.inherited_of_assign Store.HoldsConstants.assign) (hseed _)
      hstore.holdsConstants
  have hnodes : ∀ nodes, (Node.readText none begun).1 = .ok nodes →
      ∀ node ∈ nodes, node.Each Quantity.IsUnnamed := fun nodes =>
    Node.each_of_readText Quantity.inherited_isUnnamed (hseed _) hstore.hasNames
  have hparse := parse_eq (s := s) hlength
  cases hread : Node.readText none begun with
  | mk nodes r =>
    rw [hread] at hinline hconstants hnodes hparse
    rcases nodes with (_ | f) | nodes
    · rw [execute, hparse]
      exact hinline
    · rw [execute, hparse]
      exact hinline
    · have hexecute : s.execute settings text = ((s.begun text).reading nodes r).run settings := by
        rw [execute, hparse]
        rfl
      exact (follows_run hrules hexecute ⟨hconstants, hinline⟩ (hnodes nodes rfl) hstack).changes

end

/-- Whatever has been done with a session, a line changes the entries of no other names than those
    that it comes upon, and leaves all entries in their places; new ones come last. -/
theorem execute_changesOnly (replies : Option (List Reply)) (moves : List Move)
    (hrules : settings.rules = Measure.Rule.table) (text : String) :
    let s := (new .initial replies).play moves
    s.machine.store.ChangesOnly (s.Touches settings text)
      (s.execute settings text).2.machine.store := by
  intro s
  have htable : s.Meets Store.IsTable fun _ => True := meets_isTable replies moves
  have hunnamed : s.Meets Store.HasNames Quantity.IsUnnamed :=
    Meets.play Quantity.inherited_isUnnamed (.new Store.isTable_initial.hasNames replies) moves
      fun _ _ h e he => h e (List.mem_of_mem_filter he)
  exact changesOnly_of_isTable hrules htable.machine.store hunnamed.machine.stack

end

/-- Where `x` has a value, a sum with it adds the `y` that it asks for. -/
theorem y_added_last : Settings.default.rules = Measure.Rule.table ∧
    givenX.machine.store.names = ["pi", "e", "x"] ∧
    (givenX.execute .default "y+x").2.machine.store.names = ["pi", "e", "x", "y"] ∧
    givenX.machine.store.ChangesOnly (givenX.Touches .default "y+x")
      (givenX.execute .default "y+x").2.machine.store := by
  refine ⟨rfl, by decide +kernel, by decide +kernel, ?_⟩
  rw [givenX]
  exact execute_changesOnly (some [.line "7"]) [.execute .default "x=3"] rfl "y+x"

end Session

end Reckoner
