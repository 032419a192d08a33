import Reckoner.Proofs.Session.Moves

/-!
# The table of variables

The store of a session is a table (`Store.IsTable`): the constants are in front
as they were from the beginning, each other entry is as assignments leave it,
and no name comes twice. Assignments keep it one (`Store.IsTable.assign`), and
they are all that ever happens to it, be it that a line assigns while it is read,
or while it runs, or that the user answers a question; so that it stays one for
good, and all its names keep their places until variables are cleared, which
leaves the constants (`Session.play_variables`).
-/

namespace Reckoner

/-- An entry as assignments leave it. -/
structure Entry.IsAssigned (e : Entry) : Prop where
  isVariable : e.quantity.isVariable = true
  isUnset : e.quantity.isUnset = false
  isConstant : e.quantity.isConstant = false
  literal : e.quantity.literal = ""

namespace Store

variable {s s' : Store} {q : Quantity}

/-- The store has its constants, then its variables, all of different names. -/
structure IsTable (s : Store) : Prop where
  entries : ∃ others : List Entry, s.entries = initial.entries ++ others ∧
    ∀ e ∈ others, e.IsAssigned
  named : ∀ e ∈ s.entries, e.name ≠ ""
  nodup : s.names.Nodup

theorem entries_initial : initial.entries = Constant.table.map Constant.entry := rfl

theorem isTable_initial : initial.IsTable where
  entries := ⟨[], rfl, List.forall_mem_nil _⟩
  named := by decide
  nodup := by decide

/-- Names of constants are not assigned to. -/
theorem IsTable.name_ne_of_constant (h : s.IsTable) {name : String}
    (hname : s.hasConstant name = false) : ∀ e ∈ initial.entries, e.name ≠ name := by
  rintro e he rfl
  obtain ⟨others, hentries, -⟩ := h.entries
  have hmem : e ∈ s.entries := hentries ▸ List.mem_append_left others he
  have hconstant : ∀ e ∈ initial.entries, e.isConstant = true := by decide
  rw [hasConstant, (find?_eq_some_iff h.nodup).2 ⟨hmem, rfl⟩] at hname
  exact Bool.false_ne_true (hname.symm.trans (hconstant e he))

theorem IsTable.assign (h : s.IsTable) (hassign : s.assign q = .ok s') : s'.IsTable := by
  obtain ⟨hname, hconstant, description, rfl⟩ := assign_eq_ok hassign
  have hnamed : (Entry.mk (kept q) description).name = q.name := rfl
  constructor
  · -- The entry is put among those behind the constants.
    obtain ⟨others, hentries, hothers⟩ := h.entries
    obtain rfl : s = ⟨initial.entries ++ others⟩ := congrArg Store.mk hentries
    refine ⟨(put ⟨others⟩ ⟨kept q, description⟩).entries,
      entries_put_append (h.name_ne_of_constant hconstant), fun e he => ?_⟩
    rcases mem_put he with rfl | he
    · exact ⟨rfl, rfl, rfl, rfl⟩
    · exact hothers e he
  · intro e he
    rcases mem_put he with rfl | he
    · exact hname
    · exact h.named e he
  · rw [names_put, hnamed]
    split
    · exact h.nodup
    · rename_i hmem
      exact List.concat_eq_append ▸ h.nodup.concat hmem

theorem IsTable.clear (h : s.IsTable) : s.clear = initial := by
  obtain ⟨others, hentries, hothers⟩ := h.entries
  have hgone : others.filter Entry.isConstant = [] :=
    List.filter_eq_nil_iff.2 fun e he => by rw [Entry.isConstant, (hothers e he).isConstant]; simp
  have hstay : initial.entries.filter Entry.isConstant = initial.entries := by rfl
  rw [Store.clear, hentries, List.filter_append, hgone, hstay, List.append_nil]

theorem names_assign (h : s.assign q = .ok s') : s.names <+: s'.names := by
  obtain ⟨-, -, description, rfl⟩ := assign_eq_ok h
  rw [names_put]
  split
  · exact List.prefix_refl _
  · exact List.prefix_append _ _

end Store

namespace Session

variable (replies : Option (List Reply)) (moves : List Move)

section

variable [DigitLimit]

theorem meets_isTable : ((new .initial replies).play moves).Meets Store.IsTable fun _ => True :=
  Meets.play (Quantity.inherited_of_assign Store.IsTable.assign)
    (.new Store.isTable_initial replies) moves
    fun _ _ h => h.clear.symm ▸ Store.isTable_initial

/-- Whatever is done with a session, its store is a table, in which entries are
    found by their names; names keep their places as long as variables are not
    cleared; and clearing those gives back the store of a new session. -/
theorem play_variables (more : List Move) :
    let s := (new .initial replies).play moves
    s.machine.store.IsTable ∧
      (∀ name e,
        s.machine.store.find? name = some e ↔ e ∈ s.machine.store.entries ∧ e.name = name) ∧
      (.clearVariables ∉ more → s.machine.store.names <+: (s.play more).machine.store.names) ∧
      s.clearVariables.machine.store = .initial := by
  intro s
  have hmeets : s.Meets Store.IsTable fun _ => True := meets_isTable replies moves
  have htable := hmeets.machine.store
  refine ⟨htable, fun name e => Store.find?_eq_some_iff htable.nodup, fun hmore => ?_, htable.clear⟩
  -- From here on, the names there are come first among all there will be.
  have hnames : s.Meets (fun store => s.machine.store.names <+: store.names) fun _ => True :=
    ⟨⟨List.prefix_refl _, hmeets.machine.stack⟩, hmeets.nodes⟩
  have hplay := hnames.play (Quantity.inherited_of_assign fun h hassign =>
    h.trans (Store.names_assign hassign)) more fun h => absurd h hmore
  exact hplay.machine.store

end

/-- A session in which `x` has been given a value, with a user who says seven. -/
def givenX : Session :=
  (new .initial (some [.line "7"])).play [.execute .default "x=3"]

/-- Lines of which one tries to assign to a constant, and one asks for a name. -/
def linesOnX : List Move :=
  [.execute .default "pi=3", .execute .default "y+x"]

theorem names_givenX : (givenX.play linesOnX).machine.store.names = ["pi", "e", "x", "y"] := by
  decide +kernel

/-- The names there are stay in their places, and the one that is asked for comes
    last. -/
theorem names_in_place : .clearVariables ∉ linesOnX ∧
    givenX.machine.store.names <+: ["pi", "e", "x", "y"] := by
  have hlines : .clearVariables ∉ linesOnX := by simp [linesOnX]
  refine ⟨hlines, ?_⟩
  rw [← names_givenX, givenX]
  exact (play_variables (some [.line "7"]) [.execute .default "x=3"] linesOnX).2.2.1 hlines

end Session

end Reckoner
