import Mathlib.Data.List.Nodup
import Reckoner.Store

/-!
# What assignments do to a store

An assignment replaces or adds one entry (`find?_put`, `names_put`). It never
concerns a constant: the names of constants are the same after it as before
(`hasConstant_of_assign`). However many there are, entries of other names keep
their places and their values (`ChangesOnly`). Whatever a store comes from, its
entries stand for their names (`Reachable.hasNames`).
-/

namespace Reckoner.Store

variable {s s' : Store} {q : Quantity} {e : Entry} {name : String}

/-- The name is that of a constant. -/
def hasConstant (s : Store) (name : String) : Bool :=
  (s.find? name).any Entry.isConstant

theorem name_of_find? (h : s.find? name = some e) : e.name = name := by
  simpa using List.find?_some h

theorem find?_map_replace (entries : List Entry) (e : Entry) (name : String) :
    (entries.map fun old => if old.name == e.name then e else old).find? (fun e => e.name == name) =
      if e.name = name then (entries.find? fun old => old.name == name).map fun _ => e
      else entries.find? fun old => old.name == name := by
  induction entries with
  | nil => simp
  | cons old entries ih =>
    rw [List.map_cons, List.find?_cons, ih, List.find?_cons]
    by_cases hname : e.name = name
    · subst hname
      by_cases hold : old.name = e.name
      · simp [hold]
      · have hne : (old.name == e.name) = false := beq_eq_false_iff_ne.2 hold
        simp [hne]
    · have hne : (e.name == name) = false := beq_eq_false_iff_ne.2 hname
      by_cases hold : old.name = e.name
      · simp [hold, hname, hne]
      · simp [hold, hname]

theorem find?_put (s : Store) (e : Entry) (name : String) :
    (s.put e).find? name = if e.name = name then some e else s.find? name := by
  simp only [put, find?]
  split
  · -- The entry takes the place of another one, so that there is one to find.
    rename_i hany
    rw [find?_map_replace]
    split
    · rename_i hname
      obtain ⟨old, hmem, hold⟩ := List.any_eq_true.1 hany
      cases hfind : s.entries.find? fun old => old.name == name with
      | some old' => rfl
      | none =>
        have := List.find?_eq_none.1 hfind old hmem
        rw [← hname] at this
        exact absurd hold this
    · rfl
  · -- The entry comes last, behind others of other names.
    rename_i hany
    rw [List.find?_append]
    split
    · rename_i hname
      have hnone : (s.entries.find? fun old => old.name == name) = none := by
        refine List.find?_eq_none.2 fun old hmem hold => hany ?_
        exact List.any_eq_true.2 ⟨old, hmem, by rwa [hname]⟩
      rw [hnone]
      simp [hname]
    · rename_i hname
      simp [hname]

/-- The names in the store, in order. -/
def names (s : Store) : List String :=
  s.entries.map Entry.name

theorem any_name_iff (s : Store) (name : String) :
    (s.entries.any fun old => old.name == name) = true ↔ name ∈ s.names := by
  simp [names]

theorem names_put (s : Store) (e : Entry) :
    (s.put e).names = if e.name ∈ s.names then s.names else s.names ++ [e.name] := by
  rw [put]
  split
  · -- The entry has the name of the one whose place it takes.
    rename_i hany
    rw [if_pos ((any_name_iff s e.name).1 hany)]
    refine (List.map_map).trans (List.map_congr_left fun old _ => ?_)
    rw [Function.comp_apply]
    split
    · rename_i hold
      exact (beq_iff_eq.1 hold).symm
    · rfl
  · rename_i hany
    rw [if_neg fun hmem => hany ((any_name_iff s e.name).2 hmem)]
    exact List.map_append

theorem mem_put {old : Entry} (h : old ∈ (s.put e).entries) : old = e ∨ old ∈ s.entries := by
  rw [put] at h
  split at h
  · obtain ⟨old', hmem, rfl⟩ := List.mem_map.1 h
    split
    · exact .inl rfl
    · exact .inr hmem
  · rcases List.mem_append.1 h with h | h
    · exact .inr h
    · exact .inl (List.mem_singleton.1 h)

/-- Entries of other names in front stay as they are. -/
theorem entries_put_append {front back : List Entry} (h : ∀ old ∈ front, old.name ≠ e.name) :
    (put ⟨front ++ back⟩ e).entries = front ++ (put ⟨back⟩ e).entries := by
  have hnone : (front.any fun old => old.name == e.name) = false := by
    simpa only [List.any_eq_false, beq_iff_eq] using h
  have hsame : (front.map fun old => if old.name == e.name then e else old) = front :=
    (List.map_congr_left fun old hold => if_neg (by simpa using h old hold)).trans
      (List.map_id' front)
  simp only [put, List.any_append, hnone, Bool.false_or]
  split
  · rw [List.map_append, hsame]
  · exact List.append_assoc ..

/-- With no name twice, an entry is found by its name, and no other one is. -/
theorem find?_eq_some_iff (h : s.names.Nodup) :
    s.find? name = some e ↔ e ∈ s.entries ∧ e.name = name := by
  refine ⟨fun hfind => ⟨List.mem_of_find?_eq_some hfind, name_of_find? hfind⟩, ?_⟩
  rintro ⟨hmem, rfl⟩
  cases hfind : s.find? e.name with
  | none => exact absurd (beq_self_eq_true e.name) (List.find?_eq_none.1 hfind e hmem)
  | some e' =>
    have hmem' : e' ∈ s.entries := List.mem_of_find?_eq_some hfind
    rw [List.inj_on_of_nodup_map h hmem' hmem (name_of_find? hfind)]

/-- What an assignment that succeeds puts into the store. -/
theorem assign_eq_ok (h : s.assign q = .ok s') :
    q.name ≠ "" ∧ s.hasConstant q.name = false ∧
      ∃ description, s' = s.put ⟨kept q, description⟩ := by
  rw [assign] at h
  split at h
  · cases h
  · rename_i hname
    refine ⟨fun e => hname (by rw [e]; rfl), ?_⟩
    rw [hasConstant]
    cases hfind : s.find? q.name with
    | none =>
      rw [hfind] at h
      injection h with h
      exact ⟨rfl, "", h.symm⟩
    | some e =>
      rw [hfind] at h
      dsimp only at h
      split at h
      · cases h
      · rename_i hconstant
        injection h with h
        exact ⟨by simpa using hconstant, e.description, h.symm⟩

theorem hasConstant_of_assign (h : s.assign q = .ok s') (name : String) :
    s'.hasConstant name = s.hasConstant name := by
  obtain ⟨-, hconstant, description, rfl⟩ := assign_eq_ok h
  simp only [hasConstant] at hconstant ⊢
  rw [find?_put]
  split
  · rename_i hname
    have hkept : q.name = name := hname
    rw [← hkept, hconstant]
    rfl
  · rfl

/-- What has a name, and not that of a constant, can be assigned. -/
theorem exists_assign_eq_ok (hname : q.name ≠ "") (h : s.hasConstant q.name = false) :
    ∃ description, s.assign q = .ok (s.put ⟨kept q, description⟩) := by
  rw [assign, if_neg (by simpa using hname)]
  rw [hasConstant] at h
  cases hfind : s.find? q.name with
  | none => exact ⟨"", rfl⟩
  | some e =>
    rw [hfind] at h
    have hconstant : e.isConstant = false := h
    exact ⟨e.description, if_neg (by simp [hconstant])⟩

/-- A name that is not in the store is put behind all others. -/
theorem assign_of_absent (hname : q.name ≠ "") (habsent : s.find? q.name = none) :
    s.assign q = .ok ⟨s.entries ++ [⟨kept q, ""⟩]⟩ := by
  have hput : (s.entries.any fun old => old.name == q.name) = false := by
    simpa [List.any_eq_false] using List.find?_eq_none.1 habsent
  have hkept : (⟨kept q, ""⟩ : Entry).name = q.name := rfl
  rw [assign, if_neg (by simpa using hname), habsent]
  dsimp only
  rw [put, hkept, hput]
  rfl

/-- What has the name of a constant cannot. -/
theorem assign_of_hasConstant (hname : q.name ≠ "") (h : s.hasConstant q.name = true) :
    s.assign q = .error (.constantTarget q.name) := by
  rw [assign, if_neg (by simpa using hname)]
  obtain ⟨e, hfind, hconstant⟩ := (Option.any_eq_true _ _).1 h
  rw [hfind]
  exact if_pos hconstant

theorem getElem?_put {old : Entry} {i : Nat} (h : s.entries[i]? = some old)
    (hname : old.name ≠ e.name) : (s.put e).entries[i]? = some old := by
  rw [put]
  split
  · rw [List.getElem?_map, h]
    simp [hname]
  · rw [List.getElem?_append_left (List.getElem?_eq_some_iff.1 h).1, h]

/-! ## What may change -/

/-- Entries keep their places, and are as they were unless their names are in `N`; new
    ones come last, and their names are. -/
structure ChangesOnly (N : String → Prop) (s s' : Store) : Prop where
  names : ∃ added : List String, s'.names = s.names ++ added ∧ ∀ name ∈ added, N name
  others : ∀ (i : Nat) (e : Entry), s.entries[i]? = some e → ¬N e.name → s'.entries[i]? = some e

namespace ChangesOnly

variable {N : String → Prop} {s'' : Store}

theorem refl (N : String → Prop) (s : Store) : ChangesOnly N s s :=
  ⟨⟨[], (List.append_nil _).symm, List.forall_mem_nil _⟩, fun _ _ h _ => h⟩

theorem trans (h : ChangesOnly N s s') (h' : ChangesOnly N s' s'') : ChangesOnly N s s'' := by
  obtain ⟨added, hnames, hadded⟩ := h.names
  obtain ⟨added', hnames', hadded'⟩ := h'.names
  exact ⟨⟨added ++ added', by rw [hnames', hnames, List.append_assoc],
    List.forall_mem_append.2 ⟨hadded, hadded'⟩⟩,
    fun i e he hN => h'.others i e (h.others i e he hN) hN⟩

theorem mono {N' : String → Prop} (h : ChangesOnly N s s') (hN : ∀ name, N name → N' name) :
    ChangesOnly N' s s' := by
  obtain ⟨added, hnames, hadded⟩ := h.names
  exact ⟨⟨added, hnames, fun name hmem => hN name (hadded name hmem)⟩,
    fun i e he hne => h.others i e he fun hname => hne (hN _ hname)⟩

/-- An assignment changes the entry of its name, or adds it. -/
theorem of_assign (hassign : s.assign q = .ok s') (hN : N q.name) : ChangesOnly N s s' := by
  obtain ⟨-, -, description, rfl⟩ := assign_eq_ok hassign
  have hname : (Entry.mk (kept q) description).name = q.name := rfl
  constructor
  · rw [names_put, hname]
    split
    · exact ⟨[], (List.append_nil _).symm, List.forall_mem_nil _⟩
    · exact ⟨[q.name], rfl, List.forall_mem_singleton.2 hN⟩
  · exact fun i e he hne => getElem?_put he fun heq => hne (by rwa [heq, hname])

/-- With no names to change, nothing has changed. -/
theorem eq (h : ChangesOnly (fun _ => False) s s') : s' = s := by
  obtain ⟨added, hnames, hadded⟩ := h.names
  obtain rfl : added = [] := List.eq_nil_iff_forall_not_mem.2 hadded
  have hlength : s'.entries.length = s.entries.length := by
    simpa [Store.names] using congrArg List.length hnames
  refine congrArg Store.mk (List.ext_getElem hlength fun i hi hi' => ?_)
  exact (List.getElem?_eq_some_iff.1
    (h.others i _ (List.getElem?_eq_getElem hi') not_false)).2

end ChangesOnly

/-! ## Stores that come about -/

/-- The stores that come about from constants. -/
inductive Reachable : Store → Prop
  | ofConstants (constants : List Constant) : Reachable (ofConstants constants)
  | assign {s s' : Store} {q : Quantity} : Reachable s → s.assign q = .ok s' → Reachable s'
  | clear {s : Store} : Reachable s → Reachable s.clear

/-- All entries stand for their names. -/
def HasNames (s : Store) : Prop :=
  ∀ e ∈ s.entries, e.quantity.isVariable = true

theorem HasNames.put (h : s.HasNames) (he : e.quantity.isVariable = true) :
    (s.put e).HasNames := fun e' he' => by
  rcases mem_put he' with rfl | hmem
  · exact he
  · exact h e' hmem

theorem HasNames.foldl_put (h : s.HasNames) (constants : List Constant) :
    (constants.foldl (fun s c => s.put c.entry) s).HasNames := by
  induction constants generalizing s with
  | nil => exact h
  | cons c constants ih => exact ih (h.put (e := c.entry) rfl)

theorem Reachable.hasNames (h : s.Reachable) : s.HasNames := by
  induction h with
  | ofConstants constants => exact HasNames.foldl_put (List.forall_mem_nil _) constants
  | assign _ hassign ih =>
    obtain ⟨-, -, description, rfl⟩ := assign_eq_ok hassign
    exact ih.put rfl
  | clear _ ih => exact fun e he => ih e (List.mem_of_mem_filter he)

end Reckoner.Store
