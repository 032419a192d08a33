import Reckoner.Proofs.Session.Assigning
import Reckoner.Proofs.Session.Failure

/-!
# Assigning while a line is read

A line such as `y=5` gives the name its value while it is read, and leaves
nothing to run. Where the value is an integer, the name then has that number, and
no other entry of the store changes (`Session.assigns_integer`). This goes for
the names that can be written: as operators are looked for first, and words do
not have to end behind them, `maxval=5` is the operator `max` in front of
`val=5`. An integer of too many digits interrupts the line, and nothing is
assigned.

A line of any number of such assignments leaves the stack alone. Its result is
that of any line that succeeds, the value on top of the stack, so that there is
none only where nothing is on the stack (`Session.execute_assignments`).
-/

namespace Reckoner

open Text Build

/-! ## Integers -/

namespace Text

theorem starts_literal (l : Literal) :
    ∃ c rest, l.text = c :: rest ∧ (c.isDigit = true ∨ c = '-' ∧ startsDigit rest = true) := by
  obtain ⟨c, digits, hwhole⟩ := List.exists_cons_of_ne_nil l.whole_ne_nil
  have hc : c.isDigit = true := l.isDigit_whole c (hwhole ▸ List.mem_cons_self)
  rw [Literal.text, Numeral.text_eq l.whole_ne_nil, hwhole]
  cases l.numeral.negative with
  | true => exact ⟨'-', _, rfl, .inr ⟨rfl, hc⟩⟩
  | false => exact ⟨c, _, rfl, .inl hc⟩

theorem isLiteral_text [DigitLimit] {l : Literal} (hfits : l.numeral.Fits) :
    IsLiteral l.text l.quantity where
  starts := starts_literal l
  read := by
    have hread : Quantity.readLiteral (l.text ++ []) = .ok l.quantity [] :=
      Quantity.readLiteral_text l (.inl rfl) hfits
    rwa [List.append_nil] at hread

end Text

/-- With too many digits, nothing is assigned. -/
theorem Node.readText_inline_overlong [DigitLimit] {store : Store} {messages : List Message}
    {name : String} (hname : IsWritable name) (l : Literal) {f : Fault}
    (hf : l.numeral.fault? = some f) :
    ∃ rest, readText none ⟨name.toList ++ '=' :: l.text, store, messages⟩ =
      (.error (.fault f), ⟨rest, store, messages⟩) := by
  have hread : Quantity.readLiteral (l.text ++ []) = .error (.fault f) (l.suffix ++ []) :=
    Quantity.readLiteral_overlong l hf (l.head_suffix (.inl rfl))
  have hstarts : Quantity.startsAssignment ('=' :: (l.text ++ [])) = true :=
    startsAssignment_append (starts_literal l) []
  rw [List.append_nil] at hread hstarts
  have hscan : scan (Quantity.readName store) ⟨name.toList ++ '=' :: l.text, store, messages⟩ =
      .error (.fault f) ⟨l.suffix ++ [], store, messages⟩ := by
    rw [scan, readName_inline hname.toIsName hstarts, bind_of_error hread]
  have hmention : mention ⟨name.toList ++ '=' :: l.text, store, messages⟩ =
      .error (.fault f) ⟨l.suffix ++ [], store, messages⟩ :=
    (bind_of_ok (y := get) rfl).trans (bind_of_error hscan)
  refine ⟨l.suffix ++ [], readText_of_turn_fault ?_⟩
  rw [turn_name hname, proceed]
  exact bind_of_error hmention

namespace Session

section

variable [DigitLimit] {settings : Settings} {s : Session} {text name : String}

/-- After the line, the name has the number, shown as numbers are. It has no unit if
    it had none before, and every other entry is as it was. -/
structure StoresNumber (settings : Settings) (text name : String) (magnitude : Magnitude)
    (s : Session) : Prop where
  entry : ∃ e : Entry, (s.execute settings text).2.machine.store.find? name = some e ∧
    e.quantity.magnitude = magnitude ∧ e.quantity.format = "" ∧
      ((Quantity.named s.machine.store name).measure = .plain → e.quantity.measure = .plain)
  others : ∀ other, other ≠ name →
    (s.execute settings text).2.machine.store.find? other = s.machine.store.find? other

/-- The line is interrupted, and the store stays as it is. -/
def InterruptedBy (f : Fault) (settings : Settings) (text : String) (s : Session) : Prop :=
  ∃ s', s.execute settings text = (.error f, s') ∧ s'.machine.store = s.machine.store

/-- Assigned to while a line is read, a name that can be written has the value of the
    integer, and nothing else changes. Only a line that is too long assigns nothing, and one
    in which the integer has too many digits. -/
theorem assigns_integer (hname : IsWritable name)
    (hconstant : s.machine.store.hasConstant name = false) {l : Literal} (hunit : l.unit = none)
    (hplaces : l.numeral.places = none) :
    let line := name ++ "=" ++ String.ofList l.text
    if settings.maxLength < line.length then s.RefusesLength settings line
    else
      match l.numeral.fault? with
      | none => s.StoresNumber settings line name (.ofInt l.integer)
      | some f => f.ExceedsLimit ∧ s.InterruptedBy f settings line := by
  intro line
  by_cases hlength : settings.maxLength < line.length
  · rw [if_pos hlength]
    exact ⟨_, execute_of_tooLong hlength, rfl⟩
  rw [if_neg hlength]
  cases hfault : l.numeral.fault? with
  | some f =>
    have htext : line.toList = name.toList ++ '=' :: l.text := by simp [line]
    obtain ⟨rest, hread⟩ : ∃ rest, Node.readText none ⟨line.toList, s.machine.store, []⟩ =
        (.error (.fault f), ⟨rest, s.machine.store, []⟩) := by
      rw [htext]
      exact Node.readText_inline_overlong hname l hfault
    refine ⟨Numeral.exceedsLimit_of_fault? hfault,
      (s.begun line).reading [] ⟨rest, s.machine.store, []⟩, ?_, rfl⟩
    rw [execute, parse_eq hlength, hread]
    rfl
  | none =>
    have hl : IsLiteral (String.ofList l.text).toList l.quantity :=
      String.toList_ofList ▸ isLiteral_text hfault
    obtain ⟨hmagnitude, hmeasure, hformat⟩ := Literal.quantity_of_integer hunit hplaces
    have hassigns := assigns_inline hname hconstant hl hlength
    obtain ⟨e, hfind, hnumber, hunit, hshown⟩ := hassigns.value
    refine ⟨⟨e, hfind, hnumber.trans hmagnitude, hshown.trans hformat, fun hbare => ?_⟩,
      hassigns.others⟩
    rw [hunit, hmeasure, hbare]
    rfl

end

/-- Minus twelve. -/
def minusTwelve : Literal where
  numeral := ⟨true, ['1', '2'], none⟩
  unit := none
  whole_ne_nil := by decide
  isDigit_whole := List.all_iff_forall_prop.1 (by decide)
  isDigit_places := Literal.isDigit_places_none
  unit_mem := Literal.unit_mem_none

theorem minus_twelve_assigned :
    IsWritable "level" ∧ (new .initial none).machine.store.hasConstant "level" = false ∧
      minusTwelve.unit = none ∧ minusTwelve.numeral.places = none ∧
      (new .initial none).StoresNumber .default "level=-12" "level" (.ofInt (-12)) := by
  have hname : IsWritable "level" := by decide +kernel
  have hconstant : (new .initial none).machine.store.hasConstant "level" = false := by decide
  exact ⟨hname, hconstant, rfl, rfl, (if_neg (by decide)).mp
    (assigns_integer hname hconstant (l := minusTwelve) rfl rfl)⟩

theorem fits_ones : (Literal.ones 4095).numeral.Fits :=
  (Literal.fault?_ones 4095).trans rfl

/-- Ones may be too many for a line. -/
theorem maxLength_lt_ones :
    Settings.default.maxLength < ("y" ++ "=" ++ String.ofList (Literal.ones 4095).text).length := by
  have hlength (n : Nat) : ("y" ++ "=" ++ String.ofList (Literal.ones n).text).length = n + 3 := by
    rw [Literal.text_ones, String.length_append, String.length_append,
      String.length_ofList (l := List.replicate (n + 1) '1'), List.length_replicate]
    exact Nat.add_comm 2 (n + 1)
  rw [hlength]
  decide

/-- `maxval` is neither a constant nor an operator, but `maxval=5` assigns to `val`; and
    `y` does not come by a value of too many digits. -/
theorem maxval_unassigned :
    "maxval".toList.all Char.isAlpha = true ∧ (∀ o ∈ Operator.table, o.spelling ≠ "maxval") ∧
      (new .initial none).machine.store.hasConstant "maxval" = false ∧
      ((new .initial none).execute .default "maxval=5").2.machine.store.find? "maxval" = none ∧
      ((new .initial none).execute .default "maxval=5").2.machine.store.names =
        ["pi", "e", "val"] ∧
      ((new .initial none).execute .default
        ("y" ++ "=" ++ String.ofList (Literal.ones 4095).text)).2.machine.store.find? "y" =
          none := by
  have hlong : ((new .initial none).execute .default
      ("y" ++ "=" ++ String.ofList (Literal.ones 4095).text)).2.machine.store.find? "y" = none := by
    rw [execute_of_tooLong maxLength_lt_ones]
    rfl
  exact ⟨by decide, by decide, by decide, by decide +kernel, by decide +kernel, hlong⟩

end Session

/-! ## Lines of assignments -/

/-- The report of a line that has had nothing to say is about its result. -/
theorem Session.ofResult_of_silent {settings : Settings} {s : Session} {lines : List String}
    (hmessages : s.messages = [])
    (hlines : stackLines settings s.machine.stack = .ok lines) :
    Report.ofResult settings s none = .ok ⟨lines, [], .nothing⟩ ∧
      ∀ q shown, q.text settings = .ok shown →
        Report.ofResult settings s (some q) = .ok ⟨lines, [], .value q shown⟩ := by
  constructor
  · rw [Report.ofResult, hlines, hmessages]
    rfl
  · intro q shown hshown
    rw [Report.ofResult, hlines, hmessages]
    change (do return (⟨lines, [], .value q (← q.text settings)⟩ : Report)) = _
    rw [hshown]
    rfl

section

variable [DigitLimit]

/-- The text consists of assignments of literals, to the given names in this order,
    and of blanks around them. -/
inductive Text.IsAssignments : List String → List Char → Prop
  | nil : IsAssignments [] []
  | blank {names : List String} {text : List Char} {c : Char} (hc : isBlank c = true)
    (h : IsAssignments names text) : IsAssignments names (c :: text)
  | assign {names : List String} {name : String} {literal behind : List Char} {q : Quantity}
    (hname : IsWritable name) (hliteral : IsLiteral literal q) (hbehind : AtBlank behind)
    (h : IsAssignments names behind) :
    IsAssignments (name :: names) (name.toList ++ '=' :: (literal ++ behind))

theorem Text.isAssignments_literal {name : String} (hname : IsWritable name) {l : Literal}
    (hfits : l.numeral.Fits) :
    IsAssignments [name] (name ++ "=" ++ String.ofList l.text).toList := by
  have hline := IsAssignments.assign hname (isLiteral_text hfits) (.inl rfl) .nil
  rw [List.append_nil] at hline
  simpa using hline

namespace Node

variable {store : Store} {messages : List Message} {names : List String} {text : List Char}

/-- Such a line is read to its end, with nothing read into a node. -/
theorem readLineOn_assignments (h : IsAssignments names text)
    (hconstant : ∀ name ∈ names, store.hasConstant name = false) :
    ∃ store', (blank .initial).readLineOn ⟨text, store, messages⟩ =
      (blank .initial).readLineOn ⟨[], store', messages⟩ := by
  induction h generalizing store with
  | nil => exact ⟨store, rfl⟩
  | @blank _ text c hc _ ih =>
    obtain ⟨store', hline⟩ := ih hconstant
    have hskip : skipBlanks (c :: text) = skipBlanks text := List.dropWhile_cons_of_pos hc
    refine ⟨store', Eq.trans ?_ hline⟩
    rw [skipsBlanks_readLineOn _ ⟨c :: text, store, messages⟩,
      skipsBlanks_readLineOn _ ⟨text, store, messages⟩, hskip]
  | @assign names name literal behind q hname hliteral hbehind _ ih =>
    obtain ⟨hfirst, hrest⟩ := List.forall_mem_cons.1 hconstant
    have htarget : ((Quantity.named store name).assigned q).name = name :=
      Quantity.name_named store name
    obtain ⟨description, hassign⟩ := Store.exists_assign_eq_ok (s := store)
      (q := (Quantity.named store name).assigned q)
      (by rw [htarget]; exact hname.ne_empty) (by rw [htarget]; exact hfirst)
    -- The names that follow are no constants in the new store either.
    obtain ⟨store', hline⟩ := ih fun name hmem =>
      (Store.hasConstant_of_assign hassign name).trans (hrest name hmem)
    exact ⟨store', (readLineOn_inline hliteral hname hassign hbehind).trans hline⟩

end Node

namespace Session

variable {settings : Settings} {s : Session} {text : String} {names : List String}

/-- The line has nothing to say, leaves the stack as it is, and has the value on top for
    its result, or none if there is no value. -/
structure AnswersTop (settings : Settings) (text : String) (s : Session) : Prop where
  result : (s.execute settings text).1 = .ok s.machine.stack.head?
  stack : (s.execute settings text).2.machine.stack = s.machine.stack
  messages : (s.execute settings text).2.messages = []
  /-- The report of the line: with nothing on the stack, it has no value, no type and
      no text. -/
  report : ∃ lines outcome, stackLines settings s.machine.stack = .ok lines ∧
    (Report.evaluate settings text s).1 = .ok ⟨lines, [], outcome⟩ ∧
    match s.machine.stack.head? with
    | none => outcome = .nothing
    | some top => ∃ shown, top.text settings = .ok shown ∧ outcome = .value top shown

/-- A line with nothing to run and nothing to say. -/
theorem answersTop_of_readText (hshows : settings.ShowsReals)
    (hlength : ¬settings.maxLength < text.length) {store' : Store}
    (hread : Node.readText none ⟨text.toList, s.machine.store, []⟩ = (.ok [], ⟨[], store', []⟩)) :
    s.AnswersTop settings text := by
  have hrun : Eval.runLine settings (settings.formulaAt 0) []
      { s.machine with store := store', messages := [] } =
        .ok ⟨⟩ { s.machine with store := store', messages := [] } := rfl
  have hexecute := execute_of_runLine (parse_of_readText hlength hread) hrun
  obtain ⟨lines, hlines⟩ := stackLines_eq_ok hshows s.machine.stack
  obtain ⟨hnothing, hvalue⟩ := ofResult_of_silent
    (s := (s.execute settings text).2) (by rw [hexecute]; rfl) (by rw [hexecute]; exact hlines)
  refine ⟨by rw [hexecute], by rw [hexecute], by rw [hexecute]; rfl, lines, ?_⟩
  rw [hexecute] at hnothing hvalue
  rw [Report.evaluate, hexecute]
  cases hstack : s.machine.stack with
  | nil =>
    refine ⟨.nothing, hstack ▸ hlines, ?_, rfl⟩
    simp only [hstack, List.head?_nil] at hnothing ⊢
    rw [hnothing]
  | cons top below =>
    obtain ⟨shown, hshown⟩ := top.text_eq_ok hshows
    refine ⟨.value top shown, hstack ▸ hlines, ?_, shown, hshown, rfl⟩
    have htop := hvalue top shown hshown
    simp only [hstack, List.head?_cons] at htop ⊢
    rw [htop]

/-- A line of inline assignments answers with what is on top of the stack, however many they
    are and whatever has been done before, unless it is too long. -/
theorem execute_assignments (hshows : settings.ShowsReals)
    (htext : IsAssignments names text.toList)
    (hconstant : ∀ name ∈ names, s.machine.store.hasConstant name = false) :
    if settings.maxLength < text.length then s.RefusesLength settings text
    else s.AnswersTop settings text := by
  split
  · rename_i hlength
    exact ⟨_, execute_of_tooLong hlength, rfl⟩
  · rename_i hlength
    obtain ⟨store', hline⟩ : ∃ store',
        (Node.blank .initial).readLineOn ⟨text.toList, s.machine.store, []⟩ =
          (Node.blank .initial).readLineOn ⟨[], store', []⟩ :=
      Node.readLineOn_assignments htext hconstant
    exact answersTop_of_readText hshows hlength (Node.readText_of_readLineOn hline)

/-- The report of a line that is too long is that of an error. -/
theorem isOk_of_tooLong (h : settings.maxLength < text.length) (replies : Option (List Reply)) :
    (Report.evaluate settings text (new .initial replies)).1.toOption.any Report.isOk = false := by
  rw [Report.evaluate, execute_of_tooLong h]
  rfl

end Session

end

namespace Session

theorem isAssignments_two : IsAssignments ["x", "y"] "x=3in\ty=-2".toList := by
  have hline : IsAssignments ["y"] ("y".toList ++ '=' :: ("-2".toList ++ [])) :=
    .assign (by decide +kernel) ⟨⟨'-', ['2'], rfl, .inr ⟨rfl, rfl⟩⟩, rfl⟩ (.inl rfl) .nil
  have hliteral : IsLiteral "3in".toList
      { magnitude := .whole 3, measure := ⟨.length, "in", "in"⟩, literal := "3" } :=
    ⟨⟨'3', ['i', 'n'], rfl, .inl rfl⟩, rfl⟩
  have hname : IsWritable "x" := by decide +kernel
  exact .assign hname hliteral (.inr ⟨'\t', _, rfl, rfl⟩) (.blank rfl hline)

/-- A session with a five on its stack. -/
def holdingFive : Session :=
  (new .initial none).play [.execute .default "5"]

theorem two_assigned_above_five :
    IsAssignments ["x", "y"] "x=3in\ty=-2".toList ∧
      (∀ name ∈ ["x", "y"], holdingFive.machine.store.hasConstant name = false) ∧
      holdingFive.AnswersTop .default "x=3in\ty=-2" := by
  have hconstant : ∀ name ∈ ["x", "y"], holdingFive.machine.store.hasConstant name = false := by
    decide +kernel
  exact ⟨isAssignments_two, hconstant, (if_neg (by decide)).mp
    (execute_assignments Settings.showsReals_default isAssignments_two hconstant)⟩

/-- Its result is the five, in the report, too; and the report of a line that is too long
    is that of an error. -/
theorem assignments_answer_five :
    IsAssignments ["x", "y"] "x=3in\ty=-2".toList ∧
      (∀ name ∈ ["x", "y"], holdingFive.machine.store.hasConstant name = false) ∧
      ((holdingFive.execute .default "x=3in\ty=-2").1.toOption.bind id).map Quantity.magnitude =
        some (.whole 5) ∧
      (Report.evaluate .default "x=3in\ty=-2" holdingFive).1.toOption.any
        (fun report => report.outcome matches .value _ "5") = true ∧
      IsAssignments ["y"] ("y" ++ "=" ++ String.ofList (Literal.ones 4095).text).toList ∧
      (Report.evaluate .default ("y" ++ "=" ++ String.ofList (Literal.ones 4095).text)
        (new .initial none)).1.toOption.any Report.isOk = false := by
  have hy : IsWritable "y" := by decide +kernel
  exact ⟨isAssignments_two, by decide +kernel, by decide +kernel, by decide +kernel,
    isAssignments_literal hy fits_ones, isOk_of_tooLong maxLength_lt_ones none⟩

end Session

end Reckoner
