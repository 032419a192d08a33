import Reckoner.Proofs.Phrase.Reading
import Reckoner.Proofs.Evaluation.Alike
import Reckoner.Proofs.Evaluation.Success
import Reckoner.Proofs.Reading.Apart
import Reckoner.Proofs.Session.Lines
import Reckoner.Proofs.Session.Moves

/-!
# Three ways to assign

A name is given the value of a literal while the line is read (`y=3`), or by the
operator, from the literal in front of the name (`3 =y`) or behind it (`y = 3`).
Each time the line succeeds with nothing to say, all other names have the values
they had, and the name has the number and the format of the literal
(`Session.assigns_three_ways`). The operator gives it the unit of the literal,
too. Reading does so if that is a unit at all, and otherwise leaves the name with
the unit of its last value. Only a line that is too long assigns nothing; it is
not even read.
-/

namespace Reckoner

open Text Build

/-- The operator that assigns. -/
def Operator.assignment : Operator :=
  ⟨"=", "assign", .assign none, "store into variable"⟩

namespace Operator

variable {o : Operator} {text behind : List Char}

theorem assignment_mem_table : assignment ∈ table := by decide

/-- Where only one operator begins with the first character, and that is ahead, it
    is found. -/
theorem begins?_of_head (ho : o ∈ table) {c : Char}
    (hunique : ∀ o' ∈ table, o'.spelling.toList.head? = some c → o' = o)
    (htext : text.head? = some c) (hstarts : startsWith o.spelling text = true) :
    begins? text = some o := by
  refine begins?_of_unique ho hstarts fun o' ho' hstarts' => hunique o' ho' ?_
  obtain ⟨d, spelling, hspelling, -⟩ := atToken ho'
  obtain ⟨rest, hrest⟩ := startsWith_iff.1 hstarts'
  rw [hspelling] at hrest ⊢
  rw [← hrest] at htext
  exact htext

theorem begins?_assignment (text : List Char) : begins? ('=' :: text) = some assignment := by
  have hunique : ∀ o ∈ table, o.spelling.toList.head? = some '=' → o = assignment := by
    decide +kernel
  exact begins?_of_head assignment_mem_table hunique rfl rfl

end Operator

namespace Measure

/-- The first unit counts if it is one; or they are the same. -/
theorem orElse_eq_left_iff (m n : Measure) : m.orElse n = m ↔ m.isPlain = false ∨ n = m := by
  rw [orElse]
  cases m.isPlain <;> simp

end Measure

/-- What has no name passes on, as far as no names are looked up. -/
theorem Quantity.inherited_unnamed :
    Inherited (fun _ => False) fun q => q.isVariable = false where
  makes _ _ _ _ _ := rfl
  measured h _ := h
  formatted _ h := h
  named h := h.elim
  lent h := h.elim
  valued _ _ _ h hvariable := absurd hvariable (by simp [h])
  assigned _ _ _ h := h.elim

theorem Store.isTarget_named {store : Store} {name : String} (hstore : store.HasNames)
    (hname : name ≠ "") (hconstant : store.hasConstant name = false) :
    (Quantity.named store name).isTarget = true := by
  have hnamed := Quantity.name_named store name
  rw [Quantity.isTarget, hnamed]
  rw [Quantity.named, lookup?] at hnamed ⊢
  rw [hasConstant] at hconstant
  cases hfind : store.find? name with
  | none => simp [Quantity.unset, hname]
  | some e =>
    rw [hfind] at hconstant
    have hvariable := hstore e (List.mem_of_find?_eq_some hfind)
    have hentry : e.quantity.isConstant = false := hconstant
    simp [hvariable, hentry, hname]

theorem Text.startsAssignment_append {text : List Char}
    (h : ∃ c rest, text = c :: rest ∧ (c.isDigit = true ∨ c = '-' ∧ startsDigit rest = true))
    (behind : List Char) : Quantity.startsAssignment ('=' :: (text ++ behind)) = true := by
  obtain ⟨c, rest, rfl, hc | ⟨rfl, -⟩⟩ := h
  · simp [Quantity.startsAssignment, hc]
  · rfl

section

variable [DigitLimit]

/-! ## Reading lines that assign -/

/-- A literal is a text that begins with a digit, or with a minus sign and a digit,
    and that is read in full. -/
structure Text.IsLiteral (text : List Char) (q : Quantity) : Prop where
  starts : ∃ c rest, text = c :: rest ∧ (c.isDigit = true ∨ c = '-' ∧ startsDigit rest = true)
  read : Quantity.readLiteral text = .ok q []

namespace Text.IsLiteral

variable {text behind : List Char} {q : Quantity} (h : IsLiteral text q)
include h

theorem atToken : AtToken text := by
  obtain ⟨c, rest, rfl, hc | ⟨rfl, -⟩⟩ := h.starts
  · exact ⟨c, rest, rfl, isBlank_of_isDigit hc⟩
  · exact ⟨'-', rest, rfl, by decide⟩

theorem startsNumber_eq : startsNumber text = true := by
  obtain ⟨c, rest, rfl, hc | ⟨rfl, hrest⟩⟩ := h.starts
  · simp [startsNumber, hc]
  · simp [startsNumber, hrest]

theorem read_append (hbehind : AtBlank behind) :
    Quantity.readLiteral (text ++ behind) = .ok q behind :=
  Quantity.readLiteral_append hbehind h.atToken h.read

end Text.IsLiteral

namespace Node

variable {store store' : Store} {messages : List Message} {name : String} {text behind : List Char}
  {q : Quantity} {node : Node}

/-- A literal in front of a blank, or at the end. -/
theorem gives_turn_text (h : IsLiteral text q)
    (hstate : node.state = .initial ∨ node.state = .binary) (hbehind : AtBlank behind) :
    Gives store messages node.turn (text ++ behind) (.of (node.addOperand q)) behind :=
  gives_turn_number (h.atToken.append behind) hstate
    ((startsNumber_apart hbehind.apart).trans h.startsNumber_eq) (h.read_append hbehind)

/-- The operator, behind an operand. -/
theorem gives_turn_assignment (hstate : node.state = .number) (htakes : node.takesOperator = true)
    (behind : List Char) :
    Gives store messages node.turn ('=' :: behind)
      (.again { node with operator := some .assignment, state := .binary }) behind := by
  have hahead : ahead node.state ('=' :: behind) = .operator .assignment := by
    rw [ahead, hstate, if_neg (by decide), Operator.begins?_assignment]
    exact if_neg (by simp)
  exact gives_turn_ahead Operator.assignment_mem_table hahead htakes rfl

/-- The node of an operand and the operator. -/
def awaiting (left : Quantity) : Node :=
  { seeded left with operator := some .assignment, state := .binary }

/-- The node of an operand, the operator and an operand. -/
def assigning (left right : Quantity) : Node :=
  ⟨.parsed, some .assignment, [left], [right], []⟩

/-- A line of an operand, the operator and an operand. -/
theorem readText_assigning {left right : Quantity} {mid : List Char}
    (hleft : Gives store messages (blank .initial).turn text
      (.of ((blank .initial).addOperand left)) (' ' :: '=' :: mid))
    (hright : Gives store messages (awaiting left).turn mid
      (.of ((awaiting left).addOperand right)) []) :
    readText none ⟨text, store, messages⟩ =
      (.ok [assigning left right], ⟨[], store, messages⟩) := by
  have hoperator : Gives store messages (seeded left).turn (' ' :: '=' :: mid)
      (.again (awaiting left)) mid :=
    (skipsBlanks_turn _).gives (gives_turn_assignment rfl rfl mid) (skipBlanks_cons _)
  exact readText_operation hleft hoperator hright

/-- `l =y` -/
theorem readText_literal_name (htext : IsLiteral text q) (hname : IsWritable name) :
    readText none ⟨text ++ ' ' :: '=' :: name.toList, store, messages⟩ =
      (.ok [assigning q (.named store name)], ⟨[], store, messages⟩) := by
  refine readText_assigning (gives_turn_text htext (.inl rfl) (atBlank_cons _)) ?_
  have hright : Gives store messages (awaiting q).turn (name.toList ++ [])
      (.of ((awaiting q).addOperand (.named store name))) [] :=
    gives_turn_named hname (show NodeState.binary ≠ .convert by decide) (.inl rfl)
  rwa [List.append_nil] at hright

/-- `y = l` -/
theorem readText_name_literal (htext : IsLiteral text q) (hname : IsWritable name) :
    readText none ⟨name.toList ++ ' ' :: '=' :: ' ' :: text, store, messages⟩ =
      (.ok [assigning (.named store name) q], ⟨[], store, messages⟩) := by
  refine readText_assigning (gives_turn_named hname (by decide) (atBlank_cons _)) ?_
  have hright : Gives store messages (awaiting (.named store name)).turn (text ++ [])
      (.of ((awaiting (.named store name)).addOperand q)) [] :=
    gives_turn_text htext (.inr rfl) (.inl rfl)
  rw [List.append_nil] at hright
  exact (skipsBlanks_turn _).gives hright (skipBlanks_cons _)

theorem turn_name (hname : IsWritable name) (behind : List Char) :
    (blank .initial).turn ⟨name.toList ++ '=' :: behind, store, messages⟩ =
      (blank .initial).proceed .name ⟨name.toList ++ '=' :: behind, store, messages⟩ := by
  have hhead : ∀ c ∈ ('=' :: behind).head?, c.isAlphanum = false := fun c hc =>
    Option.some.inj hc ▸ by decide
  have hahead : ahead (blank .initial).state (name.toList ++ '=' :: behind) = .name :=
    ahead_name (by decide) (hname.startsNumber_append _) (hname.begins?_append hhead)
  rw [turn_token (hname.atToken.append _), hahead]

/-- The literal is read right behind the sign. -/
theorem readName_inline (hname : IsName name)
    (hstarts : Quantity.startsAssignment ('=' :: text) = true) :
    Quantity.readName store (name.toList ++ '=' :: text) =
      (do return Mention.assignment ((Quantity.named store name).assigned (← Quantity.readLiteral)))
        text := by
  have hassignment : (Quantity.named store name).readAssignment ('=' :: text) =
      (do return Mention.assignment ((Quantity.named store name).assigned (← Quantity.readLiteral)))
        text := by
    refine (bind_of_ok (y := get) rfl).trans ?_
    rw [hstarts, if_pos rfl]
    rfl
  rw [Quantity.readName_append store hname rfl]
  exact hassignment

/-- The value is assigned, and nothing has been added to the node. -/
theorem turn_inline (htext : IsLiteral text q) (hname : IsWritable name)
    (hassign : store.assign ((Quantity.named store name).assigned q) = .ok store')
    (hbehind : AtBlank behind) :
    (blank .initial).turn ⟨name.toList ++ '=' :: (text ++ behind), store, messages⟩ =
      .ok (.again (blank .initial)) ⟨behind, store', messages⟩ := by
  have hscan : scan (Quantity.readName store)
      ⟨name.toList ++ '=' :: (text ++ behind), store, messages⟩ =
        .ok (.assignment ((Quantity.named store name).assigned q)) ⟨behind, store, messages⟩ := by
    rw [scan, readName_inline hname.toIsName (startsAssignment_append htext.starts behind),
      bind_of_ok (htext.read_append hbehind)]
    rfl
  have hmention : mention ⟨name.toList ++ '=' :: (text ++ behind), store, messages⟩ =
      .ok none ⟨behind, store', messages⟩ := by
    refine (bind_of_ok (y := get) rfl).trans ((bind_of_ok hscan).trans ?_)
    dsimp only
    rw [hassign]
    rfl
  rw [turn_name hname, proceed]
  exact bind_of_ok hmention

/-- Behind an assignment, the line is read as if it began there. -/
theorem readLineOn_inline (htext : IsLiteral text q) (hname : IsWritable name)
    (hassign : store.assign ((Quantity.named store name).assigned q) = .ok store')
    (hbehind : AtBlank behind) :
    (blank .initial).readLineOn ⟨name.toList ++ '=' :: (text ++ behind), store, messages⟩ =
      (blank .initial).readLineOn ⟨behind, store', messages⟩ :=
  readLineOn_again (turn_inline htext hname hassign hbehind)

/-- A line of which nothing is left to be read and nothing has been read has no
    nodes. -/
theorem readText_of_readLineOn {r : Reader}
    (h : (blank .initial).readLineOn r = (blank .initial).readLineOn ⟨[], store, messages⟩) :
    readText none r = (.ok [], ⟨[], store, messages⟩) := by
  obtain ⟨rest, hline, -⟩ : Gives store messages (blank .initial).readLineOn [] [] [] :=
    gives_readLineOn_nil (blank .initial)
  have hbuild : build none r = .ok [] ⟨rest, store, messages⟩ := h.trans hline
  obtain ⟨hrest, -⟩ := (ends_build none _).of_ok hbuild
  dsimp only at hrest
  rw [readText, hbuild, hrest]

/-- `y=l` -/
theorem readText_inline (htext : IsLiteral text q) (hname : IsWritable name)
    (hassign : store.assign ((Quantity.named store name).assigned q) = .ok store') :
    readText none ⟨name.toList ++ '=' :: text, store, messages⟩ =
      (.ok [], ⟨[], store', messages⟩) := by
  have hline := @readLineOn_inline _ _ _ messages _ _ _ _ htext hname hassign (.inl rfl)
  rw [List.append_nil] at hline
  exact readText_of_readLineOn hline

end Node

/-! ## Assigning -/

/-- A literal stands for nothing but its value. -/
theorem Text.IsLiteral.isVariable_eq {text : List Char} {q : Quantity} (h : IsLiteral text q) :
    q.isVariable = false :=
  (Quantity.reads_readLiteral Quantity.inherited_unnamed.toPassed text).of_ok h.read

namespace Eval

variable {settings : Settings} {formula : Formula} {target value : Quantity}
  {below : List Quantity} {store' : Store} {m : Machine}

theorem apply_assignment (hshows : settings.ShowsReals) (slot : Slot)
    (htarget : target.isTarget = true) (hvalue : value.isVariable = false)
    (hassign : m.store.assign (target.given value) = .ok store')
    (hstack : m.stack = slot.insert target value below) :
    apply settings formula .assignment m =
      .ok ⟨⟩ { m with stack := value :: below, store := store' } := by
  have hvariable := (target.isTarget_iff.1 htarget).1
  have happly : apply settings formula .assignment
      { m with stack := slot.insert target value below } =
        .ok ⟨⟩ { m with stack := value :: below, store := store' } :=
    (apply_assign_eq_ok rfl slot (fun _ => hvariable) hvalue).2
      ⟨htarget, value.text_eq_ok hshows, store', hassign, rfl⟩
  rwa [← hstack] at happly

/-- Running the operator assigns the value, and leaves it on the stack. -/
theorem runLine_assigning (hshows : settings.ShowsReals) (slot : Slot) {left right : Quantity}
    (htarget : target.isTarget = true) (hvalue : value.isVariable = false)
    (hassign : m.store.assign (target.given value) = .ok store')
    (hstack : right :: left :: m.stack = slot.insert target value m.stack) :
    runLine settings formula [Node.assigning left right] m =
      .ok ⟨⟩ { m with stack := value :: m.stack, store := store' } := by
  rw [runLine, onFailure_showStack hshows, runEach_singleton]
  exact apply_assignment hshows slot (m := { m with stack := right :: left :: m.stack }) htarget
    hvalue hassign hstack

end Eval

/-! ## Lines that assign -/

namespace Session

/-- The line succeeds with nothing to say. The name has the number, the unit and
    the format of the value then, and all other names have the values they had. -/
structure Assigns (settings : Settings) (text name : String) (value : Quantity) (s : Session) :
    Prop where
  ok : ∃ result, (s.execute settings text).1 = .ok result
  messages : (s.execute settings text).2.messages = []
  value : ∃ e : Entry, (s.execute settings text).2.machine.store.find? name = some e ∧
    e.quantity.magnitude = value.magnitude ∧ e.quantity.measure = value.measure ∧
      e.quantity.format = value.format
  others : ∀ other, other ≠ name →
    (s.execute settings text).2.machine.store.find? other = s.machine.store.find? other

/-- The line is refused, with one error that says that it is too long, and changes
    nothing else. -/
def RefusesLength (settings : Settings) (text : String) (s : Session) : Prop :=
  ∃ s', s.execute settings text = (.ok none, s') ∧
    s'.machine = { s.machine with messages := [(Failure.tooLong settings.maxLength).message] }

/-- The line assigns, unless it is too long. -/
def AssignsWithin (settings : Settings) (text name : String) (value : Quantity) (s : Session) :
    Prop :=
  if settings.maxLength < text.length then s.RefusesLength settings text
  else s.Assigns settings text name value

variable {settings : Settings} {s : Session} {text name : String} {value q : Quantity}
  {nodes : List Node} {store' : Store} {m' : Machine}

theorem assignsWithin_of_assigns
    (h : ¬settings.maxLength < text.length → s.Assigns settings text name value) :
    s.AssignsWithin settings text name value := by
  rw [AssignsWithin]
  split
  · rename_i hlength
    exact ⟨_, execute_of_tooLong hlength, rfl⟩
  · rename_i hlength
    exact h hlength

/-- A line assigns what it puts into the store. -/
theorem assigns_of_put {v : Quantity} {description : String}
    (hlength : ¬settings.maxLength < text.length)
    (hread : Node.readText none ⟨text.toList, s.machine.store, []⟩ = (.ok nodes, ⟨[], store', []⟩))
    (hrun : Eval.runLine settings (settings.formulaAt 0) nodes
      { s.machine with store := store', messages := [] } = .ok ⟨⟩ m')
    (hmessages : m'.messages = [])
    (hstore : m'.store = s.machine.store.put ⟨Store.kept v, description⟩) (hname : v.name = name)
    (hmagnitude : v.magnitude = value.magnitude) (hmeasure : v.measure = value.measure)
    (hformat : v.format = value.format) : s.Assigns settings text name value := by
  have hexecute := execute_of_runLine (parse_of_readText hlength hread) hrun
  have hname : (Entry.mk (Store.kept v) description).name = name := hname
  exact {
    ok := ⟨_, by rw [hexecute]⟩
    messages := by rw [hexecute]; exact hmessages
    value := by
      rw [hexecute, hstore]
      exact ⟨_, by rw [Store.find?_put, if_pos hname], hmagnitude, hmeasure, hformat⟩
    others := fun other hother => by
      rw [hexecute, hstore, Store.find?_put, hname, if_neg hother.symm] }

section

variable (hname : IsWritable name) (hconstant : s.machine.store.hasConstant name = false)
  {l : String} (hl : IsLiteral l.toList q)
include hname hconstant hl

theorem assigns_inline (hlength : ¬settings.maxLength < (name ++ "=" ++ l).length) :
    s.Assigns settings (name ++ "=" ++ l) name
      { q with measure := q.measure.orElse (Quantity.named s.machine.store name).measure } := by
  have htarget : ((Quantity.named s.machine.store name).assigned q).name = name :=
    Quantity.name_named s.machine.store name
  obtain ⟨description, hassign⟩ := Store.exists_assign_eq_ok (s := s.machine.store)
    (q := (Quantity.named s.machine.store name).assigned q)
    (by rw [htarget]; exact hname.ne_empty) (by rw [htarget]; exact hconstant)
  have htext : (name ++ "=" ++ l).toList = name.toList ++ '=' :: l.toList := by simp
  have hread := @Node.readText_inline _ s.machine.store _ [] _ _ _ hl hname hassign
  rw [← htext] at hread
  -- There is nothing to run.
  exact assigns_of_put hlength hread rfl rfl rfl htarget rfl rfl rfl

/-- A line that is read into the operator with the name and the value. -/
theorem assigns_assigning (hshows : settings.ShowsReals) (hstore : s.machine.store.HasNames)
    (hlength : ¬settings.maxLength < text.length) (slot : Slot) {left right : Quantity}
    (hread : Node.readText none ⟨text.toList, s.machine.store, []⟩ =
      (.ok [Node.assigning left right], ⟨[], s.machine.store, []⟩))
    (hstack : right :: left :: s.machine.stack =
      slot.insert (Quantity.named s.machine.store name) q s.machine.stack) :
    s.Assigns settings text name q := by
  have htarget : ((Quantity.named s.machine.store name).given q).name = name :=
    Quantity.name_named s.machine.store name
  obtain ⟨description, hassign⟩ := Store.exists_assign_eq_ok (s := s.machine.store)
    (q := (Quantity.named s.machine.store name).given q)
    (by rw [htarget]; exact hname.ne_empty) (by rw [htarget]; exact hconstant)
  have hrun : Eval.runLine settings (settings.formulaAt 0) [Node.assigning left right]
      { s.machine with messages := [] } = .ok ⟨⟩ _ :=
    Eval.runLine_assigning hshows slot (Store.isTarget_named hstore hname.ne_empty hconstant)
      hl.isVariable_eq hassign hstack
  exact assigns_of_put hlength hread hrun rfl rfl htarget rfl rfl rfl

/-- Within the length of a line, all three ways succeed, leave other names alone, and
    give the name the number and the format of the literal. The operator gives it
    the unit, too, wherever the name stands. Read at once, a literal without a unit
    leaves the name its own, so that the ways agree exactly if the literal has a unit
    or the name has none to be left with. -/
theorem assigns_three_ways (hshows : settings.ShowsReals) (hstore : s.machine.store.Reachable) :
    s.AssignsWithin settings (name ++ "=" ++ l) name
        { q with measure := q.measure.orElse (Quantity.named s.machine.store name).measure } ∧
      s.AssignsWithin settings (l ++ " =" ++ name) name q ∧
      s.AssignsWithin settings (name ++ " = " ++ l) name q ∧
      (q.measure.orElse (Quantity.named s.machine.store name).measure = q.measure ↔
        q.measure.isPlain = false ∨
          (Quantity.named s.machine.store name).measure = q.measure) := by
  have htext : (l ++ " =" ++ name).toList = l.toList ++ ' ' :: '=' :: name.toList := by simp
  have htext' : (name ++ " = " ++ l).toList = name.toList ++ ' ' :: '=' :: ' ' :: l.toList := by
    simp
  refine ⟨assignsWithin_of_assigns (assigns_inline hname hconstant hl),
    assignsWithin_of_assigns fun hlength => ?_, assignsWithin_of_assigns fun hlength => ?_,
    Measure.orElse_eq_left_iff _ _⟩
  · exact assigns_assigning hname hconstant hl hshows hstore.hasNames hlength .top
      (by rw [htext]; exact Node.readText_literal_name hl hname) rfl
  · exact assigns_assigning hname hconstant hl hshows hstore.hasNames hlength .below
      (by rw [htext']; exact Node.readText_name_literal hl hname) rfl

end

end Session

end

namespace Session

/-- Three inches, in all three ways. -/
theorem three_inches_assigned :
    IsWritable "y" ∧ (new .initial none).machine.store.hasConstant "y" = false ∧
      IsLiteral "3in".toList
        { magnitude := .whole 3, measure := ⟨.length, "in", "in"⟩, literal := "3" } ∧
      (new .initial none).Assigns .default "y=3in" "y"
        { magnitude := .whole 3, measure := ⟨.length, "in", "in"⟩, literal := "3" } ∧
      (new .initial none).Assigns .default "3in =y" "y"
        { magnitude := .whole 3, measure := ⟨.length, "in", "in"⟩, literal := "3" } ∧
      (new .initial none).Assigns .default "y = 3in" "y"
        { magnitude := .whole 3, measure := ⟨.length, "in", "in"⟩, literal := "3" } := by
  have halpha : "y".toList.all Char.isAlpha = true := by decide
  have hname : IsWritable "y" := ⟨⟨by decide, List.all_eq_true.1 halpha⟩, by decide +kernel⟩
  have hconstant : (new .initial none).machine.store.hasConstant "y" = false := by decide
  have hl : IsLiteral "3in".toList
      { magnitude := .whole 3, measure := ⟨.length, "in", "in"⟩, literal := "3" } :=
    ⟨⟨'3', ['i', 'n'], rfl, .inl rfl⟩, rfl⟩
  obtain ⟨hinline, hbehind, hfront, -⟩ := assigns_three_ways hname hconstant hl
    Settings.showsReals_default (.ofConstants Constant.table)
  exact ⟨hname, hconstant, hl, (if_neg (by decide)).mp hinline, (if_neg (by decide)).mp hbehind,
    (if_neg (by decide)).mp hfront⟩

/-- Where the name is five centimeters, a bare three read at once becomes three
    centimeters; assigned by the operator, it stays bare. -/
theorem bare_three_differs :
    let s := (new .initial none).play [.execute .default "y=5cm"]
    let unit (text : String) := ((s.execute .default text).2.machine.store.find? "y").map fun e =>
      e.quantity.measure.key
    unit "y=3" = some "cm" ∧ unit "3 =y" = some "" ∧ unit "y = 3" = some "" := by
  decide +kernel

end Session

end Reckoner
