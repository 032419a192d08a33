import Reckoner.Proofs.Evaluation.Beside
import Reckoner.Proofs.Session.Listings
import Reckoner.Repl

/-!
# Interactive sessions and plain ones

An interactive session is a plain one with a user in front of it. It takes lines until the
user leaves or there are no more; what lies in between, prompts, answers, listings and
hints, is printed and leaves no trace. So its stack, its store and its history are those of
a plain session (`Session.Follows`) in which the lines that it takes are entered one after
another, an expression to be evaluated, a command to clear something or only for the
history, and all else for nothing (`Repl.run_follows`). A line that answers a question is
not taken, in either of them.
-/

namespace Reckoner

/-! ## Entering lines in a plain session -/

/-- What a line is to a session. -/
inductive Entered
  /-- A blank line, a comment, or a call for help. -/
  | idle
  /-- The user leaves. -/
  | leave
  | command (c : Command)
  | expression

/-- What a stripped line is. -/
def Entered.of (line : List Char) : Entered :=
  let lowered := String.ofList (Text.lower line)
  if line = [] ∨ line.head? = some '#' then idle
  else if lowered ∈ ["q", "quit", "exit"] then leave
  else if lowered = "help" ∨ line.head? = some '?' then idle
  else
    match Command.ofLine? line with
    | some c => command c
    | none => expression

namespace Session

variable {settings : Settings} {s t : Session} {line : List Char} {lines : List Reply}

/-- The session with the line in its history. -/
def noting (line : List Char) (s : Session) : Session :=
  { s with history := s.history ++ [String.ofList line] }

/-- The session with the given replies to come. -/
def awaiting (replies : List Reply) (s : Session) : Session :=
  { s with machine := { s.machine with replies := some replies } }

/-- The line to be entered is one. -/
theorem line_unique {text text' : String} {rest rest' : List Reply}
    (h : s.machine.replies = some (.line text :: rest))
    (h' : s.machine.replies = some (.line text' :: rest')) : text = text' ∧ rest = rest' := by
  simpa [h] using h'

/-! ## Sessions beside each other -/

/-- The sessions differ at most in the names asked for, and the replies to come are the last
    of the given ones. -/
structure Beside (lines : List Reply) (s t : Session) : Prop where
  machine : s.machine.Beside lines t.machine
  history : s.history = t.history
  nodes : s.nodes = t.nodes

namespace Beside

theorem awaiting (h : s.Beside lines t) (replies : List Reply) :
    (s.awaiting replies).Beside replies (t.awaiting replies) :=
  ⟨⟨h.machine.stack, h.machine.store, h.machine.messages, rfl, replies, rfl,
    List.suffix_refl replies⟩, h.history, h.nodes⟩

theorem noting (h : s.Beside lines t) (line : List Char) :
    (s.noting line).Beside lines (t.noting line) :=
  ⟨h.machine, congrArg (· ++ _) h.history, h.nodes⟩

theorem clearStack (h : s.Beside lines t) : s.clearStack.Beside lines t.clearStack :=
  ⟨h.machine.with_stack [], h.history, h.nodes⟩

theorem clearVariables (h : s.Beside lines t) : s.clearVariables.Beside lines t.clearVariables :=
  ⟨⟨h.machine.stack, congrArg Store.clear h.machine.store, h.machine.messages, h.machine.replies,
    h.machine.left⟩, h.history, h.nodes⟩

theorem begun (h : s.Beside lines t) (text : String) : (s.begun text).Beside lines (t.begun text) :=
  ⟨⟨h.machine.stack, h.machine.store, rfl, h.machine.replies, h.machine.left⟩,
    congrArg (· ++ _) h.history, h.nodes⟩

end Beside

/-! ## Following lines -/

variable [DigitLimit]

/-- The session after a stripped line. -/
def enter (settings : Settings) (line : List Char) (s : Session) : Session :=
  match Entered.of line with
  | .idle | .leave => s
  | .command .clearStack => s.clearStack.noting line
  | .command .clearVariables => s.clearVariables.noting line
  | .command _ => s.noting line
  | .expression => (s.execute settings (String.ofList line)).2

/-- The lines that are to come are entered, stripped, one after another, until the user
    leaves or there are no more. -/
inductive Follows (settings : Settings) : Session → Session → Prop
  | ended {s : Session} : s.machine.replies = some [] → Follows settings s s
  | left {s : Session} {text : String} {rest : List Reply} :
    s.machine.replies = some (.line text :: rest) →
      Entered.of (Text.strip text.toList) = .leave → Follows settings s (s.awaiting rest)
  | entered {s t : Session} {text : String} {rest : List Reply} :
    s.machine.replies = some (.line text :: rest) →
      Entered.of (Text.strip text.toList) ≠ .leave →
      Follows settings ((s.awaiting rest).enter settings (Text.strip text.toList)) t →
      Follows settings s t

/-- There is one session that follows the lines. -/
theorem Follows.unique {t' : Session} (h : s.Follows settings t) (h' : s.Follows settings t') :
    t = t' := by
  induction h with
  | ended hend =>
    cases h' with
    | ended => rfl
    | left hline _ => simp [hend] at hline
    | entered hline _ _ => simp [hend] at hline
  | left hline hleaves =>
    cases h' with
    | ended hend => simp [hend] at hline
    | left hline' _ =>
      obtain ⟨-, rfl⟩ := line_unique hline hline'
      rfl
    | entered hline' hstays _ =>
      obtain ⟨rfl, -⟩ := line_unique hline hline'
      exact absurd hleaves hstays
  | entered hline hstays _ ih =>
    cases h' with
    | ended hend => simp [hend] at hline
    | left hline' hleaves =>
      obtain ⟨rfl, -⟩ := line_unique hline hline'
      exact absurd hleaves hstays
    | entered hline' _ hfollows =>
      obtain ⟨rfl, rfl⟩ := line_unique hline hline'
      exact ih hfollows

namespace Beside

theorem parse (h : s.Beside lines t) (settings : Settings) (text : String) :
    (s.parse settings text).1 = (t.parse settings text).1 ∧
      (s.parse settings text).2.Beside lines (t.parse settings text).2 := by
  rw [Session.parse, Session.parse, h.machine.store, h.machine.messages]
  split
  · exact ⟨rfl, ⟨h.machine.stack, h.machine.store, rfl, h.machine.replies, h.machine.left⟩,
      h.history, rfl⟩
  · split
    all_goals
      exact ⟨rfl, ⟨h.machine.stack, rfl, rfl, h.machine.replies, h.machine.left⟩, h.history, rfl⟩

theorem run (h : s.Beside lines t) (settings : Settings) :
    (s.run settings).2.Beside lines (t.run settings).2 := by
  have hagree := Eval.unasked_runLine settings 0 s.nodes s.machine t.machine h.machine
  rw [Session.run, Session.run, ← h.nodes]
  generalize Eval.runLine settings (settings.formulaAt 0) s.nodes s.machine = result at hagree ⊢
  generalize Eval.runLine settings (settings.formulaAt 0) s.nodes t.machine = result' at hagree ⊢
  cases hagree with
  | ok _ hmachine => exact ⟨hmachine, h.history, rfl⟩
  | @error e _ _ hmachine =>
    cases e with
    | failed => exact ⟨hmachine, h.history, rfl⟩
    | fault f => exact ⟨hmachine, h.history, rfl⟩

theorem execute (h : s.Beside lines t) (settings : Settings) (text : String) :
    (s.execute settings text).2.Beside lines (t.execute settings text).2 := by
  obtain ⟨hread, hparse⟩ := (h.begun text).parse settings text
  rw [Session.execute, Session.execute]
  generalize (s.begun text).parse settings text = result at hread hparse ⊢
  generalize (t.begun text).parse settings text = result' at hread hparse ⊢
  obtain ⟨readable, s'⟩ := result
  obtain ⟨_, t'⟩ := result'
  obtain rfl := hread
  rcases readable with f | _ | _
  · exact hparse
  · exact hparse
  · exact hparse.run settings

end Beside

end Session

/-! ## Turns -/

namespace Repl

variable {settings : Settings} {r : Repl} {s : Session} {line : List Char} {lines : List Reply}

theorem session_printFault (f : Fault) (r : Repl) : (r.printFault f).session = r.session := by
  cases f <;> rfl

theorem running_printFault (f : Fault) (r : Repl) : (r.printFault f).running = r.running := by
  cases f <;> rfl

theorem runCommand_session (hshows : settings.ShowsReals) (line : List Char) (c : Command)
    (r : Repl) :
    (r.runCommand settings (String.ofList line) c).running = r.running ∧
      (r.runCommand settings (String.ofList line) c).session =
        (c.effect r.session).noting line := by
  have hprinted := Command.printed_output hshows r.session c
  rw [runCommand.eq_def]
  generalize Command.printed (c.output settings r.session) = printed at hprinted ⊢
  obtain ⟨text, why⟩ := printed
  obtain rfl := hprinted
  exact ⟨rfl, rfl⟩

section

variable [DigitLimit]

/-- How a line is processed, by what it is. -/
inductive Processed (settings : Settings) (line : List Char) (r : Repl) : Entered → Repl → Prop
  | idle {r' : Repl} : r'.session = r.session → r'.running = r.running →
    Processed settings line r .idle r'
  | leave : Processed settings line r .leave r.stop
  | command (c : Command) :
    Processed settings line r (.command c) (r.runCommand settings (String.ofList line) c)
  | expression : Processed settings line r .expression (r.runLine settings (String.ofList line))

theorem processed (settings : Settings) (line : List Char) (r : Repl) :
    Processed settings line r (.of line) (r.process settings line) := by
  rw [process, Entered.of]
  by_cases hempty : line = []
  · simp only [hempty, List.isEmpty_nil, if_true, true_or]
    split
    · exact .idle rfl rfl
    · exact .idle rfl rfl
  by_cases hcomment : line.head? = some '#'
  · simp only [List.isEmpty_iff, hempty, hcomment, if_true, if_false, or_true]
    exact .idle rfl rfl
  simp only [List.isEmpty_iff, hempty, hcomment, if_false, or_false, Bool.or_eq_true, beq_iff_eq,
    decide_eq_true_eq, List.mem_cons, List.not_mem_nil, or_assoc]
  split
  · exact .leave
  split
  · exact .idle rfl rfl
  · cases Command.ofLine? line with
    | some c => exact .command c
    | none => exact .expression

/-- However a line is answered, the session is that in which it has been evaluated. -/
theorem runLine_session (settings : Settings) (line : String) (r : Repl) :
    (r.runLine settings line).running = r.running ∧
      (r.runLine settings line).session =
        (Session.execute settings line
          { r.session with machine := { r.session.machine with asked := [] } }).2 := by
  rw [runLine, ← Session.evaluate_snd]
  generalize Report.evaluate settings line _ = evaluated
  obtain ⟨result, session⟩ := evaluated
  cases result with
  | error f => exact ⟨running_printFault f _, session_printFault f _⟩
  | ok report =>
    dsimp only
    split
    · split
      · exact ⟨rfl, rfl⟩
      · exact ⟨running_printFault _ _, session_printFault _ _⟩
    · exact ⟨rfl, rfl⟩

/-- A line with which the user does not leave is entered. -/
theorem process_enters (hshows : settings.ShowsReals) (h : r.session.Beside lines s)
    (hstays : Entered.of line ≠ .leave) :
    (r.process settings line).running = r.running ∧
      (r.process settings line).session.Beside lines (s.enter settings line) := by
  have hprocessed := processed settings line r
  rw [Session.enter]
  generalize Entered.of line = entered at hstays hprocessed ⊢
  generalize r.process settings line = r' at hprocessed ⊢
  cases hprocessed with
  | idle hsession hrunning => exact ⟨hrunning, hsession ▸ h⟩
  | leave => exact absurd rfl hstays
  | command c =>
    obtain ⟨hrunning, hsession⟩ := runCommand_session hshows line c r
    refine ⟨hrunning, ?_⟩
    rw [hsession]
    cases c with
    | clearStack => exact h.clearStack.noting line
    | clearVariables => exact h.clearVariables.noting line
    | _ => exact h.noting line
  | expression =>
    obtain ⟨hrunning, hsession⟩ := runLine_session settings (String.ofList line) r
    -- Forgetting what has been asked for makes no difference to the session beside.
    have hasked : Session.Beside lines
        { r.session with machine := { r.session.machine with asked := [] } } s :=
      ⟨⟨h.machine.stack, h.machine.store, h.machine.messages, h.machine.replies, h.machine.left⟩,
        h.history, h.nodes⟩
    exact ⟨hrunning, hsession ▸ hasked.execute settings _⟩

theorem process_leaves (h : Entered.of line = .leave) : r.process settings line = r.stop := by
  have hprocessed := processed settings line r
  rw [h] at hprocessed
  generalize r.process settings line = r' at hprocessed ⊢
  cases hprocessed with
  | leave => rfl

/-- The session that has prompted for a line and is about to process it. -/
def prompted (rest : List Reply) (r : Repl) : Repl :=
  { r.print (if r.debug then "DEBUG" ++ prompt else prompt) with
    session := r.session.awaiting rest }

theorem turn_line {text : String} {rest : List Reply}
    (h : r.session.machine.replies = some (.line text :: rest)) :
    r.turn settings = (r.prompted rest).process settings (Text.strip text.toList) := by
  simp only [turn, print, h, Option.getD_some, List.tail_cons]
  rfl

theorem turn_end (h : r.session.machine.replies = some []) :
    r.turn settings = (r.prompted []).stop := by
  simp only [turn, print, h, Option.getD_some, List.tail_nil]
  rfl

theorem turns_of_stopped (h : r.running = false) (count : Nat) : turns settings count r = r := by
  cases count with
  | zero => rfl
  | succ count => rw [turns, h]; rfl

/-! ## Sessions -/

/-- With a turn for each line and one more, the session comes to its end, beside a plain one
    that follows the lines. -/
theorem turns_follow (hshows : settings.ShowsReals) {count : Nat} (hrunning : r.running = true)
    (hlines : ∀ reply ∈ lines, ∃ text, reply = .line text) (hcount : lines.length < count)
    (h : r.session.Beside lines s) :
    (turns settings count r).running = false ∧
      ∃ t left, s.Follows settings t ∧ (turns settings count r).session.Beside left t := by
  induction count generalizing r s lines with
  | zero => exact absurd hcount (Nat.not_lt_zero _)
  | succ count ih =>
    rw [turns, if_pos hrunning]
    -- There may be fewer lines than that: evaluation takes those that answer its questions.
    obtain ⟨replies, hreplies, hsuffix⟩ := h.machine.left
    have hreplies' := h.machine.replies ▸ hreplies
    have hleft : replies.length < count + 1 := Nat.lt_of_le_of_lt hsuffix.length_le hcount
    cases replies with
    | nil =>
      rw [turn_end hreplies, turns_of_stopped rfl]
      have hend : s.awaiting [] = s := by rw [Session.awaiting, ← hreplies']
      exact ⟨rfl, s, [], .ended hreplies', hend ▸ h.awaiting []⟩
    | cons reply rest =>
      -- The turn takes the first line away, before it is known what the line is.
      obtain ⟨text, rfl⟩ := hlines reply (hsuffix.mem List.mem_cons_self)
      rw [turn_line hreplies]
      by_cases hleaves : Entered.of (Text.strip text.toList) = .leave
      · rw [process_leaves hleaves, turns_of_stopped rfl]
        exact ⟨rfl, s.awaiting rest, rest, .left hreplies' hleaves, h.awaiting rest⟩
      · obtain ⟨hrunning', hbeside⟩ := process_enters (r := r.prompted rest) hshows
          (h.awaiting rest) hleaves
        have hrest : ∀ reply ∈ rest, ∃ text, reply = .line text := fun reply hreply =>
          hlines reply (hsuffix.mem (List.mem_cons_of_mem _ hreply))
        obtain ⟨hstopped, t, left, hfollows, ht⟩ := ih (hrunning'.trans hrunning) hrest
          (Nat.lt_of_succ_lt_succ hleft) hbeside
        exact ⟨hstopped, t, left, .entered hreplies' hleaves hfollows, ht⟩

/-- An interactive session of lines ends, and with the stack, the store, the history and the
    lines not taken of the plain session that follows the lines. -/
theorem run_follows (hshows : settings.ShowsReals) (style : Style) (showsStack : Bool)
    (lines : List String) :
    let start := Session.new Store.initial (some (lines.map .line))
    let final := (Repl.new style showsStack (lines.map .line)).run settings
    (final.running = false ∧ ∀ count, turns settings count final = final) ∧
      (∃ t, start.Follows settings t) ∧
      ∀ t, start.Follows settings t →
        final.session.machine.stack = t.machine.stack ∧
        final.session.machine.store = t.machine.store ∧
        final.session.history = t.history ∧
        final.session.machine.replies = t.machine.replies := by
  intro start final
  have hbeside : (Repl.new style showsStack (lines.map .line)).session.Beside
      (lines.map .line) start :=
    ⟨⟨rfl, rfl, rfl, rfl, _, rfl, List.suffix_refl _⟩, rfl, rfl⟩
  have hlines : ∀ reply ∈ lines.map Reply.line, ∃ text, reply = .line text := by
    simp
  obtain ⟨hstopped, t, left, hfollows, ht⟩ := turns_follow hshows rfl hlines (Nat.lt_succ_self _)
    hbeside
  refine ⟨⟨hstopped, turns_of_stopped hstopped⟩, ⟨t, hfollows⟩, fun t' hfollows' => ?_⟩
  obtain rfl := hfollows'.unique hfollows
  exact ⟨ht.machine.stack, ht.machine.store, ht.history, ht.machine.replies⟩

end

/-- The second line answers the question of the first, and the last one is not taken. -/
theorem run_follows_answer :
    Settings.default.ShowsReals ∧
      ∀ t, (Session.new Store.initial
            (some [.line " x+1", .line "4", .line "clearStack", .line "Q", .line "2"])).Follows
          .default t →
        t.machine.stack = [] ∧ t.history = ["x+1", "clearStack"] ∧
        t.machine.replies = some [.line "2"] := by
  refine ⟨Settings.showsReals_default, fun t ht => ?_⟩
  obtain ⟨hstack, -, hhistory, hreplies⟩ := (run_follows Settings.showsReals_default .human true
    [" x+1", "4", "clearStack", "Q", "2"]).2.2 t ht
  refine ⟨?_, ?_, ?_⟩
  · rw [← hstack]
    decide +kernel
  · rw [← hhistory]
    decide +kernel
  · rw [← hreplies]
    decide +kernel

end Repl

end Reckoner
