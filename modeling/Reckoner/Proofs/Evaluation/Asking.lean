import Mathlib.Data.List.TakeWhile
import Reckoner.Proofs.Evaluation.Reports
import Reckoner.Proofs.Evaluation.Restore
import Reckoner.Proofs.Phrase.Words
import Reckoner.Proofs.Store

/-!
# Questions and answers

A question is put until an answer settles it, three times at most. An answer
settles it if there is nothing to it, or if it is one literal from end to end
(`Text.SettlesQuestion`). An answer that begins with a whole number of too many
digits is a fault (`Text.fault?`), and there are no more questions; any other one
is answered by a warning (`Quantity.rejection`). One question thus comes to what
its answer is taken for (`Quantity.ask_eq`). What has been asked and said by then
only depends on how many answers were rejected (`Machine.rejecting`), by induction
on these (`Quantity.ask_of_rejected`), and the answer behind them decides how it
ends (`Quantity.confirm_asks`).
-/

namespace Reckoner

open Text

/-! ## Answers -/

/-- What there is to a reply, without white space around it. -/
def Reply.said : Reply → List Char
  | line text => strip text.toList
  | _ => []

/-- What the reply at the given place says; behind the last one, nothing is said. -/
def Reply.saidAt (replies : List Reply) (place : Nat) : List Char :=
  (replies.getD place .endOfInput).said

/-- There is nothing to the answer, or it is one literal. -/
def Text.SettlesQuestion [DigitLimit] (said : List Char) : Prop :=
  said = [] ∨ ∃ q, Quantity.readLiteral said = .ok q []

instance [DigitLimit] (said : List Char) : Decidable (Text.SettlesQuestion said) :=
  decidable_of_iff
    (said = [] ∨ (match Quantity.readLiteral said with
      | .ok _ [] => true
      | _ => false) = true) <| by
    refine or_congr_right ⟨fun h => ?_, fun ⟨q, h⟩ => by rw [h]⟩
    split at h
    · exact ⟨_, by assumption⟩
    · cases h

/-- The answer is of no use, though it has not too many digits to be read. -/
def Text.IsRejected [DigitLimit] (said : List Char) : Prop :=
  ¬SettlesQuestion said ∧ fault? said = none

instance [DigitLimit] (said : List Char) : Decidable (Text.IsRejected said) :=
  inferInstanceAs (Decidable (_ ∧ _))

theorem Reply.saidAt_drop (replies : List Reply) (count place : Nat) :
    saidAt (replies.drop count) place = saidAt replies (count + place) := by
  rw [saidAt, saidAt, List.getD_eq_getElem?_getD, List.getD_eq_getElem?_getD, List.getElem?_drop]

theorem Text.strip_eq_self {text : List Char} (hhead : ∀ c ∈ text.head?, isSpace c = false)
    (hlast : ∀ c ∈ text.getLast?, isSpace c = false) : strip text = text := by
  have hself {l : List Char} (h : ∀ c ∈ l.head?, isSpace c = false) : l.dropWhile isSpace = l := by
    cases l with
    | nil => rfl
    | cons c l => exact List.dropWhile_cons_of_neg (Bool.eq_false_iff.1 (h c rfl))
  rw [strip, hself hhead, hself (by rwa [List.head?_reverse]), List.reverse_reverse]

/-- An answer does not end in white space. -/
theorem Reply.isSpace_getLast?_saidAt (replies : List Reply) (place : Nat) :
    ∀ c ∈ (saidAt replies place).getLast?, isSpace c = false := by
  rw [saidAt]
  cases replies.getD place .endOfInput with
  | line text =>
    intro c hc
    rw [said, strip, List.getLast?_reverse] at hc
    have h := List.head?_dropWhile_not isSpace (text.toList.dropWhile isSpace).reverse
    rw [Option.mem_def.1 hc] at h
    simpa using h
  | endOfInput => nofun
  | interrupt => nofun
  | failure => nofun

section

variable [DigitLimit]

/-- Blanks behind a literal have been stripped off, so that it is all there is. -/
theorem Reply.ofAnswer?_saidAt (replies : List Reply) (place : Nat) (q : Quantity) :
    Quantity.ofAnswer? (saidAt replies place) = .ok (some q) ↔
      Quantity.readLiteral (saidAt replies place) = .ok q [] := by
  have hspace := isSpace_getLast?_saidAt replies place
  generalize saidAt replies place = said at hspace
  rw [Quantity.ofAnswer?]
  cases hread : Quantity.readLiteral said with
  | error snag rest => cases snag <;> constructor <;> · intro h; cases h
  | ok literal rest =>
    dsimp only
    constructor
    · intro h
      split at h
      · rename_i hblank
        cases h
        -- A last blank would be the end of the whole answer.
        cases hrest : rest.getLast? with
        | none => rw [List.getLast?_eq_none_iff.1 hrest]
        | some c =>
          obtain ⟨front, hfront⟩ := ((Quantity.takes_readLiteral said).of_ok hread).1
          have hlast : said.getLast? = some c := by
            rw [← hfront, List.getLast?_append, hrest, Option.some_or]
          have hall := List.dropWhile_eq_nil_iff.1 (List.isEmpty_iff.1 hblank)
          have hblank := isSpace_of_isBlank (hall c (List.mem_of_getLast? hrest))
          cases hblank.symm.trans (hspace c hlast)
      · cases h
    · intro h
      cases h
      rfl

theorem Quantity.ofAnswer?_eq_error_iff {said : List Char} {f : Fault} :
    ofAnswer? said = .error f ↔ Text.fault? said = some f := by
  have hends := ends_readLiteral_fault? said
  rw [ofAnswer?]
  cases hread : readLiteral said with
  | ok q rest => simp [hends.of_ok hread]
  | error snag rest =>
    rw [hends.of_error hread]
    cases snag <;> simp [Snag.fault?]

theorem Reply.fault?_saidAt_ones (n : Nat) :
    Text.fault? (saidAt [.line (String.ofList (List.replicate (n + 1) '1'))] 0) =
      (DigitLimit.most?.filter (· < n + 1)).map (.tooManyDigits · (n + 1)) := by
  have hspace (c) (hc : c ∈ List.replicate (n + 1) '1') : isSpace c = false :=
    List.eq_of_mem_replicate hc ▸ by decide
  have hsaid : saidAt [.line (String.ofList (List.replicate (n + 1) '1'))] 0 =
      List.replicate (n + 1) '1' :=
    (congrArg strip String.toList_ofList).trans
      (Text.strip_eq_self (fun c hc => hspace c (List.mem_of_head? hc))
        fun c hc => hspace c (List.mem_of_getLast? hc))
  rw [hsaid, Quantity.fault?_replicate rfl]

theorem Reply.ofAnswer?_of_isRejected {replies : List Reply} {place : Nat}
    (h : IsRejected (saidAt replies place)) :
    Quantity.ofAnswer? (saidAt replies place) = .ok none := by
  obtain ⟨hsettles, hfault⟩ := h
  rw [SettlesQuestion, not_or] at hsettles
  match hanswer : Quantity.ofAnswer? (saidAt replies place) with
  | .ok none => rfl
  | .ok (some literal) => exact absurd ⟨literal, (ofAnswer?_saidAt ..).1 hanswer⟩ hsettles.2
  | .error f =>
    rw [Quantity.ofAnswer?_eq_error_iff.1 hanswer] at hfault
    cases hfault

end

/-! ## One question -/

/-- What is said to an answer that settles nothing. -/
def Quantity.rejection (q : Quantity) (said : List Char) : Message :=
  ⟨.warning, none, s!"Could not read '{String.ofList said}' as a value for '{q.name}'"⟩

section

variable {m : Machine} {replies : List Reply}

theorem Eval.keep_of_assign {q : Quantity} {store : Store} (h : m.store.assign q = .ok store) :
    keep q m = .ok ⟨⟩ { m with store := store } := by
  refine (bind_of_ok rfl).trans ?_
  rw [h]
  rfl

/-- The machine after the given number of questions for the name, none of which has been
    settled. -/
def Machine.rejecting (m : Machine) (q : Quantity) (replies : List Reply) (count : Nat) : Machine :=
  { m with
    messages := m.messages ++ (List.range count).map fun i => q.rejection (Reply.saidAt replies i)
    replies := some (replies.drop count)
    asked := m.asked ++ List.replicate count q.name }

theorem Eval.question_eq (name : String) (hreplies : m.replies = some replies)
    (horderly : ∀ reply ∈ replies, reply.isOrderly = true) :
    ∃ text, question name m =
        .ok text { m with replies := some replies.tail, asked := m.asked ++ [name] } ∧
      strip text.toList = Reply.saidAt replies 0 := by
  obtain ⟨stack, store, messages, _, asked⟩ := m
  cases hreplies
  cases replies with
  | nil => exact ⟨"", rfl, rfl⟩
  | cons reply replies =>
    cases reply with
    | line text => exact ⟨text, rfl, rfl⟩
    | endOfInput => exact ⟨"", rfl, rfl⟩
    | interrupt => exact absurd (horderly _ List.mem_cons_self) (by decide)
    | failure => exact absurd (horderly _ List.mem_cons_self) (by decide)

namespace Quantity

/-- One more answer is rejected. -/
theorem rejecting_succ {q : Quantity} (count : Nat) :
    (m.rejecting q replies count).rejecting q (replies.drop count) 1 =
      m.rejecting q replies (count + 1) := by
  simp [Machine.rejecting, Reply.saidAt_drop, List.range_succ, List.replicate_succ']

variable [DigitLimit] {q literal : Quantity} (attempts : Nat) (hreplies : m.replies = some replies)
  (horderly : ∀ reply ∈ replies, reply.isOrderly = true)
include hreplies horderly

/-- What is said decides what becomes of a question. -/
theorem ask_eq : q.ask (attempts + 1) m =
    (match ofAnswer? (Reply.saidAt replies 0) with
      | .ok (some literal) => do
        Eval.keep (q.answered literal)
        return q.answered literal
      | .ok none =>
        if (Reply.saidAt replies 0).isEmpty then return q.resolved (.whole 0)
        else do
          Eval.say (q.rejection (Reply.saidAt replies 0))
          q.ask attempts
      | .error f => throw (.fault f) : Eval Quantity)
      { m with replies := some replies.tail, asked := m.asked ++ [q.name] } := by
  obtain ⟨text, hquestion, htext⟩ := Eval.question_eq q.name hreplies horderly
  rw [ask, bind_of_ok hquestion, htext]
  cases hsaid : Reply.saidAt replies 0 with
  | nil => rfl
  | cons c said =>
    -- There is something to the answer, whatever can be made of it.
    rw [List.isEmpty_cons, if_neg Bool.false_ne_true]
    cases ofAnswer? (c :: said) with
    | error f => rfl
    | ok literal? => cases literal? <;> rfl

/-- Nothing said stands for zero. -/
theorem ask_of_blank (h : Reply.saidAt replies 0 = []) :
    q.ask (attempts + 1) m = .ok (q.resolved (.whole 0))
      { m with replies := some replies.tail, asked := m.asked ++ [q.name] } := by
  rw [ask_eq attempts hreplies horderly, h]
  rfl

/-- A literal is kept under the name, behind all others. -/
theorem ask_of_literal (hname : q.name ≠ "") (habsent : m.store.find? q.name = none)
    (h : readLiteral (Reply.saidAt replies 0) = .ok literal []) :
    q.ask (attempts + 1) m = .ok (q.answered literal)
      { m with
        store := ⟨m.store.entries ++ [⟨Store.kept (q.answered literal), ""⟩]⟩
        replies := some replies.tail
        asked := m.asked ++ [q.name] } := by
  rw [ask_eq attempts hreplies horderly, (Reply.ofAnswer?_saidAt ..).2 h]
  have hassign := Store.assign_of_absent (q := q.answered literal) hname habsent
  exact bind_of_ok (Eval.keep_of_assign hassign)

/-- With too many digits there are no more questions, and the store is as it was. -/
theorem ask_of_fault {f : Fault} (h : Text.fault? (Reply.saidAt replies 0) = some f) :
    q.ask (attempts + 1) m = .error (.fault f)
      { m with replies := some replies.tail, asked := m.asked ++ [q.name] } := by
  rw [ask_eq attempts hreplies horderly, ofAnswer?_eq_error_iff.2 h]
  rfl

/-- Anything else is answered by a warning, and another question. -/
theorem ask_of_rejected (h : Text.IsRejected (Reply.saidAt replies 0)) :
    q.ask (attempts + 1) m = q.ask attempts (m.rejecting q replies 1) := by
  have hne : Reply.saidAt replies 0 ≠ [] := fun hnil => h.1 (.inl hnil)
  rw [ask_eq attempts hreplies horderly, Reply.ofAnswer?_of_isRejected h]
  dsimp only
  rw [if_neg (by simpa using hne)]
  refine (bind_of_ok rfl).trans (congrArg (q.ask attempts) ?_)
  rw [Machine.rejecting, List.drop_one]
  rfl

/-! ## Up to three questions -/

theorem ask_of_rejecting (count : Nat)
    (h : ∀ i < count, Text.IsRejected (Reply.saidAt replies i)) :
    q.ask (count + attempts) m = q.ask attempts (m.rejecting q replies count) := by
  induction count generalizing attempts with
  | zero =>
    have hnone : m.rejecting q replies 0 = m := by simp [Machine.rejecting, ← hreplies]
    rw [hnone, Nat.zero_add]
  | succ count ih =>
    have hskip := ih (attempts + 1) fun i hi => h i (Nat.lt_succ_of_lt hi)
    rw [Nat.add_right_comm, Nat.add_assoc, hskip]
    have hdrop : ∀ reply ∈ replies.drop count, reply.isOrderly = true := fun reply hreply =>
      horderly reply (List.mem_of_mem_drop hreply)
    rw [ask_of_rejected attempts rfl hdrop (by rw [Reply.saidAt_drop]; exact h count (by omega)),
      rejecting_succ]

end Quantity

end

namespace Quantity

/-- What is said before the first question. -/
def announcement (settings : Settings) (q : Quantity) : List Message :=
  if settings.announcesQuestions then
    [⟨.info, none, s!"Variable '{q.name}' is undefined, asking for a value"⟩]
  else []

/-- The machine has come to be another one by the given number of questions for the name. There is
    a warning for each of the answers rejected, and the given messages are behind these. -/
structure Asked (settings : Settings) (q : Quantity) (replies : List Reply) (questions rejected : ℕ)
    (said : List Message) (m m' : Machine) : Prop where
  asked : m'.asked = m.asked ++ List.replicate questions q.name
  messages : m'.messages = m.messages ++ q.announcement settings ++
    ((List.range rejected).map fun i => q.rejection (Reply.saidAt replies i)) ++ said

end Quantity

/-- The machine after the first answers to questions for the name, all of them rejected. -/
def Machine.asking (settings : Settings) (m : Machine) (q : Quantity) (replies : List Reply)
    (rejected : ℕ) : Machine :=
  { m with messages := m.messages ++ q.announcement settings }.rejecting q replies rejected

namespace Quantity

section

variable {settings : Settings} {q : Quantity} {m m' : Machine} {replies : List Reply}

/-- There is one question more than answers rejected, and nothing more is said. -/
theorem asked_of_last {rejected : ℕ}
    (hasked : m'.asked = (m.asking settings q replies rejected).asked ++ [q.name])
    (hmessages : m'.messages = (m.asking settings q replies rejected).messages) :
    q.Asked settings replies (rejected + 1) rejected [] m m' where
  asked := by
    rw [hasked, List.replicate_succ', ← List.append_assoc]
    rfl
  messages := by
    rw [hmessages, List.append_nil]
    rfl

variable [DigitLimit]

theorem confirm_of_absent (hq : q.isTarget = true) (habsent : m.store.find? q.name = none)
    (hreplies : m.replies = some replies) :
    q.confirm settings m =
      q.ask maxAttempts { m with messages := m.messages ++ q.announcement settings } := by
  obtain ⟨hvariable, -, hconstant⟩ := q.isTarget_iff.1 hq
  obtain ⟨stack, store, messages, _, asked⟩ := m
  cases hreplies
  rw [confirm, if_neg (by simp [hvariable, hconstant])]
  refine (bind_of_ok rfl).trans ?_
  rw [habsent, announcement]
  cases settings.announcesQuestions with
  | true => rfl
  | false =>
    exact congrArg (fun said => ask maxAttempts q ⟨stack, store, said, some replies, asked⟩)
      (List.append_nil messages).symm

variable (hq : q.isTarget = true) (habsent : m.store.find? q.name = none)
  (hreplies : m.replies = some replies)
  (horderly : ∀ reply ∈ replies, reply.isOrderly = true)
include hq habsent hreplies horderly

/-- As long as answers are rejected, it is as if there were fewer questions to put. -/
theorem confirm_of_rejected {k : ℕ} (hk : k ≤ 3)
    (h : ∀ i < k, IsRejected (Reply.saidAt replies i)) :
    q.confirm settings m = q.ask (3 - k) (m.asking settings q replies k) := by
  have hattempts : maxAttempts = k + (3 - k) := (Nat.add_sub_of_le hk).symm
  rw [confirm_of_absent hq habsent hreplies, hattempts]
  exact ask_of_rejecting (m := { m with messages := m.messages ++ q.announcement settings })
    (3 - k) hreplies horderly k h

/-- The answer behind those rejected is the first one on the machine after them. -/
theorem confirm_of_rejected_lt {k : ℕ} (hk : k < 3)
    (h : ∀ i < k, IsRejected (Reply.saidAt replies i)) :
    ∃ attempts,
      q.confirm settings m = q.ask (attempts + 1) (m.asking settings q replies k) ∧
      (m.asking settings q replies k).replies = some (replies.drop k) ∧
      (∀ reply ∈ replies.drop k, reply.isOrderly = true) ∧
      Reply.saidAt (replies.drop k) 0 = Reply.saidAt replies k := by
  obtain ⟨attempts, hattempts⟩ : ∃ attempts, 3 - k = attempts + 1 := ⟨2 - k, by omega⟩
  refine ⟨attempts, ?_, rfl, fun reply hreply => horderly reply (List.mem_of_mem_drop hreply),
    Reply.saidAt_drop replies k 0⟩
  rw [confirm_of_rejected hq habsent hreplies horderly (Nat.le_of_lt hk) h, hattempts]

/-- An answer with too many digits is a fault behind those rejected, and the last one. -/
theorem confirm_of_fault (settings : Settings) {k : ℕ} (hk : k < 3)
    (h : ∀ i < k, IsRejected (Reply.saidAt replies i)) {f : Fault}
    (hfault : Text.fault? (Reply.saidAt replies k) = some f) :
    ∃ m', q.confirm settings m = .error (.fault f) m' ∧
      q.Asked settings replies (k + 1) k [] m m' ∧ m'.store = m.store := by
  obtain ⟨attempts, hconfirm, hbehind, hdrop, hsaid⟩ :=
    confirm_of_rejected_lt hq habsent hreplies horderly hk h
  rw [hconfirm, ask_of_fault attempts hbehind hdrop (hsaid ▸ hfault)]
  exact ⟨_, rfl, asked_of_last rfl rfl, rfl⟩

/-- A name that is not in the store is asked for until an answer settles the question, or for three
    times. Where nothing is said, it is zero in its unit, and the store is as it was. Where a
    literal is said, it has its value and its format, and its unit if there is one, and so has the
    entry that has been put into the store behind the others. If no answer settles the question,
    an error says so, and the store is as it was. An answer with too many digits is a fault, about
    which nothing is said, and there are no more questions; the store is as it was here, too. -/
theorem confirm_asks (settings : Settings) :
    (∀ k < 3, (∀ i < k, IsRejected (Reply.saidAt replies i)) →
      SettlesQuestion (Reply.saidAt replies k) →
      ∃ value m', q.confirm settings m = .ok value m' ∧
        q.Asked settings replies (k + 1) k [] m m' ∧
        (Reply.saidAt replies k = [] →
          value.magnitude = .whole 0 ∧ value.measure = q.measure ∧ m'.store = m.store) ∧
        ∀ literal, readLiteral (Reply.saidAt replies k) = .ok literal [] →
          value.magnitude = literal.magnitude ∧
          value.measure = literal.measure.orElse q.measure ∧ value.format = literal.format ∧
          ∃ e : Entry, m'.store.entries = m.store.entries ++ [e] ∧ e.name = q.name ∧
            e.quantity.magnitude = value.magnitude ∧ e.quantity.measure = value.measure ∧
            e.quantity.format = value.format) ∧
    (∀ k < 3, (∀ i < k, IsRejected (Reply.saidAt replies i)) →
      ∀ f, Text.fault? (Reply.saidAt replies k) = some f →
        f.ExceedsLimit ∧
        ∃ m', q.confirm settings m = .error (.fault f) m' ∧
          q.Asked settings replies (k + 1) k [] m m' ∧ m'.store = m.store) ∧
    ((∀ i < 3, IsRejected (Reply.saidAt replies i)) →
      ∃ (f : Failure) (m' : Machine), f.kind = .unresolvedVariable ∧
        q.confirm settings m = .error .failed m' ∧
        q.Asked settings replies 3 3 [f.message] m m' ∧ m'.store = m.store) := by
  refine ⟨fun k hk hrejected hsettles => ?_, fun k hk hrejected f hfault => ?_,
    fun hrejected => ?_⟩
  · obtain ⟨attempts, hconfirm, hbehind, hdrop, hsaid⟩ :=
      confirm_of_rejected_lt hq habsent hreplies horderly hk hrejected
    rw [hconfirm]
    rcases hsettles with hblank | ⟨literal, hliteral⟩
    · rw [ask_of_blank attempts hbehind hdrop (hsaid.trans hblank)]
      refine ⟨_, _, rfl, asked_of_last rfl rfl, fun _ => ⟨rfl, rfl, rfl⟩,
        fun literal hliteral => ?_⟩
      rw [hblank] at hliteral
      cases hliteral
    · have hname : q.name ≠ "" := (q.isTarget_iff.1 hq).2.1
      rw [ask_of_literal attempts hbehind hdrop hname habsent (hsaid ▸ hliteral)]
      refine ⟨_, _, rfl, asked_of_last rfl rfl, fun hblank => ?_, fun literal' hliteral' => ?_⟩
      · rw [hblank] at hliteral
        cases hliteral
      · rw [hliteral] at hliteral'
        cases hliteral'
        exact ⟨rfl, rfl, rfl, _, rfl, rfl, rfl, rfl, rfl⟩
  · exact ⟨Text.exceedsLimit_of_fault? hfault,
      confirm_of_fault hq habsent hreplies horderly settings hk hrejected hfault⟩
  · rw [confirm_of_rejected hq habsent hreplies horderly (Nat.le_refl 3) hrejected]
    exact ⟨.noUsableAnswer q.name, _, rfl, rfl, ⟨rfl, rfl⟩, rfl⟩

end

/-- A machine whose user gives the given answer after two that are no use. -/
def slowToAnswer (third : Reply) : Machine where
  stack := []
  store := .initial
  messages := []
  replies := some [.line "abc", .line "2 3", third]
  asked := []

/-- The third answer is five, or nothing, or no use either. -/
theorem confirm_slowToAnswer :
    (∃ value m', (unset "x").confirm .default (slowToAnswer (.line " 5\t")) = .ok value m' ∧
      value.magnitude = .whole 5 ∧ m'.asked = ["x", "x", "x"] ∧ m'.store.entries.length = 3) ∧
    (∃ value m', (unset "x").confirm .default (slowToAnswer .endOfInput) = .ok value m' ∧
      value.magnitude = .whole 0 ∧ m'.asked = ["x", "x", "x"] ∧ m'.store = .initial) ∧
    ∃ m', (unset "x").confirm .default (slowToAnswer (.line "x")) = .error .failed m' ∧
      m'.asked = ["x", "x", "x"] ∧ m'.store = .initial := by
  refine ⟨?_, ?_, ?_⟩
  · obtain ⟨value, m', h, hasked, -, hliteral⟩ :=
      (confirm_asks (q := unset "x") (m := slowToAnswer (.line " 5\t")) rfl (by decide +kernel) rfl
        (by decide) .default).1 2 (by decide) (by decide +kernel) (by decide +kernel)
    obtain ⟨hmagnitude, -, -, e, hentries, -⟩ :=
      hliteral { magnitude := .whole 5, literal := "5" } rfl
    exact ⟨value, m', h, hmagnitude, hasked.asked, by rw [hentries]; rfl⟩
  · obtain ⟨value, m', h, hasked, hblank, -⟩ :=
      (confirm_asks (q := unset "x") (m := slowToAnswer .endOfInput) rfl (by decide +kernel) rfl
        (by decide) .default).1 2 (by decide) (by decide +kernel) (by decide +kernel)
    obtain ⟨hmagnitude, -, hstore⟩ := hblank rfl
    exact ⟨value, m', h, hmagnitude, hasked.asked, hstore⟩
  · obtain ⟨_, m', -, h, hasked, hstore⟩ :=
      (confirm_asks (q := unset "x") (m := slowToAnswer (.line "x")) rfl (by decide +kernel) rfl
        (by decide) .default).2.2 (by decide +kernel)
    exact ⟨m', h, hasked.asked, hstore⟩

/-- With more digits than there usually may be, an answer is not taken, and there is no
    other question. -/
theorem confirm_ones :
    ∃ m', (unset "x").confirm .default
        ⟨[], .initial, [], some [.line (String.ofList (List.replicate 4301 '1'))], []⟩ =
          .error (.fault (.tooManyDigits 4300 4301)) m' ∧
      m'.asked = ["x"] ∧ m'.store = .initial := by
  have hfault := Reply.fault?_saidAt_ones 4300
  obtain ⟨m', h, hasked, hstore⟩ := confirm_of_fault (q := unset "x")
    (m := ⟨[], .initial, [], some _, []⟩) rfl (by decide +kernel) rfl
    (List.forall_mem_singleton.2 rfl) .default (Nat.zero_lt_succ 2)
    (fun _ hi => absurd hi (Nat.not_lt_zero _)) (hfault.trans rfl)
  exact ⟨m', h, hasked.asked, hstore⟩

end Quantity

end Reckoner
