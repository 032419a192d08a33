import Reckoner.Proofs.Evaluation.Restore
import Reckoner.Proofs.Evaluation.Success

/-!
# Values below

An operator only deals with the values it needs, so that a line that succeeds on
some stack does the same on top of any further values, and never touches those
(`Eval.runLine_frame`): it leaves the same values above them and the same store,
it says the same, and it asks the same questions.

The argument goes along two steps at a time (`Eval.Frames`). Wherever the first
one gives a result, the second one, on a machine with values below, gives the
same result and still has them below. Mostly both are the same step; they differ
where an operator has the rest of the stack in hand and puts it back.

There is one place where values below can be seen: once there is none above
them, it is the first of them that has to have a text.
-/

namespace Reckoner

/-- The machine with further values below those on its stack. -/
def Machine.over (m : Machine) (below : List Quantity) : Machine :=
  { m with stack := m.stack ++ below }

theorem Machine.store_over (m : Machine) (below : List Quantity) :
    (m.over below).store = m.store := rfl

namespace Eval

variable {α β : Type} {below : List Quantity} {m : Machine}

/-- Where the first step gives a result, the second one gives it on top of the
    values below, and leaves those. -/
def Frames (below : List Quantity) (x y : Eval α) (m : Machine) : Prop :=
  ∀ a m', x m = .ok a m' → y (m.over below) = .ok a (m'.over below)

/-! ## Composing steps -/

theorem Frames.bind {x y : Eval α} {f g : α → Eval β} (hxy : Frames below x y m)
    (hfg : ∀ a m', x m = .ok a m' → Frames below (f a) (g a) m') :
    Frames below (x >>= f) (y >>= g) m := by
  intro b m'' h
  cases hx : x m with
  | ok a m' =>
    rw [bind_of_ok hx] at h
    rw [bind_of_ok (hxy a m' hx)]
    exact hfg a m' hx b m'' h
  | error e m' =>
    rw [bind_of_error hx] at h
    cases h

theorem frames_pure (a : α) : Frames below (pure a) (pure a) m := by
  intro b m' h
  cases h
  rfl

/-- A step that fails gives no result. -/
theorem frames_refuse (f : Failure) (y : Eval α) : Frames below (refuse f) y m := by
  intro a m' h
  cases h

theorem frames_stack_bind {f g : List Quantity → Eval α}
    (h : Frames below (f m.stack) (g (m.stack ++ below)) m) :
    Frames below (stack >>= f) (stack >>= g) m := h

theorem frames_get_bind {f g : Machine → Eval α} (h : Frames below (f m) (g (m.over below)) m) :
    Frames below (get >>= f) (get >>= g) m := h

theorem frames_setStack (stack : List Quantity) :
    Frames below (setStack stack) (setStack (stack ++ below)) m := by
  intro a m' h
  cases h
  rfl

theorem frames_of_blind {x : Eval α} (hx : Blind x) : Frames below x x m := by
  intro a m' h
  have hstack : m'.stack = m.stack := (hx.ends_stack m).of_ok h
  have hbelow := hx m (m.stack ++ below)
  rw [h, ← hstack] at hbelow
  rw [Machine.over, ← hstack]
  exact hbelow

theorem Frames.restoring {x y : Eval α} (h : Frames below x y m) (stack stack' : List Quantity) :
    Frames below (restoring stack x) (restoring stack' y) m := by
  intro a m' hx
  rw [Eval.restoring] at hx ⊢
  split at hx
  · cases hx
  · rw [h a m' hx]

theorem onFailure_eq_ok {x y : Eval PUnit} {m' : Machine} (h : onFailure x y m = .ok ⟨⟩ m') :
    x m = .ok ⟨⟩ m' := by
  have hends : Ends (onFailure x y) m (fun _ m' => x m = .ok ⟨⟩ m') fun _ _ => True := by
    refine ends_onFailure.2 (ends_iff.2 ⟨fun _ _ hx => hx, fun e m₁ _ => ?_⟩)
    cases e with
    | failed => exact ends_true y m₁
    | fault f => trivial
  exact hends.of_ok h

theorem Frames.andAlways {x y z : Eval PUnit} (hxy : Frames below x y m)
    (hz : ∀ m', Frames below z z m') :
    Frames below (andAlways x z) (andAlways y z) m := by
  intro a m' h
  obtain ⟨m₁, hx, hm'⟩ := andAlways_eq_ok.1 h
  rw [Eval.andAlways, hxy _ m₁ hx]
  exact hz m₁ _ m' hm'

theorem frames_showTop {settings : Settings}
    (hbelow : ∀ top ∈ below.head?, ∃ text, top.text settings = .ok text) :
    Frames below (showTop settings) (showTop settings) m := by
  refine frames_stack_bind ?_
  cases m.stack with
  | cons top rest =>
    exact frames_of_blind ((blind_shown settings top).bind fun _ => blind_pure _)
  | nil =>
    -- The value that comes to be on top is the first of those below.
    cases hhead : below with
    | nil => exact frames_pure _
    | cons top rest =>
      obtain ⟨text, htext⟩ := hbelow top (by rw [hhead]; rfl)
      intro a m' h
      cases h
      change (discard (shown settings top)) (m.over (top :: rest)) = _
      rw [shown, htext]
      rfl

theorem frames_push (qs : List Quantity) : Frames below (push qs) (push qs) m := by
  refine frames_stack_bind ?_
  rw [← List.append_assoc]
  exact frames_setStack _

theorem insert_append (slot : Slot) (target value : Quantity) (rest below : List Quantity) :
    slot.insert target value (rest ++ below) = slot.insert target value rest ++ below := by
  cases slot <;> rfl

theorem blind_targetSlot (spelling : String) (top second : Quantity) :
    Blind (targetSlot spelling top second) := by
  rw [targetSlot]
  split
  · exact blind_pure _
  · split
    · exact blind_pure _
    · exact blind_refuse _

theorem frames_assignResult (slot : Slot) (target : Quantity) (rest : List Quantity)
    (result : Quantity) :
    Frames below (assignResult slot target result rest)
      (assignResult slot target result (rest ++ below)) m := by
  refine (frames_setStack (result :: rest)).bind fun _ m' _ => frames_get_bind ?_
  rw [Machine.store_over]
  cases m'.store.assign (target.given result) with
  | ok store =>
    intro a m'' h
    cases h
    rfl
  | error f =>
    dsimp only
    rw [insert_append]
    exact (frames_setStack _).bind fun _ _ _ => frames_refuse _ _

end Eval

section

variable [DigitLimit]

namespace Eval

variable {α : Type} {below : List Quantity} {m : Machine}

/-! ## Confirming operands -/

theorem frames_confirmAt (settings : Settings) {place : Nat} (hplace : place < m.stack.length) :
    Frames below (confirmAt settings place) (confirmAt settings place) m := by
  refine frames_stack_bind ?_
  rw [List.getElem?_append_left hplace, List.getElem?_eq_getElem hplace]
  refine (frames_of_blind (blind_confirm settings _)).bind fun q m' h => frames_stack_bind ?_
  have hstack : m'.stack = m.stack := ((blind_confirm settings _).ends_stack m).of_ok h
  rw [List.set_append_left _ _ (hstack ▸ hplace)]
  exact frames_setStack _

theorem frames_confirmTop (settings : Settings) {count : Nat} (hcount : count ≤ m.stack.length) :
    Frames below (confirmTop settings count) (confirmTop settings count) m := by
  induction count with
  | zero => exact frames_pure _
  | succ count ih =>
    have hle : count ≤ m.stack.length := Nat.le_of_succ_le hcount
    refine (ih hle).bind fun _ m' h => frames_confirmAt settings ?_
    rw [(keepsStack_confirmTop hle h).length_eq]
    exact hcount

/-! ## Assignments -/

section

variable (settings : Settings) (spelling : String) (slot : Slot) (target : Quantity)
  (rest : List Quantity)

theorem frames_combined (combine : Option Arithmetic) (value : Quantity) :
    Frames below (combined settings spelling combine slot target value rest)
      (combined settings spelling combine slot target value (rest ++ below)) m := by
  cases combine with
  | none => exact frames_pure _
  | some op =>
    refine ((frames_of_blind (blind_confirm settings target)).restoring _ _).bind
      fun current m' _ => ?_
    split
    · exact frames_pure _
    · rw [insert_append]
      exact (frames_setStack _).bind fun _ _ _ => frames_refuse _ _

theorem frames_assignTo (combine : Option Arithmetic) (value : Quantity) :
    Frames below (assignTo settings spelling combine slot target value rest)
      (assignTo settings spelling combine slot target value (rest ++ below)) m := by
  refine (frames_setStack (value :: rest)).bind fun _ _ _ => ?_
  refine ((frames_of_blind (blind_confirm settings value)).restoring _ _).bind fun value _ _ => ?_
  refine (frames_setStack (value :: rest)).bind fun _ _ _ => ?_
  exact (frames_combined settings spelling slot target rest combine value).bind
    fun result _ _ => frames_assignResult slot target rest result

end

/-! ## Operators -/

section

variable {settings : Settings} {formula : Formula} (hformula : ∀ q text, Blind (formula q text))
include hformula

/-- An operator with enough values for it leaves those below them. -/
theorem frames_perform (spelling : String) {action : Action} {stack : List Quantity}
    (hlength : action.operands ≤ stack.length) :
    Frames below (perform settings formula spelling action stack)
      (perform settings formula spelling action (stack ++ below)) m := by
  match action, stack, hlength with
  | .arithmetic op, right :: left :: rest, _ =>
    dsimp only [List.cons_append, perform]
    split
    · exact frames_setStack (_ :: rest)
    · exact frames_refuse _ _
  | .elementary f, q :: rest, _ =>
    dsimp only [List.cons_append, perform]
    split
    · exact frames_setStack (_ :: rest)
    · exact frames_refuse _ _
  | .circular f, q :: rest, _ =>
    refine (frames_setStack rest).bind fun _ _ _ => ?_
    refine ((frames_of_blind (blind_toRadians settings hformula q)).restoring _ _).bind
      fun angle _ _ => ?_
    exact frames_setStack (_ :: rest)
  | .inverse f, q :: rest, _ =>
    refine (frames_setStack rest).bind fun _ _ _ => ?_
    refine ((frames_of_blind (blind_fromRadians settings hformula _)).restoring _ _).bind
      fun angle _ _ => ?_
    exact frames_setStack (angle :: rest)
  | .drop, _ :: rest, _ => exact frames_setStack rest
  | .swap, top :: second :: rest, _ => exact frames_setStack (second :: top :: rest)
  | .swap, [_], _ => exact frames_refuse _ _
  | .convert, target :: q :: rest, _ =>
    refine (frames_setStack (q :: rest)).bind fun _ _ _ => ?_
    refine ((frames_of_blind (blind_convertTo settings hformula q target)).restoring _ _).bind
      fun q _ _ => ?_
    exact frames_setStack (q :: rest)
  | .assign combine, top :: second :: rest, _ =>
    refine (frames_of_blind (blind_targetSlot spelling top second)).bind fun slot _ _ => ?_
    cases slot with
    | top => exact frames_assignTo settings spelling .top top rest combine second
    | below => exact frames_assignTo settings spelling .below second rest combine top
  | .opening _, _, _ => exact frames_pure _
  | .closing, _, _ => exact frames_pure _
  | .separator, _, _ => exact frames_pure _

variable (hbelow : ∀ top ∈ below.head?, ∃ text, top.text settings = .ok text)
include hbelow

theorem frames_apply (o : Operator) :
    Frames below (apply settings formula o) (apply settings formula o) m := by
  refine frames_stack_bind ?_
  dsimp only
  split
  · exact frames_refuse _ _
  · split
    · exact frames_refuse _ _
    · rename_i hpresent
      have hlength : o.action.operands ≤ m.stack.length := Nat.not_lt.1 hpresent
      rw [if_neg (by rw [List.length_append]; omega)]
      have hconfirmed := Nat.le_trans (confirmed_le_operands o.action) hlength
      refine (frames_confirmTop settings hconfirmed).bind fun _ m' h => ?_
      refine Frames.andAlways (frames_stack_bind ?_) fun _ => frames_showTop hbelow
      refine frames_perform hformula o.spelling ?_
      rw [(keepsStack_confirmTop hconfirmed h).length_eq]
      exact hlength

end

/-! ## Runs -/

section

variable {settings : Settings} {formula : Formula}

mutual

theorem frames_runNode (hformula : ∀ q text, Blind (formula q text))
    (hbelow : ∀ top ∈ below.head?, ∃ text, top.text settings = .ok text) :
    (node : Node) → (m : Machine) →
      Frames below (runNode settings formula node) (runNode settings formula node) m
  | ⟨_, operator, prior, params, children⟩, m => by
    refine (frames_push prior).bind fun _ m₁ _ => ?_
    refine (frames_runEach hformula hbelow children m₁).bind fun _ _ _ => ?_
    refine (frames_push params).bind fun _ _ _ => ?_
    cases operator with
    | some o => exact frames_apply hformula hbelow o
    | none => exact frames_pure _

theorem frames_runEach (hformula : ∀ q text, Blind (formula q text))
    (hbelow : ∀ top ∈ below.head?, ∃ text, top.text settings = .ok text) :
    (nodes : List Node) → (m : Machine) →
      Frames below (runEach settings formula nodes) (runEach settings formula nodes) m
  | [], _ => frames_pure _
  | node :: nodes, m =>
    (frames_runNode hformula hbelow node m).bind fun _ m₁ _ =>
      frames_runEach hformula hbelow nodes m₁

end

end

/-- A line that succeeds does the same on top of any further values, and leaves
    them as they are. Where the default format does not show every real number,
    the first of them has to have a text. -/
theorem runLine_frame (settings : Settings) (depth : Int) (nodes : List Node)
    (below : List Quantity) {m m' : Machine}
    (hbelow : ¬settings.ShowsReals → ∀ top ∈ below.head?, ∃ text, top.text settings = .ok text)
    (h : runLine settings (settings.formulaAt depth) nodes m = .ok ⟨⟩ m') :
    runLine settings (settings.formulaAt depth) nodes { m with stack := m.stack ++ below } =
      .ok ⟨⟩ { m' with stack := m'.stack ++ below } := by
  have hformula : ∀ q text, Blind (settings.formulaAt depth q text) := fun q text =>
    blind_evalFormula settings _ q text
  have htop : ∀ top ∈ below.head?, ∃ text, top.text settings = .ok text := by
    by_cases hshows : settings.ShowsReals
    · exact fun top _ => top.text_eq_ok hshows
    · exact hbelow hshows
  have hframed := frames_runEach hformula htop nodes m ⟨⟩ m' (onFailure_eq_ok h)
  rw [Machine.over] at hframed
  rw [runLine, onFailure, hframed]
  rfl

end Eval

end

namespace Eval

/-- A machine with one value on its stack and a user who says seven. -/
def askingForSeven : Machine where
  stack := [{ magnitude := .whole 2 }]
  store := .initial
  messages := []
  replies := some [.line "7"]
  asked := []

/-- A node that asks for the value of `x` and multiplies by it. -/
def timesUnknown : Node :=
  ⟨.parsed, some .multiplication, [], [.unset "x"], []⟩

/-- Twice seven is the same on top of a five. -/
theorem product_above_five : ∃ m',
    runLine .default (Settings.default.formulaAt 0) [timesUnknown] askingForSeven = .ok ⟨⟩ m' ∧
      m'.stack.map Quantity.magnitude = [.whole 14] ∧ m'.asked = ["x"] ∧
      runLine .default (Settings.default.formulaAt 0) [timesUnknown]
          { askingForSeven with
            stack := askingForSeven.stack ++ [{ magnitude := .whole 5 }] } =
        .ok ⟨⟩ { m' with stack := m'.stack ++ [{ magnitude := .whole 5 }] } := by
  refine ⟨_, rfl, rfl, rfl, ?_⟩
  exact runLine_frame .default 0 [timesUnknown] [_]
    (fun h => absurd Settings.showsReals_default h) rfl

end Eval

end Reckoner
