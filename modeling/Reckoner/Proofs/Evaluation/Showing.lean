import Reckoner.Proofs.Evaluation.Endings

/-!
# Showing values

After an operator, and after a failed line, values have to have texts. That they
have to changes nothing, but evaluation may be interrupted by a value that has
none (`Eval.OnlyShows`). With a default format that shows every real number
(`Settings.ShowsReals`), every quantity has one (`Quantity.text_eq_ok`), and it
makes no difference at all (`Eval.andAlways_showTop`,
`Eval.onFailure_showStack`).
-/

namespace Reckoner

/-- The default format for real numbers shows every one of them. -/
def Settings.ShowsReals (settings : Settings) : Prop :=
  ∀ x : Float, ∃ text, Display.real "" settings.realFormat x = .ok text

/-- A fixed number of places can be shown of every real number. -/
theorem Settings.showsReals_default : Settings.default.ShowsReals := by
  intro x
  have hpieces : Format.pieces "%.9f".toList =
      [.directive ⟨false, false, false, false, false, .absent, .count 9, 'f', 3⟩] := by decide
  have hshow : ∃ text, Format.show? "%.9f" (.real x) = .ok text := by
    rw [Format.show?]
    rw [hpieces]
    exact ⟨_, rfl⟩
  obtain ⟨text, hshow⟩ := hshow
  rw [Display.real]
  cases specialText? x with
  | some special => exact ⟨special, rfl⟩
  | none => exact ⟨String.ofList (Display.tidy text.toList), by
      simp only [Settings.default, hshow, Except.map, beq_self_eq_true, if_true]⟩

variable {settings : Settings}

/-- A format of its own makes nothing worse. -/
theorem Display.real_eq_ok (h : settings.ShowsReals) (format : String) (x : Float) :
    ∃ text, real format settings.realFormat x = .ok text := by
  obtain ⟨text, htext⟩ := h x
  rw [real] at htext ⊢
  split
  · exact ⟨_, rfl⟩
  · rename_i hspecial
    rw [hspecial] at htext
    dsimp only at htext ⊢
    simp only [beq_self_eq_true, if_true] at htext
    split
    · exact ⟨_, htext⟩
    · split
      · exact ⟨_, rfl⟩
      · exact ⟨_, htext⟩

theorem Quantity.text_eq_ok (h : settings.ShowsReals) (q : Quantity) :
    ∃ text, q.text settings = .ok text := by
  rw [text]
  split
  · exact ⟨_, rfl⟩
  · rename_i x _
    obtain ⟨text, htext⟩ := Display.real_eq_ok h q.format x
    exact ⟨text ++ q.measure.display, by rw [htext]; rfl⟩

namespace Eval

/-! ## Steps that only show -/

/-- A value without a text interrupts the step, as the default format does not
    show every real number. -/
def Unshown {α : Type} (settings : Settings) (result : EStateM.Result Halt Machine α) : Prop :=
  ¬settings.ShowsReals ∧ ∃ why m, result = .error (.fault (.unshowable why)) m

/-- The step changes nothing, but may be interrupted by a value without a text. -/
def OnlyShows (settings : Settings) (y : Eval PUnit) : Prop :=
  ∀ m, y m = .ok ⟨⟩ m ∨ Unshown settings (y m)

theorem onlyShows_shown (q : Quantity) : OnlyShows settings (discard (shown settings q)) := by
  intro m
  cases htext : q.text settings with
  | ok text =>
    have hshown : shown settings q m = .ok text m := by rw [shown, htext]; rfl
    exact .inl (bind_of_ok hshown)
  | error why =>
    have hshown : shown settings q m = .error (.fault (.unshowable why)) m := by
      rw [shown, htext]
      rfl
    refine .inr ⟨fun h => ?_, why, m, bind_of_error hshown⟩
    obtain ⟨text, hok⟩ := q.text_eq_ok h
    rw [htext] at hok
    cases hok

theorem onlyShows_showTop : OnlyShows settings (showTop settings) := by
  intro m
  obtain ⟨stack, store, messages, replies, asked⟩ := m
  cases stack with
  | nil => exact .inl rfl
  | cons top below => exact onlyShows_shown top _

theorem OnlyShows.bind {x y : Eval PUnit} (hx : OnlyShows settings x)
    (hy : OnlyShows settings y) : OnlyShows settings (x >>= fun _ => y) := by
  intro m
  rcases hx m with h | ⟨hshows, why, m', h⟩
  · rw [bind_of_ok h]
    exact hy m
  · exact .inr ⟨hshows, why, m', bind_of_error h⟩

theorem onlyShows_forM (qs : List Quantity) :
    OnlyShows settings (qs.forM fun q => discard (shown settings q)) := by
  induction qs with
  | nil => exact fun m => .inl rfl
  | cons q qs ih => exact (onlyShows_shown q).bind ih

theorem onlyShows_showStack : OnlyShows settings (showStack settings) := fun m =>
  onlyShows_forM m.stack.reverse m

/-! ## What showing makes of other steps -/

section

variable {x y : Eval PUnit}

/-- A step that only shows makes no difference behind another one, unless it is
    interrupted. -/
theorem OnlyShows.andAlways (hy : OnlyShows settings y) (m : Machine) :
    andAlways x y m = x m ∨ Unshown settings (andAlways x y m) := by
  cases hx : x m with
  | ok a m' =>
    have hthen : Eval.andAlways x y m = y m' := by simp only [Eval.andAlways, hx]
    rw [hthen]
    exact hy m'
  | error e m' =>
    cases e with
    | fault f => exact .inl (by simp only [Eval.andAlways, hx])
    | failed =>
      rcases hy m' with h | ⟨hshows, why, m'', h⟩
      · exact .inl (by simp only [Eval.andAlways, hx, h])
      · exact .inr ⟨hshows, why, m'', by simp only [Eval.andAlways, hx, h]⟩

/-- That the value on top has to have a text makes no difference to how a step
    ends, unless one without a text interrupts it. -/
theorem ends_andAlways_showTop {m : Machine} {Q : PUnit → Machine → Prop}
    {E : Halt → Machine → Prop} (h : Ends x m Q E)
    (hE : ∀ why m', E (.fault (.unshowable why)) m') :
    Ends (Eval.andAlways x (showTop settings)) m Q E := by
  have hshows : OnlyShows settings (showTop settings) := onlyShows_showTop
  rcases hshows.andAlways m with hsame | ⟨-, why, m', hfault⟩
  · rw [Ends, hsame]
    exact h
  · rw [Ends, hfault]
    exact hE why m'

theorem OnlyShows.onFailure (hy : OnlyShows settings y) (m : Machine) :
    onFailure x y m = x m ∨ Unshown settings (onFailure x y m) := by
  cases hx : x m with
  | ok a m' => exact .inl (by simp only [Eval.onFailure, hx])
  | error e m' =>
    cases e with
    | fault f => exact .inl (by simp only [Eval.onFailure, hx])
    | failed =>
      rcases hy m' with h | ⟨hshows, why, m'', h⟩
      · exact .inl (by simp only [Eval.onFailure, hx, h])
      · exact .inr ⟨hshows, why, m'', by simp only [Eval.onFailure, hx, h]⟩

end

section

variable (h : settings.ShowsReals)
include h

theorem shown_eq_ok (q : Quantity) (m : Machine) :
    ∃ text, shown settings q m = .ok text m := by
  obtain ⟨text, htext⟩ := q.text_eq_ok h
  exact ⟨text, by rw [shown, htext]; rfl⟩

theorem andAlways_showTop (x : Eval PUnit) : andAlways x (showTop settings) = x :=
  funext fun m => (onlyShows_showTop.andAlways m).resolve_right fun hm => hm.1 h

theorem onFailure_showStack (x : Eval PUnit) : onFailure x (showStack settings) = x :=
  funext fun m => (onlyShows_showStack.onFailure m).resolve_right fun hm => hm.1 h

end

end Eval

end Reckoner
