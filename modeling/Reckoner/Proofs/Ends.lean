/-!
# How steps end

Scanning, building and evaluating are steps of one kind: run on a state, a step
gives a result or fails, and leaves a state either way. `Ends x s Q E` says that
`x`, run on `s`, ends in a result and a state of which `Q` holds, or fails with
a cause and a state of which `E` holds. It says so of one run only, so that what
is required beforehand is an ordinary hypothesis on `s`.

The steps of a composite step are taken one at a time (`ends_bind`): the rest of
it ends well wherever its first step ends.
-/

namespace Reckoner

variable {ε σ α β : Type}

/-- Run on `s`, the step ends in `Q`, or fails in `E`. -/
def Ends (x : EStateM ε σ α) (s : σ) (Q : α → σ → Prop) (E : ε → σ → Prop) : Prop :=
  match x s with
  | .ok a s => Q a s
  | .error e s => E e s

section

variable {x : EStateM ε σ α} {s s' : σ} {Q Q' : α → σ → Prop} {E E' : ε → σ → Prop}

theorem Ends.mono (h : Ends x s Q E) (hQ : ∀ a s, Q a s → Q' a s) (hE : ∀ e s, E e s → E' e s) :
    Ends x s Q' E' := by
  rw [Ends] at h ⊢
  cases hx : x s with
  | ok a s => rw [hx] at h; exact hQ a s h
  | error e s => rw [hx] at h; exact hE e s h

theorem Ends.of_ok {a : α} (h : Ends x s Q E) (hx : x s = .ok a s') : Q a s' := by
  rw [Ends, hx] at h
  exact h

theorem Ends.of_error {e : ε} (h : Ends x s Q E) (hx : x s = .error e s') : E e s' := by
  rw [Ends, hx] at h
  exact h

theorem ends_of_eq_ok {a : α} (hx : x s = .ok a s') (h : Q a s') : Ends x s Q E := by
  rw [Ends, hx]
  exact h

theorem ends_of_eq_error {e : ε} (hx : x s = .error e s') (h : E e s') : Ends x s Q E := by
  rw [Ends, hx]
  exact h

/-- A step ends in what its results have in common. -/
theorem ends_iff :
    Ends x s Q E ↔ (∀ a s', x s = .ok a s' → Q a s') ∧ ∀ e s', x s = .error e s' → E e s' := by
  refine ⟨fun h => ⟨fun _ _ => h.of_ok, fun _ _ => h.of_error⟩, fun ⟨hQ, hE⟩ => ?_⟩
  rw [Ends]
  cases hx : x s with
  | ok a s => exact hQ a s hx
  | error e s => exact hE e s hx

theorem ends_true (x : EStateM ε σ α) (s : σ) : Ends x s (fun _ _ => True) fun _ _ => True :=
  ends_iff.2 ⟨fun _ _ _ => trivial, fun _ _ _ => trivial⟩

theorem Ends.and (h : Ends x s Q E) (h' : Ends x s Q' E') :
    Ends x s (fun a s => Q a s ∧ Q' a s) (fun e s => E e s ∧ E' e s) :=
  ends_iff.2 ⟨fun _ _ hx => ⟨h.of_ok hx, h'.of_ok hx⟩,
    fun _ _ hx => ⟨h.of_error hx, h'.of_error hx⟩⟩

/-! ## Composing steps -/

@[simp]
theorem ends_bind {y : EStateM ε σ β} {f : β → EStateM ε σ α} :
    Ends (y >>= f) s Q E ↔ Ends y s (fun b s => Ends (f b) s Q E) E := by
  simp only [Ends, bind, EStateM.bind]
  cases y s <;> rfl

@[simp]
theorem ends_pure {a : α} : Ends (pure a) s Q E ↔ Q a s := Iff.rfl

@[simp]
theorem ends_throw {e : ε} : Ends (throw e) s Q E ↔ E e s := Iff.rfl

@[simp]
theorem ends_modifyGet {f : σ → α × σ} : Ends (modifyGet f) s Q E ↔ Q (f s).1 (f s).2 := Iff.rfl

end

section

variable {s t : σ} {E : ε → σ → Prop}

@[simp]
theorem ends_get {Q : σ → σ → Prop} : Ends get s Q E ↔ Q s s := Iff.rfl

@[simp]
theorem ends_set {Q : PUnit → σ → Prop} : Ends (set t) s Q E ↔ Q ⟨⟩ t := Iff.rfl

@[simp]
theorem ends_modify {Q : PUnit → σ → Prop} {f : σ → σ} : Ends (modify f) s Q E ↔ Q ⟨⟩ (f s) :=
  Iff.rfl

end

/-! ## Running steps -/

theorem bind_of_ok {y : EStateM ε σ β} {f : β → EStateM ε σ α} {s s' : σ} {b : β}
    (h : y s = .ok b s') : (y >>= f) s = f b s' := by
  simp only [bind, EStateM.bind, h]

theorem bind_of_error {y : EStateM ε σ β} {f : β → EStateM ε σ α} {s s' : σ} {e : ε}
    (h : y s = .error e s') : (y >>= f) s = .error e s' := by
  simp only [bind, EStateM.bind, h]

/-- Two composite steps run alike if their first steps do, and the rest of them
    does wherever those lead. -/
theorem bind_eq_of_ok {y y' : EStateM ε σ β} {f f' : β → EStateM ε σ α} {s : σ} (hy : y s = y' s)
    (hf : ∀ b s', y s = .ok b s' → f b s' = f' b s') : (y >>= f) s = (y' >>= f') s := by
  cases h : y s with
  | ok b s' => rw [bind_of_ok h, bind_of_ok (hy ▸ h), hf b s' h]
  | error e s' => rw [bind_of_error h, bind_of_error (hy ▸ h)]

end Reckoner
