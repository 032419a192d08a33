import Reckoner.Proofs.Ends

/-!
# Two runs side by side

Whether a step depends on some part of its state is seen from two runs of it, on states
that are alike but for that part. `Abreast R Q x y` says that from states related by `R`
the steps `x` and `y` either both give a result, and the results are related by `Q`, or
fail with the same cause; the states that they leave are related by `R` again. So it is a
relation that all steps of a run can be taken along, one by one (`Abreast.bind`), and what
it relates may drift apart on the way as far as `R` and `Q` allow.
-/

namespace Reckoner

variable {ε σ α α' β β' : Type}

/-- Both are results that are related, or both are failures with the same cause; and so are
    the states. -/
inductive Agree (R : σ → σ → Prop) (Q : α → α' → Prop) :
    EStateM.Result ε σ α → EStateM.Result ε σ α' → Prop
  | ok {a : α} {a' : α'} {s s' : σ} : Q a a' → R s s' → Agree R Q (.ok a s) (.ok a' s')
  | error {e : ε} {s s' : σ} : R s s' → Agree R Q (.error e s) (.error e s')

/-- Run on states that are related, the steps come to results that are, or fail alike. -/
def Abreast (R : σ → σ → Prop) (Q : α → α' → Prop) (x : EStateM ε σ α) (y : EStateM ε σ α') :
    Prop :=
  ∀ s s', R s s' → Agree R Q (x s) (y s')

variable {R : σ → σ → Prop} {Q : α → α' → Prop} {T : β → β' → Prop}

theorem Abreast.bind {x : EStateM ε σ α} {y : EStateM ε σ α'} {f : α → EStateM ε σ β}
    {g : α' → EStateM ε σ β'} (hxy : Abreast R Q x y)
    (hfg : ∀ a a', Q a a' → Abreast R T (f a) (g a')) : Abreast R T (x >>= f) (y >>= g) := by
  intro s s' hs
  have hagree := hxy s s' hs
  generalize hx : x s = result at hagree
  generalize hy : y s' = result' at hagree
  cases hagree with
  | ok hQ hR =>
    rw [bind_of_ok hx, bind_of_ok hy]
    exact hfg _ _ hQ _ _ hR
  | error hR =>
    rw [bind_of_error hx, bind_of_error hy]
    exact .error hR

/-- The first steps may have the same results. -/
theorem Abreast.bind_eq {x y : EStateM ε σ α} {f : α → EStateM ε σ β}
    {g : α → EStateM ε σ β'} (hxy : Abreast R Eq x y)
    (hfg : ∀ a, Abreast R T (f a) (g a)) : Abreast R T (x >>= f) (y >>= g) :=
  hxy.bind fun a _ h => h ▸ hfg a

/-- A step runs alike on the same state. -/
theorem abreast_same (x : EStateM ε σ α) : Abreast Eq Eq x x := by
  rintro s _ rfl
  cases x s with
  | ok a t => exact .ok rfl rfl
  | error e t => exact .error rfl

theorem abreast_pure {a : α} {a' : α'} (h : Q a a') :
    Abreast R Q (pure a : EStateM ε σ α) (pure a') := fun _ _ hs => .ok h hs

theorem abreast_throw (e : ε) : Abreast R Q (throw e : EStateM ε σ α) (throw e) :=
  fun _ _ hs => .error hs

theorem abreast_get : Abreast R R (get : EStateM ε σ σ) get := fun _ _ hs => .ok hs hs

theorem abreast_set {t t' : σ} (h : R t t') :
    Abreast R Eq (set t : EStateM ε σ PUnit) (set t') := fun _ _ _ => .ok rfl h

theorem abreast_modify {f g : σ → σ} (h : ∀ s s', R s s' → R (f s) (g s')) :
    Abreast R Eq (modify f : EStateM ε σ PUnit) (modify g) := fun s s' hs => .ok rfl (h s s' hs)

end Reckoner
