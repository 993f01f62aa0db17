import Mathlib.Control.Basic

/-!
Running `StateM` actions, and invariants of their state.

`run_bind_of_run_eq` steps a run over one bind whose first action is known. `Keeps P x`
says that `x` ends in a state satisfying `P` whenever it starts in one; it has one rule
for each way an action is built (`pure`, `get`, `set`, `modify`, bind, `if`), so that an
invariant of a whole `do` block follows from those of the actions it calls. `Yields Q x`
says that every run of `x` returns a value satisfying `Q`: it follows from the values the
block's `return`s give, under the conditions of the `if`s that lead to them and what the
actions before them yield (`Yields.bind_of`).
-/

namespace StateM

variable {σ α β : Type}

theorem run_bind_of_run_eq {x : StateM σ α} {f : α → StateM σ β} {s s' : σ} {a : α}
    (hx : x.run s = (a, s')) : (x >>= f).run s = (f a).run s' := by
  rw [StateT.run_bind, hx]
  rfl

theorem run_pure_id (a : α) (s : σ) : (pure a : StateM σ α).run s = (a, s) := rfl

/-- `x` keeps `P`: from a state satisfying `P` it ends in one. -/
def Keeps (P : σ → Prop) (x : StateM σ α) : Prop := ∀ s, P s → P (x.run s).2

variable {P : σ → Prop}

namespace Keeps

theorem pure (a : α) : Keeps P (Pure.pure a : StateM σ α) := fun _ h => h

theorem set {s' : σ} (h : P s') : Keeps P (MonadStateOf.set s' : StateM σ PUnit) := fun _ _ => h

theorem modify {f : σ → σ} (h : ∀ s, P s → P (f s)) : Keeps P (modify f : StateM σ PUnit) :=
  fun s hs => h s hs

theorem bind {x : StateM σ α} {f : α → StateM σ β} (hx : Keeps P x) (hf : ∀ a, Keeps P (f a)) :
    Keeps P (x >>= f) := by
  intro s hs
  rw [StateT.run_bind]
  exact hf _ _ (hx s hs)

/-- What `get` returns satisfies `P`, which the rest of the block may use. -/
theorem get_bind {f : σ → StateM σ β} (hf : ∀ s, P s → Keeps P (f s)) :
    Keeps P ((MonadState.get : StateM σ σ) >>= f) :=
  fun s hs => hf s hs s hs

theorem ite {c : Prop} [Decidable c] {x y : StateM σ α} (hx : Keeps P x) (hy : Keeps P y) :
    Keeps P (if c then x else y) := by
  split
  · exact hx
  · exact hy

end Keeps

/-- Every run of `x` returns a value satisfying `Q`. -/
def Yields (Q : α → Prop) (x : StateM σ α) : Prop := ∀ s, Q (x.run s).1

variable {Q : β → Prop}

namespace Yields

theorem pure {b : β} (h : Q b) : Yields Q (Pure.pure b : StateM σ β) := fun _ => h

/-- A block yields what its continuation yields, whatever the first action returns. -/
theorem bind {x : StateM σ α} {f : α → StateM σ β} (hf : ∀ a, Yields Q (f a)) : Yields Q (x >>= f) := by
  intro s
  rw [StateT.run_bind]
  exact hf _ _

theorem ite {c : Prop} [Decidable c] {x y : StateM σ β} (hx : c → Yields Q x) (hy : ¬c → Yields Q y) :
    Yields Q (if c then x else y) := by
  split
  · next h => exact hx h
  · next h => exact hy h

/-- A block yields what its continuation yields from every value its first action yields. -/
theorem bind_of {P : α → Prop} {x : StateM σ α} {f : α → StateM σ β} (hx : Yields P x)
    (hf : ∀ a, P a → Yields Q (f a)) : Yields Q (x >>= f) := by
  intro s
  rw [StateT.run_bind]
  exact hf _ (hx s) _

end Yields

end StateM
