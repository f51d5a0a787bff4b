import Mathlib

-- Computations that change a state and may fail. What was changed before a failure stays changed.
namespace Failing

def Action (σ ε α : Type) : Type := σ → Except ε α × σ

variable {σ ε α β : Type}

namespace Action

instance : Monad (Action σ ε) where
  pure a := fun s => (.ok a, s)
  bind x f := fun s =>
    match x s with
    | (.ok a, s')    => f a s'
    | (.error e, s') => (.error e, s')

def fail (e : ε) : Action σ ε α := fun s => (.error e, s)

def get : Action σ ε σ := fun s => (.ok s, s)

def update (f : σ → σ) : Action σ ε Unit := fun s => (.ok (), f s)

-- What is computed without the state.
def lift (result : Except ε α) : Action σ ε α := fun s => (result, s)

-- A step of which nothing else is known than whether it fails.
def attempt (failure : Option ε) : Action σ ε Unit :=
  lift (failure.elim (.ok ()) .error)

-- A failure is passed on in another form.
def rethrow (x : Action σ ε α) (f : ε → ε) : Action σ ε α := fun s =>
  match x s with
  | (.ok a, s')    => (.ok a, s')
  | (.error e, s') => (.error (f e), s')

-- The state in the end, whether the computation fails or not.
def final (x : Action σ ε α) (s : σ) : σ := (x s).2

-- The computation ends with a value and a state of this kind, or fails in a state of that kind.
def Ends (x : Action σ ε α) (s : σ) (Q : α → σ → Prop) (E : σ → Prop) : Prop :=
  match x s with
  | (.ok a, s')    => Q a s'
  | (.error _, s') => E s'

variable {x : Action σ ε α} {f : α → Action σ ε β} {s : σ} {a : α} {e : ε} {Q : α → σ → Prop} {E : σ → Prop}

section Rules

@[simp]
theorem ends_pure : Ends (pure a : Action σ ε α) s Q E ↔ Q a s := Iff.rfl

@[simp]
theorem ends_fail : Ends (fail e : Action σ ε α) s Q E ↔ E s := Iff.rfl

@[simp]
theorem ends_get {Q : σ → σ → Prop} : Ends (get : Action σ ε σ) s Q E ↔ Q s s := Iff.rfl

@[simp]
theorem ends_update {g : σ → σ} {Q : Unit → σ → Prop} : Ends (update g : Action σ ε Unit) s Q E ↔ Q () (g s) :=
  Iff.rfl

-- The rest runs in the state that the first part leaves, unless that fails.
@[simp]
theorem ends_bind {Q : β → σ → Prop} :
    Ends (x >>= f) s Q E ↔ Ends x s (fun a s' => Ends (f a) s' Q E) E := by
  change (match (match x s with | (.ok a, s') => f a s' | (.error e, s') => (.error e, s')) with
    | (.ok b, s') => Q b s' | (.error _, s') => E s') ↔ _
  rw [Ends]
  rcases x s with ⟨_ | a, s'⟩
  · rfl
  · rfl

theorem ends_attempt {failure : Option ε} {Q : Unit → σ → Prop} :
    Ends (attempt failure : Action σ ε Unit) s Q E ↔ if failure = none then Q () s else E s := by
  cases failure <;> simp [Ends, attempt, lift]

-- Only the failure itself is changed.
@[simp]
theorem ends_rethrow {g : ε → ε} : Ends (rethrow x g) s Q E ↔ Ends x s Q E := by
  rw [Ends, Ends, rethrow]
  rcases x s with ⟨_ | a, s'⟩
  · rfl
  · rfl

theorem ends_ite {c : Prop} [Decidable c] {y : Action σ ε α} :
    Ends (if c then x else y) s Q E ↔ if c then Ends x s Q E else Ends y s Q E := by
  split_ifs <;> rfl

theorem final_iff {P : σ → Prop} : P (final x s) ↔ Ends x s (fun _ => P) P := by
  rw [final, Ends]
  rcases x s with ⟨_ | a, s'⟩
  · rfl
  · rfl

end Rules

end Action

end Failing
