import Mathlib

namespace Sdk

-- How a call into the state machine ends without a result. Both revert the message that made it.
inductive Failure
  | error (text : String)
  | panic (text : String)
  deriving DecidableEq, Repr

abbrev Result (α : Type) := Except Failure α

namespace Result

variable {α β : Type} {x : Result α} {f : α → Result β} {a : α} {b : β} {e : Failure} {c : Prop}

@[simp]
theorem bind_eq_ok : (x >>= f) = .ok b ↔ ∃ a, x = .ok a ∧ f a = .ok b := by
  cases x <;> simp [bind, Except.bind]

theorem ok_bind : ((.ok a : Result α) >>= f) = f a :=
  rfl

@[simp]
theorem pure_eq_ok {a' : α} : (pure a : Result α) = .ok a' ↔ a = a' := by
  simp [pure, Except.pure]

@[simp]
theorem throw_eq_ok : (throw e : Result α) = .ok a ↔ False := by
  simp [throw, throwThe, MonadExceptOf.throw]

theorem bind_ne_error {text : String} (hx : x ≠ .error (.error text))
    (hf : ∀ a, f a ≠ .error (.error text)) : (x >>= f) ≠ .error (.error text) := by
  cases x with
  | error e => exact fun h => hx (by cases h; rfl)
  | ok a => exact hf a

theorem isOk_iff : x.isOk = true ↔ ∃ a, x = .ok a := by
  cases x <;> simp [Except.isOk, Except.toBool]

end Result

-- `if c { return e }`
def failIf (c : Prop) [Decidable c] (e : Failure) : Result Unit :=
  if c then .error e else .ok ()

-- The value of a lookup that must not be absent.
def orFail {α : Type} (o : Option α) (e : Failure) : Result α :=
  o.elim (.error e) .ok

-- A handler whose caller goes on after an error keeps what it has written before, unless it panics.
-- Its result is the state with the failure after the first write, and an error before it.

variable {σ : Type} {s s' : σ}

def orKeep (s : σ) : Result σ → σ × Option Failure
  | .ok s' => (s', none)
  | .error e => (s, some e)

-- The caller logs the error of a handler and goes on.
def logged (s : σ) : Result (σ × Option Failure) → Result σ
  | .ok (s', none) => .ok s'
  | .ok (s', some (.error _)) => .ok s'
  | .ok (_, some (.panic text)) => .error (.panic text)
  | .error (.error _) => .ok s
  | .error (.panic text) => .error (.panic text)

theorem of_logged {h : Result (σ × Option Failure)} (hl : logged s h = .ok s') :
    (s' = s ∧ ∃ e, h = .error e) ∨ ∃ e, h = .ok (s', e) := by
  rcases h with ⟨_ | _⟩ | ⟨_, _ | ⟨_ | _⟩⟩ <;> simp_all [logged]

theorem orKeep_eq {r : Result σ} {e : Option Failure} (h : orKeep s r = (s', e)) :
    s' = s ∨ r = .ok s' := by
  cases r <;> simp_all [orKeep]

-- The same for a handler that has written nothing when it fails.
def skipError (s : σ) : Result σ → Result σ
  | .error (.error _) => .ok s
  | r => r

theorem of_skipError {r : Result σ} (h : skipError s r = .ok s') : s' = s ∨ r = .ok s' := by
  rcases r with ⟨_ | _⟩ | _ <;> simp_all [skipError]

variable {α : Type} {o : Option α} {a : α} {u : Unit} {e : Failure} {c : Prop} [Decidable c]

@[simp]
theorem failIf_eq_ok : failIf c e = .ok u ↔ ¬c := by
  simp [failIf]

@[simp]
theorem orFail_eq_ok : orFail o e = .ok a ↔ o = some a := by
  cases o <;> simp [orFail]

end Sdk
