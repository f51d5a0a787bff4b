import Mathlib

-- A computation that changes a state and may fail. What it did to the state stays when it fails.
def Effect (σ ε α : Type) : Type :=
  σ → Except ε α × σ

namespace Effect

variable {σ ε α β γ : Type}

instance : Monad (Effect σ ε) where
  pure a s := (.ok a, s)
  bind m f s :=
    match m s with
    | (.ok a, s')    => f a s'
    | (.error e, s') => (.error e, s')

def fail (e : ε) : Effect σ ε α :=
  fun s => (.error e, s)

def lift (r : Except ε α) : Effect σ ε α :=
  fun s => (r, s)

def asks (f : σ → α) : Effect σ ε α :=
  fun s => (.ok (f s), s)

def modify (f : σ → σ) : Effect σ ε Unit :=
  fun s => (.ok (), f s)

variable {m : Effect σ ε α} {f : α → Effect σ ε β} {s s' : σ} {a : α} {e : ε}

theorem bind_of_ok (h : m s = (.ok a, s')) : (m >>= f) s = f a s' := by
  simp only [bind, h]

theorem bind_of_error (h : m s = (.error e, s')) : (m >>= f) s = (.error e, s') := by
  simp only [bind, h]

theorem bind_eq_ok {b : β} :
    (m >>= f) s = (.ok b, s') ↔ ∃ a s₁, m s = (.ok a, s₁) ∧ f a s₁ = (.ok b, s') := by
  cases h : m s with
  | mk r s₁ =>
    cases r with
    | ok a => simp [bind_of_ok h]
    | error e => simp [bind_of_error h]

theorem map_eq_ok {g : α → β} {b : β} :
    (g <$> m) s = (.ok b, s') ↔ ∃ a, m s = (.ok a, s') ∧ g a = b := by
  change (m >>= fun a => pure (g a)) s = _ ↔ _
  rw [bind_eq_ok]
  constructor
  · rintro ⟨a, s₁, h, hb⟩
    cases hb
    exact ⟨a, h, rfl⟩
  · rintro ⟨a, h, rfl⟩
    exact ⟨a, s', h, rfl⟩

theorem asks_bind {g : σ → α} : (asks g >>= f) s = f (g s) s :=
  rfl

theorem pure_apply : (pure a : Effect σ ε α) s = (.ok a, s) :=
  rfl

theorem lift_ok : (lift (.ok a) : Effect σ ε α) s = (.ok a, s) :=
  rfl

theorem lift_error : (lift (.error e) : Effect σ ε α) s = (.error e, s) :=
  rfl

protected theorem bind_assoc (g : β → Effect σ ε γ) :
    (m >>= f) >>= g = m >>= fun a => f a >>= g := by
  funext s
  simp only [bind]
  rcases m s with ⟨_ | _, _⟩ <;> rfl

theorem map_snd {g : α → β} : ((g <$> m) s).2 = (m s).2 := by
  change ((m >>= fun a => pure (g a)) s).2 = _
  cases h : m s with
  | mk r s' =>
    cases r with
    | ok a => rw [bind_of_ok h, pure_apply]
    | error e => rw [bind_of_error h]

-- All that the computation may return has the property.
def Returns (P : α → Prop) (m : Effect σ ε α) : Prop :=
  ∀ s a s', m s = (.ok a, s') → P a

theorem Returns.pure {P : α → Prop} (h : P a) : Returns P (Pure.pure a : Effect σ ε α) := by
  intro s b s' hb
  cases hb
  exact h

theorem Returns.bind {P : β → Prop} (hf : ∀ a, Returns P (f a)) : Returns P (m >>= f) := by
  intro s b s' hb
  obtain ⟨a, s₁, -, hb⟩ := bind_eq_ok.mp hb
  exact hf a s₁ b s' hb

-- A property of the state that the computation keeps, whether it fails or not.
def Keeps (I : σ → Prop) (m : Effect σ ε α) : Prop :=
  ∀ s, I s → I (m s).2

namespace Keeps

variable {I : σ → Prop}

theorem pure (a : α) : Keeps I (Pure.pure a : Effect σ ε α) :=
  fun _ h => h

theorem fail (e : ε) : Keeps I (fail e : Effect σ ε α) :=
  fun _ h => h

theorem lift (r : Except ε α) : Keeps I (lift r : Effect σ ε α) :=
  fun _ h => h

theorem asks (f : σ → α) : Keeps I (asks f : Effect σ ε α) :=
  fun _ h => h

theorem modify {f : σ → σ} (h : ∀ s, I s → I (f s)) : Keeps I (modify f : Effect σ ε Unit) :=
  h

theorem bind (hm : Keeps I m) (hf : ∀ a, Keeps I (f a)) : Keeps I (m >>= f) := by
  intro s hs
  have h := hm s hs
  cases hr : m s with
  | mk r s' =>
    rw [hr] at h
    cases r with
    | ok a =>
      rw [bind_of_ok hr]
      exact hf a s' h
    | error e =>
      rw [bind_of_error hr]
      exact h

theorem ite {c : Prop} [Decidable c] {m n : Effect σ ε α} (hm : c → Keeps I m)
    (hn : ¬c → Keeps I n) : Keeps I (if c then m else n) := by
  split_ifs with hc
  case pos => exact hm hc
  case neg => exact hn hc

theorem forM {l : List γ} {f : γ → Effect σ ε Unit} (h : ∀ c ∈ l, Keeps I (f c)) :
    Keeps I (l.forM f) := by
  induction l with
  | nil => exact Keeps.pure ()
  | cons c l ih =>
    refine Keeps.bind (h c (List.mem_cons_self ..)) fun _ => ?_
    exact ih fun d hd => h d (List.mem_cons_of_mem _ hd)

end Keeps

end Effect
