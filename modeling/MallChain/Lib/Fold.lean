import Mathlib

-- Folds whose steps may fail.
namespace Fold

variable {σ α ε : Type*} {step : σ → α → Except ε σ} {P : σ → α → Prop}

theorem foldlM_cons_eq_ok {a : α} {l : List α} {s s' : σ} :
    (a :: l).foldlM step s = .ok s' ↔ ∃ s₁, step s a = .ok s₁ ∧ l.foldlM step s₁ = .ok s' := by
  rw [List.foldlM_cons]
  cases step s a <;> simp [bind, Except.bind]

-- Each step of the fold is taken under the condition, in the state that it finds.
def Along (step : σ → α → Except ε σ) (P : σ → α → Prop) : List α → σ → Prop
  | [], _ => True
  | a :: l, s => P s a ∧ ∀ s', step s a = .ok s' → Along step P l s'

-- What holds of a result, if there is one, can be checked.
scoped instance decidableForallOk {x : Except ε σ} {Q : σ → Prop} [DecidablePred Q] :
    Decidable (∀ s, x = .ok s → Q s) :=
  match x with
  | .ok s    => decidable_of_iff (Q s) ⟨fun h _ he => Except.ok.inj he ▸ h, fun h => h s rfl⟩
  | .error _ => isTrue fun _ he => by cases he

scoped instance decidableAlong [∀ s a, Decidable (P s a)] :
    (l : List α) → (s : σ) → Decidable (Along step P l s)
  | [], _ => isTrue trivial
  | a :: l, s =>
    have : DecidablePred (Along step P l) := decidableAlong l
    inferInstanceAs (Decidable (P s a ∧ ∀ s', step s a = .ok s' → Along step P l s'))

theorem Along.of_forall {l : List α} {s : σ} (h : ∀ a ∈ l, ∀ s, P s a) : Along step P l s := by
  induction l generalizing s with
  | nil => trivial
  | cons a l ih =>
    exact ⟨h a (List.mem_cons_self ..) s, fun _ _ => ih fun b hb => h b (List.mem_cons_of_mem _ hb)⟩

theorem Along.mono {Q : σ → α → Prop} (h : ∀ s a, P s a → Q s a) {l : List α} {s : σ}
    (ha : Along step P l s) : Along step Q l s := by
  induction l generalizing s with
  | nil => trivial
  | cons a l ih => exact ⟨h s a ha.1, fun s' hs => ih (ha.2 s' hs)⟩

-- The invariant may speak of the elements that are left.
theorem Along.holds {I : List α → σ → Prop} {l : List α} {s s' : σ} (ha : Along step P l s)
    (hstep : ∀ {a l s s'}, I (a :: l) s → P s a → step s a = .ok s' → I l s')
    (hI : I l s) (hf : l.foldlM step s = .ok s') : I [] s' := by
  induction l generalizing s with
  | nil =>
    cases hf
    exact hI
  | cons a l ih =>
    obtain ⟨s₁, h₁, hf⟩ := foldlM_cons_eq_ok.mp hf
    exact ih (ha.2 s₁ h₁) (hstep hI ha.1 h₁) hf

variable {β : Type*} {moments : σ → α → List β} {a : α} {l : List α} {s s' : σ}

-- What happens in a fold, the latest first.
def trace (step : σ → α → Except ε σ) (moments : σ → α → List β) : List α → σ → List β
  | [], _ => []
  | a :: l, s =>
    match step s a with
    | .ok s' => trace step moments l s' ++ moments s a
    | .error _ => []

theorem trace_cons (h : step s a = .ok s') :
    trace step moments (a :: l) s = trace step moments l s' ++ moments s a := by
  simp only [trace, h]

-- An invariant of a fold and of what has happened, when all that happens is as it should be.
theorem trace_holds {I : List α → σ → List β → Prop} {Q : β → Prop} {past : List β}
    (hstep : ∀ {a l s s' past}, I (a :: l) s past → step s a = .ok s' →
      (∀ m ∈ moments s a, Q m) → I l s' (moments s a ++ past))
    (hI : I l s past) (hf : l.foldlM step s = .ok s') (hq : ∀ m ∈ trace step moments l s, Q m) :
    I [] s' (trace step moments l s ++ past) := by
  induction l generalizing s past with
  | nil =>
    cases hf
    exact hI
  | cons a l ih =>
    obtain ⟨s₁, h₁, hf⟩ := foldlM_cons_eq_ok.mp hf
    simp only [trace_cons h₁, List.mem_append] at hq ⊢
    rw [List.append_assoc]
    exact ih (hstep hI h₁ fun m hm => hq m (.inr hm)) hf fun m hm => hq m (.inl hm)

-- A quantity to which every step adds its part.
theorem foldlM_sum {M : Type*} [AddMonoid M] {measure : σ → M} {f : α → M}
    (hstep : ∀ a ∈ l, ∀ s s', step s a = .ok s' → measure s' = measure s + f a)
    (hf : l.foldlM step s = .ok s') : measure s' = measure s + (l.map f).sum := by
  induction l generalizing s with
  | nil =>
    cases hf
    simp
  | cons a l ih =>
    obtain ⟨s₁, h₁, hf⟩ := foldlM_cons_eq_ok.mp hf
    rw [ih (fun b hb => hstep b (List.mem_cons_of_mem _ hb)) hf,
      hstep a (List.mem_cons_self ..) s s₁ h₁, List.map_cons, List.sum_cons, add_assoc]

end Fold
