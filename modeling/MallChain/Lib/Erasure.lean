import MallChain.Lib.Interleaving

-- Programs that do the same where a part of the store is erased.
namespace Interleaving

variable {ℓ ℓ' σ σ' ρ α α' β β' : Type}

namespace Prog

-- One program does on the erased store what the other one does on the store, and they answer alike.
def Erases (E : σ → σ') (R : α → α' → Prop) : Prog ℓ σ α → Prog ℓ' σ' α' → Prop
  | done a, done a'                       => R a a'
  | step _ update next, step _ update' next' =>
    ∀ s, E (update s) = update' (E s) ∧ (next s).Erases E R (next' (E s))
  | _, _                                  => False

variable {E : σ → σ'} {R : α → α' → Prop} {R' : β → β' → Prop} {label : ℓ} {label' : ℓ'}
  {p : Prog ℓ σ α} {p' : Prog ℓ' σ' α'}

theorem Erases.bind {f : α → Prog ℓ σ β} {f' : α' → Prog ℓ' σ' β'} (h : p.Erases E R p')
    (hf : ∀ a a', R a a' → (f a).Erases E R' (f' a')) : (p >>= f).Erases E R' (p' >>= f') := by
  induction p generalizing p' with
  | done a =>
    cases p' with
    | done a' => exact hf a a' h
    | step label' update' next' => exact h.elim
  | step label update next ih =>
    cases p' with
    | done a' => exact h.elim
    | step label' update' next' => exact fun s => ⟨(h s).1, ih s (h s).2⟩

theorem Erases.ite {c c' : Prop} [Decidable c] [Decidable c'] {q : Prog ℓ σ α} {q' : Prog ℓ' σ' α'}
    (hc : c ↔ c') (hp : c → p.Erases E R p') (hq : ¬c → q.Erases E R q') :
    (if c then p else q).Erases E R (if c' then p' else q') := by
  by_cases h : c
  case pos =>
    rw [if_pos h, if_pos (hc.mp h)]
    exact hp h
  case neg =>
    rw [if_neg h, if_neg (mt hc.mpr h)]
    exact hq h

theorem Erases.act {update : σ → σ} {update' : σ' → σ'} {answer : σ → α} {answer' : σ' → α'}
    (hu : ∀ s, E (update s) = update' (E s)) (ha : ∀ s, R (answer s) (answer' (E s))) :
    (Prog.act label update answer).Erases E R (Prog.act label' update' answer') :=
  fun s => ⟨hu s, ha s⟩

theorem Erases.read {answer : σ → α} {answer' : σ' → α'} (h : ∀ s, R (answer s) (answer' (E s))) :
    (Prog.read label answer).Erases E R (Prog.read label' answer') :=
  .act (fun _ => rfl) h

theorem Erases.write {update : σ → σ} {update' : σ' → σ'} (h : ∀ s, E (update s) = update' (E s)) :
    (Prog.write label update).Erases E (· = ·) (Prog.write label' update') :=
  .act h fun _ => rfl

theorem Erases.skip :
    (Prog.skip label : Prog ℓ σ Unit).Erases E (· = ·) (Prog.skip label' : Prog ℓ' σ' Unit) :=
  .write fun _ => rfl

end Prog

namespace Pool

-- The stores and the programs of two pools.
structure Erases (E : σ → σ') (p : Pool ℓ σ) (p' : Pool ℓ' σ') : Prop where
  store   : E p.store = p'.store
  length  : p.running.length = p'.running.length
  running : ∀ (i : ℕ) (q : Prog ℓ σ Unit) (q' : Prog ℓ' σ' Unit), p.running[i]? = some q →
    p'.running[i]? = some q' → q.Erases E (· = ·) q'

variable {E : σ → σ'} {handler : ρ → Prog ℓ σ Unit} {handler' : ρ → Prog ℓ' σ' Unit} {p : Pool ℓ σ}
  {p' : Pool ℓ' σ'}

theorem Erases.start {request : ρ} (h : p.Erases E p')
    (hr : (handler request).Erases E (· = ·) (handler' request)) :
    (p.exec handler (.start request)).Erases E (p'.exec handler' (.start request)) where
  store   := h.store
  length  := by simp [exec, h.length]
  running := by
    intro i q q' hq hq'
    by_cases hi : i < p.running.length
    case pos =>
      rw [exec, List.getElem?_append_left hi] at hq
      rw [exec, List.getElem?_append_left (h.length ▸ hi)] at hq'
      exact h.running i q q' hq hq'
    case neg =>
      rw [exec, List.getElem?_append_right (not_lt.mp hi), List.getElem?_singleton] at hq
      rw [exec, List.getElem?_append_right (h.length ▸ not_lt.mp hi), List.getElem?_singleton] at hq'
      split_ifs at hq hq'
      cases hq
      cases hq'
      exact hr

theorem Erases.run {i : ℕ} (h : p.Erases E p') :
    (p.exec handler (.run i)).Erases E (p'.exec handler' (.run i)) := by
  cases hq : p.running[i]? with
  | none =>
    have hq' : p'.running[i]? = none := by
      rw [List.getElem?_eq_none_iff] at hq ⊢
      exact h.length ▸ hq
    simpa only [exec, hq, hq'] using h
  | some q =>
    obtain ⟨hlt, _⟩ := List.getElem?_eq_some_iff.mp hq
    obtain ⟨q', hq'⟩ : ∃ q', p'.running[i]? = some q' :=
      ⟨_, List.getElem?_eq_getElem (h.length ▸ hlt)⟩
    have hqq := h.running i q q' hq hq'
    cases q with
    | done =>
      cases q' with
      | done => simpa only [exec, hq, hq'] using h
      | step => exact hqq.elim
    | step label update next =>
      cases q' with
      | done => exact hqq.elim
      | step label' update' next' =>
        have hs := hqq p.store
        rw [h.store] at hs
        simp only [exec, hq, hq']
        refine ⟨hs.1, by simp [h.length], fun j r r' hr hr' => ?_⟩
        rw [List.getElem?_set] at hr hr'
        split_ifs at hr hr' with hj
        case pos =>
          cases hr
          cases hr'
          exact hs.2
        case neg => exact h.running j r r' hr hr'

-- What both pools come to by the same actions.
theorem Erases.execs (h : p.Erases E p')
    (hr : ∀ request, (handler request).Erases E (· = ·) (handler' request)) (actions : List (Action ρ)) :
    (p.execs handler actions).Erases E (p'.execs handler' actions) := by
  induction actions generalizing p p' with
  | nil => exact h
  | cons a actions ih =>
    cases a with
    | start request => exact ih (h.start (hr request))
    | run i => exact ih h.run

end Pool

end Interleaving
