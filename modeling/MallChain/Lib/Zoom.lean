import MallChain.Lib.Interleaving

-- Programs that only see stores of an invariant, and programs over a part of a store.
namespace Interleaving

variable {ℓ ℓ' σ τ ρ α β : Type}

namespace Prog

-- Every step that the program can come to in such stores is one of these.
def StepsIn (I : σ → Prop) (P : ℓ → (σ → σ) → Prop) : Prog ℓ σ α → Prop
  | done _                 => True
  | step label update next => P label update ∧ ∀ s, I s → (next s).StepsIn I P

-- The program runs in a part of the store.
def zoom (relabel : ℓ → ℓ') (get : τ → σ) (put : σ → τ → τ) : Prog ℓ σ α → Prog ℓ' τ α
  | done a                 => done a
  | step label update next =>
    step (relabel label) (fun t => put (update (get t)) t) fun t => (next (get t)).zoom relabel get put

section StepsIn

variable {I : σ → Prop} {P : ℓ → (σ → σ) → Prop} {label : ℓ} {update : σ → σ} {answer : σ → α}
  {f : α → Prog ℓ σ β}

theorem StepsIn.bind {p : Prog ℓ σ α} (hp : p.StepsIn I P) (hf : ∀ a, (f a).StepsIn I P) :
    (p >>= f).StepsIn I P := by
  induction p with
  | done a => exact hf a
  | step label update next ih => exact ⟨hp.1, fun s hs => ih s (hp.2 s hs)⟩

theorem StepsIn.ite {c : Prop} [Decidable c] {p q : Prog ℓ σ α} (hp : c → p.StepsIn I P)
    (hq : ¬c → q.StepsIn I P) : (if c then p else q).StepsIn I P := by
  split
  case isTrue hc => exact hp hc
  case isFalse hc => exact hq hc

theorem StepsIn.write (h : P label update) : (Prog.write label update).StepsIn I P :=
  ⟨h, fun _ _ => trivial⟩

theorem StepsIn.act_bind (h : P label update) (hf : ∀ s, I s → (f (answer s)).StepsIn I P) :
    (Prog.act label update answer >>= f).StepsIn I P :=
  ⟨h, hf⟩

theorem StepsIn.read_bind (h : P label id) (hf : ∀ s, I s → (f (answer s)).StepsIn I P) :
    (Prog.read label answer >>= f).StepsIn I P :=
  ⟨h, hf⟩

theorem Steps.stepsIn {p : Prog ℓ σ α} (hp : p.Steps P) : p.StepsIn I P := by
  induction p with
  | done _ => trivial
  | step label update next ih => exact ⟨hp.1, fun s _ => ih s (hp.2 s)⟩

theorem StepsIn.zoom {relabel : ℓ → ℓ'} {get : τ → σ} {put : σ → τ → τ} {J : τ → Prop}
    {Q : ℓ' → (τ → τ) → Prop} {p : Prog ℓ σ α} (hp : p.StepsIn I P) (hI : ∀ t, J t → I (get t))
    (hP : ∀ label update, P label update → Q (relabel label) fun t => put (update (get t)) t) :
    (p.zoom relabel get put).StepsIn J Q := by
  induction p with
  | done _ => trivial
  | step label update next ih =>
    exact ⟨hP label update hp.1, fun t ht => ih (get t) (hp.2 (get t) (hI t ht))⟩

end StepsIn

end Prog

section Runs

variable {init : σ → Prop} {handler : ρ → Prog ℓ σ Unit} {guard : ℓ → σ → Prop} {p : Pool ℓ σ}
  {I : σ → Prop} {P : ℓ → (σ → σ) → Prop} {a : Action ρ}

-- The store is left as it is, or changed by one of the steps where its guard holds.
theorem exec_store_in (h : ∀ q ∈ p.running, q.StepsIn I P) (ha : p.Meets guard a) :
    (p.exec handler a).store = p.store ∨ ∃ label update, P label update ∧ guard label p.store ∧
      (p.exec handler a).store = update p.store := by
  cases a with
  | start request => exact .inl rfl
  | run i =>
    rw [Pool.exec]
    rw [Pool.Meets] at ha
    split
    case h_1 label update next hi =>
      rw [hi] at ha
      exact .inr ⟨label, update, (h _ (List.mem_of_getElem? hi)).1, ha, rfl⟩
    case h_2 => exact .inl rfl

theorem exec_running_in (hr : ∀ request, (handler request).StepsIn I P)
    (h : ∀ q ∈ p.running, q.StepsIn I P) (hI : I p.store) :
    ∀ q ∈ (p.exec handler a).running, q.StepsIn I P := by
  intro q hq
  cases a with
  | start request =>
    cases List.mem_append.mp hq with
    | inl hq => exact h q hq
    | inr hq =>
      rw [List.mem_singleton.mp hq]
      exact hr request
  | run i =>
    rw [Pool.exec] at hq
    split at hq
    case h_1 label update next hi =>
      cases List.mem_or_eq_of_mem_set hq with
      | inl hq => exact h q hq
      | inr hq =>
        rw [hq]
        exact (h _ (List.mem_of_getElem? hi)).2 p.store hI
    case h_2 => exact h q hq

-- An invariant that all steps keep, with a constant of the run: the programs see only such stores.
theorem invariant_of_stepsIn {κ : Type} {I : κ → σ → Prop} {P : κ → ℓ → (σ → σ) → Prop}
    (hinit : ∀ s, init s → ∃ k, I k s) (hr : ∀ k request, (handler request).StepsIn (I k) (P k))
    (hP : ∀ k label update s, P k label update → guard label s → I k s → I k (update s)) :
    (system init handler).Invariant (fun p a => p.Meets guard a)
      fun p => ∃ k, I k p.store ∧ ∀ q ∈ p.running, q.StepsIn (I k) (P k) where
  init := by
    intro p h
    obtain ⟨k, hI⟩ := hinit p.store h.1
    refine ⟨k, hI, ?_⟩
    simp [h.2]
  step := by
    intro p a q h ha hs
    obtain ⟨k, hI, hrunning⟩ := h
    cases hs
    refine ⟨k, ?_, exec_running_in (hr k) hrunning hI⟩
    have hexec : (p.exec handler a).store = p.store ∨ ∃ label update, P k label update ∧
        guard label p.store ∧ (p.exec handler a).store = update p.store :=
      exec_store_in hrunning ha
    cases hexec with
    | inl hsame => rwa [hsame]
    | inr hstep =>
      obtain ⟨label, update, hp, hg, hstore⟩ := hstep
      rw [hstore]
      exact hP k label update p.store hp hg hI

end Runs

end Interleaving
