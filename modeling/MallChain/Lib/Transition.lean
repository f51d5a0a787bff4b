import Mathlib

-- A system that starts in an initial state and takes labelled steps.
structure TransitionSystem (σ α : Type*) where
  init : σ → Prop
  step : σ → α → σ → Prop

namespace TransitionSystem

variable {σ α ε : Type*} {T : TransitionSystem σ α} {guard guard' : σ → α → Prop} {I J : σ → Prop}

-- The states of the runs in which every step is taken under the guard.
inductive Run (T : TransitionSystem σ α) (guard : σ → α → Prop) : σ → Prop
  | init {s : σ} : T.init s → Run T guard s
  | step {s s' : σ} {a : α} : Run T guard s → guard s a → T.step s a s' → Run T guard s'

def Reachable (T : TransitionSystem σ α) : σ → Prop :=
  T.Run fun _ _ => True

structure Invariant (T : TransitionSystem σ α) (guard : σ → α → Prop) (I : σ → Prop) : Prop where
  init : ∀ {s}, T.init s → I s
  step : ∀ {s a s'}, I s → guard s a → T.step s a s' → I s'

theorem Run.mono {s : σ} (h : ∀ s a, guard s a → guard' s a) : T.Run guard s → T.Run guard' s
  | .init hi => .init hi
  | .step hr hg hs => .step (hr.mono h) (h _ _ hg) hs

theorem Run.reachable {s : σ} (h : T.Run guard s) : T.Reachable s :=
  h.mono fun _ _ _ => trivial

theorem Invariant.holds {s : σ} (h : T.Invariant guard I) : T.Run guard s → I s
  | .init hi => h.init hi
  | .step hr hg hs => h.step (h.holds hr) hg hs

-- An invariant may be shown with the help of another one that is known already.
theorem Invariant.strengthen (hJ : T.Invariant guard J) (hi : ∀ {s}, T.init s → I s)
    (hs : ∀ {s a s'}, J s → I s → guard s a → T.step s a s' → I s') :
    T.Invariant guard fun s => J s ∧ I s where
  init h := ⟨hJ.init h, hi h⟩
  step h hg ht := ⟨hJ.step h.1 hg ht, hs h.1 h.2 hg ht⟩

-- The system from one of its states on.
def startingAt (T : TransitionSystem σ α) (s₀ : σ) : TransitionSystem σ α :=
  { T with init := fun s => s = s₀ }

-- The system with steps of an environment between its own.
def within (T : TransitionSystem σ α) (env : σ → σ → Prop) : TransitionSystem σ (Option α) where
  init := T.init
  step s a s' := a.elim (env s s') fun a => T.step s a s'

-- The system together with the events of the steps that were taken.
def recorded (T : TransitionSystem σ α) (events : σ → α → σ → Set ε) :
    TransitionSystem (σ × Set ε) α where
  init p     := T.init p.1 ∧ p.2 = ∅
  step p a q := T.step p.1 a q.1 ∧ q.2 = p.2 ∪ events p.1 a q.1

-- What is known of the system itself is known of it with its events.
theorem Invariant.recorded (h : T.Invariant guard I) (events : σ → α → σ → Set ε) :
    (T.recorded events).Invariant (fun p a => guard p.1 a) fun p => I p.1 where
  init hi := h.init hi.1
  step hp hg hs := h.step hp hg hs.1

section Recorded

variable {events : σ → α → σ → Set ε} {guard : σ × Set ε → α → Prop}

theorem Run.recorded_init {s : σ} (h : T.init s) : (T.recorded events).Run guard (s, ∅) :=
  .init ⟨h, rfl⟩

theorem Run.recorded_step {p : σ × Set ε} {a : α} {s : σ} (h : (T.recorded events).Run guard p)
    (hg : guard p a) (hs : T.step p.1 a s) :
    (T.recorded events).Run guard (s, p.2 ∪ events p.1 a s) :=
  .step h hg ⟨hs, rfl⟩

end Recorded

-- The system with its history: what is seen of each step, the latest step first.
def traced (T : TransitionSystem σ α) (event : σ → α → σ → ε) :
    TransitionSystem (σ × List ε) α where
  init p     := T.init p.1 ∧ p.2 = []
  step p a q := T.step p.1 a q.1 ∧ q.2 = event p.1 a q.1 :: p.2

section Traced

variable {event : σ → α → σ → ε} {guard : σ × List ε → α → Prop}

theorem Invariant.traced {guard : σ → α → Prop} (h : T.Invariant guard I)
    (event : σ → α → σ → ε) :
    (T.traced event).Invariant (fun p a => guard p.1 a) fun p => I p.1 where
  init hi := h.init hi.1
  step hp hg hs := h.step hp hg hs.1

theorem traced_invariant {I : σ × List ε → Prop} (hi : ∀ {s}, T.init s → I (s, []))
    (hs : ∀ {s history a s'}, I (s, history) → guard (s, history) a → T.step s a s' →
      I (s', event s a s' :: history)) : (T.traced event).Invariant guard I where
  init := by
    rintro ⟨s, history⟩ ⟨h, rfl⟩
    exact hi h
  step := by
    rintro ⟨s, history⟩ a ⟨s', history'⟩ hI hg ⟨h, hh⟩
    dsimp only at h hh
    rw [hh]
    exact hs hI hg h

theorem Run.traced_init {s : σ} (h : T.init s) : (T.traced event).Run guard (s, []) :=
  .init ⟨h, rfl⟩

theorem Run.traced_step {p : σ × List ε} {a : α} {s : σ} (h : (T.traced event).Run guard p)
    (hg : guard p a) (hs : T.step p.1 a s) :
    (T.traced event).Run guard (s, event p.1 a s :: p.2) :=
  .step h hg ⟨hs, rfl⟩

end Traced

end TransitionSystem
