import MallChain.Lib.Transition

-- Programs that take turns at one store, and a logic for what they do to it together.
namespace Interleaving

-- A program does one thing at once, goes on after what it found in the store, and may be interrupted
-- in between. The label says which step it is.
inductive Prog (ℓ σ α : Type)
  | done (a : α)
  | step (label : ℓ) (update : σ → σ) (next : σ → Prog ℓ σ α)

namespace Prog

variable {ℓ σ α β : Type}

def bind : Prog ℓ σ α → (α → Prog ℓ σ β) → Prog ℓ σ β
  | done a, f               => f a
  | step label update next, f => step label update fun s => (next s).bind f

instance : Monad (Prog ℓ σ) where
  pure := done
  bind := bind

-- A step that changes the store and answers with what it found.
def act (label : ℓ) (update : σ → σ) (answer : σ → α) : Prog ℓ σ α :=
  step label update fun s => done (answer s)

def read (label : ℓ) (answer : σ → α) : Prog ℓ σ α :=
  act label id answer

def write (label : ℓ) (update : σ → σ) : Prog ℓ σ Unit :=
  act label update fun _ => ()

def skip (label : ℓ) : Prog ℓ σ Unit :=
  write label id

def isDone : Prog ℓ σ α → Bool
  | done _     => true
  | step _ _ _ => false

@[simp]
theorem pure_eq {a : α} : (pure a : Prog ℓ σ α) = done a :=
  rfl

@[simp]
theorem done_bind {a : α} {f : α → Prog ℓ σ β} : (done a : Prog ℓ σ α) >>= f = f a :=
  rfl

@[simp]
theorem step_bind {label : ℓ} {update : σ → σ} {next : σ → Prog ℓ σ α} {f : α → Prog ℓ σ β} :
    step label update next >>= f = step label update fun s => next s >>= f :=
  rfl

@[simp]
theorem act_bind {label : ℓ} {update : σ → σ} {answer : σ → α} {f : α → Prog ℓ σ β} :
    act label update answer >>= f = step label update fun s => f (answer s) :=
  rfl

@[simp]
theorem read_bind {label : ℓ} {answer : σ → α} {f : α → Prog ℓ σ β} :
    read label answer >>= f = step label id fun s => f (answer s) :=
  rfl

@[simp]
theorem write_bind {label : ℓ} {update : σ → σ} {f : Unit → Prog ℓ σ β} :
    write label update >>= f = step label update fun _ => f () :=
  rfl

@[simp]
theorem skip_bind {label : ℓ} {f : Unit → Prog ℓ σ β} :
    skip label >>= f = step label id fun _ => f () :=
  rfl

-- What a program answers and leaves that nothing interrupts.
def alone : Prog ℓ σ α → σ → α × σ
  | done a, s               => (a, s)
  | step _ update next, s => (next s).alone (update s)

@[simp]
theorem alone_done {a : α} {s : σ} : (done a : Prog ℓ σ α).alone s = (a, s) :=
  rfl

@[simp]
theorem alone_step {label : ℓ} {update : σ → σ} {next : σ → Prog ℓ σ α} {s : σ} :
    (step label update next).alone s = (next s).alone (update s) :=
  rfl

@[simp]
theorem alone_write {label : ℓ} {update : σ → σ} {s : σ} :
    (write label update).alone s = ((), update s) :=
  rfl

theorem alone_bind {p : Prog ℓ σ α} {f : α → Prog ℓ σ β} {s : σ} :
    (p >>= f).alone s = (f (p.alone s).1).alone (p.alone s).2 := by
  induction p generalizing s with
  | done a => rfl
  | step label update next ih => exact ih s

-- Every step that the program can come to is one of these.
def Steps (P : ℓ → (σ → σ) → Prop) : Prog ℓ σ α → Prop
  | done _                 => True
  | step label update next => P label update ∧ ∀ s, (next s).Steps P

section Steps

variable {P : ℓ → (σ → σ) → Prop} {label : ℓ} {update : σ → σ} {answer : σ → α} {f : α → Prog ℓ σ β}

theorem Steps.mono {Q : ℓ → (σ → σ) → Prop} (h : ∀ {label update}, P label update → Q label update)
    {p : Prog ℓ σ α} (hp : p.Steps P) : p.Steps Q := by
  induction p with
  | done _ => trivial
  | step label update next ih => exact ⟨h hp.1, fun s => ih s (hp.2 s)⟩

theorem Steps.bind {p : Prog ℓ σ α} (hp : p.Steps P) (hf : ∀ a, (f a).Steps P) :
    (p >>= f).Steps P := by
  induction p with
  | done a => exact hf a
  | step label update next ih => exact ⟨hp.1, fun s => ih s (hp.2 s)⟩

theorem Steps.ite {c : Prop} [Decidable c] {p q : Prog ℓ σ α} (hp : c → p.Steps P)
    (hq : ¬c → q.Steps P) : (if c then p else q).Steps P := by
  split
  case isTrue hc => exact hp hc
  case isFalse hc => exact hq hc

theorem Steps.act (h : P label update) : (Prog.act label update answer).Steps P :=
  ⟨h, fun _ => trivial⟩

theorem Steps.act_bind (h : P label update) (hf : ∀ s, (f (answer s)).Steps P) :
    (Prog.act label update answer >>= f).Steps P :=
  ⟨h, hf⟩

theorem Steps.read (h : P label id) : (Prog.read label answer).Steps P :=
  Steps.act h

theorem Steps.write (h : P label update) : (Prog.write label update).Steps P :=
  Steps.act h

theorem Steps.skip (h : P label id) : (Prog.skip label : Prog ℓ σ Unit).Steps P :=
  Steps.act h

-- What all steps preserve holds when the program has run alone.
theorem Steps.alone {I : σ → Prop} {p : Prog ℓ σ α} (hp : p.Steps P)
    (h : ∀ label update s, P label update → I s → I (update s)) {s : σ} (hs : I s) :
    I (p.alone s).2 := by
  induction p generalizing s with
  | done a => exact hs
  | step label update next ih => exact ih s (hp.2 s) (h label update s hp.1 hs)

end Steps

-- Whatever it finds, the program does such a step before it is done.
def Takes (P : (σ → σ) → Prop) : Prog ℓ σ α → Prop
  | done _             => False
  | step _ update next => P update ∨ ∀ s, (next s).Takes P

section Takes

variable {P : (σ → σ) → Prop} {label : ℓ} {update : σ → σ} {f : α → Prog ℓ σ β}

theorem Takes.write (h : P update) : (Prog.write label update).Takes P :=
  .inl h

theorem Takes.ite {c : Prop} [Decidable c] {p q : Prog ℓ σ α} (hp : c → p.Takes P)
    (hq : ¬c → q.Takes P) : (if c then p else q).Takes P := by
  split
  case isTrue hc => exact hp hc
  case isFalse hc => exact hq hc

theorem Takes.bind {p : Prog ℓ σ α} (hf : ∀ a, (f a).Takes P) : (p >>= f).Takes P := by
  induction p with
  | done a => exact hf a
  | step label update next ih => exact .inr ih

end Takes

end Prog

-- The store with the programs that were started. One that is done stays in its place.
structure Pool (ℓ σ : Type) where
  store   : σ
  running : List (Prog ℓ σ Unit)

inductive Action (ρ : Type)
  | start (request : ρ)
  | run (i : ℕ)
  deriving DecidableEq, Repr

-- Requests that are served one after another, in at most so many steps each.
def inTurn {ρ : Type} (steps : ℕ) (requests : List ρ) : List (Action ρ) :=
  requests.zipIdx.flatMap fun (request, i) => .start request :: List.replicate steps (.run i)

namespace Pool

variable {ℓ σ ρ : Type} (handler : ρ → Prog ℓ σ Unit) (p : Pool ℓ σ)

def exec : Action ρ → Pool ℓ σ
  | .start request => { p with running := p.running ++ [handler request] }
  | .run i =>
    match p.running[i]? with
    | some (.step _ update next) =>
      { store := update p.store, running := p.running.set i (next p.store) }
    | _ => p

def isIdle : Bool :=
  p.running.all Prog.isDone

-- The step that is taken meets a condition on the store.
def Meets (guard : ℓ → σ → Prop) : Action ρ → Prop
  | .start _ => True
  | .run i   =>
    match p.running[i]? with
    | some (.step label _ _) => guard label p.store
    | _                      => True

instance decidableMeets {guard : ℓ → σ → Prop} [∀ label s, Decidable (guard label s)] :
    (a : Action ρ) → Decidable (p.Meets guard a)
  | .start _ => .isTrue trivial
  | .run i   =>
    match h : p.running[i]? with
    | some (.step label _ _) => decidable_of_iff (guard label p.store) (by simp [Meets, h])
    | some (.done _)         => .isTrue (by simp [Meets, h])
    | none                   => .isTrue (by simp [Meets, h])

def execs (actions : List (Action ρ)) : Pool ℓ σ :=
  actions.foldl (exec handler) p

-- All steps of a list of actions meet the condition.
def MeetsAll (guard : ℓ → σ → Prop) : Pool ℓ σ → List (Action ρ) → Prop
  | _, []           => True
  | p, a :: actions => p.Meets guard a ∧ MeetsAll guard (p.exec handler a) actions

instance decidableMeetsAll {guard : ℓ → σ → Prop} [∀ label s, Decidable (guard label s)] :
    (p : Pool ℓ σ) → (actions : List (Action ρ)) → Decidable (p.MeetsAll handler guard actions)
  | _, []           => inferInstanceAs (Decidable True)
  | p, a :: actions =>
    @instDecidableAnd _ _ (decidableMeets p a) (decidableMeetsAll (p.exec handler a) actions)

-- All steps of a list of actions are taken under a condition on the pool.
def Along (condition : Pool ℓ σ → Action ρ → Prop) : Pool ℓ σ → List (Action ρ) → Prop
  | _, []           => True
  | p, a :: actions => condition p a ∧ Along condition (p.exec handler a) actions

instance decidableAlong {condition : Pool ℓ σ → Action ρ → Prop} [∀ p a, Decidable (condition p a)] :
    (p : Pool ℓ σ) → (actions : List (Action ρ)) → Decidable (p.Along handler condition actions)
  | _, []           => inferInstanceAs (Decidable True)
  | p, a :: actions =>
    @instDecidableAnd _ _ inferInstance (decidableAlong (p.exec handler a) actions)

theorem execs_append {l l' : List (Action ρ)} :
    p.execs handler (l ++ l') = (p.execs handler l).execs handler l' :=
  List.foldl_append

variable {handler p}

theorem meetsAll_append {guard : ℓ → σ → Prop} {l l' : List (Action ρ)} :
    p.MeetsAll handler guard (l ++ l') ↔
      p.MeetsAll handler guard l ∧ (p.execs handler l).MeetsAll handler guard l' := by
  induction l generalizing p with
  | nil => simp [MeetsAll, execs]
  | cons a l ih => simp only [List.cons_append, MeetsAll, ih, execs, List.foldl_cons, and_assoc]

end Pool

variable {ℓ σ ρ : Type}

def system (init : σ → Prop) (handler : ρ → Prog ℓ σ Unit) :
    TransitionSystem (Pool ℓ σ) (Action ρ) where
  init p     := init p.store ∧ p.running = []
  step p a q := q = p.exec handler a

section Runs

variable {init : σ → Prop} {handler : ρ → Prog ℓ σ Unit} {guard : ℓ → σ → Prop} {p : Pool ℓ σ} {s : σ}

theorem run_execs {actions : List (Action ρ)}
    (hp : (system init handler).Run (fun p a => p.Meets guard a) p)
    (ha : p.MeetsAll handler guard actions) :
    (system init handler).Run (fun p a => p.Meets guard a) (p.execs handler actions) := by
  induction actions generalizing p with
  | nil => exact hp
  | cons a actions ih => exact ih (.step hp ha.1 rfl) ha.2

theorem run_from {actions : List (Action ρ)} (hs : init s)
    (ha : Pool.MeetsAll handler guard { store := s, running := [] } actions) :
    (system init handler).Run (fun p a => p.Meets guard a)
      (Pool.execs handler { store := s, running := [] } actions) :=
  run_execs (.init ⟨hs, rfl⟩) ha

theorem run_along {condition : Pool ℓ σ → Action ρ → Prop} {actions : List (Action ρ)}
    (hp : (system init handler).Run condition p) (ha : p.Along handler condition actions) :
    (system init handler).Run condition (p.execs handler actions) := by
  induction actions generalizing p with
  | nil => exact hp
  | cons a actions ih => exact ih (.step hp ha.1 rfl) ha.2

theorem reachable_execs {actions : List (Action ρ)} (hp : (system init handler).Reachable p) :
    (system init handler).Reachable (p.execs handler actions) := by
  induction actions generalizing p with
  | nil => exact hp
  | cons a actions ih => exact ih (.step hp trivial rfl)

-- A program that nothing interrupts is run to its end in the pool.
theorem exists_execs_alone {i : ℕ} {q : Prog ℓ σ Unit} (hi : p.running[i]? = some q) :
    ∃ n, p.execs handler (List.replicate n (.run i)) =
      { store := (q.alone p.store).2, running := p.running.set i (.done ()) } := by
  obtain ⟨hlt, hq⟩ := List.getElem?_eq_some_iff.mp hi
  induction q generalizing p with
  | done a =>
    refine ⟨0, ?_⟩
    have hset : p.running.set i (.done ()) = p.running := by
      rw [← hq]
      exact List.set_getElem_self hlt
    rw [hset]
    rfl
  | step label update next ih =>
    have hexec : p.exec handler (.run i) =
        { store := update p.store, running := p.running.set i (next p.store) } := by
      simp only [Pool.exec, hi]
    have hlt' : i < (p.running.set i (next p.store)).length := by rwa [List.length_set]
    obtain ⟨n, hn⟩ := ih p.store
      (p := { store := update p.store, running := p.running.set i (next p.store) })
      (by simp [hlt]) hlt' (by simp)
    refine ⟨n + 1, ?_⟩
    rw [List.replicate_succ, Pool.execs, List.foldl_cons, hexec]
    rw [Pool.execs] at hn
    rw [hn, List.set_set]
    rfl

theorem reachable_from {actions : List (Action ρ)} (hs : init s) :
    (system init handler).Reachable (Pool.execs handler { store := s, running := [] } actions) :=
  reachable_execs (.init ⟨hs, rfl⟩)

variable {P : ℓ → (σ → σ) → Prop} {condition : Pool ℓ σ → Action ρ → Prop} {a : Action ρ}

theorem exec_running (hr : ∀ request, a = .start request → (handler request).Steps P)
    (h : ∀ q ∈ p.running, q.Steps P) : ∀ q ∈ (p.exec handler a).running, q.Steps P := by
  intro q hq
  cases a with
  | start request =>
    cases List.mem_append.mp hq with
    | inl hq => exact h q hq
    | inr hq =>
      rw [List.mem_singleton.mp hq]
      exact hr request rfl
  | run i =>
    rw [Pool.exec] at hq
    split at hq
    case h_1 label update next hi =>
      cases List.mem_or_eq_of_mem_set hq with
      | inl hq => exact h q hq
      | inr hq =>
        rw [hq]
        exact (h _ (List.mem_of_getElem? hi)).2 p.store
    case h_2 => exact h q hq

-- In a run that starts only programs of such steps, only such programs are under way.
theorem Run.steps
    (hr : ∀ p request, condition p (.start request) → (handler request).Steps P) {p : Pool ℓ σ} :
    (system init handler).Run condition p → ∀ q ∈ p.running, q.Steps P
  | .init hi => by simp [hi.2]
  | .step (s := p₀) hp hc hs => by
    rw [hs]
    apply exec_running _ (Run.steps hr hp)
    intro request ha
    exact hr p₀ request (ha ▸ hc)

-- The store is left as it is, or changed by one of these steps.
theorem exec_store (h : ∀ q ∈ p.running, q.Steps P) :
    (p.exec handler a).store = p.store ∨
      ∃ label update, P label update ∧ (p.exec handler a).store = update p.store := by
  cases a with
  | start request => exact .inl rfl
  | run i =>
    rw [Pool.exec]
    split
    case h_1 label update next hi => exact .inr ⟨label, update, (h _ (List.mem_of_getElem? hi)).1, rfl⟩
    case h_2 => exact .inl rfl

end Runs

section Awaits

variable {handler : ρ → Prog ℓ σ Unit} {p : Pool ℓ σ} {K : σ → Prop} {a : Action ρ}

-- The fact is there, or a program under way will establish it.
def Pool.Awaits (K : σ → Prop) (p : Pool ℓ σ) : Prop :=
  K p.store ∨ ∃ (i : ℕ) (q : Prog ℓ σ Unit), p.running[i]? = some q ∧
    q.Takes fun update => ∀ s, K (update s)

theorem Pool.Awaits.start {request : ρ} (h : (handler request).Takes fun update => ∀ s, K (update s)) :
    (p.exec handler (.start request)).Awaits K :=
  .inr ⟨p.running.length, handler request, by simp [Pool.exec], h⟩

theorem Pool.Awaits.exec (h : p.Awaits K) (hK : K p.store → K (p.exec handler a).store) :
    (p.exec handler a).Awaits K := by
  rcases h with h | ⟨i, q, hi, hq⟩
  case inl => exact .inl (hK h)
  case inr =>
    obtain ⟨hlt, _⟩ := List.getElem?_eq_some_iff.mp hi
    cases a with
    | start request =>
      refine .inr ⟨i, q, ?_, hq⟩
      rw [Pool.exec, List.getElem?_append_left hlt]
      exact hi
    | run j =>
      rw [Pool.exec]
      split
      case h_2 => exact .inr ⟨i, q, hi, hq⟩
      case h_1 label update next hj =>
        by_cases hij : j = i
        case neg => exact .inr ⟨i, q, (List.getElem?_set_ne hij).trans hi, hq⟩
        case pos =>
          subst hij
          cases hj.symm.trans hi
          cases hq with
          | inl hupdate => exact .inl (hupdate p.store)
          | inr hnext => exact .inr ⟨j, _, by simp [hlt], hnext p.store⟩

theorem Pool.Awaits.of_isIdle (h : p.Awaits K) (hi : p.isIdle = true) : K p.store := by
  rcases h with h | ⟨i, q, hget, hq⟩
  case inl => exact h
  case inr =>
    have hdone := List.all_eq_true.mp hi q (List.mem_of_getElem? hget)
    cases q with
    | done a => cases hq
    | step label update next => cases hdone

end Awaits

-- What programs may rely on. The invariant is about the store and what all programs own together,
-- whatever one program finds only grows under the steps of the others, and each step meets the guard.
structure Contract (ℓ σ γ : Type) where
  invariant : σ → γ → Prop
  grows     : σ → σ → Prop
  guard     : ℓ → σ → Prop
  refl      : ∀ s, grows s s
  trans     : ∀ {s₁ s₂ s₃}, grows s₁ s₂ → grows s₂ s₃ → grows s₁ s₃

namespace Contract

variable {γ α β : Type} [AddCommMonoid γ] (C : Contract ℓ σ γ)

-- The program keeps the contract from a store that it has seen on, with what it owns.
def Safe (post : α → σ → γ → Prop) : Prog ℓ σ α → σ → γ → Prop
  | .done a, s, own => post a s own
  | .step label update next, s, own =>
    ∀ s', C.grows s s' → ∀ others, C.invariant s' (own + others) → C.guard label s' →
      ∃ own', C.invariant (update s') (own' + others) ∧ C.grows s' (update s') ∧
        Safe post (next s') (update s') own'

-- A handler owns nothing when it is done.
def Handles (p : Prog ℓ σ Unit) (s : σ) (own : γ) : Prop :=
  C.Safe (fun _ _ own => own = 0) p s own

variable {C} {post : α → σ → γ → Prop} {post' : β → σ → γ → Prop} {s s' : σ} {own : γ}

theorem Safe.mono {p : Prog ℓ σ α} (hp : ∀ {a s s' own}, C.grows s s' → post a s own → post a s' own)
    (hs : C.grows s s') (h : C.Safe post p s own) : C.Safe post p s' own := by
  cases p with
  | done a => exact hp hs h
  | step label update next => exact fun s'' hs' => h s'' (C.trans hs hs')

theorem Handles.mono {p : Prog ℓ σ Unit} (hs : C.grows s s') (h : C.Handles p s own) :
    C.Handles p s' own :=
  Safe.mono (fun _ h => h) hs h

theorem Safe.bind {p : Prog ℓ σ α} {f : α → Prog ℓ σ β}
    (h : C.Safe (fun a => C.Safe post' (f a)) p s own) : C.Safe post' (p >>= f) s own := by
  induction p generalizing s own with
  | done a => exact h
  | step label update next ih =>
    intro s' hs others hI hg
    obtain ⟨own', hI', hs', hn⟩ := h s' hs others hI hg
    exact ⟨own', hI', hs', ih s' hn⟩

theorem Safe.imp {post' : α → σ → γ → Prop} {p : Prog ℓ σ α} (h : C.Safe post p s own)
    (hp : ∀ {a s own}, post a s own → post' a s own) : C.Safe post' p s own := by
  induction p generalizing s own with
  | done a => exact hp h
  | step label update next ih =>
    intro s' hs others hI hg
    obtain ⟨own', hI', hs', hn⟩ := h s' hs others hI hg
    exact ⟨own', hI', hs', ih s' hn⟩

-- A step that does not change the store.
theorem Safe.read {label : ℓ} {answer : σ → α} {f : α → Prog ℓ σ β}
    (h : ∀ s', C.grows s s' → C.guard label s' → C.Safe post' (f (answer s')) s' own) :
    C.Safe post' (.read label answer >>= f) s own :=
  fun s' hs _ hI hg => ⟨own, hI, C.refl s', h s' hs hg⟩

-- A step that looks at a store of which the invariant holds.
theorem Safe.look {label : ℓ} {answer : σ → α} {f : α → Prog ℓ σ β}
    (h : ∀ s', C.grows s s' → C.guard label s' → ∀ others, C.invariant s' (own + others) →
      C.Safe post' (f (answer s')) s' own) :
    C.Safe post' (.read label answer >>= f) s own :=
  fun s' hs others hI hg => ⟨own, hI, C.refl s', h s' hs hg others hI⟩

theorem Safe.skip {label : ℓ} {f : Unit → Prog ℓ σ β}
    (h : ∀ s', C.grows s s' → C.guard label s' → C.Safe post' (f ()) s' own) :
    C.Safe post' (.skip label >>= f) s own :=
  fun s' hs _ hI hg => ⟨own, hI, C.refl s', h s' hs hg⟩

-- A step that may change the store, and what the program owns.
theorem Safe.act {label : ℓ} {update : σ → σ} {answer : σ → α} {f : α → Prog ℓ σ β}
    (h : ∀ s', C.grows s s' → C.guard label s' → ∀ others, C.invariant s' (own + others) →
      ∃ own', C.invariant (update s') (own' + others) ∧ C.grows s' (update s') ∧
        C.Safe post' (f (answer s')) (update s') own') :
    C.Safe post' (.act label update answer >>= f) s own :=
  fun s' hs others hI hg => h s' hs hg others hI

theorem Safe.write {label : ℓ} {update : σ → σ} {f : Unit → Prog ℓ σ β}
    (h : ∀ s', C.grows s s' → C.guard label s' → ∀ others, C.invariant s' (own + others) →
      ∃ own', C.invariant (update s') (own' + others) ∧ C.grows s' (update s') ∧
        C.Safe post' (f ()) (update s') own') :
    C.Safe post' (.write label update >>= f) s own :=
  fun s' hs others hI hg => h s' hs hg others hI

theorem Safe.ite {c : Prop} [Decidable c] {p q : Prog ℓ σ α} (hp : c → C.Safe post p s own)
    (hq : ¬c → C.Safe post q s own) : C.Safe post (if c then p else q) s own := by
  split
  case isTrue hc => exact hp hc
  case isFalse hc => exact hq hc

-- The last step of a handler.
theorem Handles.write {label : ℓ} {update : σ → σ}
    (h : ∀ s', C.grows s s' → C.guard label s' → ∀ others, C.invariant s' (own + others) →
      C.invariant (update s') others ∧ C.grows s' (update s')) :
    C.Handles (.write label update) s own := by
  intro s' hs others hI hg
  obtain ⟨hI', hs'⟩ := h s' hs hg others hI
  exact ⟨0, by rwa [zero_add], hs', rfl⟩

theorem Handles.done {s : σ} : C.Handles (.done ()) s 0 :=
  rfl

-- A program whose steps keep the invariant, whatever it has found before.
theorem Safe.of_steps {P : ℓ → (σ → σ) → Prop} {p : Prog ℓ σ α} (hp : p.Steps P)
    (h : ∀ label update s own, P label update → C.guard label s → C.invariant s own →
      C.invariant (update s) own ∧ C.grows s (update s)) :
    C.Safe (fun _ _ own' => own' = own) p s own := by
  induction p generalizing s with
  | done _ => rfl
  | step label update next ih =>
    intro s' _ others hI hg
    obtain ⟨hI', hs'⟩ := h label update s' _ hp.1 hg hI
    exact ⟨own, hI', hs', ih s' (hp.2 s')⟩

theorem Safe.bind_steps {P : ℓ → (σ → σ) → Prop} {p : Prog ℓ σ α} {f : α → Prog ℓ σ β}
    (hp : p.Steps P)
    (h : ∀ label update s own, P label update → C.guard label s → C.invariant s own →
      C.invariant (update s) own ∧ C.grows s (update s))
    (hf : ∀ a s', C.grows s s' → C.Safe post' (f a) s' own) : C.Safe post' (p >>= f) s own := by
  induction p generalizing s with
  | done a => exact hf a s (C.refl s)
  | step label update next ih =>
    intro s' hs others hI hg
    obtain ⟨hI', hs'⟩ := h label update s' _ hp.1 hg hI
    exact ⟨own, hI', hs', ih s' (hp.2 s') fun a s'' hs'' => hf a s'' (C.trans (C.trans hs hs') hs'')⟩

theorem Handles.of_steps {P : ℓ → (σ → σ) → Prop} {p : Prog ℓ σ Unit} (hp : p.Steps P)
    (h : ∀ label update s own, P label update → C.guard label s → C.invariant s own →
      C.invariant (update s) own ∧ C.grows s (update s)) : C.Handles p s 0 :=
  Safe.of_steps hp h

-- What a program leaves that nothing interrupts, where every step is allowed.
theorem Safe.alone {p : Prog ℓ σ α} {others : γ} (h : C.Safe post p s own)
    (hI : C.invariant s (own + others)) (hg : ∀ label s, C.guard label s) :
    ∃ own', C.invariant (p.alone s).2 (own' + others) ∧ post (p.alone s).1 (p.alone s).2 own' := by
  induction p generalizing s own with
  | done a => exact ⟨own, hI, h⟩
  | step label update next ih =>
    obtain ⟨own', hI', _, hn⟩ := h s (C.refl s) others hI (hg label s)
    exact ih s hn hI'

-- A step that keeps the contract, whatever is owned.
def Keeps (C : Contract ℓ σ γ) (label : ℓ) (update : σ → σ) : Prop :=
  ∀ s own, C.guard label s → C.invariant s own → C.invariant (update s) own ∧ C.grows s (update s)

theorem Handles.of_keeps {p : Prog ℓ σ Unit} (hp : p.Steps C.Keeps) : C.Handles p s 0 :=
  Handles.of_steps hp fun _ _ s own h hg hI => h s own hg hI

theorem Safe.bind_keeps {p : Prog ℓ σ α} {f : α → Prog ℓ σ β} (hp : p.Steps C.Keeps)
    (hf : ∀ a s', C.grows s s' → C.Safe post' (f a) s' own) : C.Safe post' (p >>= f) s own :=
  Safe.bind_steps hp (fun _ _ s own h hg hI => h s own hg hI) hf

-- A step that keeps the contract where a fact is known that stays.
def KeepsWhere (C : Contract ℓ σ γ) (K : σ → Prop) (label : ℓ) (update : σ → σ) : Prop :=
  ∀ s own, K s → C.guard label s → C.invariant s own →
    C.invariant (update s) own ∧ C.grows s (update s)

theorem Safe.of_keepsWhere {K : σ → Prop} {p : Prog ℓ σ α} (hK : ∀ {s s'}, C.grows s s' → K s → K s')
    (hp : p.Steps (C.KeepsWhere K)) (hs : K s) :
    C.Safe (fun _ s own' => own' = own ∧ K s) p s own := by
  induction p generalizing s with
  | done _ => exact ⟨rfl, hs⟩
  | step label update next ih =>
    intro s' hgrows others hI hg
    have hs' := hK hgrows hs
    obtain ⟨hI', hgrows'⟩ := hp.1 s' _ hs' hg hI
    exact ⟨own, hI', hgrows', ih s' (hp.2 s') (hK hgrows' hs')⟩

-- A fact that stays is known after a program as it was before.
theorem Safe.frame {K : σ → Prop} {p : Prog ℓ σ α} (h : C.Safe post p s own)
    (hK : ∀ {s s'}, C.grows s s' → K s → K s') (hs : K s) :
    C.Safe (fun a s own => post a s own ∧ K s) p s own := by
  induction p generalizing s own with
  | done a => exact ⟨h, hs⟩
  | step label update next ih =>
    intro s' hgrows others hI hg
    obtain ⟨own', hI', hgrows', hn⟩ := h s' hgrows others hI hg
    exact ⟨own', hI', hgrows', ih s' hn (hK hgrows' (hK hgrows hs))⟩

-- The programs of a pool keep the contract, each with what it owns.
structure Holds (C : Contract ℓ σ γ) (p : Pool ℓ σ) (owned : ℕ → γ) : Prop where
  safe : ∀ i q, p.running[i]? = some q → C.Handles q p.store (owned i)
  invariant : C.invariant p.store (∑ i ∈ Finset.range p.running.length, owned i)

variable {init : σ → Prop} {handler : ρ → Prog ℓ σ Unit} {p : Pool ℓ σ} {owned : ℕ → γ}

theorem Holds.start {request : ρ} (h : C.Holds p owned) (hr : ∀ s, C.Handles (handler request) s 0) :
    C.Holds (p.exec handler (.start request)) (Function.update owned p.running.length 0) where
  safe := by
    intro i q hi
    rw [Pool.exec, List.getElem?_append] at hi
    split_ifs at hi with hlt
    case pos =>
      rw [Function.update_of_ne hlt.ne]
      exact h.safe i q hi
    case neg =>
      obtain ⟨hz, hq⟩ := List.getElem?_eq_some_iff.mp hi
      have hi : i = p.running.length := by
        simp only [List.length_singleton] at hz
        omega
      subst hi
      simp only [Nat.sub_self, List.getElem_cons_zero] at hq
      rw [Function.update_self, ← hq]
      exact hr _
  invariant := by
    rw [Pool.exec, List.length_append, List.length_singleton, Finset.sum_range_succ,
      Function.update_self, add_zero, Finset.sum_update_of_notMem (by simp)]
    exact h.invariant

theorem Holds.run {i : ℕ} {label : ℓ} {update : σ → σ} {next : σ → Prog ℓ σ Unit}
    (h : C.Holds p owned) (hi : p.running[i]? = some (.step label update next))
    (hg : C.guard label p.store) :
    C.grows p.store (update p.store) ∧
      ∃ own, C.Holds { store := update p.store, running := p.running.set i (next p.store) }
        (Function.update owned i own) := by
  obtain ⟨hlt, _⟩ := List.getElem?_eq_some_iff.mp hi
  have hmem : i ∈ Finset.range p.running.length := Finset.mem_range.mpr hlt
  have hI := h.invariant
  rw [← Finset.add_sum_erase _ _ hmem] at hI
  obtain ⟨own, hI', hgrows, hsafe⟩ := h.safe i _ hi p.store (C.refl _) _ hI hg
  refine ⟨hgrows, own, { safe := ?safe, invariant := ?invariant }⟩
  case safe =>
    intro j q hj
    rw [List.getElem?_set] at hj
    split_ifs at hj with hij
    case pos =>
      subst hij
      cases hj
      rw [Function.update_self]
      exact hsafe
    case neg =>
      rw [Function.update_of_ne (Ne.symm hij)]
      exact (h.safe j q hj).mono hgrows
  case invariant =>
    rw [List.length_set, Finset.sum_update_of_mem hmem, ← Finset.erase_eq]
    exact hI'

theorem Holds.exec {a : Action ρ} (h : C.Holds p owned)
    (hr : ∀ request, a = .start request → ∀ s, C.Handles (handler request) s 0)
    (hm : p.Meets C.guard a) :
    C.grows p.store (p.exec handler a).store ∧ ∃ owned', C.Holds (p.exec handler a) owned' := by
  cases a with
  | start request => exact ⟨C.refl p.store, _, h.start (hr request rfl)⟩
  | run i =>
    rw [Pool.exec]
    split
    case h_1 label update next hi =>
      rw [Pool.Meets, hi] at hm
      obtain ⟨hgrows, own, h⟩ := h.run hi hm
      exact ⟨hgrows, _, h⟩
    case h_2 => exact ⟨C.refl p.store, owned, h⟩

-- Handlers that keep the contract keep it together, in every order of their steps. The requests may be
-- limited.
theorem invariant_of_requests {condition : Pool ℓ σ → Action ρ → Prop}
    (hinit : ∀ s, init s → C.invariant s 0) (hg : ∀ p a, condition p a → p.Meets C.guard a)
    (hr : ∀ p request, condition p (.start request) → ∀ s, C.Handles (handler request) s 0) :
    (system init handler).Invariant condition fun p => ∃ owned, C.Holds p owned where
  init := by
    intro p h
    obtain ⟨hi, hp⟩ := h
    refine ⟨fun _ => 0, { safe := ?safe, invariant := ?invariant }⟩
    case safe => simp [hp]
    case invariant =>
      rw [hp]
      exact hinit _ hi
  step := by
    intro p a q h hc hs
    obtain ⟨owned, h⟩ := h
    cases hs
    refine (h.exec (fun request ha => ?_) (hg p a hc)).2
    exact hr p request (ha ▸ hc)

theorem invariant_of_handles (hinit : ∀ s, init s → C.invariant s 0)
    (hr : ∀ request s, C.Handles (handler request) s 0) :
    (system init handler).Invariant (fun p a => p.Meets C.guard a)
      fun p => ∃ owned, C.Holds p owned :=
  invariant_of_requests hinit (fun _ _ h => h) fun _ request _ => hr request

theorem Holds.execs {actions : List (Action ρ)} (h : C.Holds p owned)
    (hr : ∀ request s, C.Handles (handler request) s 0) (hm : p.MeetsAll handler C.guard actions) :
    ∃ owned', C.Holds (p.execs handler actions) owned' := by
  induction actions generalizing p owned with
  | nil => exact ⟨owned, h⟩
  | cons a actions ih =>
    obtain ⟨_, owned', h'⟩ := h.exec (fun request _ => hr request) hm.1
    exact ih h' hm.2

-- Under the contract, a fact that stays is established by every request whose program takes such a step.
theorem Holds.awaits {K : σ → Prop} {actions : List (Action ρ)} (h : C.Holds p owned)
    (hr : ∀ request s, C.Handles (handler request) s 0) (hK : ∀ {s s'}, C.grows s s' → K s → K s')
    (hm : p.MeetsAll handler C.guard actions)
    (ha : p.Awaits K ∨ ∃ request, .start request ∈ actions ∧
      (handler request).Takes fun update => ∀ s, K (update s)) :
    (p.execs handler actions).Awaits K := by
  induction actions generalizing p owned with
  | nil => exact ha.resolve_right (by simp)
  | cons a actions ih =>
    obtain ⟨hgrows, owned', h'⟩ := h.exec (fun request _ => hr request) hm.1
    refine ih h' hm.2 ?_
    rcases ha with ha | ⟨request, hmem, htakes⟩
    case inl => exact .inl (ha.exec fun hs => hK hgrows hs)
    case inr =>
      cases List.mem_cons.mp hmem with
      | inl heq => exact .inl (heq ▸ .start htakes)
      | inr hmem => exact .inr ⟨request, hmem, htakes⟩

-- When all programs are done, nothing is owned.
theorem Holds.of_isIdle (h : C.Holds p owned) (hi : p.isIdle = true) : C.invariant p.store 0 := by
  have hz : ∑ i ∈ Finset.range p.running.length, owned i = 0 := by
    apply Finset.sum_eq_zero
    intro i hmem
    have hlt := Finset.mem_range.mp hmem
    have hd := List.all_eq_true.mp hi _ (List.getElem_mem hlt)
    have hs := h.safe i _ (List.getElem?_eq_getElem hlt)
    cases hp : p.running[i] with
    | done a =>
      rw [hp] at hs
      exact hs
    | step label update next =>
      rw [hp] at hd
      cases hd
  rw [← hz]
  exact h.invariant

end Contract

end Interleaving
