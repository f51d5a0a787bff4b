import Mathlib

-- A member of a group that shares a cell: it shows a copy of the cell, and is told of the changes
-- the others make in the order in which they make them.
structure Broadcast.Member (V : Type*) where
  shown : V
  inbox : List V

-- The group notes who changed the cell last, and which change was on its way to that member then.
@[ext]
structure Broadcast (ι V : Type*) where
  cell    : Option V
  member  : ι → Option (Broadcast.Member V)
  changed : Option (ι × Option V)

namespace Broadcast

namespace Member

variable {V : Type*}

-- What the member shows once it has been told of everything.
def settled (m : Member V) : V :=
  m.inbox.getLast?.getD m.shown

def set (x : V) (m : Member V) : Member V :=
  { m with shown := x }

def tell (x : V) (m : Member V) : Member V :=
  { m with inbox := m.inbox ++ [x] }

-- The member takes notice of the oldest change.
def told : Member V → Member V
  | { inbox := x :: inbox, .. } => { shown := x, inbox }
  | m                           => m

@[simp]
theorem settled_tell {x : V} {m : Member V} : (m.tell x).settled = x := by
  simp [settled, tell]

@[simp]
theorem settled_told {m : Member V} : m.told.settled = m.settled := by
  match m with
  | ⟨_, []⟩         => rfl
  | ⟨_, [_]⟩        => rfl
  | ⟨_, _ :: _ :: _⟩ => simp [settled, told, List.getLast?_eq_some_getLast]

theorem settled_set (x : V) (m : Member V) : (m.set x).settled = m.inbox.getLast?.getD x :=
  rfl

theorem set_comp_set (x y : V) : set x ∘ set y = set x :=
  rfl

theorem settled_of_quiet {m : Member V} (h : m.inbox = []) : m.settled = m.shown := by
  simp [settled, h]

end Member

variable {ι V : Type*} [DecidableEq ι]

def alter (i : ι) (f : Member V → Member V) (b : Broadcast ι V) : Broadcast ι V :=
  { b with member := Function.update b.member i ((b.member i).map f) }

-- A member changes the cell, and everyone else is told.
def publish (i : ι) (x : V) (b : Broadcast ι V) : Broadcast ι V where
  cell     := some x
  member j := (b.member j).map (if j = i then .set x else .tell x)
  changed  := some (i, (b.member i).bind fun m => m.inbox.getLast?)

-- A member writes what the cell holds already, so nobody is told.
def restate (i : ι) (x : V) (b : Broadcast ι V) : Broadcast ι V :=
  b.alter i (.set x)

def write [DecidableEq V] (i : ι) (x : V) (b : Broadcast ι V) : Broadcast ι V :=
  if b.cell = some x then b.restate i x else b.publish i x

def receive (i : ι) (b : Broadcast ι V) : Broadcast ι V :=
  b.alter i .told

def join (i : ι) (x : V) (b : Broadcast ι V) : Broadcast ι V :=
  { b with member := Function.update b.member i (some { shown := x, inbox := [] }) }

def leave (i : ι) (b : Broadcast ι V) : Broadcast ι V :=
  { b with member := Function.update b.member i none }

-- Every member settles at the cell, but for the one that changed it last while the change at which
-- it settles was on its way to it.
def Agrees (b : Broadcast ι V) : Prop :=
  ∀ x i m, b.cell = some x → b.member i = some m →
    m.settled = x ∨ b.changed = some (i, some m.settled)

variable {b : Broadcast ι V} {i j : ι} {x : V} {m : Member V} {f : Member V → Member V}

theorem restate_of_shown (h : b.member i = some m) : b.restate i m.shown = b := by
  rw [restate, alter, h]
  exact congrArg ({ b with member := · }) (Function.update_eq_self_iff.mpr h.symm)

theorem member_restate :
    (b.restate i x).member j = if j = i then (b.member j).map (.set x) else b.member j := by
  by_cases hj : j = i <;> simp [restate, alter, hj]

-- It makes no difference what the author showed before.
theorem write_restate [DecidableEq V] : (b.restate i x).write i x = b.write i x := by
  have hc : (b.restate i x).cell = b.cell := rfl
  rw [write, write, hc]
  split_ifs
  case pos =>
    ext1 <;> try rfl
    funext j
    by_cases hj : j = i <;> simp [member_restate, hj, Member.set_comp_set]
  case neg =>
    ext1
    case cell => rfl
    case member =>
      funext j
      by_cases hj : j = i <;> simp [publish, member_restate, hj, Member.set_comp_set]
    case changed => cases h : b.member i <;> simp [publish, member_restate, h, Member.set]

theorem member_alter (h : (b.alter i f).member j = some m) :
    ∃ m', b.member j = some m' ∧ m = if j = i then f m' else m' := by
  by_cases hj : j = i <;> simp_all [alter]
  case pos =>
    obtain ⟨m', hm, h⟩ := h
    exact ⟨m', hm, h.symm⟩

theorem member_publish (h : (b.publish i x).member j = some m) :
    ∃ m', b.member j = some m' ∧ m = if j = i then m'.set x else m'.tell x := by
  obtain ⟨m', hm, h⟩ := Option.map_eq_some_iff.mp h
  exact ⟨m', hm, by split_ifs at h ⊢ <;> exact h.symm⟩

omit [DecidableEq ι] in
theorem Agrees.of_empty (h : b.cell = none) : b.Agrees := by
  intro x i m hx
  exact nomatch h.symm.trans hx

theorem Agrees.publish : (b.publish i x).Agrees := by
  intro y j m hy hm
  obtain rfl : x = y := Option.some.inj hy
  obtain ⟨m', hm', rfl⟩ := member_publish hm
  by_cases h : j = i
  case neg => simp [h]
  case pos =>
    subst h
    rw [if_pos rfl, m'.settled_set]
    cases hl : m'.inbox.getLast? with
    | none   => exact .inl rfl
    | some z => exact .inr (by simp [Broadcast.publish, hm', hl])

-- The member either settles where it did, or at what it has written, which is the cell.
theorem Agrees.restate (h : b.Agrees) (hc : b.cell = some x) : (b.restate i x).Agrees := by
  intro y j m hy hm
  obtain rfl : x = y := Option.some.inj (hc.symm.trans hy)
  obtain ⟨m', hm', rfl⟩ := member_alter hm
  have hj := h x j m' hc hm'
  split_ifs
  case neg => exact hj
  case pos =>
    rw [m'.settled_set]
    cases hl : m'.inbox.getLast? with
    | none   => exact .inl rfl
    | some z =>
      rw [Member.settled, hl] at hj
      exact hj

theorem Agrees.write [DecidableEq V] (h : b.Agrees) : (b.write i x).Agrees := by
  rw [Broadcast.write]
  split_ifs with hc
  case pos => exact h.restate hc
  case neg => exact .publish

theorem Agrees.receive (h : b.Agrees) : (b.receive i).Agrees := by
  intro y j m hy hm
  obtain ⟨m', hm', rfl⟩ := member_alter hm
  have hj := h y j m' hy hm'
  split_ifs
  case neg => exact hj
  case pos => rwa [Member.settled_told]

theorem Agrees.join (h : b.Agrees) (hc : ∀ y, b.cell = some y → y = x) : (b.join i x).Agrees := by
  intro y j m hy hm
  by_cases hj : j = i
  case pos =>
    subst hj
    obtain rfl : _ = m := Option.some.inj (by simpa [Broadcast.join] using hm)
    exact .inl (hc y hy).symm
  case neg => exact h y j m hy (by simpa [Broadcast.join, hj] using hm)

theorem Agrees.leave (h : b.Agrees) : (b.leave i).Agrees := by
  intro y j m hy hm
  by_cases hj : j = i
  case pos => simp [Broadcast.leave, hj] at hm
  case neg => exact h y j m hy (by simpa [Broadcast.leave, hj] using hm)

end Broadcast
