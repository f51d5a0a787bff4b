import Mathlib

-- A document that a program has read from a store, changes in its memory and saves field by field.
structure Document (α : Type*) where
  loaded  : α
  current : α

namespace Document

variable {α β : Type*} (d : Document α)

def read (s : α) : Document α where
  loaded  := s
  current := s

def modify (f : α → α) : Document α :=
  { d with current := f d.current }

-- The document after it has been saved.
def saved : Document α where
  loaded  := d.current
  current := d.current

-- A field is written if it has another value than the one that was read.
def written [DecidableEq β] (field : α → β) (stored : α) : β :=
  if field d.current = field d.loaded then field stored else field d.current

-- What was added at the end of a list is added to the list in the store.
def pushed (field : α → List β) (stored : α) : List β :=
  field stored ++ (field d.current).drop (field d.loaded).length

variable {d} [DecidableEq β] {field : α → β} {stored : α}

theorem written_stored (h : field d.current = field d.loaded) : d.written field stored = field stored :=
  if_pos h

theorem written_current (h : field d.current ≠ field d.loaded) :
    d.written field stored = field d.current :=
  if_neg h

theorem written_or (d : Document α) (field : α → β) (stored : α) : d.written field stored = field stored ∨ d.written field stored = field d.current := by
  rw [written]
  split_ifs
  case pos => exact .inl rfl
  case neg => exact .inr rfl

-- Nobody has changed the field in the meantime.
theorem written_of_eq (h : field stored = field d.loaded) :
    d.written field stored = field d.current := by
  rw [written]
  split_ifs with heq
  case pos => rw [h, heq]
  case neg => rfl

end Document
