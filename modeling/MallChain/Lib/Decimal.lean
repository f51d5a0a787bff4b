import Mathlib

-- Numbers in decimal notation.
namespace Decimal

variable {n m : ℕ} {c : Char} {cs : List Char}

def digits (n : ℕ) : List Char :=
  Nat.toDigits 10 n

theorem toList_toString : (toString n).toList = digits n := by
  simp [toString, digits]

theorem digits_injective : Function.Injective digits := by
  intro n m h
  have h : Nat.toDigits 10 n = Nat.toDigits 10 m := h
  rw [← Nat.ofDigitChars_ten_toDigits (n := n), h, Nat.ofDigitChars_ten_toDigits]

theorem toString_injective : Function.Injective (toString : ℕ → String) := by
  intro n m h
  apply digits_injective
  rw [← toList_toString, h, toList_toString]

theorem isDigit_of_mem (h : c ∈ digits n) : c.isDigit = true :=
  Nat.isDigit_of_mem_toDigits (by decide) (by decide) h

theorem digits_ne_nil : digits n ≠ [] :=
  Nat.toDigits_ne_nil

-- The longest run of digits at the start, as a number. There must be at least one.
def scan (cs : List Char) : Option ℕ :=
  let run := cs.takeWhile Char.isDigit
  if run = [] then none else some (Nat.ofDigitChars 10 run 0)

theorem scan_digits : scan (digits n) = some n := by
  have h : (digits n).takeWhile Char.isDigit = digits n :=
    List.takeWhile_eq_self_iff.mpr fun _ => isDigit_of_mem
  rw [scan, h, if_neg digits_ne_nil, digits, Nat.ofDigitChars_ten_toDigits]

-- What is scanned is a run of digits that no digit follows.
theorem scan_eq_some : scan cs = some n ↔ ∃ run rest, cs = run ++ rest ∧ run ≠ [] ∧
    (∀ c ∈ run, c.isDigit = true) ∧ (∀ c, rest.head? = some c → c.isDigit = false) ∧
    Nat.ofDigitChars 10 run 0 = n := by
  constructor
  case mp =>
    intro h
    rw [scan] at h
    split_ifs at h with hne
    refine ⟨cs.takeWhile Char.isDigit, cs.dropWhile Char.isDigit, ?_, hne, ?_, ?_, Option.some.inj h⟩
    · exact List.takeWhile_append_dropWhile.symm
    · exact fun c hm => List.mem_takeWhile_imp hm
    · intro c hc
      have hnot := List.head?_dropWhile_not Char.isDigit cs
      rw [hc] at hnot
      exact hnot
  case mpr =>
    rintro ⟨run, rest, rfl, hne, hrun, hrest, rfl⟩
    have htake : (run ++ rest).takeWhile Char.isDigit = run := by
      rw [List.takeWhile_append_of_pos hrun]
      cases rest with
      | nil => rw [List.takeWhile_nil, List.append_nil]
      | cons c rest => rw [List.takeWhile_cons_of_neg (by simp [hrest c rfl]), List.append_nil]
    rw [scan, htake, if_neg hne]

theorem takeWhile_digits_append (hc : c.isDigit = false) :
    (digits n ++ c :: cs).takeWhile Char.isDigit = digits n := by
  rw [List.takeWhile_append_of_pos fun _ => isDigit_of_mem]
  simp [hc]

-- A number ends where no digit follows.
theorem digits_append_inj {cs' : List Char} (hc : c.isDigit = false)
    (h : digits n ++ c :: cs = digits m ++ c :: cs') : n = m ∧ cs = cs' := by
  have hd := congrArg (List.takeWhile Char.isDigit) h
  rw [takeWhile_digits_append hc, takeWhile_digits_append hc] at hd
  rw [hd] at h
  exact ⟨digits_injective hd, List.tail_eq_of_cons_eq (List.append_cancel_left h)⟩

-- A number starts where no digit precedes.
theorem append_digits_inj {cs' : List Char} (hc : c.isDigit = false)
    (h : cs ++ c :: digits n = cs' ++ c :: digits m) : n = m := by
  have hrun : ∀ {cs : List Char} {n : ℕ},
      (cs ++ c :: digits n).reverse.takeWhile Char.isDigit = (digits n).reverse := by
    intro cs n
    rw [List.reverse_append, List.reverse_cons, List.append_assoc,
      List.takeWhile_append_of_pos fun _ hd => isDigit_of_mem (List.mem_reverse.mp hd)]
    simp [hc]
  have hd := congrArg (fun l => l.reverse.takeWhile Char.isDigit) h
  simp only [hrun] at hd
  exact digits_injective (List.reverse_injective hd)

end Decimal
