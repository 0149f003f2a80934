/-
`round`, `min`, `max`, `sorted`, and the functions of `statistics` the
report publishes with.

Rounding is the library's `roundHalfEven` at a number of digits. The
sorts are insertion sorts and so stable, in both directions: Python's
`reverse=True` keeps the order of equal rows too. `min`, `max`, `fmean`
and `median` raise on a list without entries and return on every other
one.
-/
import Proofstand.Python

namespace Proofstand

variable {K : Type} [Field K] [LinearOrder K]

/-- `round(x, digits)`: to the nearest, ties to even. -/
def pyRound [FloorRing K] (x : K) (digits : Nat) : K :=
  let n := ⌊x * 10 ^ digits⌋
  let frac := x * 10 ^ digits - n
  let up := 1 / 2 < frac ∨ frac = 1 / 2 ∧ n % 2 = 1
  ((if up then n + 1 else n : Int) : K) / 10 ^ digits

/-- `min(xs)`. -/
def pyMin {α : Type} [Min α] (xs : List α) : Py α :=
  match xs.min? with
  | none => raise .ValueError "min() arg is an empty sequence"
  | some x => .ok x

/-- `max(xs)`. -/
def pyMax {α : Type} [Max α] (xs : List α) : Py α :=
  match xs.max? with
  | none => raise .ValueError "max() arg is an empty sequence"
  | some x => .ok x

/-- `min` returns the least, -/
theorem pyMin_eq_ok {α : Type} [Min α] {xs : List α} {x : α} :
    pyMin xs = .ok x ↔ xs.min? = some x := by
  unfold pyMin
  cases xs.min? with
  | none => simp [raise]
  | some y => simp

/-- `max` the greatest, -/
theorem pyMax_eq_ok {α : Type} [Max α] {xs : List α} {x : α} :
    pyMax xs = .ok x ↔ xs.max? = some x := by
  unfold pyMax
  cases xs.max? with
  | none => simp [raise]
  | some y => simp

/-- and both return -/
theorem pyMin_total {α : Type} [Min α] {xs : List α} (h : xs ≠ []) :
    ∃ x, pyMin xs = .ok x := by
  obtain ⟨x, hx⟩ := Option.isSome_iff_exists.1
    (List.isSome_min?_of_ne_nil h)
  exact ⟨x, pyMin_eq_ok.2 hx⟩

/-- of a list with entries. -/
theorem pyMax_total {α : Type} [Max α] {xs : List α} (h : xs ≠ []) :
    ∃ x, pyMax xs = .ok x := by
  obtain ⟨x, hx⟩ := Option.isSome_iff_exists.1
    (List.isSome_max?_of_ne_nil h)
  exact ⟨x, pyMax_eq_ok.2 hx⟩

/-- `sorted(xs, key=key)`: rows of one key keep their order. -/
def pySortedBy {α β : Type} [LinearOrder β] (key : α → β) (xs : List α) :
    List α :=
  xs.insertionSort fun a b => key a ≤ key b

/-- `sorted(xs, key=key, reverse=True)`: rows of one key keep theirs. -/
def pySortedDesc {α β : Type} [LinearOrder β] (key : α → β) (xs : List α) :
    List α :=
  xs.insertionSort fun a b => key b ≤ key a

/-- `sorted(xs)`. -/
def pySorted (xs : List K) : List K := pySortedBy id xs

namespace Statistics

/-- `statistics.fmean`. -/
def fmean : List K → Py K
  | [] => raise .StatisticsError "fmean requires at least one data point"
  | x :: xs => .ok ((x :: xs).sum / (x :: xs).length)

/-- The middle of the sorted data, or between the middle two: they are one
where there is an odd number. -/
def middle (xs : List K) : Option K := do
  let sorted := pySorted xs
  let lo ← sorted[(sorted.length - 1) / 2]?
  let hi ← sorted[sorted.length / 2]?
  pure ((lo + hi) / 2)

/-- `statistics.median`. -/
def median (xs : List K) : Py K :=
  match middle xs with
  | none => raise .StatisticsError "no median for empty data"
  | some x => .ok x

/-- A list with entries has a middle one, -/
theorem middle_of_ne_nil {xs : List K} (h : xs ≠ []) :
    ∃ x, middle xs = some x := by
  have hlen : 0 < (pySorted xs).length := by
    rw [pySorted, pySortedBy, List.length_insertionSort]
    exact List.length_pos_of_ne_nil h
  have hlo : ((pySorted xs).length - 1) / 2 < (pySorted xs).length := by
    omega
  have hhi : (pySorted xs).length / 2 < (pySorted xs).length := by omega
  refine ⟨((pySorted xs)[((pySorted xs).length - 1) / 2]
    + (pySorted xs)[(pySorted xs).length / 2]) / 2, ?_⟩
  simp only [middle, List.getElem?_eq_getElem hlo,
    List.getElem?_eq_getElem hhi]
  rfl

/-- so it has a median, -/
theorem median_total {xs : List K} (h : xs ≠ []) :
    ∃ x, median xs = .ok x := by
  obtain ⟨x, hx⟩ := middle_of_ne_nil h
  exact ⟨x, by rw [median, hx]⟩

omit [LinearOrder K] in
/-- and a mean. -/
theorem fmean_total {xs : List K} (h : xs ≠ []) :
    ∃ x, fmean xs = .ok x := by
  cases xs with
  | nil => exact absurd rfl h
  | cons x xs => exact ⟨_, rfl⟩

end Statistics

end Proofstand
