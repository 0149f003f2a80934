/-
Rounding to the nearest whole number, ties to even.

It moves by at most one from the floor (`floor_le_roundHalfEven`,
`roundHalfEven_le`), leaves whole numbers alone, and keeps order
(`roundHalfEven_mono`).

The definition is by the fraction over the floor, up where it is more than
a half, and at a half where the floor is odd. Order is kept because two
numbers over different floors have whole numbers between their results,
and over one floor the condition to go up only becomes easier; at the tie
both numbers are the same, so they have one parity. What lies between two
whole numbers is therefore rounded to between them (`roundHalfEven_mem`),
which is all that bounds need of a rounded figure.
-/
import Proofstand.Lib.Numerals
import Mathlib.Tactic

namespace Proofstand.Rounding

variable {K : Type} [Field K] [LinearOrder K] [FloorRing K]

/-- To the nearest whole number, of two to the even one. -/
def roundHalfEven (x : K) : Int :=
  let frac := x - ⌊x⌋
  if 1 / 2 < frac ∨ frac = 1 / 2 ∧ ⌊x⌋ % 2 = 1 then ⌊x⌋ + 1 else ⌊x⌋

theorem floor_le_roundHalfEven (x : K) : ⌊x⌋ ≤ roundHalfEven x := by
  unfold roundHalfEven
  dsimp only
  split
  · omega
  · exact le_refl _

theorem roundHalfEven_le (x : K) : roundHalfEven x ≤ ⌊x⌋ + 1 := by
  unfold roundHalfEven
  dsimp only
  split
  · exact le_refl _
  · omega

variable [IsStrictOrderedRing K]

theorem roundHalfEven_intCast (n : Int) : roundHalfEven (n : K) = n := by
  unfold roundHalfEven
  rw [Int.floor_intCast, sub_self]
  apply if_neg
  intro h
  rcases h with hup | ⟨htie, -⟩
  · norm_num at hup
  · norm_num at htie

theorem roundHalfEven_mono {x y : K} (h : x ≤ y) :
    roundHalfEven x ≤ roundHalfEven y := by
  rcases (Int.floor_le_floor h).lt_or_eq with hlt | heq
  · calc roundHalfEven x ≤ ⌊x⌋ + 1 := roundHalfEven_le x
      _ ≤ ⌊y⌋ := hlt
      _ ≤ roundHalfEven y := floor_le_roundHalfEven y
  · -- over one floor, what rounds `x` up rounds `y` up
    unfold roundHalfEven
    dsimp only
    rw [← heq]
    split
    case isTrue hup =>
        rw [if_pos]
        rcases hup with hup | ⟨htie, hodd⟩
        · left
          linarith
        · rcases (sub_le_sub_right h (⌊x⌋ : K)).lt_or_eq with hmore | hsame
          · left
            linarith
          · right
            exact ⟨by rw [← hsame, htie], hodd⟩
    case isFalse =>
        split
        · omega
        · exact le_refl _

/-- A number between two whole ones rounds to one between them. -/
theorem roundHalfEven_mem {x : K} {a b : Int} (ha : (a : K) ≤ x)
    (hb : x ≤ b) : a ≤ roundHalfEven x ∧ roundHalfEven x ≤ b := by
  have hlow := roundHalfEven_mono ha
  have hhigh := roundHalfEven_mono hb
  rw [roundHalfEven_intCast] at hlow hhigh
  exact ⟨hlow, hhigh⟩

end Proofstand.Rounding
