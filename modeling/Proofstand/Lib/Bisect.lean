/-
Bisection over the integers for the first place where a test holds, with
a number of rounds as its only bound.

The test is an oracle: nothing says that it is monotone. What one round
keeps is that the end of the window is not below a mark the test never
answers `true` under (`search_ge`), and that its start is not above a
mark the test answers `true` from (`search_le`). With as many rounds as
halvings of the window both ends meet, so an oracle exact on the window
finds its mark (`search_eq`).

# The two halves of the argument

The lemmas go by induction on the number of rounds, with the window free.
Each half needs one half of the oracle's honesty, and keeps it: a `true`
in the middle moves the end there, so soundness (`true` only from the mark
on) is what keeps the end from passing below the mark, and a `false` moves
the start past the middle, so completeness on the window (`true` wherever
the mark is reached) keeps the start from passing above it.

An oracle that fails now and then answers `false` where it should say
`true`. It loses the second half only: what comes out is then not below
the mark, and may lie above it. The rounds enter the first half alone,
which needs the window to have closed (`hi - lo < 2 ^ n`); the second is
true of every window on the way.
-/
import Mathlib.Tactic

namespace Proofstand.Bisect

variable (has : Int → Bool)

/-- `n` rounds on the window from `lo` to `hi`. -/
def search : Nat → Int → Int → Int
  | 0, lo, _ => lo
  | n + 1, lo, hi =>
      if hi ≤ lo then lo
      else if has ((lo + hi) / 2) then search n lo ((lo + hi) / 2)
      else search n ((lo + hi) / 2 + 1) hi

variable {has}

/-- The answer is in the window. -/
theorem search_mem : ∀ {n : Nat} {lo hi : Int}, lo ≤ hi →
    lo ≤ search has n lo hi ∧ search has n lo hi ≤ hi
  | 0, lo, hi, h => ⟨le_refl lo, h⟩
  | n + 1, lo, hi, h => by
      unfold search
      split
      case isTrue => exact ⟨le_refl lo, h⟩
      case isFalse hlt =>
          split
          case isTrue =>
              have hmid : lo ≤ (lo + hi) / 2 := by omega
              have hrest := search_mem (n := n) hmid
              exact ⟨hrest.1, by omega⟩
          case isFalse =>
              have hmid : (lo + hi) / 2 + 1 ≤ hi := by omega
              have hrest := search_mem (n := n) hmid
              exact ⟨by omega, hrest.2⟩

/-- An oracle that is never `true` below `c` does not end below `c`, if
the rounds are enough for the window. -/
theorem search_ge {c : Int} (hsound : ∀ b, has b = true → c ≤ b) :
    ∀ {n : Nat} {lo hi : Int}, c ≤ hi → hi - lo < 2 ^ n →
      c ≤ search has n lo hi
  | 0, lo, hi, hhi, hwidth => by
      rw [pow_zero] at hwidth
      have hmet : hi ≤ lo := by omega
      exact hhi.trans hmet
  | n + 1, lo, hi, hhi, hwidth => by
      rw [pow_succ] at hwidth
      unfold search
      split
      case isTrue hmet => exact hhi.trans hmet
      case isFalse hlt =>
          split
          case isTrue hyes =>
              exact search_ge hsound (hsound _ hyes) (by omega)
          case isFalse => exact search_ge hsound hhi (by omega)

/-- An oracle that is `true` from `c` on does not end above `c`. -/
theorem search_le {c : Int} :
    ∀ {n : Nat} {lo hi : Int},
      (∀ b, lo ≤ b → b ≤ hi → c ≤ b → has b = true) → lo ≤ c →
        search has n lo hi ≤ c
  | 0, lo, hi, _, hlo => hlo
  | n + 1, lo, hi, hcomplete, hlo => by
      unfold search
      split
      case isTrue => exact hlo
      case isFalse hlt =>
          split
          case isTrue =>
              exact search_le
                (fun b hb hb' => hcomplete b hb (by omega)) hlo
          case isFalse hno =>
              have habove : (lo + hi) / 2 < c := by
                by_contra hnot
                exact hno (hcomplete _ (by omega) (by omega)
                  (not_lt.1 hnot))
              exact search_le
                (fun b hb hb' => hcomplete b (by omega) hb') habove

/-- An oracle that is exact on the window finds its mark. -/
theorem search_eq {c : Int} (hsound : ∀ b, has b = true → c ≤ b)
    {n : Nat} {lo hi : Int}
    (hcomplete : ∀ b, lo ≤ b → b ≤ hi → c ≤ b → has b = true)
    (hlo : lo ≤ c) (hhi : c ≤ hi) (hwidth : hi - lo < 2 ^ n) :
    search has n lo hi = c :=
  le_antisymm (search_le hcomplete hlo) (search_ge hsound hhi hwidth)

end Proofstand.Bisect
