/-
The texts of numbers: `f"{x:.1f}"`, `f"{x:.0%}"`, `int(s, 16)`.

Fixed-point texts round half to even on the exact number, as Python does
on the exact value of the float. Percentages multiply by a hundred first.
Base 16 is read of the addresses and slots that a node wrote.
-/
import Proofstand.Python
import Proofstand.Lib.Rounding

namespace Proofstand

open Hex Rounding

section

variable {K : Type} [Field K] [LinearOrder K] [FloorRing K]

/-- `f"{x:.nf}"`. -/
def pyFixed (digits : Nat) (x : K) : String :=
  let n := (roundHalfEven (x * 10 ^ digits)).natAbs
  let frac := toString (n % 10 ^ digits)
  (if x < 0 then "-" else "") ++ toString (n / 10 ^ digits)
    ++ if digits = 0 then ""
      else "." ++ "".pushn '0' (digits - frac.length) ++ frac

/-- `f"{x:.n%}"`. -/
def pyPercent (digits : Nat) (x : K) : String :=
  pyFixed digits (x * 100) ++ "%"

end

/-- The value of a run of hex digits. -/
def hexRun (cs : List Char) : Option Nat :=
  if cs.isEmpty then none
  else cs.foldlM (fun n c => (hexVal c).map fun d => 16 * n + d.val) 0

/-- `int(s, 16)`, of a text without blanks or underscores. -/
def intBase16 (s : String) : Py Int :=
  let (neg, cs) := match s.toList with
    | '-' :: cs => (true, cs)
    | '+' :: cs => (false, cs)
    | cs => (false, cs)
  let digits := match cs with
    | '0' :: 'x' :: ds => ds
    | '0' :: 'X' :: ds => ds
    | ds => ds
  match hexRun digits with
  | some n => .ok (if neg then -n else n)
  | none => raise .ValueError
      ("invalid literal for int() with base 16: '" ++ s ++ "'")

end Proofstand
