/-
The numerals of the sources. That each is two or more has a name here, so
that a definition with one of them in it carries no proof of its own.

A literal `2` over a field is read through an instance that says it is at
least two. Lean finds that proof anew at each use and may leave it beside
the declaration in which it was found; with a named instance for each
numeral every definition refers to the same one, in whatever module it
stands. The list is that of the numerals the sources use, and a new one
belongs here too.
-/
import Mathlib.Data.Nat.Cast.Defs

namespace Proofstand.Numerals

instance atLeastTwo_2 : Nat.AtLeastTwo 2 := ⟨by omega⟩

instance atLeastTwo_3 : Nat.AtLeastTwo 3 := ⟨by omega⟩

instance atLeastTwo_4 : Nat.AtLeastTwo 4 := ⟨by omega⟩

instance atLeastTwo_5 : Nat.AtLeastTwo 5 := ⟨by omega⟩

instance atLeastTwo_7 : Nat.AtLeastTwo 7 := ⟨by omega⟩

instance atLeastTwo_8 : Nat.AtLeastTwo 8 := ⟨by omega⟩

instance atLeastTwo_10 : Nat.AtLeastTwo 10 := ⟨by omega⟩

instance atLeastTwo_14 : Nat.AtLeastTwo 14 := ⟨by omega⟩

instance atLeastTwo_24 : Nat.AtLeastTwo 24 := ⟨by omega⟩

instance atLeastTwo_25 : Nat.AtLeastTwo 25 := ⟨by omega⟩

instance atLeastTwo_30 : Nat.AtLeastTwo 30 := ⟨by omega⟩

instance atLeastTwo_50 : Nat.AtLeastTwo 50 := ⟨by omega⟩

instance atLeastTwo_90 : Nat.AtLeastTwo 90 := ⟨by omega⟩

instance atLeastTwo_100 : Nat.AtLeastTwo 100 := ⟨by omega⟩

instance atLeastTwo_365 : Nat.AtLeastTwo 365 := ⟨by omega⟩

instance atLeastTwo_1000 : Nat.AtLeastTwo 1000 := ⟨by omega⟩

instance atLeastTwo_8760 : Nat.AtLeastTwo 8760 := ⟨by omega⟩

instance atLeastTwo_10000 : Nat.AtLeastTwo 10000 := ⟨by omega⟩

instance atLeastTwo_86400 : Nat.AtLeastTwo 86400 := ⟨by omega⟩

instance atLeastTwo_100000 : Nat.AtLeastTwo 100000 := ⟨by omega⟩

instance atLeastTwo_999999 : Nat.AtLeastTwo 999999 := ⟨by omega⟩

instance atLeastTwo_1000000 : Nat.AtLeastTwo 1000000 := ⟨by omega⟩

end Proofstand.Numerals
