/-
Bytes and their hexadecimal text: the sixteen digits in both cases, the
lower-case writer, and the pairs of digits that read back what it wrote.

Readers in the wild differ on malformed text (some skip blanks, some
turn garbage into zero). On text made of hex digit pairs they all agree;
`HexPairs` is that domain, and its induction is the one such a comparison
goes by.

The reader (`hexVal`) takes both cases and the writer spells the lower
one, so reading back what was written is the identity
(`hexVal_lowerDigit`, `hexPairs_encodeHex`), and writing what was read is
so up to case. Every list of pairs is `HexPairs` of one list of bytes only,
by induction on the relation; its length is twice that of the bytes, which
is how a reader that goes by a count of digits and one that goes by pairs
come to the same.
-/
import Proofstand.Lib.Numerals
import Mathlib

namespace Proofstand.Hex

/-- One octet. -/
abbrev Byte := Fin 256

instance byte_neZero : NeZero 256 := ⟨by decide⟩

/-- A byte string, compared lexicographically. -/
abbrev Bytes := List Byte

-- ========================================================== the digits

def lowerDigit (d : Fin 16) : Char :=
  ['0', '1', '2', '3', '4', '5', '6', '7', '8', '9',
    'a', 'b', 'c', 'd', 'e', 'f'].get d

def upperDigit (d : Fin 16) : Char :=
  ['0', '1', '2', '3', '4', '5', '6', '7', '8', '9',
    'A', 'B', 'C', 'D', 'E', 'F'].get d

/-- The value of a hex digit of either case. -/
def hexVal (c : Char) : Option (Fin 16) :=
  (List.finRange 16).find? fun d => c == lowerDigit d || c == upperDigit d

@[simp] theorem hexVal_lowerDigit : ∀ d, hexVal (lowerDigit d) = some d := by
  decide

/-- A character with a value is one of the two spellings of it. -/
theorem eq_of_hexVal {c : Char} {d : Fin 16} (h : hexVal c = some d) :
    c = lowerDigit d ∨ c = upperDigit d := by
  have hd := List.find?_some h
  simpa using hd

-- =========================================================== the bytes

/-- The byte two digits stand for, high half first. -/
def byteOf (hi lo : Fin 16) : Byte := ⟨hi * 16 + lo, by omega⟩

theorem low_lt (b : Byte) : b.val % 16 < 16 := Nat.mod_lt _ (by decide)

/-- The two lower-case digits of a byte. -/
def byteChars (b : Byte) : List Char :=
  [lowerDigit ⟨b / 16, by omega⟩, lowerDigit ⟨b % 16, low_lt b⟩]

/-- Lower-case hex text of a byte string. -/
def encodeHex (bs : Bytes) : List Char := bs.flatMap byteChars

/-- Text made of hex digit pairs, and the bytes it reads as. -/
inductive HexPairs : List Char → Bytes → Prop
  | nil : HexPairs [] []
  | cons {c d : Char} {hi lo : Fin 16} {rest : List Char} {bs : Bytes} :
      hexVal c = some hi → hexVal d = some lo → HexPairs rest bs →
      HexPairs (c :: d :: rest) (byteOf hi lo :: bs)

theorem HexPairs.length {cs : List Char} {bs : Bytes} (h : HexPairs cs bs) :
    cs.length = 2 * bs.length := by
  induction h with
  | nil => rfl
  | cons _ _ _ ih =>
      simp only [List.length_cons, ih]
      omega

/-- Every text of `2 * n` hex digits is `n` digit pairs. -/
theorem exists_hexPairs {cs : List Char} {n : Nat} (hn : cs.length = 2 * n)
    (hd : ∀ c ∈ cs, (hexVal c).isSome) :
    ∃ bs, HexPairs cs bs ∧ bs.length = n := by
  induction n generalizing cs with
  | zero =>
      have hnil : cs = [] := List.length_eq_zero_iff.mp (by omega)
      subst hnil
      exact ⟨[], .nil, rfl⟩
  | succ n ih =>
      match cs with
      | [] => simp at hn
      | [c] =>
          simp only [List.length_cons, List.length_nil] at hn
          omega
      | c :: d :: rest =>
          obtain ⟨hi, hhi⟩ := Option.isSome_iff_exists.mp (hd c (by simp))
          obtain ⟨lo, hlo⟩ := Option.isSome_iff_exists.mp (hd d (by simp))
          have hrest : rest.length = 2 * n := by
            simp only [List.length_cons] at hn
            omega
          obtain ⟨bs, hbs, hlen⟩ :=
            ih hrest fun e he => hd e (by simp [he])
          exact ⟨byteOf hi lo :: bs, .cons hhi hlo hbs, by simp [hlen]⟩

/-- What the writer writes is digit pairs of the same bytes. -/
theorem hexPairs_encodeHex (bs : Bytes) : HexPairs (encodeHex bs) bs := by
  induction bs with
  | nil => exact .nil
  | cons b bs ih =>
      have hb : byteOf ⟨b / 16, by omega⟩ ⟨b % 16, by omega⟩ = b := by
        apply Fin.ext
        simp only [byteOf]
        omega
      have h := HexPairs.cons (hexVal_lowerDigit ⟨b / 16, by omega⟩)
        (hexVal_lowerDigit ⟨b % 16, by omega⟩) ih
      rw [hb] at h
      exact h

theorem encodeHex_length (bs : Bytes) :
    (encodeHex bs).length = 2 * bs.length :=
  (hexPairs_encodeHex bs).length

/-- Lower-case digits only. -/
theorem mem_encodeHex {bs : Bytes} {c : Char} (hc : c ∈ encodeHex bs) :
    ∃ d, c = lowerDigit d := by
  simp only [encodeHex, List.mem_flatMap, byteChars, List.mem_cons,
    List.not_mem_nil, or_false] at hc
  obtain ⟨b, -, rfl | rfl⟩ := hc
  · exact ⟨_, rfl⟩
  · exact ⟨_, rfl⟩

end Proofstand.Hex
