/-
The browser's proof check, `components/MerkleVerifier.tsx`: its own hex
reader, hex writer and byte comparison, and the fold built from them.

JavaScript strings are taken as their characters (every string that
reaches the component is ASCII); an exception the component would throw
is a `RangeError` from `TypedArray.set`.

# What is not Python here

The component reads text into a typed array, two characters a cell, and a
pair that is no number becomes a cell of zero where Python would raise.
Its comparison stops at the first cell that differs, and a cell that the
second operand does not have compares false. On 32-byte operands none of this
shows; on others the fold goes on with whatever the arrays hold, or throws
where a node does not fit its buffer. The definitions keep all of it, so
that agreement is a theorem about 32-byte hex and no assumption.
-/
import Proofstand.Anchor.Merkle

namespace Proofstand.Anchor.Browser

open Hex

/-- `s.padStart(n, "0")`. -/
def padStart (n : Nat) (s : List Char) : List Char :=
  List.replicate (n - s.length) '0' ++ s

/-- `x.toString(16)` of a byte. -/
def toString16 (x : Byte) : List Char :=
  if x.val < 16 then [lowerDigit ⟨x % 16, low_lt x⟩] else byteChars x

/-- `hex`. -/
def hex (b : Bytes) : String :=
  String.ofList ('0' :: 'x' :: b.flatMap fun x => padStart 2 (toString16 x))

/-- `bytes`: two characters a cell, unreadable ones as `parseInt` has
them. -/
def bytes (h : String) : Bytes :=
  let s := if ['0', 'x'].isPrefixOf h.toList then h.toList.drop 2 else h.toList
  (List.range (s.length / 2)).map fun i =>
    toUint8 (parseInt16 ((s.drop (2 * i)).take 2))

/-- `le`: the first differing cell decides, a missing cell compares
false. -/
def le : Bytes → Bytes → Bool
  | [], _ => true
  | _ :: _, [] => false
  | x :: a, y :: b => if x ≠ y then decide (x < y) else le a b

/-- One step of the fold: the pair, sorted by `le`, in a 64-byte
buffer. -/
def foldStep (K : Keccak) (node : Bytes) (p : String) : Py Bytes := do
  let sib := bytes p
  let (x, y) := if le node sib then (node, sib) else (sib, node)
  let cat := List.replicate 64 0
  let cat ← setAt cat x 0
  let cat ← setAt cat y 32
  pure (K.digest cat)

/-- What the component shows. -/
structure Verdict where
  computed : String
  ok : Bool
  deriving DecidableEq, Repr

/-- `MerkleVerifier`'s `result`; `none` is the idle component. -/
def merkleVerifier (K : Keccak) (leaf : String) (proof : Option (List String))
    (root : Option String) : Py (Option Verdict) :=
  match proof, root with
  | some proof, some root =>
      if root = "" then .ok none
      else do
        let node ← proof.foldlM (foldStep K) (bytes leaf)
        pure (some
          { computed := hex node
            ok := hex node == String.ofList (root.toList.map Char.toLower) })
  | _, _ => .ok none

end Proofstand.Anchor.Browser
