/-
What the modelled Python (and the one browser component) share:
exceptions as values, and the string and bytes built-ins the anchor
code calls.

Only the built-ins the source uses are here, each under its own name
and with its documented behaviour on every input: `fromhex` skips ASCII
blanks between bytes and takes digits of either case, `parseInt` stops
at the first foreign character. Messages are the source's, less the
`repr` of a dict or a row that some of them end with.

# Exceptions

`Py` is `Except Exc`. An exception is a class and a message; the message
is kept because some are stored or shown. What a function raises in Python
it raises here, with the class the `except` clauses of the source look at.
One class is not Python's own: `NotFinite` marks arithmetic that would have
met an infinity or a NaN.
-/
import Proofstand.Lib.Hex

namespace Proofstand

open Hex

-- ========================================================== exceptions

/-- The exception classes the modelled code raises or lets through. -/
inductive ExcClass
  | ValueError | TypeError | KeyError | IndexError | ZeroDivisionError
  | OverflowError | AttributeError | RuntimeError | AssertionError
  | TierViolation | InputValidationError | BaselineIncomplete
  | GasUnitUnmeasured | NotAtRisk | UnsupportedPool | StatisticsError
  | VolUnavailable | NoPools
  | UnicodeDecodeError | YAMLError | ValidationError
  | NetworkError      -- a live read that raised, whatever its class
  | DatabaseError
  | RangeError        -- JavaScript's, in the browser component
  | NotFinite         -- the model's own: arithmetic on an infinity or a NaN
  deriving DecidableEq, Repr

/-- A raised exception: its class and its message. -/
structure Exc where
  cls : ExcClass
  msg : String := ""
  deriving DecidableEq, Repr

/-- The result of a call that may raise. -/
abbrev Py (α : Type) := Except Exc α

/-- `raise cls(msg)`. -/
def raise {α : Type} (cls : ExcClass) (msg : String) : Py α :=
  .error ⟨cls, msg⟩

/-- A list of texts, as a message shows it. -/
def reprTexts (texts : List String) : String :=
  "[" ++ ", ".intercalate (texts.map fun t => "'" ++ t ++ "'") ++ "]"

-- ==================================================== strings and bytes

/-- `str.removeprefix`. -/
def removePrefix (pre s : List Char) : List Char :=
  if pre.isPrefixOf s then s.drop pre.length else s

/-- The blanks `bytes.fromhex` skips. -/
def isAsciiSpace (c : Char) : Bool :=
  c == ' ' || c == '\t' || c == '\n' || c == '\x0b' || c == '\x0c' || c == '\r'

/-- `bytes.fromhex` on the characters: blanks are skipped between bytes,
never inside one. -/
def fromhexChars : List Char → Option Bytes
  | [] => some []
  | c :: rest =>
      if isAsciiSpace c then fromhexChars rest
      else
        match rest with
        | [] => none
        | d :: rest' => do
            let hi ← hexVal c
            let lo ← hexVal d
            let bs ← fromhexChars rest'
            pure (byteOf hi lo :: bs)

/-- `bytes.fromhex`. -/
def fromhex (s : List Char) : Py Bytes :=
  match fromhexChars s with
  | some bs => .ok bs
  | none => raise .ValueError "non-hexadecimal number found in fromhex() arg"

/-- `"0x" + b.hex()`. -/
def hex0x (bs : Bytes) : String := String.ofList ('0' :: 'x' :: encodeHex bs)

-- ============================================ the browser's counterparts

/-- `parseInt(s, 16)`: blanks and a sign and an `0x` dropped, then the
longest run of hex digits; `none` is `NaN`. -/
def parseInt16 (s : List Char) : Option Int :=
  let s := s.dropWhile fun c => c.isWhitespace
  let (neg, s) := match s with
    | '-' :: r => (true, r)
    | '+' :: r => (false, r)
    | _ => (false, s)
  let s := match s with
    | '0' :: 'x' :: r => r
    | '0' :: 'X' :: r => r
    | _ => s
  let ds := (s.map hexVal).takeWhile Option.isSome |>.reduceOption
  if ds.isEmpty then none
  else
    let n : Int := ds.foldl (fun (n : Int) d => n * 16 + (d.val : Int)) 0
    some (if neg then -n else n)

/-- The value a number takes in a `Uint8Array` cell (`NaN` becomes 0). -/
def toUint8 : Option Int → Byte
  | none => 0
  | some n => ⟨(n % 256).toNat, by omega⟩

/-- `new Uint8Array(…).set(src, at)` on an array already there: cells are
overwritten from `at` on, and a source that does not fit throws. -/
def setAt (dst src : Bytes) (pos : Nat) : Py Bytes :=
  if pos + src.length ≤ dst.length then
    .ok (dst.take pos ++ src ++ dst.drop (pos + src.length))
  else raise .RangeError "offset is out of bounds"

-- ======================================== agreement on digit pairs

/-- A hex digit is not a blank. -/
theorem isAsciiSpace_of_hexVal {c : Char} {d : Fin 16}
    (h : hexVal c = some d) : isAsciiSpace c = false := by
  have key : ∀ d, isAsciiSpace (lowerDigit d) = false
      ∧ isAsciiSpace (upperDigit d) = false := by decide
  rcases eq_of_hexVal h with rfl | rfl
  · exact (key d).1
  · exact (key d).2

/-- Digits in pairs are read as the bytes they stand for, -/
theorem fromhexChars_of_hexPairs {cs : List Char} {bs : Bytes}
    (h : HexPairs cs bs) : fromhexChars cs = some bs := by
  induction h with
  | nil => rfl
  | cons hhi hlo _ ih =>
      simp [fromhexChars, isAsciiSpace_of_hexVal hhi, hhi, hlo, ih]

/-- and so is their text. -/
theorem fromhex_of_hexPairs {cs : List Char} {bs : Bytes}
    (h : HexPairs cs bs) : fromhex cs = .ok bs := by
  simp [fromhex, fromhexChars_of_hexPairs h]

/-- `parseInt` reads a digit pair as its byte. -/
theorem toUint8_parseInt16 {c d : Char} {hi lo : Fin 16}
    (hc : hexVal c = some hi) (hd : hexVal d = some lo) :
    toUint8 (parseInt16 [c, d]) = byteOf hi lo := by
  have key : ∀ hi lo : Fin 16,
      toUint8 (parseInt16 [lowerDigit hi, lowerDigit lo]) = byteOf hi lo
        ∧ toUint8 (parseInt16 [lowerDigit hi, upperDigit lo]) = byteOf hi lo
        ∧ toUint8 (parseInt16 [upperDigit hi, lowerDigit lo]) = byteOf hi lo
        ∧ toUint8 (parseInt16 [upperDigit hi, upperDigit lo])
            = byteOf hi lo := by
    decide
  obtain ⟨hll, hlu, hul, huu⟩ := key hi lo
  rcases eq_of_hexVal hc with rfl | rfl
  · rcases eq_of_hexVal hd with rfl | rfl
    · exact hll
    · exact hlu
  · rcases eq_of_hexVal hd with rfl | rfl
    · exact hul
    · exact huu

end Proofstand
