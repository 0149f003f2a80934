/-
Python values as they cross a dict, a JSON column or a hash, and the
conversions the code applies to them: `float()`, `int()`, `==`, `.get`.

# Numbers

A float is a number of an ordered field, an infinity or a NaN. Finite
arithmetic is exact; comparisons know the special values; arithmetic
that would meet one stops with `NotFinite`, a class no Python code
raises. A float has no range either: an int or a literal past 1.8e308 is
the number it writes, where Python raises `OverflowError` for the one and
has an infinity for the other. Digits are read in ASCII: those of other
scripts, which Python takes too, are not.

# Canonical form

`json.dumps(…, sort_keys=True)` writes equal texts for values that are
equal up to the order of their dicts' keys. `canon` sorts the keys, and
reading a key, `float()` and `int()` do not see the difference
(`get?_canon`, `pyFloat_canon`, `pyInt_canon`).
-/
import Proofstand.Python

namespace Proofstand

-- =============================================================== floats

/-- A float: a number, an infinity or a NaN. -/
inductive PyFloat (K : Type)
  | fin (x : K)
  | inf (neg : Bool)
  | nan
  deriving DecidableEq, Repr

namespace PyFloat

variable {K : Type} [LinearOrder K]

/-- `x < y`. -/
def lt : PyFloat K → PyFloat K → Bool
  | fin x, fin y => x < y
  | fin _, inf neg => !neg
  | inf neg, fin _ => neg
  | inf neg, inf neg' => neg && !neg'
  | _, _ => false

/-- `x == y`. -/
def eq : PyFloat K → PyFloat K → Bool
  | fin x, fin y => x = y
  | inf neg, inf neg' => neg == neg'
  | _, _ => false

/-- `x <= y`. -/
def le (x y : PyFloat K) : Bool := lt x y || eq x y

omit [LinearOrder K] in
/-- The operand of exact arithmetic. -/
def finite : PyFloat K → Py K
  | fin x => .ok x
  | _ => raise .NotFinite ""

/-- `float("inf")` on top of a number. -/
def ofTop : WithTop K → PyFloat K
  | none => inf false
  | some x => fin x

end PyFloat

-- =============================================================== values

/-- What JSON and YAML are read as. -/
inductive PyVal (K : Type)
  | none
  | bool (b : Bool)
  | int (n : Int)
  | float (x : PyFloat K)
  | str (s : String)
  | list (vs : List (PyVal K))
  | dict (kvs : List (String × PyVal K))

-- ============================================================== literals

/-- The blanks that `float()` and `int()` pass over: those of
`str.isspace()` but for the separators 0x1c to 0x1f. -/
def isPySpace (c : Char) : Bool :=
  (9 ≤ c.toNat ∧ c.toNat ≤ 13) ∨ c.toNat = 0x20 ∨ c.toNat = 0x85
    ∨ c.toNat = 0xa0 ∨ c.toNat = 0x1680
    ∨ (0x2000 ≤ c.toNat ∧ c.toNat ≤ 0x200a)
    ∨ c.toNat = 0x2028 ∨ c.toNat = 0x2029 ∨ c.toNat = 0x202f
    ∨ c.toNat = 0x205f ∨ c.toNat = 0x3000

/-- What `float()` and `int()` read of a text. -/
def pyStrip (cs : List Char) : List Char :=
  ((cs.dropWhile isPySpace).reverse.dropWhile isPySpace).reverse

/-- A run of decimal digits with single underscores between them: its
value and how many digits it has. -/
def digitRun : List Char → Nat → Nat → Bool → Option (Nat × Nat)
  | [], acc, n, afterDigit => if afterDigit then some (acc, n) else none
  | c :: cs, acc, n, afterDigit =>
      if c.isDigit then digitRun cs (10 * acc + (c.toNat - '0'.toNat)) (n + 1) true
      else if c == '_' && afterDigit then digitRun cs acc n false
      else none

/-- An optional sign, and what follows. -/
def takeSign : List Char → Bool × List Char
  | '-' :: cs => (true, cs)
  | '+' :: cs => (false, cs)
  | cs => (false, cs)

/-- The text of an `int()` argument. -/
def parseInt (s : String) : Option Int :=
  let (neg, cs) := takeSign (pyStrip s.toList)
  (digitRun cs 0 0 false).map fun (m, _) => if neg then -m else m

section

variable {K : Type} [Field K]

/-- The mantissa of a float literal: digits, a point, digits, with at
least one digit. -/
def parseMantissa (cs : List Char) : Option K :=
  let whole := cs.takeWhile (· ≠ '.')
  match cs.dropWhile (· ≠ '.') with
  | [] => (digitRun whole 0 0 false).map fun (m, _) => (m : K)
  | _ :: frac =>
      match whole, frac with
      | [], [] => none
      | _, _ => do
          let (m, _) ← if whole.isEmpty then some (0, 0)
            else digitRun whole 0 0 false
          let (f, n) ← if frac.isEmpty then some (0, 0)
            else digitRun frac 0 0 false
          pure ((m : K) + (f : K) / 10 ^ n)

/-- The text of a `float()` argument. -/
def parseFloat (s : String) : Option (PyFloat K) :=
  let (neg, cs) := takeSign (pyStrip s.toList)
  let low := cs.map Char.toLower
  if low = "inf".toList ∨ low = "infinity".toList then some (.inf neg)
  else if low = "nan".toList then some .nan
  else
    let mantissa := low.takeWhile (· ≠ 'e')
    let exponent :=
      match low.dropWhile (· ≠ 'e') with
      | [] => some (0 : Int)
      | _ :: exp =>
          let (eneg, ds) := takeSign exp
          (digitRun ds 0 0 false).map fun (e, _) =>
            if eneg then -(e : Int) else (e : Int)
    do
      let m ← parseMantissa mantissa
      let e ← exponent
      let x : K := m * 10 ^ e
      pure (.fin (if neg then -x else x))

end

-- =========================================================== conversions

namespace PyVal

variable {K : Type}

/-- `type(v).__name__`. -/
def typeName : PyVal K → String
  | none => "NoneType"
  | bool _ => "bool"
  | int _ => "int"
  | float _ => "float"
  | str _ => "str"
  | list _ => "list"
  | dict _ => "dict"

/-- `d.get(k)`; a value that is no dict has no keys. -/
def get? (k : String) : PyVal K → Option (PyVal K)
  | dict kvs => kvs.lookup k
  | _ => Option.none

/-- `k in d`. -/
def hasKey (v : PyVal K) (k : String) : Bool := (v.get? k).isSome

/-- `d[k]`, for a text `k`. -/
def item (k : String) : PyVal K → Py (PyVal K)
  | dict kvs =>
      match kvs.lookup k with
      | some w => .ok w
      | Option.none => raise .KeyError s!"'{k}'"
  | v => raise .TypeError ("'" ++ v.typeName ++ "' object has no such item")

/-- `vs[0]`; a text has only characters, which the callers' next `[…]`
rejects as this does. -/
def first : PyVal K → Py (PyVal K)
  | list (v :: _) => .ok v
  | list [] => raise .IndexError "list index out of range"
  | dict _ => raise .KeyError "0"
  | v => raise .TypeError ("'" ++ v.typeName ++ "' object is not a list")

/-- `vs[-1]`. -/
def last : PyVal K → Py (PyVal K)
  | list vs =>
      match vs.getLast? with
      | some v => .ok v
      | Option.none => raise .IndexError "list index out of range"
  | dict _ => raise .KeyError "-1"
  | v => raise .TypeError ("'" ++ v.typeName ++ "' object is not a list")

/-- The elements of `list(v)`. -/
def elements : PyVal K → Py (List (PyVal K))
  | list vs => .ok vs
  | str s => .ok (s.toList.map fun c => .str (String.singleton c))
  | dict kvs => .ok (kvs.map fun p => .str p.1)
  | v => raise .TypeError ("'" ++ v.typeName ++ "' object is not iterable")

/-- `v is None`. -/
def isNone : PyVal K → Bool
  | none => true
  | _ => false

/-- `d.get(k, default)`; of no dict there is no `get`. -/
def getD (v : PyVal K) (k : String) (default : PyVal K) : PyVal K :=
  (v.get? k).getD default

mutual

/-- The value with every dict's keys sorted. -/
def canon : PyVal K → PyVal K
  | .list vs => .list (canonList vs)
  | .dict kvs => .dict ((canonDict kvs).insertionSort fun p q => p.1 ≤ q.1)
  | v => v

/-- It of each entry of a list, -/
def canonList : List (PyVal K) → List (PyVal K)
  | [] => []
  | v :: vs => canon v :: canonList vs

/-- and of each value of a dict, the keys left as they are. -/
def canonDict : List (String × PyVal K) → List (String × PyVal K)
  | [] => []
  | (k, v) :: kvs => (k, canon v) :: canonDict kvs

end

@[simp] theorem canon_none : canon (K := K) none = none := by simp [canon]

@[simp] theorem canon_bool (b : Bool) : canon (K := K) (bool b) = bool b := by
  simp [canon]

@[simp] theorem canon_int (n : Int) : canon (K := K) (int n) = int n := by
  simp [canon]

@[simp] theorem canon_float (x : PyFloat K) : canon (float x) = float x := by
  simp [canon]

@[simp] theorem canon_str (s : String) : canon (K := K) (str s) = str s := by
  simp [canon]

/-- A list's is its entries'. -/
theorem canonList_eq_map (vs : List (PyVal K)) :
    canonList vs = vs.map canon := by
  induction vs with
  | nil => rfl
  | cons v vs ih => rw [canonList, ih, List.map_cons]

theorem lookup_canonDict (k : String) (kvs : List (String × PyVal K)) :
    (canonDict kvs).lookup k = (kvs.lookup k).map canon := by
  induction kvs with
  | nil => rfl
  | cons p kvs ih =>
      obtain ⟨k', v⟩ := p
      rw [canonDict, List.lookup_cons, List.lookup_cons, ih]
      cases k == k' with
      | true => rfl
      | false => rfl

/-- A sorted dict has the entries it had. -/
theorem lookup_insertionSort (k : String) (kvs : List (String × PyVal K)) :
    (kvs.insertionSort fun p q => p.1 ≤ q.1).lookup k = kvs.lookup k := by
  have hinsert : ∀ (p : String × PyVal K) (kvs : List (String × PyVal K)),
      (kvs.orderedInsert (fun p q => p.1 ≤ q.1) p).lookup k
        = (p :: kvs).lookup k := by
    intro p kvs
    induction kvs with
    | nil => rfl
    | cons q kvs ih =>
        rw [List.orderedInsert]
        split
        case isTrue => rfl
        case isFalse hle =>
          -- `q` stays in front of `p`, and their keys differ
          have hne : q.1 ≠ p.1 := fun h => hle (le_of_eq h.symm)
          obtain ⟨a, v⟩ := p
          obtain ⟨b, w⟩ := q
          rw [List.lookup_cons, ih, List.lookup_cons, List.lookup_cons,
            List.lookup_cons]
          by_cases ha : k = a
          · have hb : k ≠ b := fun h => hne (h.symm.trans ha)
            simp [ha, beq_false_of_ne (ha ▸ hb)]
          · simp [beq_false_of_ne ha]
  induction kvs with
  | nil => rfl
  | cons p kvs ih =>
      obtain ⟨a, v⟩ := p
      rw [List.insertionSort_cons, hinsert, List.lookup_cons, List.lookup_cons,
        ih]

/-- Reading a key of the canonical value. -/
theorem get?_canon (k : String) (v : PyVal K) :
    (canon v).get? k = (v.get? k).map canon := by
  cases v with
  | dict kvs =>
      rw [canon]
      show List.lookup k _ = _
      rw [lookup_insertionSort, lookup_canonDict]
      rfl
  | list vs => rw [canon]; rfl
  | none => rw [canon_none]; rfl
  | bool b => rw [canon_bool]; rfl
  | int n => rw [canon_int]; rfl
  | float x => rw [canon_float]; rfl
  | str s => rw [canon_str]; rfl

/-- Values with one canonical form have the same entries, up to theirs. -/
theorem get?_of_canon_eq {v w : PyVal K} (h : canon v = canon w) (k : String) :
    (v.get? k).map canon = (w.get? k).map canon := by
  rw [← get?_canon, ← get?_canon, h]

/-- What two dicts of one canonical form have under a key has one too. -/
theorem entry_of_canon_eq {v w x y : PyVal K} (h : canon v = canon w)
    {k : String} (hx : v.get? k = some x) (hy : w.get? k = some y) :
    canon x = canon y := by
  have hmap := get?_of_canon_eq h k
  rw [hx, hy] at hmap
  exact Option.some.inj hmap

/-- `v[k]` that returned is what is there. -/
theorem get?_of_item {v x : PyVal K} {k : String} (h : v.item k = .ok x) :
    v.get? k = some x := by
  cases v with
  | dict kvs =>
      cases hk : kvs.lookup k with
      | none =>
          simp only [item, hk] at h
          cases h
      | some w =>
          simp only [item, hk] at h
          cases h
          exact hk
  | none => cases h
  | bool b => cases h
  | int n => cases h
  | float x => cases h
  | str s => cases h
  | list vs => cases h

/-- What does not look into lists and dicts sees no canonical form. -/
theorem apply_canon {α : Type} {f : PyVal K → α}
    (hlist : ∀ vs ws, f (list vs) = f (list ws))
    (hdict : ∀ kvs kws, f (dict kvs) = f (dict kws)) (v : PyVal K) :
    f (canon v) = f v := by
  cases v with
  | dict kvs =>
      rw [canon]
      exact hdict _ kvs
  | list vs =>
      rw [canon]
      exact hlist _ vs
  | none => rw [canon_none]
  | bool b => rw [canon_bool]
  | int n => rw [canon_int]
  | float x => rw [canon_float]
  | str s => rw [canon_str]

/-- A conversion that does not see the order of keys. -/
theorem eq_of_canon_eq {α : Type} {f : PyVal K → α}
    (hf : ∀ v, f (canon v) = f v) {v w : PyVal K} (h : canon v = canon w) :
    f v = f w := by
  rw [← hf v, h, hf]

/-- A float is its own canonical form. -/
theorem float_of_canon_eq {x y : PyFloat K}
    (h : canon (float x) = canon (float y)) : x = y := by
  simpa using h

/-- Lists of one canonical form, of values that are told apart by theirs. -/
theorem list_of_canon_eq {α : Type} {f : α → PyVal K}
    (hf : ∀ a b, canon (f a) = canon (f b) → a = b) {xs ys : List α}
    (h : canon (list (xs.map f)) = canon (list (ys.map f))) : xs = ys := by
  rw [canon, canon, canonList_eq_map, canonList_eq_map, List.map_map,
    List.map_map] at h
  exact List.map_injective_iff.2 (fun a b hab => hf a b hab)
    (PyVal.list.inj h)

section

variable [Field K]

/-- `bool(v)`. -/
def truthy [DecidableEq K] : PyVal K → Bool
  | none => false
  | bool b => b
  | int n => n ≠ 0
  | float x => x ≠ .fin 0
  | str s => s ≠ ""
  | list vs => !vs.isEmpty
  | dict kvs => !kvs.isEmpty

/-- `float(v)`. An int past the range of a float, for which Python raises
`OverflowError`, is the number it is. -/
def pyFloat : PyVal K → Py (PyFloat K)
  | int n => .ok (.fin n)
  | bool b => .ok (.fin (if b then 1 else 0))
  | float x => .ok x
  | str s =>
      match parseFloat s with
      | some x => .ok x
      | Option.none => raise .ValueError s!"could not convert string to float: '{s}'"
  | v => raise .TypeError
      ("float() argument must be a string or a real number, not '"
        ++ v.typeName ++ "'")

/-- `float(v)`, as an operand. -/
def number (v : PyVal K) : Py K := do
  let x ← v.pyFloat
  x.finite

/-- `float()` does not see the order of the keys, -/
theorem pyFloat_canon (v : PyVal K) : (canon v).pyFloat = v.pyFloat :=
  apply_canon (fun _ _ => rfl) (fun _ _ => rfl) v

/-- nor does a float in arithmetic. -/
theorem number_canon (v : PyVal K) : (canon v).number = v.number := by
  rw [number, pyFloat_canon, number]

variable [LinearOrder K] [FloorRing K]

/-- A float cut off towards zero. -/
def truncate (x : K) : Int := if 0 ≤ x then ⌊x⌋ else ⌈x⌉

/-- `int(v)`. -/
def pyInt : PyVal K → Py Int
  | int n => .ok n
  | bool b => .ok (if b then 1 else 0)
  | float (.fin x) => .ok (truncate x)
  | float (.inf _) => raise .OverflowError "cannot convert float infinity to integer"
  | float .nan => raise .ValueError "cannot convert float NaN to integer"
  | str s =>
      match parseInt s with
      | some n => .ok n
      | Option.none => raise .ValueError
          s!"invalid literal for int() with base 10: '{s}'"
  | v => raise .TypeError
      ("int() argument must be a string, a bytes-like object or a real "
        ++ "number, not '" ++ v.typeName ++ "'")

/-- `int()` does not see it either. -/
theorem pyInt_canon (v : PyVal K) : (canon v).pyInt = v.pyInt :=
  apply_canon (fun _ _ => rfl) (fun _ _ => rfl) v

end

/-- The text a string value is; no other value's `str()` is one of the
texts the code compares with. -/
def asText? : PyVal K → Option String
  | str s => some s
  | _ => Option.none

/-- Nor does a look for a text. -/
theorem asText?_canon (v : PyVal K) : (canon v).asText? = v.asText? :=
  apply_canon (fun _ _ => rfl) (fun _ _ => rfl) v

end PyVal

-- ==================================================== equality of values

namespace PyVal

variable {K : Type} [Field K] [LinearOrder K]

/-- What a number or a `bool` is worth in a comparison. -/
def num? : PyVal K → Option (PyFloat K)
  | bool b => some (.fin (if b then 1 else 0))
  | int n => some (.fin n)
  | float x => some x
  | _ => Option.none

mutual

/-- `v == w`: numbers by worth, dicts whatever their order. -/
def pyEq : PyVal K → PyVal K → Bool
  | .list vs, w =>
      match w with
      | .list ws => pyEqList vs ws
      | _ => false
  | .dict kvs, w =>
      match w with
      | .dict kws => kvs.length == kws.length && pyEqEntries kvs kws
      | _ => false
  | .str s, w => w.asText? == some s
  | .none, w => match w with
      | .none => true
      | _ => false
  | v, w =>
      match v.num?, w.num? with
      | some x, some y => x.eq y
      | _, _ => false

/-- `==` of two lists, entry by entry, -/
def pyEqList : List (PyVal K) → List (PyVal K) → Bool
  | [], ws => ws.isEmpty
  | v :: vs, ws =>
      match ws with
      | [] => false
      | w :: ws => pyEq v w && pyEqList vs ws

/-- and of two dicts, key by key. -/
def pyEqEntries : List (String × PyVal K) → List (String × PyVal K) → Bool
  | [], _ => true
  | (k, v) :: kvs, kws =>
      (match kws.lookup k with
        | some w => pyEq v w
        | Option.none => false) && pyEqEntries kvs kws

end

end PyVal

-- ================================================================= math

/-- The transcendental functions of the `math` module. -/
structure Libm (K : Type) where
  exp : K → K
  log : K → K
  sqrt : K → K
  pi : K

/-- Rational stand-ins, exact at `exp 0`, at `log 1` and at the roots of
perfect squares, for closed runs whose values ask for no more. -/
def ratMath : Libm ℚ where
  exp x := 1 + x
  log x := x - 1
  sqrt := Rat.sqrt
  pi := 22 / 7

/-- `x ** y` of a positive `x`. -/
def Libm.pow {K : Type} [Field K] (lib : Libm K) (x y : K) : K :=
  lib.exp (y * lib.log x)

section

variable {K : Type} [Field K] [LinearOrder K]

/-- `x / y` on Python floats. -/
def pyDiv (x y : K) : Py K :=
  if y = 0 then raise .ZeroDivisionError "float division by zero"
  else .ok (x / y)

/-- `x / y` on numpy floats; by zero it is no number. -/
def npDiv (x y : K) : Py K :=
  if y = 0 then raise .NotFinite "" else .ok (x / y)

/-- `math.sqrt`. -/
def Libm.mathSqrt (lib : Libm K) (x : K) : Py K :=
  if x < 0 then raise .ValueError "math domain error" else .ok (lib.sqrt x)

/-- `math.log`. -/
def Libm.mathLog (lib : Libm K) (x : K) : Py K :=
  if x ≤ 0 then raise .ValueError "math domain error" else .ok (lib.log x)

/-- `np.log` of one entry; of a non-positive one it is no number. -/
def Libm.npLog (lib : Libm K) (x : K) : Py K :=
  if x ≤ 0 then raise .NotFinite "" else .ok (lib.log x)

end

end Proofstand
