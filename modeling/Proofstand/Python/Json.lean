/-
`json.dumps` and `json.loads`, and with them the text `canonical_hash`
hashes.

A writer's style is its separators and its indent; `sort_keys` is `canon`
before it writes. The text of a float is `float.__repr__`, a parameter. A
reader raises one error for whatever is wrong, without the position; a lone
half of a surrogate pair, which Python takes for a character, is one of
them.
-/
import Proofstand.Lib.JsonText
import Proofstand.Agents.Base

namespace Proofstand.Json

open JsonText

variable {K : Type}

-- =============================================================== writing

/-- `separators` and `indent`. -/
structure Style where
  itemSpace : Bool
  keySpace : Bool
  indent : Option Nat

/-- `separators=(",", ":")`. -/
def compact : Style := ⟨false, false, none⟩

/-- `indent=n`. -/
def indented (n : Nat) : Style := ⟨false, true, some n⟩

namespace Style

/-- What follows a comma, -/
def itemGap (st : Style) : List Char := if st.itemSpace then [' '] else []

/-- and what follows a colon. -/
def keyGap (st : Style) : List Char := if st.keySpace then [' '] else []

/-- A line break and the blanks before what stands at a level, where the
style indents. -/
def newline (st : Style) (level : Nat) : List Char :=
  match st.indent with
  | none => []
  | some n => '\n' :: List.replicate (n * level) ' '

/-- What stands between a comma and the next item of a level. -/
def gap (st : Style) (level : Nat) : List Char :=
  st.itemGap ++ st.newline level

end Style

/-- The items behind the first, each with its comma. -/
def behind (gap : List Char) (pieces : List (List Char)) : List Char :=
  pieces.flatMap fun p => ',' :: (gap ++ p)

/-- Pieces of one level in their brackets. -/
def bracketed (st : Style) (level : Nat) (left right : Char) :
    List (List Char) → List Char
  | [] => [left, right]
  | p :: ps =>
      left :: (st.newline (level + 1)
        ++ (p ++ (behind (st.gap (level + 1)) ps
          ++ (st.newline level ++ [right]))))

/-- `float.__repr__`, and the words for what is no number. -/
def floatText (repr : K → String) : PyFloat K → String
  | .fin x => repr x
  | .inf neg => if neg then "-Infinity" else "Infinity"
  | .nan => "NaN"

mutual

/-- The text of a value, at a level. -/
def text (st : Style) (repr : K → String) (level : Nat) :
    PyVal K → List Char
  | .none => "null".toList
  | .bool b => (if b then "true" else "false").toList
  | .int n => intText n
  | .float x => (floatText repr x).toList
  | .str s => quote s.toList
  | .list vs => bracketed st level '[' ']' (items st repr (level + 1) vs)
  | .dict kvs => bracketed st level '{' '}' (entries st repr (level + 1) kvs)

/-- The texts of a list's entries, -/
def items (st : Style) (repr : K → String) (level : Nat) :
    List (PyVal K) → List (List Char)
  | [] => []
  | v :: vs => text st repr level v :: items st repr level vs

/-- and of a dict's, each behind its key. -/
def entries (st : Style) (repr : K → String) (level : Nat) :
    List (String × PyVal K) → List (List Char)
  | [] => []
  | (k, v) :: kvs =>
      (quote k.toList ++ ':' :: (st.keyGap ++ text st repr level v))
        :: entries st repr level kvs

end

/-- `json.dumps(v, …)`. -/
def dumps (st : Style) (repr : K → String) (v : PyVal K) : String :=
  String.ofList (text st repr 0 v)

-- =============================================================== reading

/-- White space between tokens. -/
def isBlank (c : Char) : Bool :=
  c == ' ' || c == '\t' || c == '\n' || c == '\r'

/-- The text from the next token on. -/
def skipBlanks (cs : List Char) : List Char := cs.dropWhile isBlank

/-- What follows a character, where that is the first. -/
def expect (c : Char) : List Char → Option (List Char)
  | [] => none
  | d :: rest => if d = c then some rest else none

/-- What follows a word, where the text begins with it. -/
def afterWord (word cs : List Char) : Option (List Char) :=
  if word.isPrefixOf cs then some (cs.drop word.length) else none

/-- The value of the first of some words that the text begins with. -/
def takeWord (words : List (String × PyVal K)) (cs : List Char) :
    Option (PyVal K × List Char) :=
  words.findSome? fun (word, v) =>
    (afterWord word.toList cs).map fun rest => (v, rest)

/-- The words of JSON, -/
def words : List (String × PyVal K) :=
  [("null", .none), ("true", .bool true), ("false", .bool false)]

/-- and those only Python writes. -/
def floatWords : List (String × PyVal K) :=
  [("NaN", .float .nan), ("Infinity", .float (.inf false)),
   ("-Infinity", .float (.inf true))]

/-- `dict(pairs)`. -/
def dictOf (pairs : Dict K) : Dict K :=
  pairs.foldl (fun d p => d.set p.1 p.2) []

section

variable [Field K]

/-- `int(…)` or `float(…)` of a number's text. -/
def ofNumber (digits : List Char) (isInt : Bool) : Option (PyVal K) :=
  if isInt then (parseInt (String.ofList digits)).map .int
  else (parseFloat (String.ofList digits)).map .float

/-- A word, a number or one of the words that stand for one. -/
def scanAtom (cs : List Char) : Option (PyVal K × List Char) :=
  match takeWord words cs with
  | some p => some p
  | none =>
      match readNumber cs with
      | some (digits, isInt, rest) =>
          (ofNumber digits isInt).map fun v => (v, rest)
      | none => takeWord floatWords cs

mutual

/-- A value, and what follows it. -/
def scanOnce : Nat → List Char → Option (PyVal K × List Char)
  | 0, _ => none
  | _ + 1, [] => none
  | fuel + 1, c :: rest =>
      if c = '"' then
        (readString rest).map fun (s, rest) => (.str (String.ofList s), rest)
      else if c = '[' then
        match expect ']' (skipBlanks rest) with
        | some rest => some (.list [], rest)
        | none =>
            (scanItems fuel (skipBlanks rest)).map fun (vs, rest) =>
              (.list vs, rest)
      else if c = '{' then
        match expect '}' (skipBlanks rest) with
        | some rest => some (.dict [], rest)
        | none =>
            (scanEntries fuel (skipBlanks rest)).map fun (kvs, rest) =>
              (.dict (dictOf kvs), rest)
      else scanAtom (c :: rest)

/-- The items up to the closing bracket. -/
def scanItems : Nat → List Char → Option (List (PyVal K) × List Char)
  | 0, _ => none
  | fuel + 1, cs => do
      let (v, rest) ← scanOnce fuel cs
      match expect ']' (skipBlanks rest) with
      | some rest => pure ([v], rest)
      | none => do
          let rest ← expect ',' (skipBlanks rest)
          let (vs, rest) ← scanItems fuel (skipBlanks rest)
          pure (v :: vs, rest)

/-- The entries up to the closing brace. -/
def scanEntries : Nat → List Char → Option (Dict K × List Char)
  | 0, _ => none
  | fuel + 1, cs => do
      let rest ← expect '"' cs
      let (k, rest) ← readString rest
      let rest ← expect ':' (skipBlanks rest)
      let (v, rest) ← scanOnce fuel (skipBlanks rest)
      match expect '}' (skipBlanks rest) with
      | some rest => pure ([(String.ofList k, v)], rest)
      | none => do
          let rest ← expect ',' (skipBlanks rest)
          let (kvs, rest) ← scanEntries fuel (skipBlanks rest)
          pure ((String.ofList k, v) :: kvs, rest)

end

/-- `json.loads`. Each step takes a character or opens a level, so twice
the length is fuel enough. -/
def loads (s : String) : Py (PyVal K) :=
  match scanOnce (2 * s.length) (skipBlanks s.toList) with
  | some (v, rest) =>
      if skipBlanks rest = [] then .ok v else raise .ValueError "Extra data"
  | none => raise .ValueError "Expecting value"

end

-- ======================================================== canonical_hash

/-- `json.dumps(obj, sort_keys=True, separators=(",", ":"))`, hashed, as
`canonical_hash` has it of values with sorted keys. -/
def shaOfText (sha256 : String → String) (repr : K → String)
    (v : PyVal K) : String :=
  sha256 (dumps compact repr v)

end Proofstand.Json
