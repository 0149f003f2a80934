/-
The lexical part of JSON in ASCII: quoted strings and numbers, as a writer
spells them and a reader takes them back.

A character outside printable ASCII is written as its UTF-16 units, one
`\uXXXX` each, and a reader joins a pair of halves again (`joinPairs`). A
string ends at its quote whatever follows (`readString_quote`); a number
ends where nothing behind it continues it (`Stops`, `readNumber_append`).
And a token that has ended is read the same whatever follows
(`readString_append`, `readNumber_more`).

# Tokens that end

A reader of JSON does not know where a token ends before it has seen what
comes next. The lemmas about single tokens are therefore stated with the
rest of the text behind them: a string is over at its closing quote, so any
rest will do; a number is over only where the next character can not
continue it, which is `Stops`. Each part of a number (its sign, its digits,
its fraction, its exponent) is a function that takes as much as it can,
and `*_append` says that it takes the same with a rest behind it.

# Cut short

A text that is cut off in the middle of a token is read differently, and
what is read of it may still be a number. A string that was read is read
the same with more behind it (`readString_append`); a number is, where
something that stops it follows already (`readNumber_more`).

# UTF-16

Only the writer decides which characters become escapes; the reader takes
any unit. A pair of halves is joined. A half that is alone is no
character, and a string with one is not read; the writer, which starts
from characters, produces none (`decodeUnits_utf16`).
-/
import Proofstand.Lib.Hex

namespace Proofstand.JsonText

open Hex

-- ============================================================== UTF-16

/-- The units of a code point. -/
def utf16 (n : Nat) : List Nat :=
  if n < 0x10000 then [n]
  else [0xD800 + (n - 0x10000) / 0x400, 0xDC00 + (n - 0x10000) % 0x400]

def isHigh (u : Nat) : Bool := 0xD800 ≤ u && u ≤ 0xDBFF

def isLow (u : Nat) : Bool := 0xDC00 ≤ u && u ≤ 0xDFFF

/-- The code points of a list of units; a half alone stays what it is. -/
def joinPairs : List Nat → List Nat
  | [] => []
  | [u] => [u]
  | u :: v :: us =>
      if isHigh u && isLow v then
        (0x10000 + (u - 0xD800) * 0x400 + (v - 0xDC00)) :: joinPairs us
      else u :: joinPairs (v :: us)

theorem joinPairs_of_not_high {u : Nat} (h : isHigh u = false)
    (us : List Nat) : joinPairs (u :: us) = u :: joinPairs us := by
  cases us with
  | nil => rfl
  | cons v rest =>
      rw [joinPairs, h, Bool.false_and]
      rfl

/-- A character is no half of a pair. -/
theorem not_surrogate (c : Char) :
    c.toNat < 0xD800 ∨ (0xDFFF < c.toNat ∧ c.toNat < 0x110000) :=
  c.valid

/-- The units of a character are joined into its code point again. -/
theorem joinPairs_utf16 (c : Char) (us : List Nat) :
    joinPairs (utf16 c.toNat ++ us) = c.toNat :: joinPairs us := by
  have hvalid := not_surrogate c
  rw [utf16]
  split
  case isTrue hsmall =>
    apply joinPairs_of_not_high
    rw [isHigh, Bool.and_eq_false_iff, decide_eq_false_iff_not,
      decide_eq_false_iff_not]
    omega
  case isFalse hlarge =>
    have hhigh : isHigh (0xD800 + (c.toNat - 0x10000) / 0x400) = true := by
      rw [isHigh, Bool.and_eq_true, decide_eq_true_eq, decide_eq_true_eq]
      omega
    have hlow : isLow (0xDC00 + (c.toNat - 0x10000) % 0x400) = true := by
      rw [isLow, Bool.and_eq_true, decide_eq_true_eq, decide_eq_true_eq]
      omega
    have hcode : 0x10000
        + (0xD800 + (c.toNat - 0x10000) / 0x400 - 0xD800) * 0x400
        + (0xDC00 + (c.toNat - 0x10000) % 0x400 - 0xDC00) = c.toNat := by
      omega
    rw [List.cons_append, List.cons_append, List.nil_append, joinPairs,
      hhigh, hlow, Bool.and_self, if_pos rfl, hcode]

/-- A code point as a character, if it is one. -/
def toChar? (n : Nat) : Option Char :=
  if n.isValidChar then some (Char.ofNat n) else none

theorem toChar?_toNat (c : Char) : toChar? c.toNat = some c := by
  have hvalid : c.toNat.isValidChar := c.valid
  rw [toChar?, if_pos hvalid, Char.ofNat_toNat]

/-- The text a list of units is, if none of its halves is alone. -/
def decodeUnits (us : List Nat) : Option (List Char) :=
  (joinPairs us).mapM toChar?

theorem decodeUnits_utf16 (c : Char) (us : List Nat) :
    decodeUnits (utf16 c.toNat ++ us)
      = (decodeUnits us).map (c :: ·) := by
  rw [decodeUnits, joinPairs_utf16, List.mapM_cons, toChar?_toNat,
    decodeUnits]
  cases (joinPairs us).mapM toChar? with
  | none => rfl
  | some s => rfl

-- ============================================================== strings

theorem neZero_16 : NeZero 16 := ⟨by decide⟩

/-- The last digit of a number in base 16. -/
def lastDigit (u : Nat) : Char :=
  lowerDigit (@Fin.ofNat 16 neZero_16 u)

/-- Four lower-case digits. -/
def hex4 (u : Nat) : List Char :=
  [lastDigit (u / 4096), lastDigit (u / 256), lastDigit (u / 16),
    lastDigit u]

def readHex4 (a b c d : Char) : Option Nat := do
  let w ← hexVal a
  let x ← hexVal b
  let y ← hexVal c
  let z ← hexVal d
  pure (((w.val * 16 + x.val) * 16 + y.val) * 16 + z.val)

/-- The character behind a backslash, for the ones with a short escape. -/
def shortEscape : Char → Option Char
  | '"' => some '"'
  | '\\' => some '\\'
  | '\x08' => some 'b'
  | '\x0c' => some 'f'
  | '\n' => some 'n'
  | '\r' => some 'r'
  | '\t' => some 't'
  | _ => none

/-- What a backslash and a character stand for. -/
def unescape : Char → Option Char
  | '"' => some '"'
  | '\\' => some '\\'
  | '/' => some '/'
  | 'b' => some '\x08'
  | 'f' => some '\x0c'
  | 'n' => some '\n'
  | 'r' => some '\r'
  | 't' => some '\t'
  | _ => none

/-- What is written as it is, unless it is a quote or a backslash. -/
def isPrintable (c : Char) : Bool := 0x20 ≤ c.toNat && c.toNat ≤ 0x7e

/-- A character inside a string. -/
def escapeChar (c : Char) : List Char :=
  match shortEscape c with
  | some e => ['\\', e]
  | none =>
      if isPrintable c then [c]
      else (utf16 c.toNat).flatMap fun u => '\\' :: 'u' :: hex4 u

/-- A string, quoted. -/
def quote (s : List Char) : List Char :=
  '"' :: (s.flatMap escapeChar ++ ['"'])

/-- The units of a string up to its closing quote, and what follows; a
control character is not taken. -/
def readUnits : List Char → Option (List Nat × List Char)
  | [] => none
  | c :: rest =>
      if c = '"' then some ([], rest)
      else if c = '\\' then
        match rest with
        | [] => none
        | e :: rest =>
            if e = 'u' then
              match rest with
              | a :: b :: c :: d :: rest => do
                  let u ← readHex4 a b c d
                  let (us, tail) ← readUnits rest
                  pure (u :: us, tail)
              | _ => none
            else do
              let c ← unescape e
              let (us, tail) ← readUnits rest
              pure (c.toNat :: us, tail)
      else if c.toNat < 0x20 then none
      else do
        let (us, tail) ← readUnits rest
        pure (utf16 c.toNat ++ us, tail)

/-- A string behind its opening quote, and what follows it. -/
def readString (cs : List Char) : Option (List Char × List Char) := do
  let (us, tail) ← readUnits cs
  let s ← decodeUnits us
  pure (s, tail)

/-- A short escape is read as the character it stands for. -/
theorem readUnits_short {e c : Char} (hu : e ≠ 'u')
    (h : unescape e = some c) (cs : List Char) :
    readUnits ('\\' :: e :: cs)
      = (readUnits cs).map fun p => (c.toNat :: p.1, p.2) := by
  rw [readUnits.eq_def]
  simp only [if_neg hu, h]
  cases readUnits cs with
  | none => rfl
  | some p => rfl

theorem readUnits_plain {c : Char} (hquote : c ≠ '"') (hslash : c ≠ '\\')
    (hcontrol : ¬ c.toNat < 0x20) (cs : List Char) :
    readUnits (c :: cs)
      = (readUnits cs).map fun p => (utf16 c.toNat ++ p.1, p.2) := by
  rw [readUnits.eq_def]
  simp only [if_neg hquote, if_neg hslash, if_neg hcontrol]
  cases readUnits cs with
  | none => rfl
  | some p => rfl

theorem readHex4_hex4 {u : Nat} (h : u < 0x10000) {a b c d : Char}
    (hex : hex4 u = [a, b, c, d]) : readHex4 a b c d = some u := by
  cases hex
  simp only [readHex4, lastDigit, hexVal_lowerDigit, Fin.ofNat, bind,
    Option.bind, pure,
    Option.some.injEq]
  omega

/-- A unit, escaped. -/
theorem readUnits_hex4 {u : Nat} (h : u < 0x10000) (cs : List Char) :
    readUnits ('\\' :: 'u' :: hex4 u ++ cs)
      = (readUnits cs).map fun p => (u :: p.1, p.2) := by
  have hread := readHex4_hex4 h rfl
  simp only [hex4, List.cons_append, List.nil_append, readUnits, hread]
  cases readUnits cs with
  | none => rfl
  | some p => rfl

theorem utf16_lt {c : Char} {u : Nat} (h : u ∈ utf16 c.toNat) :
    u < 0x10000 := by
  have hvalid := not_surrogate c
  rw [utf16] at h
  split at h
  case isTrue hsmall =>
    rw [List.mem_singleton] at h
    omega
  case isFalse hlarge =>
    rcases List.mem_cons.1 h with rfl | h
    · omega
    · rw [List.mem_singleton] at h
      omega

/-- Units written as escapes are read back, one by one. -/
theorem readUnits_hexUnits {us : List Nat} (h : ∀ u ∈ us, u < 0x10000)
    (cs : List Char) :
    readUnits ((us.flatMap fun u => '\\' :: 'u' :: hex4 u) ++ cs)
      = (readUnits cs).map fun p => (us ++ p.1, p.2) := by
  induction us with
  | nil =>
      rw [List.flatMap_nil, List.nil_append]
      cases readUnits cs with
      | none => rfl
      | some p => rfl
  | cons u us ih =>
      obtain ⟨hu, hus⟩ := List.forall_mem_cons.1 h
      rw [List.flatMap_cons, List.append_assoc, readUnits_hex4 hu, ih hus,
        Option.map_map]
      rfl

/-- A short escape, read back. -/
theorem unescape_shortEscape {c e : Char} (h : shortEscape c = some e) :
    e ≠ 'u' ∧ unescape e = some c ∧ c.toNat < 0x10000 := by
  unfold shortEscape at h
  split at h
  case h_8 => cases h
  all_goals
    cases h
    decide

/-- A character inside a string, read back as its units. -/
theorem readUnits_escapeChar (c : Char) (cs : List Char) :
    readUnits (escapeChar c ++ cs)
      = (readUnits cs).map fun p => (utf16 c.toNat ++ p.1, p.2) := by
  rw [escapeChar]
  cases hshort : shortEscape c with
  | some e =>
      obtain ⟨hu, hback, hsmall⟩ := unescape_shortEscape hshort
      have hunits : utf16 c.toNat = [c.toNat] := if_pos hsmall
      show readUnits ('\\' :: e :: cs) = _
      rw [readUnits_short hu hback, hunits]
      cases readUnits cs with
      | none => rfl
      | some p => rfl
  | none =>
      dsimp only
      split
      case isFalse => exact readUnits_hexUnits (fun u hu => utf16_lt hu) cs
      case isTrue hprint =>
        -- the quote and the backslash have short escapes
        have hquote : c ≠ '"' := by
          intro heq
          subst heq
          cases hshort
        have hslash : c ≠ '\\' := by
          intro heq
          subst heq
          cases hshort
        rw [isPrintable, Bool.and_eq_true, decide_eq_true_eq] at hprint
        exact readUnits_plain hquote hslash (not_lt.2 hprint.1) cs

/-- What was quoted is read back, whatever follows. -/
theorem readString_quote (s rest : List Char) :
    readString (s.flatMap escapeChar ++ '"' :: rest) = some (s, rest) := by
  have hunits : ∀ s : List Char,
      readUnits (s.flatMap escapeChar ++ '"' :: rest)
        = some (s.flatMap fun c => utf16 c.toNat, rest) := by
    intro s
    induction s with
    | nil =>
        rw [List.flatMap_nil, List.nil_append, readUnits.eq_def]
        rfl
    | cons c s ih =>
        rw [List.flatMap_cons, List.append_assoc, readUnits_escapeChar, ih]
        rfl
  have hdecode : ∀ s : List Char,
      decodeUnits (s.flatMap fun c => utf16 c.toNat) = some s := by
    intro s
    induction s with
    | nil => rfl
    | cons c s ih => rw [List.flatMap_cons, decodeUnits_utf16, ih]; rfl
  rw [readString, hunits]
  show (decodeUnits _).bind _ = _
  rw [hdecode]
  rfl

-- ============================================================== numbers

/-- An unsigned integer without leading zeros, and what follows. -/
def takeInt : List Char → Option (List Char × List Char)
  | [] => none
  | c :: rest =>
      if c = '0' then some (['0'], rest)
      else if c.isDigit then
        some (c :: rest.takeWhile Char.isDigit, rest.dropWhile Char.isDigit)
      else none

/-- A point with digits behind it, if there is one. -/
def takeFrac : List Char → List Char × List Char
  | [] => ([], [])
  | c :: rest =>
      if c = '.' ∧ rest.takeWhile Char.isDigit ≠ [] then
        (c :: rest.takeWhile Char.isDigit, rest.dropWhile Char.isDigit)
      else ([], c :: rest)

/-- A sign of an exponent, if there is one. -/
def takeExpSign : List Char → List Char × List Char
  | [] => ([], [])
  | c :: rest => if c = '+' ∨ c = '-' then ([c], rest) else ([], c :: rest)

/-- An exponent, if there is one. -/
def takeExp : List Char → List Char × List Char
  | [] => ([], [])
  | c :: rest =>
      let sign := takeExpSign rest
      if (c = 'e' ∨ c = 'E') ∧ sign.2.takeWhile Char.isDigit ≠ [] then
        (c :: (sign.1 ++ sign.2.takeWhile Char.isDigit),
          sign.2.dropWhile Char.isDigit)
      else ([], c :: rest)

def takeMinus : List Char → List Char × List Char
  | [] => ([], [])
  | c :: rest => if c = '-' then ([c], rest) else ([], c :: rest)

/-- A number: its text, whether it is an integer, and what follows. -/
def readNumber (cs : List Char) : Option (List Char × Bool × List Char) := do
  let (sign, cs) := takeMinus cs
  let (whole, cs) ← takeInt cs
  let (frac, cs) := takeFrac cs
  let (exp, cs) := takeExp cs
  pure (sign ++ whole ++ frac ++ exp, frac.isEmpty && exp.isEmpty, cs)

/-- No character in front of `rest` continues a number. -/
def Stops (rest : List Char) : Prop :=
  ∀ c, rest.head? = some c → c.isDigit = false ∧ c ≠ '.' ∧ c ≠ 'e' ∧ c ≠ 'E'
    ∧ c ≠ '+' ∧ c ≠ '-'

theorem stops_nil : Stops [] := fun _ h => by cases h

theorem stops_cons {c : Char} (rest : List Char)
    (h : c ∈ [',', ']', '}', ' ', '\n']) : Stops (c :: rest) := by
  intro d hd
  cases hd
  simp only [List.mem_cons, List.not_mem_nil, or_false] at h
  rcases h with rfl | rfl | rfl | rfl | rfl
  all_goals decide

/-- No digit follows the number. -/
theorem Stops.not_digit {rest : List Char} (h : Stops rest) :
    rest.takeWhile Char.isDigit = [] := by
  cases rest with
  | nil => rfl
  | cons c rest =>
      rw [List.takeWhile_cons, (h c rfl).1]
      rfl

/-- So what follows adds nothing to a run of digits, -/
theorem takeWhile_append_of_stops (cs : List Char) {rest : List Char}
    (h : Stops rest) :
    (cs ++ rest).takeWhile Char.isDigit = cs.takeWhile Char.isDigit := by
  induction cs with
  | nil => rw [List.nil_append, h.not_digit, List.takeWhile_nil]
  | cons c cs ih =>
      rw [List.cons_append, List.takeWhile_cons, List.takeWhile_cons, ih]

/-- and is left behind it. -/
theorem dropWhile_append_of_stops (cs : List Char) {rest : List Char}
    (h : Stops rest) :
    (cs ++ rest).dropWhile Char.isDigit
      = cs.dropWhile Char.isDigit ++ rest := by
  induction cs with
  | nil =>
      cases rest with
      | nil => rfl
      | cons c rest =>
          rw [List.nil_append, List.dropWhile_cons, (h c rfl).1]
          rfl
  | cons c cs ih =>
      rw [List.cons_append, List.dropWhile_cons, List.dropWhile_cons]
      split
      · exact ih
      · rfl

theorem takeInt_append (cs : List Char) {rest : List Char} (h : Stops rest) :
    takeInt (cs ++ rest)
      = (takeInt cs).map fun p => (p.1, p.2 ++ rest) := by
  cases cs with
  | nil =>
      cases rest with
      | nil => rfl
      | cons c rest =>
          obtain ⟨hdigit, -⟩ := h c rfl
          have hzero : c ≠ '0' := by
            intro heq
            subst heq
            cases hdigit
          simp only [List.nil_append, takeInt, if_neg hzero, hdigit,
            Bool.false_eq_true, if_false, Option.map_none]
  | cons c cs =>
      rw [List.cons_append, takeInt, takeInt,
        takeWhile_append_of_stops cs h, dropWhile_append_of_stops cs h]
      split
      · rfl
      · split
        · rfl
        · rfl

theorem takeFrac_append (cs : List Char) {rest : List Char} (h : Stops rest) :
    takeFrac (cs ++ rest) = ((takeFrac cs).1, (takeFrac cs).2 ++ rest) := by
  cases cs with
  | nil =>
      cases rest with
      | nil => rfl
      | cons c rest =>
          obtain ⟨-, hpoint, -⟩ := h c rfl
          simp only [List.nil_append, takeFrac, hpoint, false_and, if_false]
  | cons c cs =>
      rw [List.cons_append, takeFrac, takeFrac,
        takeWhile_append_of_stops cs h, dropWhile_append_of_stops cs h]
      split
      · rfl
      · rfl

theorem takeExpSign_append (cs : List Char) {rest : List Char}
    (h : Stops rest) :
    takeExpSign (cs ++ rest)
      = ((takeExpSign cs).1, (takeExpSign cs).2 ++ rest) := by
  cases cs with
  | nil =>
      cases rest with
      | nil => rfl
      | cons c rest =>
          obtain ⟨-, -, -, -, hplus, hminus⟩ := h c rfl
          simp only [List.nil_append, takeExpSign, hplus, hminus, or_self,
            if_false]
  | cons c cs =>
      rw [List.cons_append, takeExpSign, takeExpSign]
      split
      · rfl
      · rfl

theorem takeExp_append (cs : List Char) {rest : List Char} (h : Stops rest) :
    takeExp (cs ++ rest) = ((takeExp cs).1, (takeExp cs).2 ++ rest) := by
  cases cs with
  | nil =>
      cases rest with
      | nil => rfl
      | cons c rest =>
          obtain ⟨-, -, he, hE, -⟩ := h c rfl
          simp only [List.nil_append, takeExp, he, hE, or_self, false_and,
            if_false]
  | cons c cs =>
      rw [List.cons_append, takeExp, takeExp]
      simp only [takeExpSign_append cs h, takeWhile_append_of_stops _ h,
        dropWhile_append_of_stops _ h]
      split
      · rfl
      · rfl

theorem takeMinus_append (cs : List Char) {rest : List Char}
    (h : Stops rest) :
    takeMinus (cs ++ rest)
      = ((takeMinus cs).1, (takeMinus cs).2 ++ rest) := by
  cases cs with
  | nil =>
      cases rest with
      | nil => rfl
      | cons c rest =>
          obtain ⟨-, -, -, -, -, hminus⟩ := h c rfl
          simp only [List.nil_append, takeMinus, hminus, if_false]
  | cons c cs =>
      rw [List.cons_append, takeMinus, takeMinus]
      split
      · rfl
      · rfl

/-- A number is read up to where it stops. -/
theorem readNumber_append (cs : List Char) {rest : List Char}
    (h : Stops rest) :
    readNumber (cs ++ rest)
      = (readNumber cs).map fun p => (p.1, p.2.1, p.2.2 ++ rest) := by
  simp only [readNumber, takeMinus_append cs h, takeInt_append _ h]
  cases takeInt (takeMinus cs).2 with
  | none => rfl
  | some p =>
      simp only [Option.map_some, bind, Option.bind, takeFrac_append _ h,
        takeExp_append _ h]
      rfl

-- ============================================================= integers

/-- An integer in decimal. -/
def intText (n : Int) : List Char :=
  if n < 0 then '-' :: Nat.toDigits 10 n.natAbs
  else Nat.toDigits 10 n.natAbs

theorem isDigit_of_mem_digits {n : Nat} {c : Char}
    (h : c ∈ Nat.toDigits 10 n) : c.isDigit = true :=
  Nat.isDigit_of_mem_toDigits (by decide) (by decide) h

/-- A decimal of more than one digit does not begin with a zero. -/
theorem head?_toDigits {n : Nat} (h : 0 < n) :
    (Nat.toDigits 10 n).head? ≠ some '0' := by
  induction n using Nat.base_induction 10 (by decide) with
  | single m hm =>
      rw [Nat.toDigits_of_lt_base hm]
      intro hzero
      have := Nat.digitChar_eq_zero.1 (Option.some.inj hzero)
      omega
  | digit m k hk hm ih =>
      rw [← Nat.toDigits_append_toDigits (by decide) hm hk,
        List.head?_append_of_ne_nil _ Nat.toDigits_ne_nil]
      exact ih hm

/-- The digits of a number are read as its whole part. -/
theorem takeInt_toDigits (n : Nat) :
    takeInt (Nat.toDigits 10 n) = some (Nat.toDigits 10 n, []) := by
  rcases Nat.eq_zero_or_pos n with rfl | hpos
  · rfl
  · have hhead := head?_toDigits hpos
    have hdigits : ∀ c ∈ Nat.toDigits 10 n, c.isDigit = true :=
      fun c hc => isDigit_of_mem_digits hc
    cases hd : Nat.toDigits 10 n with
    | nil => exact absurd hd Nat.toDigits_ne_nil
    | cons c cs =>
        rw [hd] at hhead hdigits
        obtain ⟨hc, hcs⟩ := List.forall_mem_cons.1 hdigits
        have hzero : c ≠ '0' := fun h => hhead (congrArg some h)
        rw [takeInt, if_neg hzero, if_pos hc,
          List.takeWhile_eq_self_iff.2 hcs, List.dropWhile_eq_nil_iff.2 hcs]

/-- An integer is read back as one, all of it. -/
theorem readNumber_intText (n : Int) :
    readNumber (intText n) = some (intText n, true, []) := by
  have hread : ∀ sign : List Char, ∀ cs : List Char,
      takeMinus cs = (sign, Nat.toDigits 10 n.natAbs) →
      readNumber cs
        = some (sign ++ Nat.toDigits 10 n.natAbs, true, []) := by
    intro sign cs hsign
    simp only [readNumber, hsign, takeInt_toDigits, takeFrac, takeExp, bind,
      Option.bind, pure, List.append_nil, List.isEmpty_nil, Bool.and_self]
  rw [intText]
  split
  · exact hread ['-'] _ rfl
  · apply hread [] _
    cases hd : Nat.toDigits 10 n.natAbs with
    | nil => exact absurd hd Nat.toDigits_ne_nil
    | cons c cs =>
        have hdigit : c.isDigit = true :=
          isDigit_of_mem_digits (n := n.natAbs) (hd ▸ List.mem_cons_self)
        have hminus : c ≠ '-' := by
          intro heq
          subst heq
          cases hdigit
        rw [takeMinus, if_neg hminus]

-- ==================================================== what follows a token

/-- Units that were read are read whatever follows. -/
theorem readUnits_append {cs : List Char} {us : List Nat}
    {tail : List Char} (h : readUnits cs = some (us, tail))
    (more : List Char) : readUnits (cs ++ more) = some (us, tail ++ more) := by
  fun_induction readUnits cs generalizing us tail with
  | case1 => cases h
  | case2 =>
      cases h
      rw [List.cons_append, readUnits.eq_def]
      rfl
  | case3 => cases h
  | case4 a b c d rest hquote ih =>
      cases hhex : readHex4 a b c d with
      | none => simp [hhex] at h
      | some u =>
          cases hrest : readUnits rest with
          | none => simp [hhex, hrest] at h
          | some p =>
              simp only [hhex, hrest, bind, Option.bind, pure,
                Option.some.injEq, Prod.mk.injEq] at h
              obtain ⟨rfl, rfl⟩ := h
              have hmore := ih hrest
              simp only [List.cons_append]
              rw [readUnits.eq_def]
              simp [hhex, hmore]
  | case5 => cases h
  | case6 e rest hu hquote ih =>
      cases hesc : unescape e with
      | none => simp [hesc] at h
      | some c =>
          cases hrest : readUnits rest with
          | none => simp [hesc, hrest] at h
          | some p =>
              simp only [hesc, hrest, bind, Option.bind, pure,
                Option.some.injEq, Prod.mk.injEq] at h
              obtain ⟨rfl, rfl⟩ := h
              rw [List.cons_append, List.cons_append,
                readUnits_short hu hesc, ih hrest]
              rfl
  | case7 => cases h
  | case8 c rest hquote hslash hcontrol ih =>
      cases hrest : readUnits rest with
      | none => simp [hrest] at h
      | some p =>
          simp only [hrest, bind, Option.bind, pure, Option.some.injEq,
            Prod.mk.injEq] at h
          obtain ⟨rfl, rfl⟩ := h
          rw [List.cons_append, readUnits_plain hquote hslash hcontrol,
            ih hrest]
          rfl

theorem readString_append {cs s tail : List Char}
    (h : readString cs = some (s, tail)) (more : List Char) :
    readString (cs ++ more) = some (s, tail ++ more) := by
  cases hunits : readUnits cs with
  | none => simp [readString, hunits] at h
  | some p =>
      cases hcodes : decodeUnits p.1 with
      | none => simp [readString, hunits, hcodes] at h
      | some codes =>
          simp only [readString, hunits, hcodes, bind, Option.bind, pure,
            Option.some.injEq, Prod.mk.injEq] at h
          obtain ⟨rfl, rfl⟩ := h
          simp [readString, readUnits_append hunits more, hcodes]

/-- The whole part and what follows make up the text; -/
theorem takeInt_split {cs whole rest : List Char}
    (h : takeInt cs = some (whole, rest)) : cs = whole ++ rest := by
  cases cs with
  | nil => cases h
  | cons c cs =>
      rw [takeInt] at h
      split at h
      case isTrue hzero =>
          cases h
          rw [hzero]
          rfl
      case isFalse =>
          split at h
          · cases h
            rw [List.cons_append, List.takeWhile_append_dropWhile]
          · cases h

/-- the fraction does with what follows it, -/
theorem takeFrac_split (cs : List Char) :
    (takeFrac cs).1 ++ (takeFrac cs).2 = cs := by
  cases cs with
  | nil => rfl
  | cons c cs =>
      rw [takeFrac]
      split
      · simp
      · rfl

/-- the exponent's sign, -/
theorem takeExpSign_split (cs : List Char) :
    (takeExpSign cs).1 ++ (takeExpSign cs).2 = cs := by
  cases cs with
  | nil => rfl
  | cons c cs =>
      rw [takeExpSign]
      split <;> rfl

/-- the exponent, -/
theorem takeExp_split (cs : List Char) :
    (takeExp cs).1 ++ (takeExp cs).2 = cs := by
  cases cs with
  | nil => rfl
  | cons c cs =>
      rw [takeExp]
      split
      · rw [List.cons_append, List.append_assoc,
          List.takeWhile_append_dropWhile, takeExpSign_split]
      · rfl

/-- and the minus sign. -/
theorem takeMinus_split (cs : List Char) :
    (takeMinus cs).1 ++ (takeMinus cs).2 = cs := by
  cases cs with
  | nil => rfl
  | cons c cs =>
      rw [takeMinus]
      split <;> rfl

/-- So a number takes its own characters off the text, and leaves the rest. -/
theorem readNumber_split {cs digits rest : List Char} {isInt : Bool}
    (h : readNumber cs = some (digits, isInt, rest)) :
    cs = digits ++ rest := by
  rw [readNumber] at h
  cases hint : takeInt (takeMinus cs).2 with
  | none => simp [hint] at h
  | some p =>
      simp only [hint, bind, Option.bind, pure, Option.some.injEq,
        Prod.mk.injEq] at h
      obtain ⟨hdigits, -, hrest⟩ := h
      rw [← hdigits, ← hrest, List.append_assoc, takeExp_split,
        List.append_assoc, takeFrac_split, List.append_assoc,
        ← takeInt_split hint, takeMinus_split]

/-- A number that something stops is read whatever follows that. -/
theorem readNumber_more {cs digits rest : List Char} {isInt : Bool}
    (h : readNumber cs = some (digits, isInt, rest)) (hne : rest ≠ [])
    (hstops : Stops rest) (more : List Char) :
    readNumber (cs ++ more) = some (digits, isInt, rest ++ more) := by
  have hsplit := readNumber_split h
  have halone : readNumber digits = some (digits, isInt, []) := by
    rw [hsplit, readNumber_append digits hstops] at h
    cases hd : readNumber digits with
    | none => simp [hd] at h
    | some p =>
        rw [hd, Option.map_some, Option.some.injEq, Prod.mk.injEq,
          Prod.mk.injEq] at h
        obtain ⟨hdigits, hint, hrest⟩ := h
        have hnil : p.2.2 = [] := by simpa using hrest
        rw [Option.some.injEq]
        exact Prod.ext hdigits (Prod.ext hint hnil)
  have hmore : Stops (rest ++ more) := by
    intro c hc
    cases rest with
    | nil => exact absurd rfl hne
    | cons d rest => exact hstops c hc
  rw [hsplit, List.append_assoc, readNumber_append digits hmore, halone]
  rfl

end Proofstand.JsonText
