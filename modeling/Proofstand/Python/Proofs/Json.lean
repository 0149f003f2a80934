/-
What `json.dumps` writes, `json.loads` reads back, in every style.

A piece of text reads as a value (`Reads`) whatever stops it and however
much fuel is left over; brackets put pieces together (`reads_list`,
`reads_dict`), and the induction over the value is `reads_text`. So a text
belongs to one value, and the canonical text to one canonical form
(`writes_canon`): what two hashes have in common they have by sha256.

# Fuel and what follows

A reader is a function of its fuel and the characters left. `Reads` says
that a text reads as a value with any fuel from some number on, in front
of anything that ends the token it ends with; both have to be in the
statement, because a value stands in a list that stands in a dict, and
what follows it there is a comma, a gap or a bracket. `scanItems_pieces`
and `scanEntries_pieces` are the inductions over a list of such pieces.

# The parameter

The text of a float is `float.__repr__`, which is not modelled. `FloatText`
is what is used of it: the text is a literal that `float()` reads as the
number. `Writes` asks it of the floats of a value, and asks that no dict
repeats a key; keys are texts, as the type of dicts has it.

# Hashes

`canonical_hash` writes with sorted keys and without blanks. By the round
trip two values with one text have one canonical form, and values with one
canonical form have one text. So two hashes that agree are of values equal
up to the order of keys, or of two texts that sha256 does not tell apart.
-/
import Proofstand.Python.Json
import Mathlib.Algebra.Field.Rat

namespace Proofstand.Json

open JsonText

variable {K : Type}

-- ========================================================= what is written

section

variable [Field K]

/-- `float.__repr__` on a number: a literal that is no integer's, and
`float()` of it is the number. -/
structure FloatText (repr : K → String) (x : K) : Prop where
  literal : readNumber (repr x).toList = some ((repr x).toList, false, [])
  value : parseFloat (repr x) = some (.fin x)

mutual

/-- A value whose floats have their texts and whose dicts repeat no
key. -/
def Writes (repr : K → String) : PyVal K → Prop
  | .float (.fin x) => FloatText repr x
  | .list vs => WritesList repr vs
  | .dict kvs => (kvs.map Prod.fst).Nodup ∧ WritesDict repr kvs
  | _ => True

def WritesList (repr : K → String) : List (PyVal K) → Prop
  | [] => True
  | v :: vs => Writes repr v ∧ WritesList repr vs

def WritesDict (repr : K → String) : List (String × PyVal K) → Prop
  | [] => True
  | (_, v) :: kvs => Writes repr v ∧ WritesDict repr kvs

end

end

-- ================================================================= blanks

/-- A gap between two tokens. -/
def Blank (cs : List Char) : Prop := ∀ c ∈ cs, isBlank c = true

theorem Blank.append {cs ds : List Char} (hc : Blank cs) (hd : Blank ds) :
    Blank (cs ++ ds) := by
  intro c h
  rcases List.mem_append.1 h with h | h
  · exact hc c h
  · exact hd c h

theorem skipBlanks_append {cs : List Char} (h : Blank cs) (rest : List Char) :
    skipBlanks (cs ++ rest) = skipBlanks rest := by
  induction cs with
  | nil => rfl
  | cons c cs ih =>
      obtain ⟨hc, hcs⟩ := List.forall_mem_cons.1 h
      rw [List.cons_append, skipBlanks, List.dropWhile_cons, if_pos hc]
      exact ih hcs

theorem skipBlanks_cons {c : Char} (h : isBlank c = false)
    (rest : List Char) : skipBlanks (c :: rest) = c :: rest := by
  rw [skipBlanks, List.dropWhile_cons, h]
  rfl

/-- What the style puts between tokens is a gap: a line break with its
blanks, -/
theorem Style.blank_newline (st : Style) (level : Nat) :
    Blank (st.newline level) := by
  unfold Style.newline
  split
  · exact fun c h => by cases h
  · intro c h
    rcases List.mem_cons.1 h with rfl | h
    · rfl
    · rw [List.eq_of_mem_replicate h]
      rfl

/-- a blank, -/
theorem blank_space (b : Bool) : Blank (if b then [' '] else []) := by
  intro c h
  cases b with
  | true =>
      rw [if_pos rfl, List.mem_singleton] at h
      rw [h]
      rfl
  | false => cases h

/-- what follows a colon, -/
theorem Style.blank_keyGap (st : Style) : Blank st.keyGap :=
  blank_space st.keySpace

/-- and what follows a comma. -/
theorem Style.blank_gap (st : Style) (level : Nat) :
    Blank (st.gap level) :=
  (blank_space st.itemSpace).append (st.blank_newline level)

theorem stops_newline (st : Style) (level : Nat) {c : Char}
    (hc : c = ']' ∨ c = '}') (rest : List Char) :
    Stops (st.newline level ++ c :: rest) := by
  unfold Style.newline
  split
  · apply stops_cons
    rcases hc with rfl | rfl
    · simp
    · simp
  · exact stops_cons _ (by simp)

-- =============================================================== reading

variable [Field K]

/-- The first character of a value. -/
theorem head_of_scanOnce {fuel : Nat} {cs rest : List Char} {v : PyVal K}
    (h : scanOnce fuel cs = some (v, rest)) :
    ∃ c tail, cs = c :: tail ∧ isBlank c = false ∧ c ≠ ']' ∧ c ≠ '}' := by
  cases fuel with
  | zero => cases h
  | succ fuel =>
      cases cs with
      | nil => cases h
      | cons c tail =>
          refine ⟨c, tail, rfl, ?_⟩
          by_contra hnot
          -- no value begins with a blank or a closing bracket
          have hc : c ∈ [' ', '\t', '\n', '\r', ']', '}'] := by
            by_contra hmem
            apply hnot
            simp only [List.mem_cons, List.not_mem_nil, or_false, not_or]
              at hmem
            obtain ⟨h1, h2, h3, h4, h5, h6⟩ := hmem
            simp [isBlank, h1, h2, h3, h4, h5, h6]
          simp only [List.mem_cons, List.not_mem_nil, or_false] at hc
          rcases hc with rfl | rfl | rfl | rfl | rfl | rfl
          all_goals cases h

/-- A text that reads as a value, whatever stops it. -/
def Reads (p : List Char) (v : PyVal K) : Prop :=
  ∀ rest fuel, Stops rest → 2 * p.length ≤ fuel →
    scanOnce fuel (p ++ rest) = some (v, rest)

/-- Such a text begins with no blank and closes nothing. -/
theorem Reads.head {p : List Char} {v : PyVal K} (h : Reads p v) :
    ∃ c tail, p = c :: tail ∧ isBlank c = false ∧ c ≠ ']' ∧ c ≠ '}' := by
  have hread := h [] (2 * p.length) stops_nil (le_refl _)
  rw [List.append_nil] at hread
  exact head_of_scanOnce hread

theorem Reads.skipBlanks {p : List Char} {v : PyVal K} (h : Reads p v)
    (rest : List Char) : skipBlanks (p ++ rest) = p ++ rest := by
  obtain ⟨c, tail, rfl, hc, -⟩ := h.head
  exact skipBlanks_cons hc _

theorem Reads.pos {p : List Char} {v : PyVal K} (h : Reads p v) :
    0 < p.length := by
  obtain ⟨c, tail, rfl, -⟩ := h.head
  exact Nat.succ_pos _

/-- Nor does it close a list it stands in. -/
theorem Reads.expect_close {p : List Char} {v : PyVal K} (h : Reads p v)
    {c : Char} (hc : c = ']' ∨ c = '}') (rest : List Char) :
    expect c (p ++ rest) = none := by
  obtain ⟨d, tail, rfl, -, hlist, hdict⟩ := h.head
  rw [List.cons_append, expect, if_neg]
  rcases hc with rfl | rfl
  · exact hlist
  · exact hdict

-- ================================================================= atoms

omit [Field K] in
/-- Text that begins otherwise than the words do. -/
theorem takeWord_words {c : Char} (hn : c ≠ 'n') (ht : c ≠ 't')
    (hf : c ≠ 'f') (cs : List Char) :
    takeWord (K := K) words (c :: cs) = none := by
  have hafter : ∀ w : String, w.toList.head? ≠ some c → w.toList ≠ [] →
      afterWord w.toList (c :: cs) = none := by
    intro w hhead hne
    cases hw : w.toList with
    | nil => exact absurd hw hne
    | cons d ds =>
        rw [hw] at hhead
        have hdc : (d == c) = false :=
          beq_false_of_ne fun h => hhead (congrArg some h)
        rw [afterWord, List.isPrefixOf, hdc]
        rfl
  rw [takeWord, List.findSome?_eq_none_iff]
  intro p hp
  simp only [words, List.mem_cons, List.not_mem_nil, or_false] at hp
  rcases hp with rfl | rfl | rfl
  · show (afterWord "null".toList (c :: cs)).map _ = none
    rw [hafter "null" (fun h => hn (Option.some.inj h).symm) (by decide)]
    rfl
  · show (afterWord "true".toList (c :: cs)).map _ = none
    rw [hafter "true" (fun h => ht (Option.some.inj h).symm) (by decide)]
    rfl
  · show (afterWord "false".toList (c :: cs)).map _ = none
    rw [hafter "false" (fun h => hf (Option.some.inj h).symm) (by decide)]
    rfl

/-- The first character of a number. -/
theorem head_of_readNumber {cs : List Char} {r : List Char × Bool × List Char}
    (h : readNumber cs = some r) :
    ∃ c tail, cs = c :: tail ∧ (c = '-' ∨ c.isDigit = true) := by
  cases cs with
  | nil => cases h
  | cons c tail =>
      refine ⟨c, tail, rfl, ?_⟩
      by_contra hnot
      obtain ⟨hminus, hdigit⟩ := not_or.1 hnot
      have hzero : c ≠ '0' := by
        intro heq
        subst heq
        exact hdigit rfl
      have hint : takeInt (c :: tail) = none := by
        rw [takeInt, if_neg hzero, if_neg hdigit]
      simp only [readNumber, takeMinus, if_neg hminus, hint, bind,
        Option.bind, reduceCtorEq] at h

/-- A value that opens nothing is an atom. -/
theorem scanOnce_atom {c : Char} (hquote : c ≠ '"') (hlist : c ≠ '[')
    (hdict : c ≠ '{') (fuel : Nat) (cs : List Char) :
    scanOnce (K := K) (fuel + 1) (c :: cs) = scanAtom (c :: cs) := by
  rw [scanOnce, if_neg hquote, if_neg hlist, if_neg hdict]

/-- A number that is all of its text. -/
theorem reads_number {digits : List Char} {isInt : Bool} {v : PyVal K}
    (h : readNumber digits = some (digits, isInt, []))
    (hv : ofNumber digits isInt = some v) : Reads digits v := by
  intro rest fuel hrest hfuel
  obtain ⟨c, tail, hc, hfirst⟩ := head_of_readNumber h
  have hread := readNumber_append digits hrest
  rw [h, Option.map_some, List.nil_append] at hread
  subst hc
  cases fuel with
  | zero =>
      rw [List.length_cons] at hfuel
      omega
  | succ fuel =>
      rw [List.cons_append] at hread ⊢
      rw [scanOnce_atom, scanAtom, takeWord_words]
      · simp only [hread, hv, Option.map_some]
      all_goals
        intro heq
        subst heq
        revert hfirst
        decide

/-- A run of digits is read as the number they are. -/
theorem digitRun_of_digits {cs : List Char} (h : ∀ c ∈ cs, c.isDigit = true)
    (acc n : Nat) (afterDigit : Bool) (hne : cs ≠ [] ∨ afterDigit = true) :
    digitRun cs acc n afterDigit
      = some (Nat.ofDigitChars 10 cs acc, n + cs.length) := by
  induction cs generalizing acc n afterDigit with
  | nil =>
      rw [digitRun, if_pos (hne.resolve_left fun h => h rfl),
        Nat.ofDigitChars_nil]
      rfl
  | cons c cs ih =>
      obtain ⟨hc, hcs⟩ := List.forall_mem_cons.1 h
      rw [digitRun, if_pos hc, ih hcs _ _ true (Or.inr rfl),
        Nat.ofDigitChars_cons, List.length_cons]
      congr 2
      omega

theorem isPySpace_of_isDigit {c : Char} (h : c.isDigit = true) :
    isPySpace c = false := by
  have hrange : 48 ≤ c.toNat ∧ c.toNat ≤ 57 := by
    simpa [Char.isDigit, UInt32.le_iff_toNat_le] using h
  rw [isPySpace, decide_eq_false_iff_not]
  omega

/-- What begins and ends with no blank is not stripped. -/
theorem pyStrip_of_no_blank {cs : List Char}
    (h : ∀ c ∈ cs, isPySpace c = false) : pyStrip cs = cs := by
  have hdrop : ∀ ds : List Char, (∀ c ∈ ds, isPySpace c = false) →
      ds.dropWhile isPySpace = ds := by
    intro ds hds
    cases ds with
    | nil => rfl
    | cons d ds =>
        rw [List.dropWhile_cons, hds d List.mem_cons_self]
        rfl
  rw [pyStrip, hdrop cs h, hdrop, List.reverse_reverse]
  intro c hc
  exact h c (List.mem_reverse.1 hc)

/-- Digits begin with no sign. -/
theorem takeSign_of_digits {cs : List Char}
    (h : ∀ c ∈ cs, c.isDigit = true) : takeSign cs = (false, cs) := by
  unfold takeSign
  split
  · exact absurd (h '-' List.mem_cons_self) (by decide)
  · exact absurd (h '+' List.mem_cons_self) (by decide)
  · rfl

/-- `int()` of an integer's text. -/
theorem parseInt_intText (n : Int) :
    parseInt (String.ofList (intText n)) = some n := by
  have hdigits : ∀ c ∈ Nat.toDigits 10 n.natAbs, c.isDigit = true :=
    fun c hc => isDigit_of_mem_digits hc
  have hrun := digitRun_of_digits hdigits 0 0 false
    (Or.inl Nat.toDigits_ne_nil)
  rw [Nat.ofDigitChars_ten_toDigits] at hrun
  have hstrip : pyStrip (intText n) = intText n := by
    apply pyStrip_of_no_blank
    intro c hc
    rw [intText] at hc
    split at hc
    · rcases List.mem_cons.1 hc with rfl | hc
      · rfl
      · exact isPySpace_of_isDigit (hdigits c hc)
    · exact isPySpace_of_isDigit (hdigits c hc)
  rw [parseInt, String.toList_ofList, hstrip, intText]
  by_cases hneg : n < 0
  · rw [if_pos hneg]
    show (digitRun (Nat.toDigits 10 n.natAbs) 0 0 false).map _ = _
    rw [hrun]
    show some (-(n.natAbs : Int)) = some n
    congr 1
    omega
  · rw [if_neg hneg, takeSign_of_digits hdigits]
    show (digitRun (Nat.toDigits 10 n.natAbs) 0 0 false).map _ = _
    rw [hrun]
    show some (n.natAbs : Int) = some n
    congr 1
    omega

/-- The text of an int is read as the int. -/
theorem reads_int (n : Int) : Reads (K := K) (intText n) (.int n) := by
  apply reads_number (readNumber_intText n)
  rw [ofNumber, if_pos rfl, parseInt_intText]
  rfl

/-- The words for values. -/
theorem reads_word {word : String} {v : PyVal K}
    (h : (word, v) ∈ words (K := K)) : Reads word.toList v := by
  intro rest fuel _ hfuel
  cases fuel with
  | zero =>
      simp only [words, List.mem_cons, List.not_mem_nil, or_false,
        Prod.mk.injEq] at h
      rcases h with ⟨rfl, -⟩ | ⟨rfl, -⟩ | ⟨rfl, -⟩
      all_goals simp at hfuel
  | succ fuel =>
      simp only [words, List.mem_cons, List.not_mem_nil, or_false,
        Prod.mk.injEq] at h
      rcases h with ⟨rfl, rfl⟩ | ⟨rfl, rfl⟩ | ⟨rfl, rfl⟩
      all_goals rfl

/-- And the ones for numbers that are none. -/
theorem reads_floatWord {word : String} {v : PyVal K}
    (h : (word, v) ∈ floatWords (K := K)) : Reads word.toList v := by
  intro rest fuel _ hfuel
  cases fuel with
  | zero =>
      simp only [floatWords, List.mem_cons, List.not_mem_nil, or_false,
        Prod.mk.injEq] at h
      rcases h with ⟨rfl, -⟩ | ⟨rfl, -⟩ | ⟨rfl, -⟩
      all_goals simp at hfuel
  | succ fuel =>
      simp only [floatWords, List.mem_cons, List.not_mem_nil, or_false,
        Prod.mk.injEq] at h
      rcases h with ⟨rfl, rfl⟩ | ⟨rfl, rfl⟩ | ⟨rfl, rfl⟩
      all_goals rfl

/-- The text of a bool is read as it, -/
theorem reads_bool (b : Bool) :
    Reads (K := K) (if b then "true" else "false").toList (.bool b) := by
  cases b with
  | true => exact reads_word (by simp [words])
  | false => exact reads_word (by simp [words])

/-- that of a float, -/
theorem reads_float {repr : K → String} {x : PyFloat K}
    (h : Writes repr (.float x)) :
    Reads (floatText repr x).toList (.float x) := by
  cases x with
  | fin x =>
      rw [Writes] at h
      apply reads_number h.literal
      rw [ofNumber, String.ofList_toList, h.value]
      rfl
  | inf neg =>
      cases neg with
      | true => exact reads_floatWord (by simp [floatText, floatWords])
      | false => exact reads_floatWord (by simp [floatText, floatWords])
  | nan => exact reads_floatWord (by simp [floatText, floatWords])

/-- and of a text likewise. -/
theorem reads_str (s : String) :
    Reads (K := K) (quote s.toList) (.str s) := by
  intro rest fuel _ hfuel
  cases fuel with
  | zero => simp [quote] at hfuel
  | succ fuel =>
      rw [quote, List.cons_append, List.append_assoc, scanOnce, if_pos rfl]
      show (readString (s.toList.flatMap escapeChar ++ '"' :: rest)).map _
        = _
      rw [readString_quote, Option.map_some]
      dsimp only
      rw [String.ofList_toList]

-- =============================================================== brackets

/-- A comma, its gap and a piece. -/
theorem behind_cons (gap p : List Char) (ps : List (List Char)) :
    behind gap (p :: ps) = ',' :: (gap ++ (p ++ behind gap ps)) := by
  rw [behind, List.flatMap_cons, List.cons_append, List.append_assoc]
  rfl

/-- Behind an item stands a comma, or the end of its list. -/
theorem stops_behind (st : Style) (level : Nat) (gap : List Char)
    (ps : List (List Char)) {c : Char} (hc : c = ']' ∨ c = '}')
    (rest : List Char) :
    Stops (behind gap ps ++ (st.newline level ++ c :: rest)) := by
  cases ps with
  | nil => exact stops_newline st level hc rest
  | cons p ps =>
      rw [behind_cons, List.cons_append]
      exact stops_cons _ (by simp)

theorem isBlank_close {c : Char} (hc : c = ']' ∨ c = '}') :
    isBlank c = false := by
  rcases hc with rfl | rfl
  all_goals rfl

/-- The end of a list, behind its last item. -/
theorem skipBlanks_close (st : Style) (level : Nat) {c : Char}
    (hc : c = ']' ∨ c = '}') (rest : List Char) :
    skipBlanks (st.newline level ++ c :: rest) = c :: rest := by
  rw [skipBlanks_append (st.blank_newline level),
    skipBlanks_cons (isBlank_close hc)]

/-- Where every piece is read as its value, the pieces of a list are read as
the list. -/
theorem scanItems_pieces (st : Style) (level : Nat) {gap : List Char}
    (hgap : Blank gap) {p : List Char} {v : PyVal K} {ps : List (List Char)}
    {vs : List (PyVal K)} (hp : Reads p v) (hps : List.Forall₂ Reads ps vs)
    (rest : List Char) {n : Nat}
    (hfuel : 2 * (p ++ behind gap ps).length + 1 ≤ n) :
    scanItems n
        (p ++ (behind gap ps ++ (st.newline level ++ ']' :: rest)))
      = some (v :: vs, rest) := by
  induction hps generalizing p v n with
  | nil =>
      cases n with
      | zero => omega
      | succ fuel =>
          have hfirst := hp (behind gap [] ++ (st.newline level ++ ']' :: rest))
            fuel (stops_behind st level gap [] (Or.inl rfl) rest)
            (by rw [List.length_append] at hfuel; omega)
          simp only [scanItems, hfirst, bind, Option.bind]
          rw [behind, List.flatMap_nil, List.nil_append,
            skipBlanks_close st level (Or.inl rfl)]
          rfl
  | cons hq hqs ih =>
      rename_i q w ps vs
      cases n with
      | zero => omega
      | succ fuel =>
          have hpos := hp.pos
          rw [behind_cons, List.length_append, List.length_cons,
            List.length_append] at hfuel
          have hfirst := hp
            (behind gap (q :: ps) ++ (st.newline level ++ ']' :: rest)) fuel
            (stops_behind st level gap (q :: ps) (Or.inl rfl) rest)
            (by omega)
          have hrest := ih (n := fuel) hq (by omega)
          simp only [scanItems, hfirst, bind, Option.bind]
          rw [behind_cons, List.cons_append, List.append_assoc,
            List.append_assoc, skipBlanks_cons rfl]
          simp only [expect, Char.reduceEq, if_false, if_true]
          rw [skipBlanks_append hgap, hq.skipBlanks, hrest]
          rfl

/-- Items that read as values, in brackets. -/
theorem reads_list (st : Style) (level : Nat) {ps : List (List Char)}
    {vs : List (PyVal K)} (h : List.Forall₂ Reads ps vs) :
    Reads (bracketed st level '[' ']' ps) (.list vs) := by
  intro rest fuel _ hfuel
  cases h with
  | nil =>
      cases fuel with
      | zero => simp [bracketed] at hfuel
      | succ fuel => rfl
  | cons hp hps =>
      rename_i p v ps vs
      cases fuel with
      | zero => simp [bracketed] at hfuel
      | succ fuel =>
          rw [bracketed, List.length_cons, List.length_append,
            List.length_append, List.length_append] at hfuel
          have hitems := scanItems_pieces st level
            (st.blank_gap (level + 1)) hp hps rest (n := fuel)
            (by rw [List.length_append]; omega)
          rw [bracketed, List.cons_append, List.append_assoc,
            List.append_assoc, List.append_assoc, List.append_assoc,
            scanOnce, if_neg (by decide), if_pos rfl,
            skipBlanks_append (st.blank_newline _), hp.skipBlanks,
            hp.expect_close (Or.inl rfl)]
          show (scanItems fuel (p ++ (behind (st.gap (level + 1)) ps
            ++ (st.newline level ++ ']' :: rest)))).map _ = _
          rw [hitems]
          rfl

/-- The text of an entry: its key, and a piece that reads as its value. -/
def ReadsEntry (st : Style) (p : List Char) (e : String × PyVal K) : Prop :=
  ∃ q, p = quote e.1.toList ++ ':' :: (st.keyGap ++ q) ∧ Reads q e.2

theorem ReadsEntry.head {st : Style} {p : List Char} {e : String × PyVal K}
    (h : ReadsEntry st p e) : ∃ tail, p = '"' :: tail := by
  obtain ⟨q, rfl, -⟩ := h
  exact ⟨_, rfl⟩

theorem ReadsEntry.skipBlanks {st : Style} {p : List Char}
    {e : String × PyVal K} (h : ReadsEntry st p e) (rest : List Char) :
    skipBlanks (p ++ rest) = p ++ rest := by
  obtain ⟨tail, rfl⟩ := h.head
  exact skipBlanks_cons rfl _

/-- One entry of a dict, with what the reader does after it. -/
theorem scanEntries_entry {st : Style} {p : List Char} {e : String × PyVal K}
    (h : ReadsEntry st p e) {rest : List Char} (hrest : Stops rest)
    {fuel : Nat} (hfuel : 2 * p.length ≤ fuel) :
    scanEntries (fuel + 1) (p ++ rest)
      = match expect '}' (Json.skipBlanks rest) with
        | some rest => some ([e], rest)
        | none =>
            (expect ',' (Json.skipBlanks rest)).bind fun rest =>
              (scanEntries fuel (Json.skipBlanks rest)).map fun r =>
                (e :: r.1, r.2) := by
  obtain ⟨k, v⟩ := e
  obtain ⟨q, rfl, hq⟩ := h
  rw [List.length_append, List.length_cons, List.length_append] at hfuel
  have hvalue := hq rest fuel hrest (by omega)
  have hkey := readString_quote k.toList
    (':' :: (st.keyGap ++ (q ++ rest)))
  rw [quote, List.cons_append, List.cons_append, List.append_assoc,
    List.append_assoc]
  show scanEntries (fuel + 1) ('"' :: (k.toList.flatMap escapeChar
    ++ '"' :: ':' :: ((st.keyGap ++ q) ++ rest))) = _
  rw [List.append_assoc]
  simp only [scanEntries, expect, if_true, hkey, bind, Option.bind]
  rw [skipBlanks_cons (by rfl)]
  simp only [if_true]
  rw [skipBlanks_append st.blank_keyGap, hq.skipBlanks, hvalue]
  simp only [String.ofList_toList]
  cases Json.skipBlanks rest with
  | nil => rfl
  | cons c cs =>
      by_cases hclose : c = '}'
      · simp only [hclose, if_true]
        rfl
      · simp only [hclose, if_false]
        by_cases hcomma : c = ','
        · simp only [hcomma, if_true]
          cases scanEntries (K := K) fuel (Json.skipBlanks cs) with
          | none => rfl
          | some r => rfl
        · simp only [hcomma, if_false]

/-- Where every piece is read as its entry, the pieces of a dict are read as
the dict. -/
theorem scanEntries_pieces (st : Style) (level : Nat) {gap : List Char}
    (hgap : Blank gap) {p : List Char} {e : String × PyVal K}
    {ps : List (List Char)} {es : Dict K} (hp : ReadsEntry st p e)
    (hps : List.Forall₂ (ReadsEntry st) ps es) (rest : List Char)
    {n : Nat} (hfuel : 2 * (p ++ behind gap ps).length + 1 ≤ n) :
    scanEntries n
        (p ++ (behind gap ps ++ (st.newline level ++ '}' :: rest)))
      = some (e :: es, rest) := by
  induction hps generalizing p e n with
  | nil =>
      cases n with
      | zero => omega
      | succ fuel =>
          rw [scanEntries_entry hp
            (stops_behind st level gap [] (Or.inr rfl) rest)
            (by rw [List.length_append] at hfuel; omega)]
          rw [behind, List.flatMap_nil, List.nil_append,
            skipBlanks_close st level (Or.inr rfl)]
          rfl
  | cons hq hqs ih =>
      rename_i q e' ps es
      cases n with
      | zero => omega
      | succ fuel =>
          have hpos : 0 < p.length := by
            obtain ⟨tail, rfl⟩ := hp.head
            exact Nat.succ_pos _
          rw [behind_cons, List.length_append, List.length_cons,
            List.length_append] at hfuel
          have hrest := ih (n := fuel) hq (by omega)
          rw [scanEntries_entry hp
            (stops_behind st level gap (q :: ps) (Or.inr rfl) rest)
            (by omega)]
          rw [behind_cons, List.cons_append, List.append_assoc,
            List.append_assoc, skipBlanks_cons rfl]
          simp only [expect, Char.reduceEq, if_false, if_true, Option.bind]
          rw [skipBlanks_append hgap, hq.skipBlanks, hrest]
          rfl

omit [Field K] in
/-- `dict()` of entries whose keys differ. -/
theorem dictOf_of_nodup {kvs : Dict K} (h : (kvs.map Prod.fst).Nodup) :
    dictOf kvs = kvs := by
  have hset : ∀ (d : Dict K) (k : String) (v : PyVal K),
      k ∉ d.map Prod.fst → d.set k v = d ++ [(k, v)] := by
    intro d k v hk
    induction d with
    | nil => rfl
    | cons e d ih =>
        rw [List.map_cons, List.mem_cons, not_or] at hk
        rw [Dict.set, if_neg (Ne.symm hk.1), ih hk.2]
        rfl
  have hfold : ∀ kvs d : Dict K, ((d ++ kvs).map Prod.fst).Nodup →
      kvs.foldl (fun d p => d.set p.1 p.2) d = d ++ kvs := by
    intro kvs
    induction kvs with
    | nil => exact fun d _ => (List.append_nil d).symm
    | cons e kvs ih =>
        intro d hnodup
        have hfresh : e.1 ∉ d.map Prod.fst := by
          rw [List.map_append, List.map_cons, List.nodup_append] at hnodup
          intro hmem
          exact hnodup.2.2 _ hmem _ List.mem_cons_self rfl
        rw [List.foldl_cons, hset d e.1 e.2 hfresh, ih]
        · rw [List.append_assoc]
          rfl
        · rwa [List.append_assoc]
  exact hfold kvs [] h

/-- Entries that read, in braces, where no key stands twice. -/
theorem reads_dict (st : Style) (level : Nat) {ps : List (List Char)}
    {kvs : Dict K} (h : List.Forall₂ (ReadsEntry st) ps kvs)
    (hkeys : (kvs.map Prod.fst).Nodup) :
    Reads (bracketed st level '{' '}' ps) (.dict kvs) := by
  intro rest fuel _ hfuel
  cases h with
  | nil =>
      cases fuel with
      | zero => simp [bracketed] at hfuel
      | succ fuel => rfl
  | cons hp hps =>
      rename_i p e ps es
      cases fuel with
      | zero => simp [bracketed] at hfuel
      | succ fuel =>
          rw [bracketed, List.length_cons, List.length_append,
            List.length_append, List.length_append] at hfuel
          have hentries := scanEntries_pieces st level
            (st.blank_gap (level + 1)) hp hps rest (n := fuel)
            (by rw [List.length_append]; omega)
          have hopen : ∀ tail, expect '}' (p ++ tail) = none := by
            intro tail
            obtain ⟨q, rfl⟩ := hp.head
            rfl
          rw [bracketed, List.cons_append, List.append_assoc,
            List.append_assoc, List.append_assoc, List.append_assoc,
            scanOnce, if_neg (by decide), if_neg (by decide), if_pos rfl,
            skipBlanks_append (st.blank_newline _), hp.skipBlanks, hopen]
          show (scanEntries fuel (p ++ (behind (st.gap (level + 1)) ps
            ++ (st.newline level ++ '}' :: rest)))).map _ = _
          rw [hentries, Option.map_some]
          dsimp only
          rw [dictOf_of_nodup hkeys]

-- ============================================================ round trips

mutual

/-- The text of a value reads as the value. -/
theorem reads_text (st : Style) {repr : K → String} (level : Nat) :
    ∀ v : PyVal K, Writes repr v → Reads (text st repr level v) v
  | .none, _ => by
      rw [text]
      exact reads_word List.mem_cons_self
  | .bool b, _ => by
      rw [text]
      exact reads_bool b
  | .int n, _ => by
      rw [text]
      exact reads_int n
  | .float x, h => by
      rw [text]
      exact reads_float h
  | .str s, _ => by
      rw [text]
      exact reads_str s
  | .list vs, h => by
      rw [Writes] at h
      rw [text]
      exact reads_list st level (reads_items st (level + 1) vs h)
  | .dict kvs, h => by
      rw [Writes] at h
      rw [text]
      exact reads_dict st level (reads_entries st (level + 1) kvs h.2) h.1

/-- So are those of a list, -/
theorem reads_items (st : Style) {repr : K → String} (level : Nat) :
    ∀ vs : List (PyVal K), WritesList repr vs →
      List.Forall₂ Reads (items st repr level vs) vs
  | [], _ => by
      rw [items]
      exact .nil
  | v :: vs, h => by
      rw [WritesList] at h
      rw [items]
      exact .cons (reads_text st level v h.1) (reads_items st level vs h.2)

/-- and those of a dict. -/
theorem reads_entries (st : Style) {repr : K → String} (level : Nat) :
    ∀ kvs : List (String × PyVal K), WritesDict repr kvs →
      List.Forall₂ (ReadsEntry st) (entries st repr level kvs) kvs
  | [], _ => by
      rw [entries]
      exact .nil
  | (k, v) :: kvs, h => by
      rw [WritesDict] at h
      rw [entries]
      exact .cons ⟨_, rfl, reads_text st level v h.1⟩
        (reads_entries st level kvs h.2)

end

/-- What is written in any style is read back. -/
theorem loads_text (st : Style) {repr : K → String} {v : PyVal K}
    (h : Writes repr v) : loads (dumps st repr v) = .ok v := by
  have hreads := reads_text st 0 v h
  have hscan := hreads [] (2 * (text st repr 0 v).length) stops_nil
    (le_refl _)
  have hskip := hreads.skipBlanks []
  rw [List.append_nil] at hscan hskip
  rw [loads, dumps, String.toList_ofList, String.length_ofList, hskip, hscan]
  rfl

/-- A text is one value's, whatever the style. -/
theorem eq_of_dumps {st : Style} {repr : K → String} {v w : PyVal K}
    (hv : Writes repr v) (hw : Writes repr w)
    (h : dumps st repr v = dumps st repr w) : v = w := by
  have hread := loads_text st hv
  rw [h, loads_text st hw] at hread
  exact (Except.ok.inj hread).symm

-- ======================================================== canonical_hash

theorem writesDict_iff {repr : K → String} {kvs : Dict K} :
    WritesDict repr kvs ↔ ∀ p ∈ kvs, Writes repr p.2 := by
  induction kvs with
  | nil => simp [WritesDict]
  | cons p kvs ih => rw [WritesDict, ih, List.forall_mem_cons]

omit [Field K] in
/-- Canonical forms of the values leave the keys. -/
theorem keys_canonDict (kvs : Dict K) :
    (PyVal.canonDict kvs).map Prod.fst = kvs.map Prod.fst := by
  induction kvs with
  | nil => rfl
  | cons p kvs ih =>
      rw [PyVal.canonDict, List.map_cons, List.map_cons, ih]

mutual

/-- Sorting the keys leaves what can be written writable. -/
theorem writes_canon {repr : K → String} :
    ∀ v : PyVal K, Writes repr v → Writes repr v.canon
  | .none, h => by rwa [PyVal.canon_none]
  | .bool b, h => by rwa [PyVal.canon_bool]
  | .int n, h => by rwa [PyVal.canon_int]
  | .float x, h => by rwa [PyVal.canon_float]
  | .str s, h => by rwa [PyVal.canon_str]
  | .list vs, h => by
      rw [Writes] at h
      rw [PyVal.canon, Writes]
      exact writes_canonList vs h
  | .dict kvs, h => by
      rw [Writes] at h
      have hperm := List.perm_insertionSort
        (fun p q : String × PyVal K => p.1 ≤ q.1) (PyVal.canonDict kvs)
      rw [PyVal.canon, Writes]
      constructor
      · rw [(hperm.map Prod.fst).nodup_iff, keys_canonDict]
        exact h.1
      · rw [writesDict_iff]
        intro p hp
        exact writesDict_iff.1 (writes_canonDict kvs h.2) p (hperm.mem_iff.1 hp)

/-- So it does in a list, -/
theorem writes_canonList {repr : K → String} :
    ∀ vs : List (PyVal K), WritesList repr vs →
      WritesList repr (PyVal.canonList vs)
  | [], h => h
  | v :: vs, h => by
      rw [WritesList] at h
      rw [PyVal.canonList, WritesList]
      exact ⟨writes_canon v h.1, writes_canonList vs h.2⟩

/-- and in a dict. -/
theorem writes_canonDict {repr : K → String} :
    ∀ kvs : List (String × PyVal K), WritesDict repr kvs →
      WritesDict repr (PyVal.canonDict kvs)
  | [], h => h
  | (k, v) :: kvs, h => by
      rw [WritesDict] at h
      rw [PyVal.canonDict, WritesDict]
      exact ⟨writes_canon v h.1, writes_canonDict kvs h.2⟩

end

/-- The text `canonical_hash` hashes is read as the value with its keys
sorted; so two values share one exactly if they differ in the order of
keys alone. -/
theorem eq_canon_of_dumps {st : Style} {repr : K → String} {v w : PyVal K}
    (hv : Writes repr v) (hw : Writes repr w) :
    dumps st repr v.canon = dumps st repr w.canon ↔ v.canon = w.canon :=
  ⟨eq_of_dumps (writes_canon v hv) (writes_canon w hw),
    congrArg (dumps st repr)⟩

/-- What `json.dumps` writes of a value whose keys are texts, in any style,
`json.loads` reads back as that value, in the order it had, to be written
again in any other; and no other value has that text. With the keys sorted,
the text is read back sorted, and values have one `canonical_hash` exactly
if sorting their keys makes them equal, where sha256 tells their two texts
apart. -/
theorem loads_dumps {repr : K → String} (sha256 : String → String)
    (st st' : Style) {v w : PyVal K} (hv : Writes repr v) (hw : Writes repr w)
    (hsha : sha256 (dumps compact repr v.canon)
        = sha256 (dumps compact repr w.canon) →
      dumps compact repr v.canon = dumps compact repr w.canon) :
    loads (dumps st repr v) = .ok v
      ∧ (loads (dumps st repr v)).map (dumps st' repr)
        = .ok (dumps st' repr v)
      ∧ (dumps st repr v = dumps st repr w ↔ v = w)
      ∧ loads (dumps compact repr v.canon) = .ok v.canon
      ∧ (canonicalHash (shaOfText sha256 repr) v
          = canonicalHash (shaOfText sha256 repr) w ↔ v.canon = w.canon) := by
  have hread := loads_text st hv
  refine ⟨hread, ?_, ⟨eq_of_dumps hv hw, congrArg (dumps st repr)⟩,
    loads_text compact (writes_canon v hv), ?_, ?_⟩
  · rw [hread]
    rfl
  · intro hhash
    exact (eq_canon_of_dumps hv hw).1 (hsha hhash)
  · intro hcanon
    rw [canonicalHash, canonicalHash, hcanon]

omit [Field K] in
theorem floatText_half : FloatText (fun _ : ℚ => "1.5") (3 / 2) where
  literal := by decide
  value := by decide +kernel

/-- Two orders of one dict: each is read back as it is, they have two
texts, and one hash. -/
theorem loads_dumps_orders :
    (loads (K := ℚ) (dumps (indented 2) (fun _ => "1.5")
        (.dict [("pnl", .float (.fin (3 / 2))), ("fills", .list [])]))).map
          (dumps compact fun _ => "1.5")
        = .ok "\x7b\"pnl\":1.5,\"fills\":[]\x7d"
      ∧ dumps (indented 2) (fun _ : ℚ => "1.5")
          (.dict [("pnl", .float (.fin (3 / 2))), ("fills", .list [])])
        ≠ dumps (indented 2) (fun _ : ℚ => "1.5")
          (.dict [("fills", .list []), ("pnl", .float (.fin (3 / 2)))])
      ∧ canonicalHash (shaOfText id fun _ : ℚ => "1.5")
          (.dict [("pnl", .float (.fin (3 / 2))), ("fills", .list [])])
        = canonicalHash (shaOfText id fun _ : ℚ => "1.5")
          (.dict [("fills", .list []), ("pnl", .float (.fin (3 / 2)))]) := by
  have hv : Writes (fun _ : ℚ => "1.5")
      (.dict [("pnl", .float (.fin (3 / 2))), ("fills", .list [])]) := by
    simp [Writes, WritesDict, WritesList, floatText_half]
  have hw : Writes (fun _ : ℚ => "1.5")
      (.dict [("fills", .list []), ("pnl", .float (.fin (3 / 2)))]) := by
    simp [Writes, WritesDict, WritesList, floatText_half]
  obtain ⟨-, hread, heq, -, hhash⟩ :=
    loads_dumps id (indented 2) compact hv hw id
  refine ⟨hread, fun h => ?_, hhash.2 ?_⟩
  · have hval := heq.1 h
    simp at hval
  · with_unfolding_all rfl

end Proofstand.Json
