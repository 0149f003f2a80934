/-
A file that `json.dumps` writes, cut short.

What closes its own brackets is read the same whatever is put behind it
(`scan_more`, an induction over the fuel for the three readers at once).
So a part of a dict's text that can be read is all of it but for the line
break behind it (`loads_part`): what is left of a record while it is being
written is no other record (`loads_torn`).

# Why a record and not a number

A file that held a number would be torn silently: the text of 123 begins
with the text of 12. A dict's text ends at its closing brace, so no proper
part of it closes, and a reader that succeeds on a part has seen the brace.
The lemmas are about values that close themselves (`Closes`); numbers and
words inside such a value are followed by something, and are read alike
with more behind it for that reason.

# The induction

The three readers call each other, with less fuel each time. `OnceMore`,
`ItemsMore` and `EntriesMore` are one statement for each, and `scan_more`
proves the three together by induction on the fuel.
-/
import Proofstand.Python.Proofs.Json

namespace Proofstand.Json

open JsonText

variable {K : Type}

-- ================================================================= tokens

theorem skipBlanks_more {cs : List Char} (h : skipBlanks cs ≠ [])
    (more : List Char) : skipBlanks (cs ++ more) = skipBlanks cs ++ more := by
  induction cs with
  | nil => exact absurd rfl h
  | cons c cs ih =>
      rw [List.cons_append, skipBlanks, skipBlanks, List.dropWhile_cons,
        List.dropWhile_cons]
      rw [skipBlanks, List.dropWhile_cons] at h
      split
      case isTrue hc =>
          rw [if_pos hc] at h
          exact ih h
      case isFalse => rfl

theorem expect_eq_some {c : Char} {cs rest : List Char} :
    expect c cs = some rest ↔ cs = c :: rest := by
  cases cs with
  | nil => simp [expect]
  | cons d cs =>
      by_cases hd : d = c
      · simp [expect, hd]
      · simp [expect, hd]

/-- One that is not next is not next with more behind it. -/
theorem expect_more {c : Char} {cs : List Char} (hne : cs ≠ [])
    (h : expect c cs = none) (more : List Char) :
    expect c (cs ++ more) = none := by
  cases cs with
  | nil => exact absurd rfl hne
  | cons d cs =>
      by_cases hd : d = c
      · simp [expect, hd] at h
      · simp [expect, hd]

/-- Something stops what stands in front of a comma or a bracket, blanks
between them or not. -/
theorem stops_of_skipBlanks {c : Char} {cs rest : List Char}
    (hc : c = ',' ∨ c = ']' ∨ c = '}') (h : skipBlanks cs = c :: rest) :
    cs ≠ [] ∧ Stops cs := by
  cases cs with
  | nil => cases h
  | cons d cs =>
      refine ⟨List.cons_ne_nil _ _, ?_⟩
      intro e he
      cases he
      by_cases hblank : isBlank d = true
      · simp only [isBlank, Bool.or_eq_true, beq_iff_eq] at hblank
        rcases hblank with ((rfl | rfl) | rfl) | rfl
        all_goals decide
      · rw [Bool.not_eq_true] at hblank
        rw [skipBlanks_cons hblank] at h
        cases h
        rcases hc with rfl | rfl | rfl
        all_goals decide

/-- A word that was taken is one of the words. -/
theorem exists_word {words : List (String × PyVal K)} {cs rest : List Char}
    {v : PyVal K} (h : takeWord words cs = some (v, rest)) :
    ∃ word, (word, v) ∈ words ∧ cs = word.toList ++ rest := by
  obtain ⟨p, hp, hafter⟩ := List.exists_of_findSome?_eq_some h
  obtain ⟨word, w⟩ := p
  dsimp only at hafter
  rw [afterWord] at hafter
  split at hafter
  case isTrue hstarts =>
      cases hafter
      refine ⟨word, hp, ?_⟩
      obtain ⟨t, rfl⟩ := List.isPrefixOf_iff_prefix.1 hstarts
      rw [List.drop_left]
  case isFalse => cases hafter

section

variable [Field K]

/-- An atom that was read to its end is read the same with more behind it. -/
theorem scanAtom_more {cs rest : List Char} {v : PyVal K}
    (h : scanAtom cs = some (v, rest)) (hne : rest ≠ [])
    (hstops : Stops rest) (more : List Char) :
    scanAtom (cs ++ more) = some (v, rest ++ more) := by
  rw [scanAtom] at h
  cases hword : takeWord (K := K) words cs with
  | some p =>
      rw [hword] at h
      cases h
      obtain ⟨word, hin, rfl⟩ := exists_word hword
      simp only [words, List.mem_cons, List.not_mem_nil, or_false,
        Prod.mk.injEq] at hin
      rcases hin with ⟨rfl, rfl⟩ | ⟨rfl, rfl⟩ | ⟨rfl, rfl⟩
      all_goals rfl
  | none =>
      rw [hword] at h
      dsimp only at h
      cases hnumber : readNumber cs with
      | some r =>
          obtain ⟨digits, isInt, tail⟩ := r
          rw [hnumber] at h
          cases hof : ofNumber (K := K) digits isInt with
          | none => simp [hof] at h
          | some w =>
              simp only [hof, Option.map_some, Option.some.injEq,
                Prod.mk.injEq] at h
              obtain ⟨rfl, rfl⟩ := h
              obtain ⟨c, cs, rfl, hc⟩ := head_of_readNumber hnumber
              rw [scanAtom, List.cons_append, takeWord_words,
                ← List.cons_append, readNumber_more hnumber hne hstops]
              · simp [hof]
              all_goals
                intro heq
                subst heq
                revert hc
                decide
      | none =>
          rw [hnumber] at h
          obtain ⟨word, hin, rfl⟩ := exists_word h
          simp only [floatWords, List.mem_cons, List.not_mem_nil, or_false,
            Prod.mk.injEq] at hin
          rcases hin with ⟨rfl, rfl⟩ | ⟨rfl, rfl⟩ | ⟨rfl, rfl⟩
          all_goals rfl

-- ============================================================== the readers

/-- What closes itself: a string, a list or a dict. -/
def Closes (cs : List Char) : Prop :=
  cs.head? = some '"' ∨ cs.head? = some '[' ∨ cs.head? = some '{'

/-- With this much fuel, what was read is read whatever follows and with
any more fuel. -/
def OnceMore (K : Type) [Field K] (fuel : Nat) : Prop :=
  ∀ (cs rest : List Char) (v : PyVal K),
    scanOnce fuel cs = some (v, rest) →
      Closes cs ∨ (rest ≠ [] ∧ Stops rest) →
        ∀ fuel' more, fuel ≤ fuel' →
          scanOnce fuel' (cs ++ more) = some (v, rest ++ more)

def ItemsMore (K : Type) [Field K] (fuel : Nat) : Prop :=
  ∀ (cs rest : List Char) (vs : List (PyVal K)),
    scanItems fuel cs = some (vs, rest) →
      ∀ fuel' more, fuel ≤ fuel' →
        scanItems fuel' (cs ++ more) = some (vs, rest ++ more)

def EntriesMore (K : Type) [Field K] (fuel : Nat) : Prop :=
  ∀ (cs rest : List Char) (kvs : Dict K),
    scanEntries fuel cs = some (kvs, rest) →
      ∀ fuel' more, fuel ≤ fuel' →
        scanEntries fuel' (cs ++ more) = some (kvs, rest ++ more)

theorem scanItems_ne_nil {fuel : Nat} {cs rest : List Char}
    {vs : List (PyVal K)} (h : scanItems fuel cs = some (vs, rest)) :
    cs ≠ [] := by
  intro heq
  subst heq
  cases fuel with
  | zero => cases h
  | succ fuel =>
      cases fuel with
      | zero => cases h
      | succ fuel => cases h

theorem scanEntries_ne_nil {fuel : Nat} {cs rest : List Char}
    {kvs : Dict K} (h : scanEntries fuel cs = some (kvs, rest)) :
    cs ≠ [] := by
  intro heq
  subst heq
  cases fuel with
  | zero => cases h
  | succ fuel => cases h

theorem onceMore_succ {fuel : Nat} (hitems : ItemsMore K fuel)
    (hentries : EntriesMore K fuel) : OnceMore K (fuel + 1) := by
  intro cs rest v h hend fuel' more hle
  cases cs with
  | nil => cases h
  | cons c cs =>
      obtain ⟨fuel', rfl⟩ : ∃ n, fuel' = n + 1 := ⟨fuel' - 1, by omega⟩
      have hle' : fuel ≤ fuel' := by omega
      rw [scanOnce] at h
      rw [List.cons_append, scanOnce]
      split at h
      case isTrue hquote =>
          rw [if_pos hquote]
          cases hstring : readString cs with
          | none => simp [hstring] at h
          | some p =>
              rw [hstring] at h
              cases h
              rw [readString_append hstring more]
              rfl
      case isFalse hquote =>
          rw [if_neg hquote]
          split at h
          case isTrue hlist =>
              rw [if_pos hlist]
              cases hclose : expect ']' (skipBlanks cs) with
              | some tail =>
                  rw [hclose] at h
                  cases h
                  rw [expect_eq_some] at hclose
                  rw [skipBlanks_more (by rw [hclose]; simp), hclose]
                  rfl
              | none =>
                  rw [hclose] at h
                  cases hscan : scanItems (K := K) fuel (skipBlanks cs) with
                  | none => simp [hscan] at h
                  | some p =>
                      rw [hscan] at h
                      cases h
                      have hne := scanItems_ne_nil hscan
                      rw [skipBlanks_more hne, expect_more hne hclose,
                        hitems _ _ _ hscan fuel' more hle']
                      rfl
          case isFalse hlist =>
              rw [if_neg hlist]
              split at h
              case isTrue hdict =>
                  rw [if_pos hdict]
                  cases hclose : expect '}' (skipBlanks cs) with
                  | some tail =>
                      rw [hclose] at h
                      cases h
                      rw [expect_eq_some] at hclose
                      rw [skipBlanks_more (by rw [hclose]; simp), hclose]
                      rfl
                  | none =>
                      rw [hclose] at h
                      cases hscan : scanEntries (K := K) fuel
                          (skipBlanks cs) with
                      | none => simp [hscan] at h
                      | some p =>
                          rw [hscan] at h
                          cases h
                          have hne := scanEntries_ne_nil hscan
                          rw [skipBlanks_more hne, expect_more hne hclose,
                            hentries _ _ _ hscan fuel' more hle']
                          rfl
              case isFalse hdict =>
                  rw [if_neg hdict, ← List.cons_append]
                  obtain ⟨hne, hstops⟩ : rest ≠ [] ∧ Stops rest := by
                    refine hend.resolve_left ?_
                    intro h
                    rcases h with hc | hc | hc
                    · exact hquote (Option.some.inj hc)
                    · exact hlist (Option.some.inj hc)
                    · exact hdict (Option.some.inj hc)
                  exact scanAtom_more h hne hstops more

theorem itemsMore_succ {fuel : Nat} (honce : OnceMore K fuel)
    (hitems : ItemsMore K fuel) : ItemsMore K (fuel + 1) := by
  intro cs rest vs h fuel' more hle
  obtain ⟨fuel', rfl⟩ : ∃ n, fuel' = n + 1 := ⟨fuel' - 1, by omega⟩
  have hle' : fuel ≤ fuel' := by omega
  rw [scanItems] at h ⊢
  cases hscan : scanOnce (K := K) fuel cs with
  | none => simp [hscan] at h
  | some p =>
      obtain ⟨v, tail⟩ := p
      simp only [hscan, bind, Option.bind] at h
      cases hclose : expect ']' (skipBlanks tail) with
      | some last =>
          simp only [hclose, pure, Option.some.injEq, Prod.mk.injEq] at h
          obtain ⟨rfl, rfl⟩ := h
          rw [expect_eq_some] at hclose
          have hstop := stops_of_skipBlanks (Or.inr (Or.inl rfl)) hclose
          have hnext : skipBlanks tail ≠ [] := by simp [hclose]
          simp only [honce _ _ _ hscan (Or.inr hstop) fuel' more hle', bind,
            Option.bind, skipBlanks_more hnext, hclose]
          rfl
      | none =>
          simp only [hclose] at h
          cases hcomma : expect ',' (skipBlanks tail) with
          | none => simp [hcomma] at h
          | some next =>
              simp only [hcomma] at h
              cases hrest : scanItems (K := K) fuel (skipBlanks next) with
              | none => simp [hrest] at h
              | some p =>
                  obtain ⟨us, last⟩ := p
                  simp only [hrest, pure, Option.some.injEq,
                    Prod.mk.injEq] at h
                  obtain ⟨rfl, rfl⟩ := h
                  have heq := expect_eq_some.1 hcomma
                  have hstop := stops_of_skipBlanks (Or.inl rfl) heq
                  have hnext : skipBlanks tail ≠ [] := by simp [heq]
                  have hcomma' : expect ',' (skipBlanks tail ++ more)
                      = some (next ++ more) := by
                    rw [expect_eq_some, heq]
                    rfl
                  simp only [honce _ _ _ hscan (Or.inr hstop) fuel' more
                    hle', bind, Option.bind, skipBlanks_more hnext,
                    expect_more hnext hclose, hcomma',
                    skipBlanks_more (scanItems_ne_nil hrest),
                    hitems _ _ _ hrest fuel' more hle']
                  rfl

theorem entriesMore_succ {fuel : Nat} (honce : OnceMore K fuel)
    (hentries : EntriesMore K fuel) : EntriesMore K (fuel + 1) := by
  intro cs rest kvs h fuel' more hle
  obtain ⟨fuel', rfl⟩ : ∃ n, fuel' = n + 1 := ⟨fuel' - 1, by omega⟩
  have hle' : fuel ≤ fuel' := by omega
  rw [scanEntries] at h ⊢
  cases hquote : expect '"' cs with
  | none => simp [hquote] at h
  | some afterQuote =>
  cases hkey : readString afterQuote with
  | none => simp [hquote, hkey] at h
  | some p =>
  obtain ⟨k, afterKey⟩ := p
  simp only [hquote, hkey, bind, Option.bind] at h
  cases hcolon : expect ':' (skipBlanks afterKey) with
  | none => simp [hcolon] at h
  | some afterColon =>
  simp only [hcolon] at h
  cases hscan : scanOnce (K := K) fuel (skipBlanks afterColon) with
  | none => simp [hscan] at h
  | some p =>
  obtain ⟨v, tail⟩ := p
  simp only [hscan] at h
  rw [expect_eq_some] at hquote
  have hquote' : expect '"' (cs ++ more) = some (afterQuote ++ more) := by
    rw [expect_eq_some, hquote]
    rfl
  have hkey' := readString_append hkey more
  have hcolon' : expect ':' (skipBlanks (afterKey ++ more))
      = some (afterColon ++ more) := by
    rw [expect_eq_some] at hcolon ⊢
    rw [skipBlanks_more (by simp [hcolon]), hcolon]
    rfl
  have hvalue : skipBlanks afterColon ≠ [] := by
    obtain ⟨c, cs, hc, -⟩ := head_of_scanOnce hscan
    simp [hc]
  cases hclose : expect '}' (skipBlanks tail) with
  | some last =>
      simp only [hclose, pure, Option.some.injEq, Prod.mk.injEq] at h
      obtain ⟨rfl, rfl⟩ := h
      rw [expect_eq_some] at hclose
      have hstop := stops_of_skipBlanks (Or.inr (Or.inr rfl)) hclose
      have hnext : skipBlanks tail ≠ [] := by simp [hclose]
      simp only [hquote', hkey', hcolon', skipBlanks_more hvalue,
        honce _ _ _ hscan (Or.inr hstop) fuel' more hle', bind,
        Option.bind, skipBlanks_more hnext, hclose]
      rfl
  | none =>
      simp only [hclose] at h
      cases hcomma : expect ',' (skipBlanks tail) with
      | none => simp [hcomma] at h
      | some next =>
          simp only [hcomma] at h
          cases hrest : scanEntries (K := K) fuel (skipBlanks next) with
          | none => simp [hrest] at h
          | some p =>
              obtain ⟨us, last⟩ := p
              simp only [hrest, pure, Option.some.injEq, Prod.mk.injEq] at h
              obtain ⟨rfl, rfl⟩ := h
              have heq := expect_eq_some.1 hcomma
              have hstop := stops_of_skipBlanks (Or.inl rfl) heq
              have hnext : skipBlanks tail ≠ [] := by simp [heq]
              have hcomma' : expect ',' (skipBlanks tail ++ more)
                  = some (next ++ more) := by
                rw [expect_eq_some, heq]
                rfl
              simp only [hquote', hkey', hcolon', skipBlanks_more hvalue,
                honce _ _ _ hscan (Or.inr hstop) fuel' more hle', bind,
                Option.bind, skipBlanks_more hnext,
                expect_more hnext hclose, hcomma',
                skipBlanks_more (scanEntries_ne_nil hrest),
                hentries _ _ _ hrest fuel' more hle']
              rfl

/-- What was read is read the same with more fuel and more behind it, by
induction on the fuel. -/
theorem scan_more (fuel : Nat) :
    OnceMore K fuel ∧ ItemsMore K fuel ∧ EntriesMore K fuel := by
  induction fuel with
  | zero =>
      refine ⟨?_, ?_, ?_⟩
      · intro cs rest v h
        cases h
      · intro cs rest vs h
        cases h
      · intro cs rest kvs h
        cases h
  | succ fuel ih =>
      obtain ⟨honce, hitems, hentries⟩ := ih
      exact ⟨onceMore_succ hitems hentries, itemsMore_succ honce hitems,
        entriesMore_succ honce hentries⟩

-- ================================================================ the texts

/-- `json.loads` returns where one value and blanks are all there is. -/
theorem loads_eq_ok {s : String} {v : PyVal K} :
    loads s = .ok v
      ↔ ∃ rest, scanOnce (2 * s.length) (skipBlanks s.toList)
          = some (v, rest) ∧ skipBlanks rest = [] := by
  rw [loads]
  cases hscan : scanOnce (K := K) (2 * s.length) (skipBlanks s.toList) with
  | none => simp [raise]
  | some p =>
      obtain ⟨w, rest⟩ := p
      by_cases hrest : skipBlanks rest = []
      · simp [hrest]
      · simp [hrest, raise]

/-- What a text that closes itself reads as, it does in front of more. -/
theorem scan_of_loads {s : String} {v : PyVal K} (more : String)
    (hopens : Closes (skipBlanks s.toList)) (hs : loads s = .ok v) :
    ∃ rest, skipBlanks rest = []
      ∧ scanOnce (2 * (s ++ more).length) (skipBlanks (s ++ more).toList)
        = some (v, rest ++ more.toList) := by
  obtain ⟨rest, hscan, hrest⟩ := loads_eq_ok.1 hs
  have hne : skipBlanks s.toList ≠ [] := by
    intro hnil
    rw [hnil] at hopens
    rcases hopens with h | h | h
    all_goals cases h
  refine ⟨rest, hrest, ?_⟩
  rw [String.toList_append, skipBlanks_more hne]
  refine (scan_more _).1 _ _ _ hscan (Or.inl hopens) _ _ ?_
  rw [String.length_append]
  omega

/-- A last line break changes nothing. -/
theorem loads_blank {s more : String} {v : PyVal K}
    (hopens : Closes (skipBlanks s.toList)) (hs : loads s = .ok v)
    (hblank : Blank more.toList) : loads (s ++ more) = .ok v := by
  obtain ⟨rest, hrest, hscan⟩ := scan_of_loads more hopens hs
  refine loads_eq_ok.2 ⟨_, hscan, ?_⟩
  have hblanks : Blank (rest ++ more.toList) := by
    refine Blank.append ?_ hblank
    intro c hc
    by_contra hnot
    have hin := List.dropWhile_eq_nil_iff.1 hrest c hc
    exact hnot hin
  rw [← List.append_nil (rest ++ more.toList), skipBlanks_append hblanks]
  rfl

omit [Field K] in
/-- A dict's text begins with its brace. -/
theorem dumps_dict (st : Style) (repr : K → String) (kvs : Dict K) :
    ∃ tail, (dumps st repr (.dict kvs)).toList = '{' :: tail := by
  rw [dumps, String.toList_ofList, text]
  cases entries st repr (0 + 1) kvs with
  | nil => exact ⟨_, rfl⟩
  | cons p ps => exact ⟨_, rfl⟩

/-- A text that begins with a brace says itself where it ends. -/
theorem closes_brace {s : String} {tail : List Char}
    (h : s.toList = '{' :: tail) : Closes (skipBlanks s.toList) := by
  rw [h, skipBlanks_cons (by decide)]
  exact Or.inr (Or.inr rfl)

/-- A dict's text and a line break are read as the dict. -/
theorem loads_line {repr : K → String} (st : Style) {kvs : Dict K}
    (hw : Writes repr (.dict kvs)) :
    loads (dumps st repr (.dict kvs) ++ "\n") = .ok (.dict kvs) := by
  obtain ⟨tail, htail⟩ := dumps_dict st repr kvs
  refine loads_blank (closes_brace htail) (loads_text st hw) ?_
  intro c hc
  rw [List.mem_singleton.1 hc]
  rfl

/-- What can be read of them lacks the line break at most. -/
theorem loads_part {repr : K → String} (st : Style) {kvs : Dict K}
    {s more : String} {w : PyVal K} (hw : Writes repr (.dict kvs))
    (hwhole : s ++ more = dumps st repr (.dict kvs) ++ "\n")
    (hs : loads s = .ok w) :
    w = .dict kvs ∧ (more = "" ∨ more = "\n") := by
  obtain ⟨tail, htail⟩ := dumps_dict st repr kvs
  have hopens : Closes (skipBlanks s.toList) := by
    cases hlist : s.toList with
    | nil =>
        have hempty : s = "" := String.toList_eq_nil_iff.1 hlist
        rw [hempty] at hs
        cases hs
    | cons c cs =>
        have hchars := congrArg String.toList hwhole
        rw [String.toList_append, String.toList_append, htail, hlist]
          at hchars
        have hc : c = '{' := List.head_eq_of_cons_eq hchars
        rw [hc]
        exact Or.inr (Or.inr rfl)
  obtain ⟨rest, -, hscan⟩ := scan_of_loads more hopens hs
  have hread := reads_text st 0 (.dict kvs) hw ['\n']
    (2 * (s ++ more).length) (stops_cons [] (by simp))
  have hchars : (s ++ more).toList = text st repr 0 (.dict kvs) ++ ['\n'] := by
    rw [hwhole, String.toList_append, dumps, String.toList_ofList]
    rfl
  have hlength : 2 * (text st repr 0 (.dict kvs)).length
      ≤ 2 * (s ++ more).length := by
    rw [← String.length_toList, hchars, List.length_append]
    omega
  rw [dumps, String.toList_ofList] at htail
  rw [hchars, htail, List.cons_append, skipBlanks_cons (by decide),
    ← List.cons_append, ← htail, hread hlength] at hscan
  simp only [Option.some.injEq, Prod.mk.injEq] at hscan
  obtain ⟨rfl, hrest⟩ := hscan
  refine ⟨rfl, ?_⟩
  have hsuffix : more.toList <:+ ['\n'] := ⟨rest, hrest.symm⟩
  rcases List.suffix_cons_iff.1 hsuffix with hline | hnone
  · exact Or.inr (String.toList_inj.1 hline)
  · exact Or.inl (String.toList_eq_nil_iff.1 (List.suffix_nil.1 hnone))

/-- Whatever is left of them, if it is read at all, it is read as that
dict. -/
theorem loads_torn {repr : K → String} (st : Style) {kvs : Dict K}
    {s : String} {w : PyVal K} (hw : Writes repr (.dict kvs))
    (hpart : s.toList <+: (dumps st repr (.dict kvs) ++ "\n").toList)
    (hs : loads s = .ok w) : w = .dict kvs := by
  obtain ⟨more, hmore⟩ := hpart
  have hwhole : s ++ String.ofList more
      = dumps st repr (.dict kvs) ++ "\n" := by
    rw [← String.toList_inj, String.toList_append, String.toList_ofList]
    exact hmore
  exact (loads_part st hw hwhole hs).1

end

end Proofstand.Json
