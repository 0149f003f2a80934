/-
When the candles a caller gets are the ones the exchange came to.

A fetch ends now, so its last candle is as a rule still open, and is
stored as it stands. The next fetch starts a step after it: nothing ever
replaces it (`unfinished_kept`). So every stored row is final exactly as
long as no fetch met an open candle that was yet to change
(`stored_final_iff`), and then so is every row returned.

# An equivalence on histories

`stored_final_iff` reads both ways. If every call that fetched was
settled, the rows it stored were final when they were stored, and final
rows stay. If some call was not, the row it stored of its open candle is
still there at the end, since no fetch starts at or before a row that is
stored, and it is not what the candle came to.

Settled is a condition on the moment and the market: a candle still open
at the call already has its final values. That is so where the market
rests, and where the newest candle has just closed. `Throughout` is the
condition at every call, in the store the call found.
-/
import Proofstand.Data.Proofs.Cache

namespace Proofstand

open Fallible

variable {K : Type}

namespace Cache

-- ============================================================ final values

/-- The row says what the candle came to. -/
def IsFinal (ex : Exchange K) (key : String × String) (r : KlineRow K) :
    Prop :=
  r.toKline = (ex.market key).final r.openTimeMs

/-- The rows a call returns are final where their candle had closed by the
time of the call. -/
def ClosedFinal (ex : Exchange K) (c : Call K) (store : Store K) : Prop :=
  ∀ rows, (readKlines c store).1 = .ok rows → ∀ r ∈ rows,
    r.closeTimeMs < c.nowMs → IsFinal ex c.key r

/-- A candle from the fetch's start on that is still open at the call has
its final values already. -/
def Settled (ex : Exchange K) (c : Call K) (store : Store K) : Prop :=
  Fetches ex c store →
    ∀ t ∈ (ex.market c.key).candles (startOf (ex.market c.key).step c.nowMs
      c.days (store c.key)) c.nowMs,
      c.nowMs < t + (ex.market c.key).step →
      (ex.market c.key).quote t c.nowMs = (ex.market c.key).final t

/-- Every call of the sequence, in the store it found, was of this kind. -/
def Throughout (P : Call K → Store K → Prop) (calls : List (Call K)) :
    Prop :=
  ∀ p c q, calls = p ++ c :: q → P c (after p)

/-- What holds at every call of a history holds at its last. -/
theorem throughout_concat {P : Call K → Store K → Prop}
    {calls : List (Call K)} {c : Call K} :
    Throughout P (calls ++ [c]) ↔ Throughout P calls ∧ P c (after calls) := by
  constructor
  · intro h
    refine ⟨?_, h calls c [] rfl⟩
    intro p d q heq
    subst heq
    exact h p d (q ++ [c]) (by simp)
  · intro h
    obtain ⟨hinit, hlast⟩ := h
    intro p d q heq
    rcases List.eq_nil_or_concat q with rfl | ⟨q', e, rfl⟩
    · obtain ⟨rfl, hcd⟩ := List.append_inj' heq rfl
      obtain rfl : c = d := by simpa using hcd
      exact hlast
    · have heq' : calls ++ [c] = (p ++ d :: q') ++ [e] := by
        rw [heq]
        simp
      exact hinit p d q' (List.append_inj' heq' rfl).1

/-- What a fetch brings is final, exactly where the call was settled. -/
theorem settled_iff {ex : Exchange K} {c : Call K} {store : Store K}
    (h : Fetches ex c store) :
    Settled ex c store
      ↔ ∀ r ∈ freshRows (ex.market c.key) c.nowMs c.days (store c.key),
          IsFinal ex c.key r := by
  constructor
  · intro hsettled r hr
    obtain ⟨t, ht, rfl⟩ := List.mem_map.1 hr
    unfold IsFinal
    rw [Market.row_openTimeMs]
    by_cases hopen : c.nowMs < t + (ex.market c.key).step
    · exact hsettled h t ht hopen
    · exact (ex.market c.key).settled t c.nowMs (not_lt.1 hopen)
  · intro hfinal _ t ht _
    have hrow := hfinal _ (List.mem_map_of_mem ht)
    unfold IsFinal at hrow
    rw [Market.row_openTimeMs] at hrow
    exact hrow

/-- The rows of every file are final exactly as long as every call of the
history was settled. -/
theorem stored_final_iff {ex : Exchange K} {calls : List (Call K)}
    (h : History ex calls) :
    Throughout (Settled ex) calls
      ↔ ∀ key rows, after calls key = some rows → ∀ r ∈ rows,
          IsFinal ex key r := by
  induction calls using List.reverseRecOn with
  | nil =>
      constructor
      · intro _ key rows hrows
        cases hrows
      · intro _ p c q hnil
        simp at hnil
  | append_singleton calls c ih =>
      obtain ⟨hinit, hcross⟩ := h.append
      have hserve := h.served c
        (List.mem_append_right calls List.mem_cons_self)
      have hsound : ∀ key, Sound (ex.market key) c.nowMs (after calls key) :=
        sound_after hinit fun d hd => hcross d hd c List.mem_cons_self
      rw [throughout_concat, ih hinit, after_concat]
      constructor
      · intro h
        obtain ⟨hfinal, hsettled⟩ := h
        intro key rows hrows r hr
        rcases readKlines_file hserve (le_refl c.nowMs) key (hsound key)
          with ⟨hsame, -⟩ | ⟨rfl, hfetches, hfile, -⟩
        · rw [hsame] at hrows
          exact hfinal key rows hrows r hr
        · rw [hfile] at hrows
          rw [← Option.some.inj hrows, List.mem_append] at hr
          rcases hr with hold | hfresh
          · cases hbefore : after calls c.key with
            | none =>
                rw [hbefore] at hold
                cases hold
            | some old =>
                rw [hbefore] at hold
                exact hfinal c.key old hbefore r hold
          · exact (settled_iff hfetches).1 hsettled r hfresh
      · intro hfinal
        constructor
        · intro key old hold r hr
          have hgrown := grows_after h key old hold
          rw [after_concat] at hgrown
          obtain ⟨more, hmore⟩ := hgrown
          exact hfinal key _ hmore r (List.mem_append_left more hr)
        · intro hfetches
          refine (settled_iff hfetches).2 ?_ hfetches
          rcases readKlines_file hserve (le_refl c.nowMs) c.key
            (hsound c.key) with ⟨-, hnone⟩ | ⟨-, -, hfile, -⟩
          · rw [hnone rfl hfetches]
            intro r hr
            cases hr
          · intro r hr
            exact hfinal c.key _ hfile r (List.mem_append_right _ hr)

-- ======================================================== what is returned

theorem window_eq_ok {rows out : List (KlineRow K)} {a : Int}
    (h : window rows a = .ok out) :
    out = rows.filter fun r => a ≤ r.openTimeMs := by
  unfold window at h
  split at h
  · rename_i hempty
    cases h
    rw [List.isEmpty_iff.1 hempty]
    rfl
  · split at h
    · exact (Except.ok.inj h).symm
    · cases h

/-- A row that is returned is in the call's file afterwards. -/
theorem stored_of_returned {c : Call K} {store : Store K}
    {rows : List (KlineRow K)} (h : (readKlines c store).1 = .ok rows)
    {r : KlineRow K} (hr : r ∈ rows) :
    ∃ kept, (readKlines c store).2 c.key = some kept ∧ r ∈ kept := by
  cases hstep : intervalMs.lookup c.interval with
  | none =>
      obtain ⟨e, he⟩ := (readKlines_unsupported hstep store).1
      rw [he] at h
      cases h
  | some step =>
      obtain ⟨hrows, hfile⟩ := readKlines_supported hstep store
      rw [hfile, Function.update_self]
      rw [hrows] at h
      rcases readFile_cases c.getJson c.pair c.interval step c.nowMs c.days
          c.refresh (store c.key)
        with ⟨old, -, hsome, hread⟩ | ⟨-, ⟨e, -, hread⟩ | ⟨-, hread⟩
          | ⟨fresh, -, -, hread⟩⟩
      · rw [hread] at h ⊢
        rw [window_eq_ok h] at hr
        exact ⟨old, hsome, List.mem_of_mem_filter hr⟩
      · rw [hread] at h
        cases h
      · rw [hread] at h ⊢
        rw [window_eq_ok h] at hr
        have hold := List.mem_of_mem_filter hr
        cases hbefore : store c.key with
        | none =>
            rw [hbefore] at hold
            cases hold
        | some old =>
            rw [hbefore] at hold
            exact ⟨old, rfl, hold⟩
      · rw [hread] at h ⊢
        rw [window_eq_ok h] at hr
        exact ⟨_, rfl, List.mem_of_mem_filter hr⟩

/-- Along a history whose calls were all settled, every row returned after
its candle's close is final; and the calls were all settled exactly where
every stored row is final. -/
theorem closed_final_of_settled {ex : Exchange K} {calls : List (Call K)}
    (h : History ex calls) :
    (Throughout (Settled ex) calls → Throughout (ClosedFinal ex) calls)
      ∧ (Throughout (Settled ex) calls
        ↔ ∀ key rows, after calls key = some rows → ∀ r ∈ rows,
            IsFinal ex key r) := by
  refine ⟨?_, stored_final_iff h⟩
  intro hsettled p c q heq
  subst heq
  intro rows hrows r hr _
  obtain ⟨kept, hkept, hmem⟩ := stored_of_returned hrows hr
  rw [← after_concat] at hkept
  -- the calls up to this one are a history of settled calls too
  rw [List.append_cons] at h hsettled
  have hinit : Throughout (Settled ex) (p ++ [c]) := by
    intro p' d q' heq
    exact hsettled p' d (q' ++ q) (by rw [heq]; simp)
  exact (stored_final_iff h.append.1).1 hinit c.key kept hkept r hmem

-- ========================================================= an open candle

/-- Half a day into a daily candle it is stored at 1; two days later it has
closed at 2 and is still returned at 1. -/
theorem unfinished_kept :
    History risingExchange [daily 43200000 1, daily 216000000 3]
      ∧ ¬ Throughout (ClosedFinal risingExchange)
        [daily 43200000 1, daily 216000000 3] := by
  constructor
  · exact daily_history [(43200000, 1), (216000000, 3)] (by decide)
  · intro hfinal
    have hlast := hfinal [daily 43200000 1] (daily 216000000 3) [] rfl
    obtain ⟨rows, hrows, hwrong⟩ := exists_of_okAnd
      (x := (readKlines (daily 216000000 3) (after [daily 43200000 1])).1)
      (p := fun rows => rows.any fun r => decide (r.closeTimeMs < 216000000
        ∧ r.toKline ≠ (risingExchange.market (daily 0 0).key).final
          r.openTimeMs)) (by decide +kernel)
    obtain ⟨r, hr, hwrong⟩ := List.any_eq_true.1 hwrong
    obtain ⟨hclosed, hne⟩ := of_decide_eq_true hwrong
    exact hne (hlast rows hrows r hr hclosed)

/-- Where the last candle had closed before the call, all rows are
final. -/
theorem closed_final_daily : ∃ rows,
    (readKlines (daily 1036800000 4) fun _ => none).1 = .ok rows
      ∧ rows ≠ []
      ∧ ∀ r ∈ rows, r.closeTimeMs < 1036800000 →
        IsFinal risingExchange (daily 0 0).key r := by
  have hhistory : History risingExchange [daily 1036800000 4] :=
    daily_history [(1036800000, 4)] (by decide)
  have hsettled : Throughout (Settled risingExchange)
      [daily 1036800000 4] := by
    intro p c q hsplit
    obtain ⟨rfl, rfl, rfl⟩ : p = [] ∧ c = daily 1036800000 4 ∧ q = [] := by
      cases p with
      | nil => simpa [eq_comm] using hsplit
      | cons a p => simp at hsplit
    -- the last candle of the market opened on day ten
    intro _ t ht hopen
    have hlisted := (Market.mem_candles_iff.1 ht).1.2
    have hlast : t ≤ 864000000 := (of_decide_eq_true hlisted).2
    have hday : (1036800000 : Int) < t + 86400000 := hopen
    omega
  obtain ⟨rows, hrows, hsome⟩ := exists_of_okAnd
    (x := (readKlines (daily 1036800000 4) fun _ => none).1)
    (p := fun rows => decide (rows ≠ [])) (by decide +kernel)
  exact ⟨rows, hrows, of_decide_eq_true hsome,
    (closed_final_of_settled hhistory).1 hsettled [] _ [] rfl rows hrows⟩

end Cache

end Proofstand
