/-
When a warm read has its whole window.

A fetch extends a file forwards only, from a step after its newest row,
so what is older than its oldest row stays missing however long a window
is asked for (`older_part_missing`); and a candle that opens at the very
moment the fetch would start from is not fetched. Where neither is the
case and the cut is a date, the call returns exactly the window
(`covers_iff`).

# Both ends of a window

A call returns the rows of its file from a cutoff on. The rows are a
stretch up to now, so a candle of the window can be missing for two
reasons only: it opens before the oldest row of the file, or it is the one
that a fetch starting now or later leaves out. `Reaches` excludes both,
and where it does not hold the missing candle is a witness. The cutoff
itself has to be a moment that can be represented; where it can not the
call raises.

From an empty file the fetch starts at the window's own start, so there is
nothing older to miss, and the first call for a file returns its window
wherever the cutoff can be represented.
-/
import Proofstand.Data.Proofs.Final

namespace Proofstand

open Fallible Series

variable {K : Type}

namespace Cache

-- ============================================================== the window

/-- The rows a refreshing call cuts its window from. -/
def keptRows (m : Market K) (now days : Int) (file : File K) :
    List (KlineRow K) :=
  file.getD [] ++
    if startOf m.step now days file < now then freshRows m now days file
    else []

/-- A refreshing call returns the window of the file it leaves. -/
theorem readFile_window {m : Market K} {t now days : Int}
    {pair interval : String} {getJson : Binance.Endpoint K}
    {file : File K} (h : Sound m t file) (ht : t ≤ now)
    (hanswer : Answers m now (Binance.symbol pair) interval getJson) :
    (readFile getJson pair interval m.step now days true file).1
      = window (keptRows m now days file) (now - days * 86400000) := by
  obtain ⟨fresh, hfetch⟩ := fetch_total hanswer days file
  have hfresh := fetch_eq_ok hanswer.serves hfetch
  have hkept : keptRows m now days file = file.getD [] ++ fresh := by
    rw [keptRows, hfresh]
    rfl
  rw [hkept]
  rcases readFile_cases getJson pair interval m.step now days true file
    with ⟨rows, hfalse, -⟩ | ⟨-, ⟨e, herror, -⟩ | ⟨hnone, hread⟩
      | ⟨fresh', hne, hfetch', hread⟩⟩
  · cases hfalse
  · rw [hfetch] at herror
    cases herror
  · obtain rfl : fresh = [] := Except.ok.inj (hfetch.symm.trans hnone)
    rw [hread, List.append_nil]
  · obtain rfl : fresh = fresh' := Except.ok.inj (hfetch.symm.trans hfetch')
    rw [hread, (h.merge ht hanswer.serves hfetch hne).1]

/-- The file it leaves has the openings it had, and those fetched. -/
theorem keptRows_openTimeMs (m : Market K) (now days : Int)
    (file : File K) :
    ((keptRows m now days file).map fun r => r.openTimeMs)
      = ((file.getD []).map fun r => r.openTimeMs)
        ++ if startOf m.step now days file < now then
            m.candles (startOf m.step now days file) now else [] := by
  unfold keptRows freshRows
  rw [List.map_append]
  by_cases hlate : startOf m.step now days file < now
  · rw [if_pos hlate, if_pos hlate, m.map_row_openTimeMs]
  · rw [if_neg hlate, if_neg hlate]
    rfl

/-- The rows kept are candles up to now, in order. -/
theorem keptRows_candles {m : Market K} {t now : Int} {file : File K}
    (h : Sound m t file) (ht : t ≤ now) (days : Int) :
    ((keptRows m now days file).map fun r => r.openTimeMs).Pairwise (· < ·)
      ∧ ∀ x ∈ (keptRows m now days file).map fun r => r.openTimeMs,
        (m.step ∣ x ∧ m.listed x = true) ∧ x ≤ now := by
  have hstretch : ∀ a b, b ≤ now → (m.candles a b).Pairwise (· < ·)
      ∧ ∀ x ∈ m.candles a b, (m.step ∣ x ∧ m.listed x = true) ∧ x ≤ now := by
    intro a b hb
    refine ⟨m.candles_ascending a b, fun x hx => ?_⟩
    obtain ⟨hcandle, -, hxb⟩ := Market.mem_candles_iff.1 hx
    exact ⟨hcandle, hxb.trans hb⟩
  rw [keptRows_openTimeMs]
  by_cases hlate : startOf m.step now days file < now
  · rw [if_pos hlate]
    cases file with
    | none => exact hstretch _ now (le_refl now)
    | some rows =>
        obtain ⟨a, b, last, hb, hspan, hlast, hstart⟩ :=
          (h rows rfl).newest now days
        rw [Option.getD_some, hspan, hstart,
          candles_append (hb.trans ht) hlast]
        exact hstretch a now (le_refl now)
  · rw [if_neg hlate, List.append_nil]
    cases file with
    | none => exact ⟨List.Pairwise.nil, fun x hx => by cases hx⟩
    | some rows =>
        obtain ⟨a, b, hb, hspan⟩ := (h rows rfl).span
        rw [Option.getD_some, hspan]
        exact hstretch a b (hb.trans ht)

/-- A call's window is within reach of its file: no candle of it opens
before the oldest row, none opens at the very moment the fetch would start
from, and there is nothing to cut or the cut is a moment of the calendar. -/
structure Reaches (m : Market K) (now days : Int) (file : File K) :
    Prop where
  head : ∀ rows, file = some rows →
    ∀ x ∈ m.candles (now - days * 86400000) now,
      ∃ r ∈ rows, r.openTimeMs ≤ x
  tail : startOf m.step now days file = now →
    now ∉ m.candles (now - days * 86400000) now
  cutoff : representable (now - days * 86400000) = true
    ∨ file = none ∧ m.candles (now - days * 86400000) now = []

/-- Every candle of the window is kept, where the file reaches. -/
theorem kept_of_reaches {m : Market K} {t now days : Int} {file : File K}
    (h : Sound m t file)
    (hhead : ∀ rows, file = some rows →
      ∀ x ∈ m.candles (now - days * 86400000) now,
        ∃ r ∈ rows, r.openTimeMs ≤ x)
    (htail : startOf m.step now days file = now →
      now ∉ m.candles (now - days * 86400000) now)
    {x : Int} (hx : x ∈ m.candles (now - days * 86400000) now) :
    x ∈ (keptRows m now days file).map fun r => r.openTimeMs := by
  obtain ⟨hcandle, hfrom, hxnow⟩ := Market.mem_candles_iff.1 hx
  rw [keptRows_openTimeMs, List.mem_append]
  cases file with
  | none =>
      right
      by_cases hlate : startOf m.step now days (none : File K) < now
      · rw [if_pos hlate]
        exact hx
      · -- the window would start now, and hold a candle of this moment
        have hstart : startOf m.step now days (none : File K)
            = now - days * 86400000 := rfl
        have hnow : x = now := by omega
        exact absurd (hnow ▸ hx) (htail (by omega))
  | some rows =>
      obtain ⟨a, b, last, -, hspan, hlast, hstart⟩ :=
        (h rows rfl).newest now days
      obtain ⟨hmem, hmax⟩ := List.max?_eq_some_iff.1 hlast
      obtain ⟨⟨hgrid, -⟩, -, hlastb⟩ := Market.mem_candles_iff.1 hmem
      obtain ⟨r, hr, hrx⟩ := hhead rows rfl x hx
      have hra : a ≤ r.openTimeMs := by
        have hropen : r.openTimeMs ∈ rows.map fun r => r.openTimeMs :=
          List.mem_map_of_mem hr
        rw [hspan] at hropen
        exact (Market.mem_candles_iff.1 hropen).2.1
      rw [Option.getD_some, hspan, hstart]
      by_cases hxlast : x ≤ last
      · exact Or.inl (Market.mem_candles_iff.2
          ⟨hcandle, hra.trans hrx, hxlast.trans hlastb⟩)
      · right
        have hnext : last + m.step ≤ x :=
          (Market.lt_iff_step_le hgrid hcandle.1).1 (not_le.1 hxlast)
        by_cases hlate : last + m.step < now
        · rw [if_pos hlate]
          exact Market.mem_candles_iff.2 ⟨hcandle, hnext, hxnow⟩
        · have hnow : x = now := by omega
          exact absurd (hnow ▸ hx) (htail (by omega))

/-- A file with every candle of the window reaches back to it, and a fetch
that has nothing to ask leaves none out. -/
theorem reaches_of_kept {m : Market K} {t now days : Int} {file : File K}
    (h : Sound m t file)
    (hkept : ∀ x ∈ m.candles (now - days * 86400000) now,
      x ∈ (keptRows m now days file).map fun r => r.openTimeMs) :
    (∀ rows, file = some rows →
        ∀ x ∈ m.candles (now - days * 86400000) now,
          ∃ r ∈ rows, r.openTimeMs ≤ x)
      ∧ (startOf m.step now days file = now →
        now ∉ m.candles (now - days * 86400000) now) := by
  constructor
  · intro rows heq
    subst heq
    intro x hx
    obtain ⟨a, b, last, -, hspan, hlast, hstart⟩ :=
      (h rows rfl).newest now days
    have hx' := hkept x hx
    rw [keptRows_openTimeMs, List.mem_append, Option.getD_some] at hx'
    rcases hx' with hold | hfresh
    · obtain ⟨r, hr, hrx⟩ := List.mem_map.1 hold
      exact ⟨r, hr, hrx.le⟩
    · -- what is fetched opens after the newest row
      have hmem : last ∈ rows.map fun r => r.openTimeMs := by
        rw [hspan]
        exact (List.max?_eq_some_iff.1 hlast).1
      obtain ⟨r, hr, hrlast⟩ := List.mem_map.1 hmem
      refine ⟨r, hr, ?_⟩
      split at hfresh
      · rw [hstart] at hfresh
        have hnext := (Market.mem_candles_iff.1 hfresh).2.1
        have hstep := m.step_pos
        omega
      · cases hfresh
  · intro hstart hnow
    have hx' := hkept now hnow
    rw [keptRows_openTimeMs, hstart, if_neg (lt_irrefl now),
      List.append_nil] at hx'
    cases file with
    | none => cases hx'
    | some rows =>
        obtain ⟨a, b, last, -, hspan, hlast, hlaststart⟩ :=
          (h rows rfl).newest now days
        rw [Option.getD_some, hspan] at hx'
        have hle : now ≤ last := (List.max?_eq_some_iff.1 hlast).2 now hx'
        have hstep := m.step_pos
        omega

theorem window_total {rows : List (KlineRow K)} {a : Int}
    (h : rows = [] ∨ representable a = true) :
    window rows a = .ok (rows.filter fun r => a ≤ r.openTimeMs) := by
  unfold window
  split
  · rename_i hempty
    rw [List.isEmpty_iff.1 hempty]
    rfl
  · rename_i hsome
    rcases h with hnil | hrep
    · exact absurd (List.isEmpty_iff.2 hnil) hsome
    · rw [if_pos hrep]

/-- A window of rows that returned had a cutoff to compare with. -/
theorem cutoff_of_window {rows out : List (KlineRow K)} {a : Int}
    (h : window rows a = .ok out) :
    rows = [] ∨ representable a = true := by
  unfold window at h
  split at h
  · rename_i hempty
    exact Or.inl (List.isEmpty_iff.1 hempty)
  · split at h
    · rename_i hrep
      exact Or.inr hrep
    · cases h

theorem map_filter_openTimeMs (a : Int) (rows : List (KlineRow K)) :
    ((rows.filter fun r => a ≤ r.openTimeMs).map fun r => r.openTimeMs)
      = (rows.map fun r => r.openTimeMs).filter fun x => a ≤ x := by
  rw [List.filter_map]
  rfl

/-- A refreshing call returns the candles of its window exactly where its
file reaches. -/
theorem window_covers_iff {m : Market K} {t now : Int} {file : File K}
    (h : Sound m t file) (ht : t ≤ now) (days : Int) :
    (∃ rows, window (keptRows m now days file) (now - days * 86400000)
          = .ok rows
        ∧ (rows.map fun r => r.openTimeMs)
          = m.candles (now - days * 86400000) now)
      ↔ Reaches m now days file := by
  constructor
  · intro h
    obtain ⟨rows, hrows, hopens⟩ := h
    rw [window_eq_ok hrows, map_filter_openTimeMs] at hopens
    have hkept : ∀ x ∈ m.candles (now - days * 86400000) now,
        x ∈ (keptRows m now days file).map fun r => r.openTimeMs := by
      intro x hx
      rw [← hopens] at hx
      exact List.mem_of_mem_filter hx
    obtain ⟨hhead, htail⟩ := reaches_of_kept h hkept
    refine ⟨hhead, htail, ?_⟩
    rcases cutoff_of_window hrows with hnil | hrep
    · -- nothing was kept, so there was no file and no candle
      right
      constructor
      · cases file with
        | none => rfl
        | some old =>
            exact absurd (List.append_eq_nil_iff.1 hnil).1
              (h old rfl).some_row
      · rw [← hopens, hnil]
        rfl
    · exact Or.inl hrep
  · intro hreach
    obtain ⟨hascending, hcandles⟩ := keptRows_candles h ht days
    refine ⟨_, window_total ?_, ?_⟩
    · rcases hreach.cutoff with hrep | ⟨rfl, hnone⟩
      · exact Or.inr hrep
      · left
        have hstart : startOf m.step now days (none : File K)
            = now - days * 86400000 := rfl
        rw [keptRows, freshRows, hstart, hnone]
        simp
    · rw [map_filter_openTimeMs]
      apply List.Pairwise.eq_of_mem_iff (hascending.filter _)
        (m.candles_ascending _ now)
      intro x
      rw [List.mem_filter, decide_eq_true_eq]
      constructor
      · intro h
        obtain ⟨hx, hfrom⟩ := h
        obtain ⟨hcandle, hxnow⟩ := hcandles x hx
        exact Market.mem_candles_iff.2 ⟨hcandle, hfrom, hxnow⟩
      · intro hx
        exact ⟨kept_of_reaches h hreach.head hreach.tail hx,
          (Market.mem_candles_iff.1 hx).2.1⟩

/-- The call returns every exchange candle of its window, and no other
row. -/
def Covers (ex : Exchange K) (c : Call K) (store : Store K) : Prop :=
  ∃ rows, (readKlines c store).1 = .ok rows
    ∧ (rows.map fun r => r.openTimeMs)
      = (ex.market c.key).candles (c.nowMs - c.days * 86400000) c.nowMs

/-- A call is given the whole window exactly when the file reaches back to
it. -/
theorem covers_iff_reaches {ex : Exchange K} {c : Call K} {store : Store K}
    {t step : Int} (hstep : intervalMs.lookup c.interval = some step)
    (hrefresh : c.refresh = true)
    (hanswer : Answers (ex.market c.key) c.nowMs c.key.1 c.interval
      c.getJson)
    (h : Sound (ex.market c.key) t (store c.key)) (ht : t ≤ c.nowMs) :
    Covers ex c store
      ↔ Reaches (ex.market c.key) c.nowMs c.days (store c.key) := by
  obtain rfl := ex.steps c.key step hstep
  rw [← window_covers_iff h ht, Covers, (readKlines_supported hstep store).1,
    hrefresh, readFile_window h ht hanswer]

/-- After any history, a refreshing call that the endpoint answers returns
its whole window exactly where its file reaches; from no file it does for
any window of at least a day that the calendar holds. -/
theorem covers_iff {ex : Exchange K} {calls : List (Call K)} {c : Call K}
    {step : Int} (h : History ex (calls ++ [c]))
    (hstep : intervalMs.lookup c.interval = some step)
    (hrefresh : c.refresh = true)
    (hanswer : Answers (ex.market c.key) c.nowMs c.key.1 c.interval
      c.getJson) :
    (Covers ex c (after calls)
        ↔ Reaches (ex.market c.key) c.nowMs c.days (after calls c.key))
      ∧ (0 < c.days → representable (c.nowMs - c.days * 86400000) = true →
        Covers ex c fun _ => none) := by
  obtain ⟨hinit, hcross⟩ := h.append
  constructor
  · exact covers_iff_reaches hstep hrefresh hanswer
      (sound_after hinit (fun d hd => hcross d hd c List.mem_cons_self) c.key)
      (le_refl c.nowMs)
  · intro hdays hrep
    have hempty : Sound (ex.market c.key) c.nowMs none := by
      intro rows hrows
      cases hrows
    refine (covers_iff_reaches hstep hrefresh hanswer hempty
      (le_refl c.nowMs)).2 ⟨?_, ?_, Or.inl hrep⟩
    · intro rows hrows
      cases hrows
    · intro hstart
      have hfrom : c.nowMs - c.days * 86400000 = c.nowMs := hstart
      omega

-- ======================================================= a longer window

/-- One day is cached, then three are asked for: the two older candles of
the window are not there. -/
theorem older_part_missing :
    History risingExchange [daily 864000000 1, daily 864000000 3]
      ∧ ¬ Covers risingExchange (daily 864000000 3)
        (after [daily 864000000 1]) := by
  constructor
  · exact daily_history [(864000000, 1), (864000000, 3)] (by decide)
  · intro h
    obtain ⟨rows, hrows, hopens⟩ := h
    obtain ⟨rows', hrows', hshort⟩ := exists_of_okAnd
      (x := (readKlines (daily 864000000 3) (after [daily 864000000 1])).1)
      (p := fun rows => decide ((rows.map fun r => r.openTimeMs)
        ≠ (risingExchange.market (daily 0 0).key).candles
          (864000000 - 3 * 86400000) 864000000)) (by decide +kernel)
    obtain rfl : rows = rows' := Except.ok.inj (hrows.symm.trans hrows')
    exact of_decide_eq_true hshort hopens

/-- The shorter window, asked for after the longer one, is whole. -/
theorem covers_iff_daily :
    Covers risingExchange (daily 867600000 1) (after [daily 777600000 3])
      ∧ Reaches (risingExchange.market (daily 0 0).key) 867600000 1
        (after [daily 777600000 3] (daily 0 0).key) := by
  have hcovers : Covers risingExchange (daily 867600000 1)
      (after [daily 777600000 3]) := by
    obtain ⟨rows, hrows, hwhole⟩ := exists_of_okAnd
      (x := (readKlines (daily 867600000 1) (after [daily 777600000 3])).1)
      (p := fun rows => decide ((rows.map fun r => r.openTimeMs)
        = (risingExchange.market (daily 0 0).key).candles
          (867600000 - 1 * 86400000) 867600000)) (by decide +kernel)
    exact ⟨rows, hrows, of_decide_eq_true hwhole⟩
  have hhistory : History risingExchange
      ([daily 777600000 3] ++ [daily 867600000 1]) :=
    daily_history [(777600000, 3), (867600000, 1)] (by decide)
  have hstep : intervalMs.lookup (daily 867600000 1).interval
      = some 86400000 := by decide
  have hiff := (covers_iff hhistory hstep rfl
    (endpoint_answers risingExchange 867600000 _ _)).1
  exact ⟨hcovers, hiff.1 hcovers⟩

end Cache

end Proofstand
